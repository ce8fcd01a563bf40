import MeshCoreTCPMux.Broker.Refinement.Response

/-!
# Refinement: pushes

A push never waits for anybody: it is a hint, a copy for every session, or a result for the owner of
the lease it matches. An owner that cannot take its result leaves, and the result then matches a
lease without an owner.
-/

namespace MeshCoreTCPMux

open Protocol Program Relation

namespace Broker

variable {s t : Broker} {payload : Bytes} {now : Time}

/-! ### A free lease stays free -/

/-- The broker without its remote lease. -/
def freed (s : Broker) : Broker := { s with radio := { s.radio with remote := none } }

theorem freed_leave (id : Nat) : s.freed.leave id = (s.leave id).freed := by
  unfold leave
  cases hlive : s.sessions.find? id with
  | none => simp [freed, hlive]
  | some session =>
    have hlive' : s.freed.sessions.find? id = some session := hlive
    have hdelivering : s.freed.delivering id = s.delivering id := rfl
    simp only [hlive', hdelivering]
    split <;> rfl

theorem freed_leaveAll (ids : List Nat) : ids.foldl leave s.freed = (ids.foldl leave s).freed := by
  induction ids generalizing s with
  | nil => rfl
  | cons id ids ih => rw [List.foldl_cons, freed_leave, ih, List.foldl_cons]

theorem leaveAll_active {ids : List Nat} (h : s.active = none) :
    (ids.foldl leave s).active = none := by
  induction ids generalizing s with
  | nil => exact h
  | cons id ids ih =>
    refine ih ?_
    rcases leave_active id with hsame | ⟨transaction, hactive, -, -⟩
    · rw [hsame, h]
    · simp [h] at hactive

theorem freed_failAll (h : s.active = none) (reason : Text) :
    s.freed.failAll reason = (s.failAll reason).freed := by
  have hkeys : s.freed.sessions.keys = s.sessions.keys := rfl
  have hleft : (s.sessions.keys.foldl leave s).active = none := leaveAll_active h
  unfold failAll
  rw [hkeys, freed_leaveAll]
  simp [fail, freed, hleft]

/-- A lease without an owner survives the end of an epoch. -/
theorem leaveAll_radio {ids : List Nat} (h : RemoteLease.owner s.radio.remote = none) :
    (ids.foldl leave s).radio = s.radio := by
  induction ids generalizing s with
  | nil => rfl
  | cons id ids ih =>
    have hsame : (s.leave id).radio = s.radio := by
      have hlease : RemoteLease.ownerGone s.radio.remote id = s.radio.remote := by
        cases hr : s.radio.remote with
        | none => rfl
        | some r =>
          have howner : r.owner = none := by simpa [RemoteLease.owner, hr] using h
          simp [RemoteLease.ownerGone, howner]
      unfold leave
      split
      · rfl
      · split <;> simp only [drop, release, hlease]
    rw [List.foldl_cons, ih (by rw [hsame]; exact h), hsame]

theorem failAll_radio (hidle : s.active = none) (h : RemoteLease.owner s.radio.remote = none)
    (reason : Text) : (s.failAll reason).radio = s.radio := by
  unfold failAll fail
  rw [leaveAll_active hidle]
  exact leaveAll_radio h

theorem failAll_now (reason : Text) : (s.failAll reason).now = s.now := by
  have hleave : ∀ (u : Broker) id, (u.leave id).now = u.now := by
    intro u id
    unfold leave
    split
    · rfl
    · split <;> rfl
  have hfold : ∀ (ids : List Nat) (u : Broker), (ids.foldl leave u).now = u.now := by
    intro ids
    induction ids with
    | nil => exact fun _ => rfl
    | cons id ids ih => exact fun u => (ih _).trans (hleave u id)
  exact hfold _ s

/-! ### Results -/

/-- An owner that cannot take its result leaves first. -/
theorem undelivered {owner : Nat} {session : Session} {remote : RemoteLease}
    {report : Report} (hreceived : received s.log = some payload)
    (hpush : opcode payload ∈ resultPushes) (hnow : s.now ≤ now)
    (hmatch : RemoteLease.matchPush s.radio.remote payload now = .ok (some owner, remote))
    (hlive : s.sessions.find? owner = some session) (hfull : ¬ s.Room session)
    (ht : { s.freed with report := report }.Removed owner session ["output queue overflow"] t) :
    Steps s (t.record (.matched payload now)) := by
  obtain ⟨-, -, howner, hlost⟩ := RemoteLease.matchPush_ownerGone hmatch
  cases ht with
  | left hother report =>
    have hleft : Steps s (s.drop owner session ["output queue overflow"]) :=
      Steps.move (.output (.drop hlive (.slow hfull) hother))
    have hkept : received (s.drop owner session ["output queue overflow"]).log = some payload :=
      (received_neutral (by simp [Neutral, receive])).trans hreceived
    have hmove : Radio (s.drop owner session ["output queue overflow"]) _ :=
      .unmatched hkept hpush hnow hlost
    exact hleft.trans (Steps.moveReport (.radio hmove) _)
  | ended hdelivering report' =>
    obtain ⟨transaction, hactive, -, hstep, rfl⟩ := delivering_iff.mp hdelivering
    change s.active = some transaction at hactive
    let left : Broker :=
      (s.drop transaction.owner session ["output queue overflow"]).release transaction.owner
    have hended : Steps s (left.failAll maintenanceReason) :=
      Steps.move (.ending (.deserted hactive hstep hlive (.slow hfull)))
    have hradio : (left.failAll maintenanceReason).radio = left.radio := failAll_radio rfl howner _
    have hmatch' : RemoteLease.matchPush (left.failAll maintenanceReason).radio.remote payload now
        = .ok (none, none) := by
      rw [hradio]
      exact hlost
    have hkept : received (left.failAll maintenanceReason).log = some payload :=
      (failAll_received _).trans
        ((received_neutral (by simp [Neutral, receive])).trans hreceived)
    have hmove : Radio (left.failAll maintenanceReason) _ :=
      .unmatched hkept hpush (by rw [failAll_now]; exact hnow) hmatch'
    have hfreed : left.freed.failAll maintenanceReason
        = (left.failAll maintenanceReason).freed := freed_failAll rfl _
    change Steps s ({ { left.freed with report := report }.failAll maintenanceReason with
      report := report' }.record _)
    rw [failAll_report, hfreed]
    exact hended.trans (Steps.moveReport (.radio hmove) _)

/-- **A remote result** goes to the owner of the lease it matches, or to nobody. -/
theorem WF.resultPush (h : s.WF) (hreceived : received s.log = some payload)
    (hpayload : validateResponseShape payload = .ok ()) (hpush : opcode payload ∈ resultPushes) (hnow : s.now ≤ now) :
    Returns (resultPush payload now) s fun _ t => Steps s t := by
  obtain ⟨⟨owner, remote⟩, hmatch⟩ :=
    RemoteLease.exists_matchPush hpayload hpush s.radio.remote now
  unfold Returns MeshCoreTCPMux.resultPush
  simp only [wp_bind, wp_get]
  refine wp_ofExcept hmatch ?_
  simp only [wp_setRemote]
  cases owner with
  | none =>
    have hmove : Radio s _ := .unmatched hreceived hpush hnow hmatch
    simp only [wp_bind]
    refine wp_count _ _ fun report => ?_
    simp only [wp_get]
    rw [wp_ite]
    split
    · simp only [wp_bind, wp_modify]
      refine wp_diagnostic _ _ fun report => ?_
      simp only [wp_perform]
      exact Steps.moveReport (.radio hmove) _
    · simp only [wp_perform]
      exact Steps.moveReport (.radio hmove) _
  | some owner =>
    obtain ⟨rfl, howner, -, hlost⟩ := RemoteLease.matchPush_ownerGone hmatch
    obtain ⟨session, hlive⟩ : ∃ session, s.sessions.find? owner = some session := by
      cases hr : s.radio.remote with
      | none => simp [hr, RemoteLease.owner] at howner
      | some r =>
        exact OrdMap.mem_keys_iff.mp (h.lease.owner r owner hr (by simpa [hr, RemoteLease.owner] using howner))
    simp only [wp_bind, wp_get]
    refine wp_diagnostic _ _ fun report => ?_
    refine wp_diagnostic _ _ fun report => ?_
    have hrunning := h.running_of_live hlive
    have hup : Broker.Up { s.freed with report := report } := ⟨hrunning, h.debt hrunning⟩
    refine wp_of_returns (emit_spec owner payload .leaseResult hup) fun w t ht => ?_
    simp only [wp_perform]
    cases ht with
    | gone hgone =>
      have hnone : s.sessions.find? owner = none := hgone
      simp [hlive] at hnone
    | @sent session' hlive' hroom report' =>
      have hmove : Radio s _ := .matched hreceived hpush hnow hmatch hlive' hroom
      exact Steps.moveReport (.radio hmove) _
    | @dropped session' _ hlive' hfull ht =>
      exact undelivered hreceived hpush hnow hmatch hlive' hfull ht

/-- The self-telemetry test reads the state only. -/
theorem WF.selfTelemetryReply (h : s.WF) (hpayload : validateResponseShape payload = .ok ()) :
    Returns (selfTelemetryReply payload) s fun self t =>
      t = s ∧ (self = true → s.active.isSome = true) := by
  unfold Returns MeshCoreTCPMux.selfTelemetryReply
  simp only [wp_bind, wp_get]
  split
  · exact ⟨rfl, fun h => by cases h⟩
  next transaction hactive =>
  rw [wp_ite]
  split
  swap
  · exact ⟨rfl, fun h => by cases h⟩
  next hself =>
  have hlength : 8 ≤ payload.length := by
    have hvalid := (responseShapeValid_of hpayload).2.2
    unfold responseShapeValid at hvalid
    simpa +decide [hself.1] using hvalid
  have hkey := h.selfKey
  simp only [wp_bind]
  refine wp_ofExcept (sliceAt_of_le (by omega)) ?_
  simp only [wp_get]
  refine wp_ofExcept (sliceAt_of_le (by omega)) ?_
  exact ⟨rfl, fun _ => by simp [hactive]⟩

/-! ### Every push -/

theorem WF.broadcastPush (h : s.WF) (hreceived : received s.log = some payload) (hpush : pushAdvert ≤ opcode payload)
    (hresult : opcode payload ∉ resultPushes) (hwaiting : opcode payload ≠ pushMsgWaiting) :
    Returns (broadcastPush payload now) s fun _ t => Steps s t := by
  have hall : ∀ report, wp (MeshCoreTCPMux.broadcast payload) (fun _ t => Steps s t)
      (fun _ _ => False) { s with report := report } := by
    intro report
    have hwf : WF { s with report := report } := { h with }
    exact wp_of_returns (hwf.broadcast hreceived hpush hresult hwaiting)
      fun _ _ ht => (Steps.report report).trans ht
  unfold Returns MeshCoreTCPMux.broadcastPush
  simp only
  rw [wp_ite]
  split
  · simp only [wp_bind, wp_get]
    refine wp_diagnostic _ _ fun report => ?_
    exact wp_diagnostic _ _ hall
  · simp only [wp_bind]
    refine wp_count _ _ fun report => ?_
    simp only [wp_get]
    rw [wp_ite]
    split
    · simp only [wp_bind, wp_modify]
      exact wp_diagnostic _ _ hall
    · exact hall report

/-- **A push** is a sequence of atomic actions; only one that answers self telemetry can be wrong. -/
theorem WF.push (h : s.WF) (hreceived : received s.log = some payload)
    (hpayload : validateResponseShape payload = .ok ())
    (hpush : pushAdvert ≤ opcode payload) (hnow : s.now ≤ now)
    (hsame : s.active.isSome = true → now = s.now) :
    wp (push payload now) (fun _ t => Steps s t)
      (fun e t => s.Rejects e t ∧ opcode payload ∈ resultPushes) s := by
  unfold MeshCoreTCPMux.push
  simp only
  rw [wp_ite]
  split
  · simp only [wp_bind, wp_get]
    refine wp_diagnostic _ _ fun report => ?_
    have hwf : WF { s with report := report } := { h with }
    exact wp_of_returns hwf.recordAvailabilityHint fun _ _ ht => (Steps.report report).trans ht
  next hwaiting =>
  rw [wp_ite]
  split
  · next hconfirmed =>
    obtain ⟨settled, ring, hconfirm⟩ :
        ∃ settled ring, s.radio.dmRing.confirm payload = .ok (settled, ring) :=
      DmRing.exists_confirm ((length_of_shape hpayload).2.2.2.2 hconfirmed) hconfirmed
    have hmove : Radio s _ := .confirmed hreceived hconfirm
    have hresult : opcode payload ∉ resultPushes := by rw [hconfirmed]; decide
    simp only [wp_bind, wp_get]
    refine wp_ofExcept hconfirm ?_
    simp only [wp_modify, wp_perform]
    refine wp_diagnostic _ _ fun report => ?_
    refine wp_diagnostic _ _ fun report => ?_
    have hstep := Steps.moveReport (.radio hmove) report
    have hkept : received (s.log ++ [.confirmed payload]) = some payload :=
      (received_neutral (by simp [Neutral, receive])).trans hreceived
    exact wp_of_returns ((h.steps hstep).broadcast hkept hpush hresult hwaiting)
      fun _ _ ht => hstep.trans ht
  rw [wp_ite]
  split
  · next hresult =>
    simp only [wp_bind]
    refine wp_of_returns (h.selfTelemetryReply hpayload) ?_
    rintro self _ ⟨rfl, hself⟩
    rw [wp_ite]
    split
    · next hyes =>
      rw [hsame (hself hyes)]
      exact wp_mono (h.transactionResponse hreceived hpayload) (fun _ _ ht => ht)
        fun _ _ ht => ⟨ht, hresult⟩
    · exact wp_of_returns (h.resultPush hreceived hpayload hresult hnow) fun _ _ ht => ht
  · next hresult =>
    exact wp_of_returns (h.broadcastPush hreceived hpush hresult hwaiting) fun _ _ ht => ht

end Broker

end MeshCoreTCPMux

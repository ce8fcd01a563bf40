import MeshCoreTCPMux.Broker.Refinement.Schedule

/-!
# Refinement: replies and pushes

A reply is one atomic action, which starts where the reply found the broker or, when the owner's
output queue is full, right after the owner has left. Whatever is wrong with a reply raises a
protocol error, and nothing else does.
-/

namespace MeshCoreTCPMux

open Protocol Program Relation

namespace Broker

variable {s t u : Broker} {transaction : Transaction} {payload : Bytes}

/-- A protocol error, raised before anything was taken or sent. -/
def Rejects (s : Broker) (e : Error) (t : Broker) : Prop :=
  (∃ message, e = .protocol message) ∧ Steps s t ∧ t.log = s.log

/-- Runs to a state that atomic actions reach, or raises a protocol error. -/
def Reaches {α : Type} (m : BrokerM α) (s : Broker) : Prop :=
  wp m (fun _ t => Steps s t) s.Rejects s

theorem Reaches.after {α : Type} {m : BrokerM α} (h : Reaches m t) (hst : Steps s t)
    (hlog : t.log = s.log) : wp m (fun _ u => Steps s u) s.Rejects t :=
  wp_mono h (fun _ _ htu => hst.trans htu)
    fun _ _ ⟨he, htu, hsame⟩ => ⟨he, hst.trans htu, hsame.trans hlog⟩

theorem Reaches.of_returns {α : Type} {m : BrokerM α} (h : Returns m s fun _ t => Steps s t) :
    Reaches m s :=
  wp_of_returns h fun _ _ ht => ht

/-! ### Forwarding -/

section Rules

variable {Q : Unit → Broker → Prop} {E : Error → Broker → Prop}

theorem wp_logResponse {now : Time} (h : ∀ report, Q () { s with report := report }) :
    wp (logResponse transaction payload now) Q E s := by
  unfold logResponse
  simp only [wp_bind, wp_get]
  exact wp_diagnostic _ _ fun report => wp_diagnostic _ _ fun report => h report

end Rules

theorem exists_visibleReply (hshape : validateResponseShape payload = .ok ()) :
    ∃ visible, visibleReply payload = .ok visible := by
  unfold visibleReply
  split
  · next hop => exact exists_downstreamDeviceInfo hshape hop
  · exact ⟨payload, rfl⟩

theorem find?_retarget {id : Nat} {session : Session} (transaction : Transaction) (payload : Bytes)
    (hlive : s.sessions.find? id = some session) :
    ∃ version, (s.retarget transaction payload).sessions.find? id
      = some { session with targetVersion := version } := by
  unfold retarget
  split
  · by_cases h : id = transaction.owner
    · subst h
      exact ⟨transaction.command.getD 1 0, by simp [hlive]⟩
    · exact ⟨session.targetVersion, by rw [OrdMap.find?_modify_of_ne _ _ h, hlive]⟩
  · exact ⟨session.targetVersion, hlive⟩

/-- A `DEVICE_QUERY` names the version that the client wants. -/
theorem query_version (h : transaction.Shape)
    (hop : opcode transaction.command = cmdDeviceQuery) :
    byteAt transaction.command 1 = .ok (transaction.command.getD 1 0) := by
  refine byteAt_of_lt ?_
  have hshape := h.command
  unfold commandShapeValid at hshape
  simp +decide [hop] at hshape
  omega

theorem forwardReply_congr {transaction' : Transaction}
    (howner : transaction'.owner = transaction.owner)
    (hcommand : transaction'.command = transaction.command) :
    forwardReply transaction' payload = forwardReply transaction payload := by
  unfold forwardReply
  rw [howner, hcommand]

/-- The state that a reply found, without its owner if the owner could not take it. -/
structure Found (s : Broker) (transaction : Transaction) (s₁ : Broker) : Prop where
  steps : Steps s s₁
  active : s₁.active = some transaction
  received : received s₁.log = received s.log
  now : s₁.now = s.now

/-- A reply has been forwarded while `active` was the active transaction. -/
def Delivers (s : Broker) (transaction : Transaction) (payload : Bytes) (active : Transaction)
    (w : Option Nat) (t : Broker) : Prop :=
  ∃ s₁ t₁ report, Found s transaction s₁ ∧ s₁.Forwarded transaction payload w t₁ ∧
    t = { t₁ with active := some active, report := report }

/-- The owner leaves instead of taking the reply. -/
theorem Removed.delivers {session : Session} {active : Transaction}
    (report : Report) (hactive : s.active = some transaction)
    (hwaiting : transaction.step ≠ .maintenanceResult)
    (hstep : active.step ≠ .maintenanceResult) (howner : active.owner = transaction.owner)
    (hlive : s.sessions.find? transaction.owner = some session) (hfull : ¬ s.Room session)
    (ht : { s with active := some active, report := report }.Removed transaction.owner session
      ["output queue overflow"] t) : s.Delivers transaction payload active none t := by
  have hnot : Broker.delivering { s with active := some active, report := report }
      transaction.owner = false := by
    simp [delivering, hstep]
  obtain ⟨report', rfl⟩ := ht.eq_drop hnot
  have hother : s.delivering transaction.owner = false := by simp [delivering, hactive, hwaiting]
  refine ⟨s.drop transaction.owner session _, _, report',
    ⟨Steps.move (.output (.drop hlive (.slow hfull) hother)), hactive, received_neutral (by simp [Neutral, receive]),
      rfl⟩, .gone (by simp [drop]), ?_⟩
  have howned : s.activeOwner = some transaction.owner := by simp [activeOwner, hactive]
  have howned' : Broker.activeOwner { s with active := some active, report := report }
      = some transaction.owner := by simp [activeOwner, howner]
  simp only [drop, howned, howned', if_true]
  rfl

theorem WF.forwardReply (h : s.WF) (hactive : s.active = some transaction)
    (hpayload : validateResponseShape payload = .ok ())
    (hwaiting : transaction.step ≠ .maintenanceResult) (active : Transaction)
    (hstep : active.step ≠ .maintenanceResult) (howner : active.owner = transaction.owner)
    (report : Report) :
    Returns (forwardReply transaction payload)
      { s with active := some active, report := report } fun w t =>
        s.Delivers transaction payload active w t := by
  have hrunning := h.running hactive
  obtain ⟨visible, hvisible⟩ := exists_visibleReply hpayload
  have hhere : Found s transaction s := ⟨.refl, hactive, rfl, rfl⟩
  unfold Returns MeshCoreTCPMux.forwardReply
  simp only [wp_bind, wp_get]
  rw [wp_ite]
  split
  swap
  · next hgone =>
    refine ⟨s, s, report, hhere, .gone ?_, rfl⟩
    simpa [OrdMap.contains] using hgone
  next hcontains =>
  obtain ⟨session, hlive⟩ := OrdMap.mem_keys_iff.mp (OrdMap.contains_iff.mp hcontains)
  have hemit : ∀ report, Returns (MeshCoreTCPMux.emit transaction.owner visible .reply)
      { s.retarget transaction payload with active := some active, report := report }
      fun w t => s.Delivers transaction payload active w t := by
    intro report
    obtain ⟨version, hlive'⟩ := find?_retarget transaction payload hlive
    have hframe : Broker.Up { s.retarget transaction payload with
        active := some active, report := report } := by
      unfold Broker.retarget
      split <;> exact ⟨hrunning, h.debt hrunning⟩
    refine (emit_spec _ _ _ hframe).mono fun w t ht => ?_
    cases ht with
    | gone hgone => simp [hlive'] at hgone
    | @sent session' hlive'' hroom report =>
      obtain rfl := Option.some.inj (hlive'.symm.trans hlive'')
      have hroom' : s.Room session := by
        unfold Broker.retarget at hroom
        split at hroom <;> exact hroom
      have hnext : (s.retarget transaction payload).nextWrite = s.nextWrite := by
        unfold Broker.retarget
        split <;> rfl
      have hlive₁ := Forwarded.live hlive hroom' hvisible
      rw [← hnext] at hlive₁
      exact ⟨s, _, report, hhere, hlive₁, rfl⟩
    | @dropped session' _ hlive'' hfull ht =>
      obtain rfl := Option.some.inj (hlive'.symm.trans hlive'')
      have hfull' : ¬ s.Room session := by
        unfold Broker.retarget at hfull
        split at hfull <;> exact hfull
      refine Removed.delivers report hactive hwaiting hstep howner hlive hfull' (ht.of_drop_eq ?_ ?_)
      · intro report'
        unfold Broker.retarget
        split
        · simp only [Broker.drop, OrdMap.erase_modify]
          rfl
        · rfl
      · unfold Broker.retarget
        split <;> rfl
  unfold Broker.retarget at hemit
  rw [wp_ite]
  split
  · next hquery =>
    rw [if_pos hquery] at hemit
    simp only [wp_bind]
    refine wp_ofExcept (query_version (h.active transaction hactive).shape hquery.1) ?_
    simp only [wp_modifySession]
    exact wp_ofExcept hvisible (hemit report)
  · next hquery =>
    rw [if_neg hquery] at hemit
    simp only [wp_bind]
    exact wp_ofExcept hvisible (hemit report)

/-! ### Acceptance -/

theorem wp_recordAcceptance {Q : Unit → Broker → Prop} {E : Error → Broker → Prop} {now : Time}
    {radio : CompanionRadioState} {signing : SigningLease}
    (haccept : acceptance transaction payload now s.radio s.signing = .ok (radio, signing))
    (h : ∀ report, Q () { s with radio := radio, signing := signing, report := report }) :
    wp (recordAcceptance transaction payload now) Q E s := by
  unfold acceptance at haccept
  unfold recordAcceptance
  simp only
  rw [wp_ite]
  split
  · next hdm =>
    rw [if_pos hdm] at haccept
    simp only [Except.bind_eq_ok, Except.pure_eq_ok, Prod.mk.injEq] at haccept
    obtain ⟨ring, hring, rfl, rfl⟩ := haccept
    simp only [wp_bind, wp_get]
    exact wp_ofExcept hring (h s.report)
  next hdm =>
  rw [if_neg hdm] at haccept
  rw [wp_ite]
  split
  · next hlease =>
    rw [if_pos hlease] at haccept
    rw [wp_ite]
    split
    · next hsent =>
      rw [if_pos hsent] at haccept
      simp only [Except.bind_eq_ok, Except.pure_eq_ok, Prod.mk.injEq] at haccept
      obtain ⟨remote, hremote, rfl, rfl⟩ := haccept
      simp only [wp_bind, wp_get, wp_setRemote]
      refine wp_ofExcept hremote ?_
      obtain ⟨r, -, -, rfl⟩ := RemoteLease.accepted_eq hremote
      simp only [RemoteLease.kind, Option.map_some, wp_bind, wp_get]
      exact wp_diagnostic _ _ fun report => h report
    · next hsent =>
      rw [if_neg hsent] at haccept
      simp only [Except.pure_eq_ok, Prod.mk.injEq] at haccept
      obtain ⟨rfl, rfl⟩ := haccept
      simp only [wp_bind, wp_get, wp_setRemote]
      exact wp_diagnostic _ _ fun report => h report
  next hlease =>
  rw [if_neg hlease] at haccept
  rw [wp_ite]
  split
  · next hstart =>
    rw [if_pos hstart] at haccept
    rw [wp_ite]
    split
    · next hop =>
      rw [if_pos hop] at haccept
      simp only [Except.bind_eq_ok, Except.pure_eq_ok, Prod.mk.injEq] at haccept
      obtain ⟨lease, hok, rfl, rfl⟩ := haccept
      simp only [wp_bind, wp_get]
      exact wp_ofExcept hok (h s.report)
    · next hop =>
      rw [if_neg hop] at haccept
      simp only [Except.pure_eq_ok, Prod.mk.injEq] at haccept
      obtain ⟨rfl, rfl⟩ := haccept
      exact h s.report
  next hstart =>
  rw [if_neg hstart] at haccept
  rw [wp_ite]
  split
  · next hdata =>
    rw [if_pos hdata] at haccept
    simp only [Except.bind_eq_ok, Except.pure_eq_ok, Prod.mk.injEq] at haccept
    obtain ⟨lease, hok, rfl, rfl⟩ := haccept
    simp only [wp_bind, wp_get]
    exact wp_ofExcept hok (h s.report)
  next hdata =>
  rw [if_neg hdata] at haccept
  rw [wp_ite]
  split
  · next hfinish =>
    rw [if_pos hfinish] at haccept
    simp only [Except.bind_eq_ok, Except.pure_eq_ok, Prod.mk.injEq] at haccept
    obtain ⟨lease, hok, rfl, rfl⟩ := haccept
    simp only [wp_bind, wp_get]
    exact wp_ofExcept hok (h s.report)
  next hfinish =>
  rw [if_neg hfinish] at haccept
  simp only [Except.pure_eq_ok, Prod.mk.injEq] at haccept
  obtain ⟨rfl, rfl⟩ := haccept
  exact h s.report

/-- A valid reply is `ERR`, or has a code that its command admits and that code's size. -/
theorem reply_cases {phase : Nat} {disposition : ResponseDisposition}
    (hvalid : validateResponse transaction.descriptor payload transaction.command phase
      = .ok disposition) :
    (opcode payload = respErr ∧ payload.length = 2) ∨
      opcode payload ∈ transaction.descriptor.successCodes := by
  by_cases herr : opcode payload = respErr
  · exact Or.inl ⟨herr, (validateResponse_err hvalid herr).1⟩
  · exact Or.inr (validateResponse_eq_ok hvalid herr).1

/-- The leases hold what the transaction reserved, so that its reply settles them. -/
theorem exists_acceptance {radio : CompanionRadioState} {signing : SigningLease}
    {now : Time} {phase : Nat} {disposition : ResponseDisposition}
    (hrun : Running radio signing now transaction) (hstep : transaction.step = .command)
    (hpayload : validateResponseShape payload = .ok ())
    (hvalid : validateResponse transaction.descriptor payload transaction.command phase
      = .ok disposition) :
    ∃ radio' signing', acceptance transaction payload now radio signing = .ok (radio', signing') := by
  have hunanswered : transaction.step.unanswered = true := by simp [hstep, Transaction.Step.unanswered]
  obtain ⟨hok, hsent, hstart, hsignature, -⟩ := length_of_shape hpayload
  have hcases := reply_cases hvalid
  obtain ⟨hmem, hcode⟩ := mem_descriptors hrun.shape.descriptor
  unfold acceptance
  split
  · next hdm =>
    obtain ⟨ring, hring⟩ :=
      DmRing.exists_accepted (hsent hdm.2) hdm.2 (hrun.ring hdm.1 hunanswered)
    exact ⟨_, _, by rw [hring]; rfl⟩
  split
  · next hlease =>
    split
    · next hop =>
      have htentative := hrun.lease hlease hunanswered
      cases hremote : radio.remote with
      | none => simp [hremote, RemoteLease.tentative] at htentative
      | some r =>
        have hr : r.tentative = true := by simpa [hremote, RemoteLease.tentative] using htentative
        obtain ⟨r', hr'⟩ : ∃ r', RemoteLease.accepted (some r) payload now = .ok (some r') :=
          RemoteLease.exists_accepted hr (hsent hop) hop
        exact ⟨_, _, by rw [hr']; rfl⟩
    · exact ⟨_, _, rfl⟩
  have hsigns := hrun.signs hunanswered
  split
  · next hop =>
    split
    · next hcode =>
      obtain ⟨op, hoperation, -, htentative⟩ := hsigns.start hop
      obtain ⟨lease, hlease⟩ : ∃ lease, signing.acceptedStart payload now = .ok lease :=
        SigningLease.exists_acceptedStart hoperation htentative (hstart hcode) hcode
      exact ⟨_, _, by rw [hlease]; rfl⟩
    · exact ⟨_, _, rfl⟩
  split
  · next hop =>
    obtain ⟨op, bytes, hoperation, -, hpending⟩ := hsigns.data hop
    have hreply : (payload.length = 1 ∧ opcode payload = respOk) ∨
        (payload.length = 2 ∧ opcode payload = respErr) := by
      have table : ∀ d ∈ remoteTelemetry :: descriptors, d.opcode = cmdSignData →
          d.successCodes = [respOk] := by decide
      rcases hcases with ⟨herr, hlength⟩ | hsuccess
      · exact Or.inr ⟨hlength, herr⟩
      · rw [table _ hmem (hcode.trans hop), List.mem_singleton] at hsuccess
        exact Or.inl ⟨hok hsuccess, hsuccess⟩
    obtain ⟨lease, hlease⟩ : ∃ lease, signing.dataResponse payload now = .ok lease :=
      SigningLease.exists_dataResponse hoperation hpending hreply
    exact ⟨_, _, by rw [hlease]; rfl⟩
  split
  · next hop =>
    obtain ⟨op, hoperation, -, hpending⟩ := hsigns.finish hop
    have hreply : (payload.length = 65 ∧ opcode payload = respSignature) ∨
        (payload.length = 2 ∧ opcode payload = respErr) := by
      have table : ∀ d ∈ remoteTelemetry :: descriptors, d.opcode = cmdSignFinish →
          d.successCodes = [respSignature] := by decide
      rcases hcases with ⟨herr, hlength⟩ | hsuccess
      · exact Or.inr ⟨hlength, herr⟩
      · rw [table _ hmem (hcode.trans hop), List.mem_singleton] at hsuccess
        exact Or.inl ⟨hsignature hsuccess, hsuccess⟩
    obtain ⟨lease, hlease⟩ : ∃ lease, signing.finishResponse payload now = .ok lease :=
      SigningLease.exists_finishResponse hoperation hpending hreply
    exact ⟨_, _, by rw [hlease]; rfl⟩
  · exact ⟨_, _, rfl⟩

/-! ### The reply of a command -/

theorem contactsStep_raises {e : Error} (h : contactsStep transaction payload = .error e) :
    ∃ message, e = .protocol message := by
  unfold contactsStep at h
  repeat' split at h
  all_goals first | exact ⟨_, (Except.error.inj h).symm⟩ | cases h

/-- `ofExcept` of a computation that raises only protocol errors. -/
theorem wp_ofExcept_protocol {α : Type} {Q : α → Broker → Prop} {x : Except Error α}
    (hraises : ∀ e, x = .error e → ∃ message, e = .protocol message)
    (hsteps : Steps s t) (hlog : t.log = s.log) (hok : ∀ a, x = .ok a → Q a t) :
    wp (ofExcept x) Q s.Rejects t := by
  cases x with
  | ok a => exact hok a rfl
  | error e => exact ⟨hraises e rfl, hsteps, hlog⟩

theorem WF.commandResponse (h : s.WF) {disposition : ResponseDisposition}
    (hactive : s.active = some transaction) (hstep : transaction.step = .command)
    (hwritten : transaction.upstreamWriteId = none) (hclient : transaction.owner ≠ 0)
    (hreceived : received s.log = some payload)
    (hpayload : validateResponseShape payload = .ok ())
    (hvalid : validateResponse transaction.descriptor payload transaction.command transaction.phase
      = .ok disposition) (report : Report) :
    wp (commandResponse { transaction with responseFrames := transaction.responseFrames + 1 }
        disposition payload s.now)
      (fun _ t => Steps s t) s.Rejects
      { s with
        active := some { transaction with responseFrames := transaction.responseFrames + 1 }
        report := report } := by
  have htouched : Steps s { s with
      active := some { transaction with responseFrames := transaction.responseFrames + 1 }
      report := report } :=
    Steps.moveReport (.idle (.touched transaction.progress _ hactive)) report
  unfold MeshCoreTCPMux.commandResponse
  simp only [wp_bind]
  refine wp_ofExcept_protocol (fun e he => contactsStep_raises he) htouched rfl
    fun started hstarted => ?_
  have hcontacts : contactsStep transaction payload = .ok started := hstarted
  simp only [wp_modifyActive, Option.map_some]
  rw [show MeshCoreTCPMux.forwardReply
      { transaction with responseFrames := transaction.responseFrames + 1 } payload
      = MeshCoreTCPMux.forwardReply transaction payload from forwardReply_congr rfl rfl]
  have hforward := h.forwardReply hactive hpayload (by simp [hstep])
    { transaction with
      contactsStarted := started
      responseFrames := transaction.responseFrames + 1 } (by simp [hstep]) rfl report
  refine wp_of_returns hforward fun w t hresult => ?_
  obtain ⟨s₁, t₁, report, hfound, hforwarded, rfl⟩ := hresult
  have hwf₁ := h.steps hfound.steps
  have hreplied : s₁.Replied transaction payload disposition started :=
    ⟨hfound.active, hfound.received.trans hreceived, hstep, hwritten, hclient, hpayload, hvalid,
      hcontacts⟩
  have hfinal : ∀ t, Steps s₁ t → Steps s t := fun t => hfound.steps.trans
  simp only [wp_perform, ← hfound.now]
  cases disposition with
  | progress =>
    simp only [reduceCtorEq, if_false, wp_pure]
    exact hfinal _ (Steps.active (.progressed hreplied hforwarded) rfl _)
  | complete =>
    obtain ⟨radio, signing, haccept⟩ :=
      exists_acceptance (hwf₁.active transaction hfound.active) hstep hpayload hvalid
    obtain ⟨hfailed, -, hnow, hradio, hsigning, -⟩ := hforwarded.frame
    have haccept' := haccept
    rw [← hradio, ← hsigning] at haccept'
    simp only [if_true, wp_bind]
    refine wp_recordAcceptance haccept' fun report => ?_
    rw [wp_ite]
    split
    · next hscoped =>
      simp only [sendUpstream, wp_bind, wp_modifyActive, wp_get, wp_modify, wp_perform]
      refine wp_count _ _ fun report => ?_
      simp only [wp_pure]
      refine hfinal _ ?_
      have hmove := Upstream.scopedReply hreplied hforwarded haccept hscoped
      rw [← hnow] at hmove ⊢
      exact Steps.active hmove rfl _
    next hscoped =>
    rw [Bool.not_eq_true] at hscoped
    rw [wp_ite]
    split
    · next hheld =>
      obtain ⟨hmaintenance, hsent⟩ := hheld
      obtain ⟨w, rfl⟩ := Option.isSome_iff_exists.mp hsent
      simp only [wp_modifyActive]
      exact hfinal _
        (Steps.active (.heldReply hreplied hforwarded haccept hscoped hmaintenance) rfl _)
    next hunheld =>
    have hnone : transaction.maintenance = true → w = none := by
      intro hm
      by_contra hw
      exact hunheld ⟨hm, Option.isSome_iff_ne_none.mpr hw⟩
    have hmove := Upstream.finalReply hreplied hforwarded haccept hscoped hnone
    have hrunning := hfailed.trans (hwf₁.running hfound.active)
    have hmaintained : s₁.underMaintenance = transaction.maintenance := by
      simp [underMaintenance, hfound.active]
    refine wp_finishTransaction ⟨hrunning, (hwf₁.forwarded hforwarded).debt hrunning⟩
      (fun hquiet => hfinal _ (Steps.ordinary hmove (hmaintained.trans hquiet) _))
      fun hdisruptive report' => hfinal _ ?_
    have hend := Steps.moveReport
      (.ending (.undelivered hmove (hmaintained.trans hdisruptive) rfl)) report'
    rw [← failAll_report report] at hend
    exact hend

/-! ### The replies of hidden scope frames -/

/-- A disruptive command is never wrapped. -/
theorem not_maintenance_of_scoped {radio : CompanionRadioState} {signing : SigningLease}
    {now : Time} (h : Running radio signing now transaction)
    (hstep : transaction.step = .setup ∨ transaction.step = .restore) :
    transaction.maintenance = false := by
  by_contra hm
  rw [Bool.not_eq_false, h.maintenance] at hm
  have hscope := ((flags_disjoint h.shape.descriptor).1 hm).1
  simp [h.flagged (h.wrapped hstep)] at hscope

/-- The radio state without the reservation of a command that was not sent. -/
abbrev rejectedRadio (s : Broker) (transaction : Transaction) : CompanionRadioState :=
  if transaction.descriptor.flags.remoteLease then { s.radio with remote := none } else s.radio

/-- The owner of a rejected setup gets the `ERR`, or has left. -/
theorem WF.forwardError (h : s.WF) (hactive : s.active = some transaction)
    (hstep : transaction.step = .setup) (herr : opcode payload = respErr) (progress : Time)
    (report : Report) :
    Returns (MeshCoreTCPMux.emit transaction.owner payload .reply)
      { s with
        active := some { transaction with progress := progress }
        radio := s.rejectedRadio transaction
        report := report } fun w t => ∃ s₁ t₁ report, Found s transaction s₁ ∧
      s₁.Forwarded transaction payload w t₁ ∧ t = { t₁ with
        active := some { transaction with progress := progress }
        radio := s₁.rejectedRadio transaction
        report := report } := by
  have hhere : Found s transaction s := ⟨.refl, hactive, rfl, rfl⟩
  have hrunning := h.running hactive
  have hup : Broker.Up { s with
      active := some { transaction with progress := progress }
      radio := s.rejectedRadio transaction
      report := report } := ⟨hrunning, h.debt hrunning⟩
  refine (emit_spec _ _ _ hup).mono fun w t ht => ?_
  cases ht with
  | gone hgone report => exact ⟨s, s, report, hhere, .gone hgone, rfl⟩
  | @sent session hlive hroom report =>
    have hne : respErr ≠ respDeviceInfo := by decide
    have hvisible : visibleReply payload = .ok payload := if_neg (by rw [herr]; exact hne)
    have hsame : s.retarget transaction payload = s := if_neg (by rw [herr]; simp [hne])
    have hforwarded := Forwarded.live (s := s) hlive hroom hvisible
    rw [hsame] at hforwarded
    exact ⟨s, _, report, hhere, hforwarded, rfl⟩
  | @dropped session _ hlive hfull ht =>
    have hother : s.delivering transaction.owner = false := by simp [delivering, hactive, hstep]
    have hnot : Broker.delivering { s with
        active := some { transaction with progress := progress }
        radio := s.rejectedRadio transaction
        report := report } transaction.owner = false := by
      simp [delivering, hstep]
    obtain ⟨report', rfl⟩ := ht.eq_drop hnot
    refine ⟨s.drop transaction.owner session ["output queue overflow"], _, report',
      ⟨Steps.move (.output (.drop hlive (.slow hfull) hother)), hactive, received_neutral (by simp [Neutral, receive]),
        rfl⟩, .gone (by simp [Broker.drop]), ?_⟩
    have howned : s.activeOwner = some transaction.owner := by simp [activeOwner, hactive]
    have howned' : Broker.activeOwner { s with
        active := some { transaction with progress := progress }
        radio := s.rejectedRadio transaction
        report := report } = some transaction.owner := by simp [activeOwner]
    simp only [Broker.drop, howned, howned', if_true, rejectedRadio]
    split <;> rfl

/-- A scope reply that is not `ERR` is `OK`. -/
theorem eq_ok_of_scopeReply (hreply : scopeReply payload = true) (herr : opcode payload ≠ respErr) :
    payload = [respOk] := by
  simp only [scopeReply, decide_eq_true_eq] at hreply
  exact hreply.resolve_right fun h => herr h.2

theorem exists_forwarded_of_shape (h : transaction.Shape) :
    ∃ frame, forwarded transaction.command = .ok frame := by
  refine exists_forwarded ?_ (by simp [h.descriptor])
  simp [validateCommand, h.descriptor, h.command]

theorem WF.scopeResponse (h : s.WF) (hactive : s.active = some transaction)
    (hreceived : received s.log = some payload)
    (hstep : transaction.step = .setup ∨ transaction.step = .restore)
    (hwritten : transaction.upstreamWriteId = none) :
    Reaches (scopeResponse transaction payload s.now) s := by
  have hrun := h.active transaction hactive
  have hmaintenance := not_maintenance_of_scoped hrun hstep
  have hrunning := h.running hactive
  unfold Reaches MeshCoreTCPMux.scopeResponse
  simp only
  rw [wp_ite]
  split
  · simp only [wp_bind, wp_throw]
    exact ⟨⟨_, rfl⟩, .refl, rfl⟩
  next hreply =>
  rw [not_not] at hreply
  simp only [wp_bind]
  refine wp_logResponse fun report => ?_
  simp only [wp_modifyActive, hactive, Option.map_some]
  rw [wp_ite]
  split
  · next hsetup =>
    rw [wp_ite]
    split
    · next herr =>
      have hend : ∀ w t, (∃ s₁ t₁ report, Found s transaction s₁ ∧
          s₁.Forwarded transaction payload w t₁ ∧ t = { t₁ with
            active := some { transaction with progress := s.now }
            radio := s₁.rejectedRadio transaction
            report := report }) →
          wp (finishTransaction transaction) (fun _ t => Steps s t)
            s.Rejects
            (t.record (.replied payload s.now)) := by
        rintro w _ ⟨s₁, t₁, report, hfound, hforwarded, rfl⟩
        have hwf₁ := h.steps hfound.steps
        have hmove := Upstream.setupRejected hfound.active (hfound.received.trans hreceived) hsetup
          hwritten hreply herr hforwarded
        have hup : Up t₁ := (hwf₁.forwarded hforwarded).up
          (hforwarded.frame.1.trans (hwf₁.running hfound.active))
        refine wp_finishTransaction ⟨hup.running, hup.settled⟩ (fun _ => ?_) fun hm => ?_
        · rw [hfound.now] at hmove
          exact hfound.steps.trans
            (Steps.ordinary hmove (by simp [underMaintenance, hfound.active, hmaintenance]) _)
        · simp [hmaintenance] at hm
      rw [wp_ite]
      split
      · next hlease =>
        simp only [wp_bind, wp_get, wp_setRemote]
        have hemit := h.forwardError hactive hsetup herr s.now report
        rw [rejectedRadio, if_pos hlease] at hemit
        exact wp_of_returns hemit hend
      · next hlease =>
        have hemit := h.forwardError hactive hsetup herr s.now report
        rw [rejectedRadio, if_neg hlease] at hemit
        simp only [wp_bind]
        exact wp_of_returns hemit hend
    · next herr =>
      obtain rfl := eq_ok_of_scopeReply hreply herr
      obtain ⟨frame, hframe⟩ := exists_forwarded_of_shape hrun.shape
      simp only [wp_bind, wp_perform, sendCommand, wp_modifyActive]
      refine wp_ofExcept hframe ?_
      simp only [sendUpstream, wp_bind, wp_get, wp_modify, wp_perform]
      refine wp_count _ _ fun report => ?_
      exact Steps.active (.setupAccepted hactive hreceived hsetup hwritten hframe) rfl _
  · next hsetup =>
    have hrestore := hstep.resolve_left hsetup
    have htouched : ∀ report, Steps s { s with
        active := some { transaction with progress := s.now }, report := report } := fun report =>
      Steps.moveReport (.idle (.touched s.now transaction.responseFrames hactive)) report
    rw [wp_ite]
    split
    · simp only [wp_bind, wp_throw]
      exact ⟨⟨_, rfl⟩, htouched report, rfl⟩
    next hok =>
    obtain rfl := eq_ok_of_scopeReply hreply fun herr => hok (by rw [herr]; decide)
    simp only [wp_bind, wp_perform]
    refine wp_finishTransaction ⟨hrunning, h.debt hrunning⟩ (fun _ => ?_) fun hm => ?_
    · exact Steps.ordinary (.restored hactive hreceived hrestore hwritten)
        (by simp [underMaintenance, hactive, hmaintenance]) _
    · simp [hmaintenance] at hm

/-! ### The reply of a transaction -/

/-- The reply grammar of the inbox consumer's pop. -/
theorem pop_descriptor (h : transaction.Shape) (howner : transaction.owner = 0) :
    transaction.descriptor.grammar ≠ .contacts ∧ ∀ code ∈ transaction.descriptor.successCodes,
      code = respNoMoreMessages ∨ code ∈ inboxItemCodes := by
  have hdescriptor := h.descriptor
  rw [h.pop howner] at hdescriptor
  have table : (Protocol.descriptor [cmdSyncNextMessage]).all (fun found =>
      found.grammar ≠ .contacts ∧ found.successCodes.all fun code =>
        code = respNoMoreMessages ∨ code ∈ inboxItemCodes) = true := by decide
  simpa [hdescriptor] using table

/-- The inbox consumer's pop is answered by an item or by the end of the inbox. -/
theorem pop_valid {phase : Nat} {disposition : ResponseDisposition} (h : transaction.Shape)
    (howner : transaction.owner = 0)
    (hvalid : validateResponse transaction.descriptor payload transaction.command phase
      = .ok disposition) (herr : opcode payload ≠ respErr) :
    disposition = .complete ∧
      (opcode payload = respNoMoreMessages ∨ opcode payload ∈ inboxItemCodes) := by
  obtain ⟨hgrammar, hcodes⟩ := pop_descriptor h howner
  obtain ⟨hmem, -, -, hprogress⟩ := validateResponse_eq_ok hvalid herr
  refine ⟨?_, hcodes _ hmem⟩
  cases disposition with
  | complete => rfl
  | progress => exact absurd (hprogress.mp rfl).1 hgrammar

theorem HandsOut.of_report (report : Report)
    (h : HandsOut transaction payload { s with report := report } t) :
    HandsOut transaction payload s t := by
  obtain ⟨notes, hlog, hcustody⟩ := h.history
  exact ⟨h.parts.imp fun _ hparts => ⟨.head (.report report) hparts.1, hparts.2⟩, notes, hlog,
    { hcustody with }⟩

theorem WF.commandStepResponse (h : s.WF) (hactive : s.active = some transaction)
    (hreceived : received s.log = some payload) (hstep : transaction.step = .command)
    (hwritten : transaction.upstreamWriteId = none)
    (hpayload : validateResponseShape payload = .ok ()) :
    Reaches (commandStepResponse transaction payload s.now) s := by
  have hrun := h.active transaction hactive
  unfold Reaches MeshCoreTCPMux.commandStepResponse
  simp only [wp_bind]
  refine wp_ofExcept_protocol
    (fun e he => validateResponse_raises hrun.shape.descriptor hrun.shape.command he) .refl rfl
    fun disposition hvalid => ?_
  simp only [wp_modifyActive, hactive, Option.map_some]
  have hrest : ∀ report, wp
      (if transaction.owner = 0 then do
        if opcode payload = respErr then throw (.protocol ["internal inbox pop rejected"])
        modify fun s => { s with active := none }
        perform (.replied payload s.now)
        popResult { transaction with responseFrames := transaction.responseFrames + 1 } payload
      else MeshCoreTCPMux.commandResponse
        { transaction with responseFrames := transaction.responseFrames + 1 } disposition payload
          s.now)
      (fun _ t => Steps s t) s.Rejects
      { s with
        active := some { transaction with responseFrames := transaction.responseFrames + 1 }
        report := report } := by
    intro report
    rw [wp_ite]
    split
    swap
    · next hclient =>
      exact h.commandResponse hactive hstep hwritten hclient hreceived hpayload hvalid report
    next howner =>
    simp only
    rw [wp_ite]
    have htouched : Steps s { s with
        active := some { transaction with responseFrames := transaction.responseFrames + 1 }
        report := report } :=
      Steps.moveReport (.idle (.touched transaction.progress _ hactive)) report
    split
    · simp only [wp_bind, wp_throw]
      exact ⟨⟨_, rfl⟩, htouched, rfl⟩
    next herr =>
    obtain ⟨rfl, hcode⟩ := pop_valid hrun.shape howner hvalid herr
    have hhanding : Broker.Handing payload
        ({ s with active := none, report := report }.record (.replied payload s.now)) :=
      ⟨{ h.rest.note (.replied payload s.now) with }, rfl, pop_payload hvalid⟩
    simp only [wp_bind, wp_modify, wp_perform]
    refine wp_of_returns (hhanding.popResult hcode) fun _ t ht => htouched.andThen ?_
    exact .pop rfl hreceived howner hwritten hstep hvalid herr (.of_report _ ht)
  rw [wp_ite]
  split
  · simp only [wp_bind]
    exact wp_logResponse hrest
  · exact hrest s.report

/-- **An ordinary reply** is an atomic action of the transaction that it answers, or a protocol
error. -/
theorem WF.transactionResponse (h : s.WF) (hreceived : received s.log = some payload)
    (hpayload : validateResponseShape payload = .ok ()) :
    Reaches (transactionResponse payload s.now) s := by
  unfold Reaches MeshCoreTCPMux.transactionResponse
  simp only [wp_bind, wp_get]
  split
  · exact ⟨⟨_, rfl⟩, .refl, rfl⟩
  next current hcurrent =>
  have hscope : ∀ t transaction, Steps s t → t.log = s.log → t.now = s.now →
      t.active = some transaction → transaction.upstreamWriteId = none →
      transaction.step = .setup ∨ transaction.step = .restore →
      wp (MeshCoreTCPMux.scopeResponse transaction payload s.now) (fun _ t => Steps s t)
        s.Rejects t := by
    intro t transaction hst hlog hnow hactive hwritten hstep
    have hreceived : received t.log = some payload := by rw [hlog, hreceived]
    rw [← hnow]
    exact ((h.steps hst).scopeResponse hactive hreceived hstep hwritten).after hst hlog
  have hcommand : ∀ t transaction, Steps s t → t.log = s.log → t.now = s.now →
      t.active = some transaction → transaction.upstreamWriteId = none →
      transaction.step = .command →
      wp (MeshCoreTCPMux.commandStepResponse transaction payload s.now) (fun _ t => Steps s t)
        s.Rejects t := by
    intro t transaction hst hlog hnow hactive hwritten hstep
    have hreceived : received t.log = some payload := by rw [hlog, hreceived]
    rw [← hnow]
    exact ((h.steps hst).commandStepResponse hactive hreceived hstep hwritten hpayload).after hst
      hlog
  cases hwrite : current.upstreamWriteId with
  | none =>
    simp only [Option.isSome_none, Bool.false_eq_true, if_false]
    split
    · next hstep => exact hscope s current .refl rfl rfl hcurrent hwrite (.inl hstep)
    · next hstep => exact hscope s current .refl rfl rfl hcurrent hwrite (.inr hstep)
    · exact ⟨⟨_, rfl⟩, .refl, rfl⟩
    · next hstep => exact hcommand s current .refl rfl rfl hcurrent hwrite hstep
  | some writeId =>
    simp only [Option.isSome_some, if_true]
    have hproved := Steps.move (.idle (.proved hcurrent hwrite))
    split
    · next hstep => exact hscope _ _ hproved rfl rfl rfl rfl (.inl hstep)
    · next hstep => exact hscope _ _ hproved rfl rfl rfl rfl (.inr hstep)
    · exact ⟨⟨_, rfl⟩, hproved, rfl⟩
    · next hstep => exact hcommand _ _ hproved rfl rfl rfl rfl hstep

end Broker

end MeshCoreTCPMux

import MeshCoreTCPMux.Broker.Programs

/-!
# Refinement: output

Hints, broadcasts, rejections and the response deadline are sequences of atomic actions. From here
on the specifications start in a well-formed state; a failed broker has no sessions left, so that
nothing is addressed to anybody.
-/

namespace MeshCoreTCPMux

open Protocol Program Relation

namespace Broker

variable {s : Broker}

theorem WF.no_session (h : s.WF) (hfailed : s.failed = true) (id : Nat) :
    s.sessions.find? id = none := by
  rw [OrdMap.find?_eq_none, (h.ended hfailed).1]
  exact List.not_mem_nil

theorem WF.running_of_live (h : s.WF) {id : Nat} {session : Session}
    (hlive : s.sessions.find? id = some session) : s.failed = false := by
  by_contra hfailed
  rw [Bool.not_eq_false] at hfailed
  simp [h.no_session hfailed] at hlive

theorem WF.emit (h : s.WF) (id : Nat) (payload : Bytes) (cause : Cause) :
    Returns (emit id payload cause) s (s.Emitted id payload cause) := by
  cases hfailed : s.failed with
  | false => exact emit_spec id payload cause (h.up hfailed)
  | true =>
    have hgone := h.no_session hfailed id
    unfold Returns MeshCoreTCPMux.emit
    simp only [wp_bind, wp_get, hgone, wp_pure]
    exact .gone hgone s.report

theorem WF.reject (h : s.WF) (id : Nat) (reason : UInt8) (detail : Text) :
    Returns (reject id reason detail) s fun _ t =>
      ∃ w, s.Emitted id [respErr, reason] .answer w t := by
  unfold Returns MeshCoreTCPMux.reject
  simp only [wp_bind, wp_get]
  refine wp_count _ _ fun report => wp_diagnostic _ _ fun report => ?_
  have hwf : WF { s with report := report } := { h with }
  exact wp_of_returns (hwf.emit id _ _) fun w t ht => ⟨w, Emitted.of_report (s := s) ht⟩

/-- A frame that may be sent is sent, or its session leaves. -/
theorem Emitted.steps {id : Nat} {payload : Bytes} {cause : Cause} {w : Option Nat} {t : Broker}
    (ht : s.Emitted id payload cause w t)
    (hmove : ∀ session, s.sessions.find? id = some session → s.Room session →
      Move s (s.send id payload cause)) : Steps s t := by
  cases ht with
  | gone _ report => exact Steps.report report
  | sent hlive hroom report => exact Steps.moveReport (hmove _ hlive hroom) report
  | dropped hlive hfull ht => exact ht.steps hlive (.slow hfull)

theorem WF.emitAvailabilityHint (h : s.WF) (id : Nat) :
    Returns (emitAvailabilityHint id) s fun _ t => Steps s t := by
  cases hfailed : s.failed with
  | true =>
    unfold Returns MeshCoreTCPMux.emitAvailabilityHint
    simp only [wp_bind, wp_get, h.no_session hfailed id, wp_pure]
    exact .refl
  | false =>
    refine (emitAvailabilityHint_spec id (h.up hfailed)).mono fun _ t ht => ?_
    rcases ht with rfl | ⟨session, report, hlive, hnone, hroom, rfl⟩ | ⟨session, hlive, hfull, ht⟩
    · exact .refl
    · exact Steps.moveReport (.output (.hint hlive hnone hroom)) report
    · exact ht.steps hlive (.slow hfull)

/-- A loop whose passes are atomic actions is a sequence of them. -/
theorem WF.forM {α : Type} {f : α → BrokerM Unit} (h : s.WF) (l : List α)
    (hf : ∀ a t, Steps s t → t.WF → Returns (f a) t fun _ u => Steps t u) :
    Returns (l.forM f) s fun _ t => Steps s t := by
  refine wp_forM (fun _ t => Steps s t) .refl (fun a _ t hst => ?_) fun _ hst => hst
  exact wp_of_returns (hf a t hst (h.steps hst)) fun _ _ hlast => hst.trans hlast

theorem WF.notifyAllSessions (h : s.WF) :
    Returns notifyAllSessions s fun _ t => Steps s t := by
  unfold Returns MeshCoreTCPMux.notifyAllSessions
  simp only [wp_bind, wp_get]
  exact h.forM _ fun id t _ ht => ht.emitAvailabilityHint id

theorem WF.recordAvailabilityHint (h : s.WF) :
    Returns recordAvailabilityHint s fun _ t => Steps s t := by
  unfold Returns MeshCoreTCPMux.recordAvailabilityHint
  simp only [wp_bind, wp_modify]
  have hmove : Steps s _ := Steps.move (.radio .notified)
  exact wp_of_returns (h.steps hmove).notifyAllSessions fun _ _ hst => hmove.trans hst

theorem WF.broadcast (h : s.WF) {payload : Bytes} (hreceived : received s.log = some payload)
    (hpush : pushAdvert ≤ opcode payload) (hresult : opcode payload ∉ resultPushes)
    (hwaiting : opcode payload ≠ pushMsgWaiting) :
    Returns (broadcast payload) s fun _ t => Steps s t := by
  unfold Returns MeshCoreTCPMux.broadcast
  simp only [wp_bind, wp_get]
  refine wp_forM (fun _ t => Steps s t ∧ received t.log = some payload) ⟨.refl, hreceived⟩
    (fun id _ t hbefore => ?_) fun _ ht => ht.1
  obtain ⟨hst, hreceived⟩ := hbefore
  have ht := h.steps hst
  simp only [wp_bind]
  refine wp_of_returns (ht.emit id payload .broadcast) fun w u hu => ?_
  refine ⟨hst.trans (hu.steps fun session hlive hroom => ?_), hu.received.trans hreceived⟩
  exact .client (.broadcast hlive hroom hreceived hpush hresult hwaiting)

theorem WF.remove (h : s.WF) (id : Nat) (reason : Text) (category : Category)
    (hdeparts : ∀ session, s.sessions.find? id = some session → s.Departs id session reason) :
    Returns (remove id reason category) s fun _ t => Steps s t := by
  cases hlive : s.sessions.find? id with
  | none => exact returns_iff.mpr ⟨(), s, remove_gone reason category hlive, .refl⟩
  | some session =>
    have hrunning := h.running_of_live hlive
    exact (remove_spec reason category (h.up hrunning) hlive).mono
      fun _ t ht => ht.steps hlive (hdeparts session hlive)

theorem WF.failEpoch (h : s.WF) (reason : Text) (hfatal : s.Fatal reason) :
    Returns (failEpoch reason) s fun _ t => Steps s t := by
  cases hfailed : s.failed with
  | true =>
    exact returns_iff.mpr ⟨(), s, failEpoch_of_failed reason hfailed, .refl⟩
  | false =>
    exact wp_fail (h.up hfailed) fun report => Steps.moveReport (.ending (.failed hfailed hfatal)) report

/-- The deadline check passes, or the epoch has failed. -/
theorem WF.checkActiveDeadline (h : s.WF)
    (hcall : (∃ payload, current s.log = some (.upstreamFrame payload s.now)) ∨
      current s.log = some (.tick s.now)) :
    Returns (checkActiveDeadline s.now) s fun ok t =>
      (ok = true ∧ t = s) ∨ (ok = false ∧ Steps s t ∧ t.failed = true) := by
  unfold Returns MeshCoreTCPMux.checkActiveDeadline
  simp only [wp_bind, wp_get]
  split
  · exact Or.inl ⟨rfl, rfl⟩
  next transaction hactive =>
  rw [wp_ite]
  split
  · exact Or.inl ⟨rfl, rfl⟩
  next hwaiting =>
  rw [wp_ite]
  split
  swap
  · exact Or.inl ⟨rfl, rfl⟩
  next hlate =>
  obtain ⟨hstep, hwritten⟩ := not_or.mp hwaiting
  simp only [wp_bind, wp_modify, wp_pure]
  have hrunning := h.running hactive
  have hdebt : some transaction = s.failingDebt := by
    simp [failingDebt, hactive, hstep, Option.filter]
  refine wp_failEpoch hrunning (Or.inr hdebt) fun report => Or.inr ⟨trivial, ?_, rfl⟩
  have hfatal : s.Fatal _ := .silent hcall hactive hstep (by simpa using hwritten) hlate
  exact Steps.moveReport (.ending (.failed hrunning hfatal)) report

end Broker

end MeshCoreTCPMux

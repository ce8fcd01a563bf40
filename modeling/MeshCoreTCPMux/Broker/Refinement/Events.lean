import MeshCoreTCPMux.Broker.Frame
import MeshCoreTCPMux.Broker.Refinement.Push

/-!
# Refinement: the entry points

Every call of the runtime is a sequence of atomic actions. Two calls may raise, and what they did
before they raised is such a sequence too: an admission to a slot that is not configured, and the
drain of a failed broker.
-/

namespace MeshCoreTCPMux

open Protocol Program Relation

namespace Broker

variable {s t : Broker} {payload : Bytes} {now : Time} {id : Nat}

/-! ### Admission -/

/-- The slots once a session has attached to its own. -/
def attachedSlots (s : Broker) (id : Nat) : Option Nat → OrdMap Nat DedicatedClientSlot
  | none => s.dedicatedSlots
  | some k => s.dedicatedSlots.modify k fun x => { x with attachedSessionId := some id }

/-- A session that has entered, before it is given what was held for it. -/
def opened (s : Broker) (id : Nat) (slotId : Option Nat) : Broker :=
  { s with
    sessions := s.sessions.insert id { dedicatedSlotId := slotId }
    dedicatedSlots := s.attachedSlots id slotId
    order := s.order ++ [id]
    log := s.log ++ [.admitted id slotId] }

theorem opened_eq_enter {slotId : Option Nat} (h : slotId.isSome = true ∨ s.orphan = none) :
    s.opened id slotId = s.enter id slotId := by
  cases slotId with
  | none =>
    have horphan : s.orphan = none := h.resolve_left (by simp)
    simp [opened, enter, attachedSlots, horphan]
  | some k => rfl

/-- The clients start with the item that was held for one of them. -/
theorem offer_opened {item : Bytes} (h : s.orphan = some item) :
    { (s.opened id none).offer id item with orphan := none } = s.enter id none := by
  simp [opened, enter, offer, attachedSlots, h]

theorem find?_opened (slotId : Option Nat) :
    (s.opened id slotId).sessions.find? id = some { dedicatedSlotId := slotId } := by
  simp [opened]

/-- What an admission asks for: an available broker, and a fresh id for a free slot. -/
structure Admissible (s : Broker) (id : Nat) (slotId : Option Nat) : Prop where
  running : s.failed = false
  quiet : s.underMaintenance = false
  positive : 0 < id
  fresh : Fresh id s.log
  slot : ∀ k, slotId = some k →
    ∃ slot, s.dedicatedSlots.find? k = some slot ∧ slot.attachedSessionId = none

theorem WF.greet (h : s.WF) {slotId : Option Nat} (hallow : s.Admissible id slotId)
    (report : Report) : Returns (greet id slotId) { s.opened id slotId with report := report }
      fun _ t => Steps s t := by
  have hmove : ∀ report, Steps s { s.enter id slotId with report := report } := fun report =>
    Steps.moveReport
      (.client (.entered hallow.running hallow.quiet hallow.positive hallow.fresh hallow.slot)) report
  have hhint : ∀ report, Returns (MeshCoreTCPMux.emitAvailabilityHint id)
      { s.enter id slotId with report := report } fun _ t => Steps s t := fun report =>
    ((h.steps (hmove report)).emitAvailabilityHint id).mono fun _ _ ht => (hmove report).trans ht
  unfold Returns MeshCoreTCPMux.greet
  cases slotId with
  | some k =>
    simp only [wp_bind, wp_get]
    refine wp_diagnostic _ _ fun report => ?_
    have hentered := hhint report
    rw [← opened_eq_enter (Or.inl rfl)] at hentered
    exact hentered
  | none =>
    simp only [wp_bind, wp_get]
    split
    · next hnone =>
      change s.orphan = none at hnone
      have hentered := hhint report
      rw [← opened_eq_enter (Or.inr hnone)] at hentered
      exact hentered
    · next item hsome =>
      change s.orphan = some item at hsome
      -- the item and its hint are the admission's own, so that both hints coalesce
      have hlive : (s.opened id none).sessions.find? id = some _ := find?_opened none
      simp only [wp_bind, wp_modify, enqueueMultiClient, wp_get, hlive]
      have hroom : ¬ ([] : List Bytes).length ≥ (s.opened id none).config.inboxEntries :=
        not_le.mpr h.config.positive.1.2.1
      rw [wp_ite, if_neg hroom]
      simp only [wp_bind, wp_modifySession, wp_perform, Option.isSome_none, Bool.false_eq_true,
        if_false, List.isEmpty_nil, if_true]
      rw [← offer_opened hsome] at hhint
      refine wp_of_returns (hhint _) fun _ t ht => ?_
      exact wp_of_returns ((h.steps ht).emitAvailabilityHint id) fun _ _ hu => ht.trans hu

/-- The state in which a session may enter, once its slot is free. -/
def Attaches (s : Broker) (id : Nat) (slotId : Option Nat) (t : Broker) : Prop :=
  ∃ u report, Steps s u ∧ u.Admissible id slotId ∧ u.now = s.now ∧
    t = { u with dedicatedSlots := u.attachedSlots id slotId, report := report }

/-- A slot is taken over, or is not configured. -/
theorem WF.attachSlot (h : s.WF) {slotId : Nat} (hallow : s.Admissible id none)
    (hcall : current s.log = some (.admission id (some slotId) s.now)) :
    wp (attachSlot id slotId) (fun _ t => s.Attaches id (some slotId) t)
      (fun e t => (∃ message, e = .argument message) ∧ slotId ∉ s.dedicatedSlots.keys ∧ t = s)
      s := by
  unfold MeshCoreTCPMux.attachSlot
  simp only [wp_bind, wp_get]
  split
  · next hnone => exact ⟨⟨_, rfl⟩, OrdMap.find?_eq_none.mp hnone, rfl⟩
  next slot hslot =>
  have hadmissible : ∀ free, s.dedicatedSlots.find? slotId = some free →
      free.attachedSessionId = none → s.Admissible id (some slotId) := by
    intro free hfree hnone
    refine { hallow with slot := fun k hk => ?_ }
    obtain rfl := Option.some.inj hk
    exact ⟨free, hfree, hnone⟩
  split
  · next hnone =>
    simp only [wp_modifySlot]
    exact ⟨s, s.report, .refl, hadmissible slot hslot hnone, rfl, rfl⟩
  · next old hold =>
    obtain ⟨session, hlive, hdedicated⟩ := (h.slot slotId slot hslot).attached old hold
    have hnot : s.delivering old = false := by
      rw [← Bool.not_eq_true, delivering_iff]
      rintro ⟨transaction, hactive, hmaintenance, -⟩
      simpa [underMaintenance, hactive, hmaintenance] using hallow.quiet
    simp only [wp_bind]
    refine wp_of_returns (remove_spec _ _ (h.up hallow.running) hlive) fun _ t ht => ?_
    obtain ⟨report, rfl⟩ := ht.eq_drop hnot
    simp only [wp_modifySlot]
    refine ⟨s.drop old session _, report,
      Steps.move (.output (.drop hlive (.replaced hcall hdedicated) hnot)), ?_, rfl, rfl⟩
    refine ⟨hallow.running, hallow.quiet, hallow.positive, ?_, fun k hk => ?_⟩
    · -- the session that is replaced was admitted before
      have hne : id ≠ old := by
        rintro rfl
        exact (h.known id (OrdMap.mem_keys_of_find? hlive)).elim hallow.fresh.1
      exact ⟨fun k hk => hallow.fresh.1 k (by simpa [Broker.drop] using hk),
        fun reason hk => hallow.fresh.2 reason (by simpa [Broker.drop, hne] using hk)⟩
    · obtain rfl := Option.some.inj hk
      refine ⟨{ slot with attachedSessionId := none }, ?_, rfl⟩
      simp [Broker.drop, detachedSlots, hdedicated, hslot, hold]

/-- The schedule at the end of a call that has read the clock. -/
theorem WF.thenSchedule (h : s.WF) (hnow : s.now = now) (hst : Steps s t) :
    Returns (MeshCoreTCPMux.schedule now) t fun _ u => Steps s u :=
  ((h.steps hst).scheduleNow ((Fixed.steps hst).now.trans hnow)).mono fun _ _ hu => hst.trans hu

/-- **Admission** of a fresh id. -/
theorem WF.admitSession (h : s.WF) {slotId : Option Nat} (hnow : s.now ≤ now) (hid : 0 < id)
    (hfresh : Fresh id s.log) (hcall : current s.log = some (.admission id slotId now)) :
    wp (admitSession id now slotId) (fun _ t => Steps { s with now := now } t)
      (fun e t => (∃ message, e = .argument message) ∧
        (∃ k, slotId = some k ∧ k ∉ s.dedicatedSlots.keys) ∧ t = { s with now := now }) s := by
  unfold MeshCoreTCPMux.admitSession
  rw [wp_bind, wp_modify]
  have hwf := h.clock hnow
  have hfresh : Fresh id (Broker.log { s with now := now }) := hfresh
  have hnow : Broker.now { s with now := now } = now := rfl
  have hcall : current (Broker.log { s with now := now })
      = some (.admission id slotId (Broker.now { s with now := now })) := hcall
  have hslots : s.dedicatedSlots = Broker.dedicatedSlots { s with now := now } := rfl
  rw [hslots]
  generalize ({ s with now := now } : Broker) = s at hwf hfresh hnow hcall ⊢
  simp only [wp_bind, wp_get]
  rw [wp_ite]
  split
  · simp only [wp_perform]
    have hgone : s.sessions.find? id = none :=
      OrdMap.find?_eq_none.mpr fun hmem => (hwf.known id hmem).elim hfresh.1
    exact Steps.moveReport (.idle (.refuse hgone hfresh hcall)) _
  next hopen =>
  obtain ⟨hrunning, hquiet⟩ := not_or.mp hopen
  rw [Bool.not_eq_true] at hrunning hquiet
  have hallow : s.Admissible id none := ⟨hrunning, hquiet, hid, hfresh, fun _ hk => by cases hk⟩
  have hrest : ∀ t, s.Attaches id slotId t →
      wp (do
        modify fun s => { s with
          sessions := s.sessions.insert id { dedicatedSlotId := slotId }
          order := s.order ++ [id] }
        count "connections"
        perform (.admitted id slotId)
        diagnostic ["event=session.admitted epoch=", (← get).epoch, " session=", id,
          " dedicated_slot_id=", orNone slotId, " sessions=", (← get).sessions.size]
        MeshCoreTCPMux.greet id slotId
        MeshCoreTCPMux.schedule now) (fun _ t => Steps s t)
        (fun e t => (∃ message, e = .argument message) ∧
          (∃ k, slotId = some k ∧ k ∉ s.dedicatedSlots.keys) ∧ t = s) t := by
    rintro _ ⟨u, report, hsteps, hallow, hsame, rfl⟩
    simp only [wp_bind, wp_modify]
    refine wp_count _ _ fun report => ?_
    simp only [wp_perform, wp_get]
    refine wp_diagnostic _ _ fun report => ?_
    refine wp_of_returns ((hwf.steps hsteps).greet hallow report) fun _ t ht => ?_
    exact wp_of_returns (hwf.thenSchedule hnow (hsteps.trans ht)) fun _ _ hu => hu
  cases slotId with
  | none => exact hrest _ ⟨s, s.report, .refl, hallow, rfl, rfl⟩
  | some k =>
    refine (wp_bind _ _).mpr (wp_mono (hwf.attachSlot hallow hcall) (fun _ t ht => ?_) ?_)
    · exact hrest t ht
    · rintro e t ⟨he, hslot, ht⟩
      exact ⟨he, ⟨k, rfl, hslot⟩, ht⟩

/-! ### Clients -/

/-- The history of a removal shows it. -/
theorem Removed.closed {id : Nat} {session : Session} {reason : Text} {t : Broker}
    (h : s.Removed id session reason t) : .closed id reason ∈ t.log := by
  have hclosed : .closed id reason ∈ (s.drop id session reason).log :=
    List.mem_append_right _ (List.mem_singleton_self _)
  cases h with
  | left => exact hclosed
  | ended => exact ((Fixed.release id).trans (Fixed.failAll _)).log.isPrefix.subset hclosed

/-- Whether a session's queue has no room for another command. -/
def Crowded (s : Broker) (id : Nat) (session : Session) : Prop :=
  s.config.commandLimit ≤ session.commands.length + (if session.sync.isSome then 1 else 0)
    + (if s.activeOwner = some id then 1 else 0)

/-- The command of a live session is queued, or closes it. -/
structure Queues (s : Broker) (id : Nat) (command : Command) (t : Broker) : Prop where
  queued : ∀ session, s.sessions.find? id = some session → ¬ s.Crowded id session →
    .queued id command ∈ t.log
  closed : ∀ session, s.sessions.find? id = some session → s.Crowded id session →
    .closed id ["command queue overflow"] ∈ t.log

theorem WF.clientFrame (h : s.WF) (hnow : s.now ≤ now) (hpayload : payload ≠ [])
    (hcall : current s.log = some (.clientFrame id payload now)) :
    Returns (clientFrame id payload now) s fun _ t =>
      Steps { s with now := now } t ∧ s.Queues id ⟨payload, now⟩ t := by
  have hqueues : ∀ t, { s with now := now }.Queues id ⟨payload, now⟩ t →
      s.Queues id ⟨payload, now⟩ t := fun _ ht => ⟨ht.queued, ht.closed⟩
  suffices h : Returns (MeshCoreTCPMux.clientFrame id payload now) s fun _ t =>
      Steps { s with now := now } t ∧ { s with now := now }.Queues id ⟨payload, now⟩ t from
    h.mono fun _ t ht => ⟨ht.1, hqueues t ht.2⟩
  unfold Returns MeshCoreTCPMux.clientFrame
  rw [wp_bind, wp_modify]
  have hwf := h.clock hnow
  have hnow : Broker.now { s with now := now } = now := rfl
  have hcall : current (Broker.log { s with now := now }) = some (.clientFrame id payload now) := hcall
  generalize ({ s with now := now } : Broker) = s at hwf hnow hcall ⊢
  simp only [wp_bind, wp_get]
  rw [wp_ite]
  split
  swap
  · next hfailed =>
    have hgone := hwf.no_session (by simpa using hfailed) id
    exact ⟨.refl, fun x hx => by simp [hgone] at hx, fun x hx => by simp [hgone] at hx⟩
  next hrunning =>
  rw [Bool.not_eq_true] at hrunning
  split
  · next hgone =>
    exact ⟨.refl, fun x hx => by simp [hgone] at hx, fun x hx => by simp [hgone] at hx⟩
  next session hlive =>
  simp only [wp_bind]
  refine wp_count _ _ fun report => ?_
  refine wp_diagnostic _ _ fun report => ?_
  refine wp_diagnostic _ _ fun report => ?_
  by_cases hlimit : session.commands.length + (if session.sync.isSome then 1 else 0)
      + (if s.activeOwner = some id then 1 else 0) ≥ s.config.commandLimit
  · rw [if_pos hlimit]
    simp only [wp_bind]
    have hup := hwf.up hrunning
    refine wp_of_returns (remove_spec _ _ ⟨hup.running, hup.settled⟩ hlive) fun _ t ht => ?_
    have hleft : Steps s t := ht.of_report.steps hlive (.crowded hcall hlimit)
    have hsame := (Fixed.steps hleft).now.trans hnow
    refine wp_of_returns ((hwf.steps hleft).scheduleNow hsame) fun _ u hu => ?_
    refine ⟨hleft.trans hu, fun x hx hroom => ?_, fun _ _ _ => ?_⟩
    · obtain rfl := Option.some.inj (hlive.symm.trans hx)
      exact absurd hlimit hroom
    · exact (Fixed.steps hu).log.isPrefix.subset ht.closed
  · rw [if_neg hlimit]
    simp only [wp_bind, wp_modifySession, wp_perform]
    have hcall' : current s.log = some (.clientFrame id payload s.now) := hnow ▸ hcall
    have hmove : Client s _ := .queued hrunning hlive hpayload hcall' (Nat.lt_of_not_le hlimit)
    rw [hnow] at hmove
    have hqueued := Steps.moveReport (.client hmove)
      { report with actions := report.actions ++ [] }
    have hsame := (Fixed.steps hqueued).now.trans hnow
    refine wp_of_returns ((hwf.steps hqueued).scheduleNow hsame) fun _ u hu => ?_
    refine ⟨hqueued.trans hu, fun _ _ _ => ?_, fun x hx hfull => ?_⟩
    · exact (Fixed.steps hu).log.isPrefix.subset
        (List.mem_append_right _ (List.mem_singleton_self _))
    · obtain rfl := Option.some.inj (hlive.symm.trans hx)
      exact absurd hfull hlimit

theorem WF.clientClosed (h : s.WF) (hnow : s.now ≤ now) {reason : Text} {category : Category}
    (hcall : current s.log = some (.clientClosed id now reason category)) :
    Returns (clientClosed id now reason category) s fun _ t => Steps { s with now := now } t := by
  have hwf := h.clock hnow
  unfold Returns MeshCoreTCPMux.clientClosed
  simp only [wp_bind, wp_modify]
  refine wp_of_returns (hwf.remove id reason category fun _ _ => .closed hcall) fun _ t ht => ?_
  exact hwf.thenSchedule rfl ht

/-! ### Writers -/

/-- A call that ends with the schedule but does not read the clock before. -/
theorem WF.laterSchedule (h : s.WF) (hnow : s.now ≤ now) (hst : Steps s t) :
    Returns (MeshCoreTCPMux.schedule now) t fun _ u => Turns s u := by
  have hnow' : t.now ≤ now := (Fixed.steps hst).now.trans_le hnow
  refine ((h.steps hst).schedule hnow').mono fun _ u hu => ?_
  rcases hu with ⟨-, rfl⟩ | hsteps
  · exact hst.turns
  · exact (hst.turns.tail (.clock hnow')).trans hsteps.turns

theorem wp_schedule_clock {Q : Unit → Broker → Prop} {E : Error → Broker → Prop}
    (hrunning : s.failed = false)
    (h : wp (MeshCoreTCPMux.schedule now) Q E { s with now := now }) :
    wp (MeshCoreTCPMux.schedule now) Q E s := by
  unfold MeshCoreTCPMux.schedule at h ⊢
  simp only [wp_bind, wp_get, hrunning, Bool.false_eq_true, if_false, wp_modify] at h ⊢
  exact h

theorem WF.written (h : s.WF) {epoch writeId : Nat} (hnow : s.now ≤ now)
    (hcall : current s.log = some (.written id epoch writeId now)) :
    Returns (written id epoch writeId now) s fun _ t => Turns s t := by
  unfold Returns MeshCoreTCPMux.written
  simp only [wp_bind, wp_get]
  rw [wp_ite]
  split
  swap
  · exact .refl
  next hcurrent =>
  obtain ⟨rfl, hrunning⟩ := hcurrent
  rw [Bool.not_eq_true] at hrunning
  rw [wp_ite]
  split
  · next hupstream =>
    subst hupstream
    simp only [wp_bind, wp_modify]
    have hdone : wp (MeshCoreTCPMux.schedule now) (fun _ t => Turns s t) (fun _ _ => False)
        { s with
          upstreamWrites := s.upstreamWrites.erase writeId
          active := s.active.map fun x =>
            if x.upstreamWriteId = some writeId then writeCompleted x now else x } := by
      -- the schedule reads the clock, and what precedes it does not depend on the time
      refine wp_schedule_clock hrunning ?_
      have hmove : Steps { s with now := now } _ :=
        .move (.idle (@Idle.writtenUp { s with now := now } writeId hcall))
      exact wp_of_returns ((h.clock hnow).thenSchedule rfl hmove)
        fun _ _ hu => (ReflTransGen.single (.clock hnow)).trans hu.turns
    cases hactive : s.active with
    | none =>
      rw [hactive] at hdone
      exact hdone
    | some x =>
      rw [hactive] at hdone
      by_cases hwrite : x.upstreamWriteId = some writeId
      · simp only [Option.map_some, if_pos hwrite] at hdone
        simp only [Option.any_some, hwrite, decide_true, if_true, wp_bind, wp_modifyActive,
          Option.map_some]
        exact hdone
      · simp only [Option.map_some, if_neg hwrite] at hdone
        simp only [Option.any_some, hwrite, decide_false, Bool.false_eq_true, if_false]
        exact hdone
  rw [wp_ite]
  split
  swap
  · exact h.laterSchedule hnow .refl
  simp only [wp_bind, wp_modifySession]
  have hdown : (∀ transaction, s.active = some transaction →
      ¬ (transaction.maintenance = true ∧ transaction.step = .maintenanceResult ∧
        transaction.owner = id ∧ transaction.maintenanceWriteId = some writeId)) →
      wp (MeshCoreTCPMux.schedule now) (fun _ t => Turns s t) (fun _ _ => False)
        (s.writtenDown id writeId) := by
    intro hnot
    refine h.laterSchedule hnow (Steps.move (.idle (.writtenDown hcall ?_)))
    cases hactive : s.active with
    | none => rfl
    | some transaction =>
      have hresult := (h.active transaction hactive).result
      by_contra hyes
      simp only [Option.any_some, Bool.and_eq_true, beq_iff_eq, Bool.not_eq_false] at hyes
      exact hnot transaction hactive ⟨hresult hyes.1.1, hyes.1.1, hyes.1.2, hyes.2⟩
  split
  · next hnone =>
    exact hdown fun transaction hactive => by simp [hnone] at hactive
  next transaction hactive =>
  rw [wp_ite]
  split
  swap
  · next hnot =>
    refine hdown fun other hother => ?_
    obtain rfl := Option.some.inj (hactive.symm.trans hother)
    exact hnot
  next hresult =>
  obtain ⟨hmaintenance, hstep, rfl, hwrite⟩ := hresult
  simp only [wp_bind]
  have hup := (h.writtenDown transaction.owner writeId).up hrunning
  refine wp_finishTransaction hup (fun hnot => by simp [hmaintenance] at hnot) fun _ report => ?_
  exact h.laterSchedule hnow (Steps.moveReport (.ending (.completed hactive hstep hwrite hcall)) _)

theorem WF.writeFailed (h : s.WF) {epoch : Nat} {reason : Text} (hnow : s.now ≤ now)
    (hcall : current s.log = some (.writeFailed id epoch reason now)) :
    Returns (writeFailed id epoch reason now) s fun _ t => Turns s t := by
  unfold Returns MeshCoreTCPMux.writeFailed
  simp only [wp_bind, wp_get]
  rw [wp_ite]
  split
  swap
  · exact .refl
  rw [wp_bind, wp_modify]
  have hwf := h.clock hnow
  have hclock : Turns s { s with now := now } := .single (.clock hnow)
  have hnow : Broker.now { s with now := now } = now := rfl
  have hcall : current (Broker.log { s with now := now })
      = some (.writeFailed id epoch reason now) := hcall
  generalize ({ s with now := now } : Broker) = u at hwf hnow hclock hcall ⊢
  rw [wp_ite]
  split
  · next hupstream =>
    subst hupstream
    exact wp_of_returns (hwf.failEpoch _ (.writerFailed hcall)) fun _ t ht => hclock.trans ht.turns
  · simp only [wp_bind]
    refine wp_of_returns (hwf.remove id _ _ fun _ _ => .writerFailed hcall) fun _ t ht => ?_
    exact wp_of_returns (hwf.thenSchedule hnow ht) fun _ _ hu => hclock.trans hu.turns

/-! ### Upstream frames -/

theorem WF.receiveFrame (h : s.WF) (hreceived : received s.log = some payload)
    (hnow : s.now ≤ now) (hcall : current s.log = some (.upstreamFrame payload now)) :
    wp (receiveFrame payload now) (fun _ t => Steps { s with now := now } t)
      (fun e t => Rejects { s with now := now } e t ∧ Misfit payload) s := by
  unfold MeshCoreTCPMux.receiveFrame
  rw [wp_bind, wp_modify]
  have hwf := h.clock hnow
  have hnow : Broker.now { s with now := now } = now := rfl
  have hreceived : received (Broker.log { s with now := now }) = some payload := hreceived
  have hcall : current (Broker.log { s with now := now }) = some (.upstreamFrame payload now) := hcall
  generalize ({ s with now := now } : Broker) = s at hwf hnow hreceived hcall ⊢
  subst hnow
  simp only [wp_bind, wp_get]
  rw [wp_ite]
  split
  swap
  · exact .refl
  simp only [wp_bind]
  refine wp_of_returns (hwf.checkActiveDeadline (Or.inl ⟨payload, hcall⟩)) fun ok t ht => ?_
  rcases ht with ⟨rfl, rfl⟩ | ⟨rfl, hsteps, -⟩
  swap
  · exact hsteps
  simp only [if_true, wp_bind]
  refine wp_count _ _ fun report => ?_
  have hreport := Steps.report (s := t) report
  have hwf' := hwf.steps hreport
  cases hshape : validateResponseShape payload with
  | error e =>
    exact ⟨⟨validateResponseShape_raises hshape, hreport, rfl⟩, Or.inl (by simp [hshape])⟩
  | ok _ =>
    simp only [ofExcept, wp_pure]
    rw [wp_ite]
    split
    · next hpush =>
      have hreach := hwf'.push hreceived hshape hpush le_rfl fun _ => rfl
      refine (wp_bind _ _).mpr (wp_mono hreach (fun _ u hu => ?_) ?_)
      · exact wp_of_returns (hwf.thenSchedule rfl (hreport.trans hu)) fun _ _ hlast => hlast
      · rintro e u ⟨⟨he, hu, hlog⟩, hresult⟩
        exact ⟨⟨he, hreport.trans hu, hlog⟩, Or.inr (Or.inr hresult)⟩
    · next hordinary =>
      have hreach := hwf'.transactionResponse hreceived hshape
      refine (wp_bind _ _).mpr (wp_mono (hreach.after hreport rfl) (fun _ u hu => ?_)
        fun _ _ he => ⟨he, Or.inr (Or.inl (UInt8.not_le.mp hordinary))⟩)
      exact wp_of_returns (hwf.thenSchedule rfl hu) fun _ _ hlast => hlast

theorem WF.upstreamFrame (h : s.WF) (hreceived : received s.log = some payload)
    (hnow : s.now ≤ now) (hcall : current s.log = some (.upstreamFrame payload now)) :
    Returns (upstreamFrame payload now) s fun _ t => Steps { s with now := now } t := by
  unfold Returns MeshCoreTCPMux.upstreamFrame
  rw [wp_tryCatch]
  refine wp_mono (h.receiveFrame hreceived hnow hcall) (fun _ _ ht => ht) ?_
  rintro e t ⟨⟨⟨message, rfl⟩, ht, hlog⟩, hmisfit⟩
  have hfatal : t.Fatal message := by
    refine .rejected ?_ ?_ hmisfit
    · rw [hlog, (Fixed.steps ht).now]
      exact hcall
    · rw [hlog]
      exact hreceived
  exact wp_of_returns (((h.clock hnow).steps ht).failEpoch message hfatal) fun _ _ hu => ht.trans hu

/-! ### Deadlines -/

theorem WF.tickSession (h : s.WF) (hnow : s.now = now) (hcall : current s.log = some (.tick now))
    (entry : Nat × Session) :
    Returns (tickSession now entry) s fun _ t => Steps s t := by
  obtain ⟨id, snapshot⟩ := entry
  unfold Returns MeshCoreTCPMux.tickSession
  simp only [wp_bind, wp_get]
  rw [wp_ite]
  split
  · next hlate =>
    refine h.remove id _ _ fun session hlive => .overdue hcall ?_
    simpa [hlive, hnow] using hlate
  cases hlive : s.sessions.find? id with
  | none =>
    simp only [Option.getD_none]
    split
    · exact .refl
    next sync hsync =>
    rw [wp_ite]
    split
    swap
    · exact .refl
    simp only [wp_bind, wp_modifySession, OrdMap.modify_of_find?_eq_none hlive]
    refine wp_of_returns (h.reject id _ _) fun _ t hrejected => ?_
    obtain ⟨w, ht⟩ := hrejected
    exact ht.steps fun session hlive' => by simp [hlive] at hlive'
  | some session =>
    simp only [Option.getD_some]
    split
    · exact .refl
    next sync hsync =>
    rw [wp_ite]
    split
    swap
    · exact .refl
    next hdeadline =>
    simp only [wp_bind, wp_modifySession]
    refine wp_of_returns ((h.endSync id).reject id _ _) fun _ t hrejected => ?_
    obtain ⟨w, ht⟩ := hrejected
    have hended := find?_endSync hlive
    cases ht with
    | gone hgone => simp [hended] at hgone
    | sent hlive' hroom report =>
      obtain rfl := Option.some.inj (hended.symm.trans hlive')
      have hmove : Client s _ := .syncExpired hlive hsync (by rw [hnow]; exact hdeadline) hroom
      exact Steps.moveReport (.client hmove) report
    | dropped hlive' hfull ht =>
      obtain rfl := Option.some.inj (hended.symm.trans hlive')
      exact ht.of_endSync.steps hlive (.slow hfull)

theorem expireRemote_steps (hnow : s.now = now) :
    Returns (expireRemote now) s fun _ t => Steps s t := by
  subst hnow
  unfold Returns MeshCoreTCPMux.expireRemote
  simp only [wp_bind, wp_get]
  split
  · exact .refl
  simp only [wp_bind, wp_setRemote, RemoteLease.expire]
  by_cases hexpired : s.radio.remote.any (·.expired s.now) = true
  · simp only [hexpired, if_true, wp_bind, wp_get]
    exact wp_diagnostic _ _ fun report => Steps.moveReport (.radio (.leaseExpired hexpired)) report
  · simp only [hexpired]
    exact .refl

theorem expireSigning_steps (hnow : s.now = now) :
    Returns (expireSigning now) s fun _ t => Steps s t := by
  subst hnow
  unfold Returns MeshCoreTCPMux.expireSigning
  simp only [wp_bind, wp_get]
  rw [wp_ite]
  split
  swap
  · exact .refl
  next hinactive =>
  simp only [wp_bind, wp_setSigning, SigningLease.expire]
  by_cases hexpired : s.signing.expired s.now = true
  · simp only [hexpired, if_true]
    exact wp_diagnostic _ _ fun report =>
      Steps.moveReport (.radio (.signingExpired hexpired (by simpa using hinactive))) report
  · simp only [hexpired]
    exact .refl

theorem WF.poll (h : s.WF) (now : Time) : Returns (poll now) s fun _ t => Steps s t := by
  unfold Returns MeshCoreTCPMux.poll
  simp only [wp_bind, wp_get]
  rw [wp_ite]
  split
  swap
  · exact .refl
  simp only [wp_bind, wp_modify]
  have hpoll : Steps s { s with lastPoll := now } := Steps.move (.idle .poll)
  exact wp_of_returns (h.steps hpoll).notifyAllSessions fun _ _ ht => hpoll.trans ht

theorem WF.tick (h : s.WF) (hnow : s.now ≤ now) (hcall : current s.log = some (.tick now)) :
    Returns (tick now) s fun _ t => Steps { s with now := now } t := by
  unfold Returns MeshCoreTCPMux.tick
  rw [wp_bind, wp_modify]
  have hwf := h.clock hnow
  have hnow : Broker.now { s with now := now } = now := rfl
  have hcall : current (Broker.log { s with now := now }) = some (.tick now) := hcall
  generalize ({ s with now := now } : Broker) = s at hwf hnow hcall ⊢
  subst hnow
  have hsame : ∀ {t}, Steps s t → t.now = s.now := fun hst => (Fixed.steps hst).now
  simp only [wp_bind, wp_get]
  rw [wp_ite]
  split
  swap
  · exact .refl
  simp only [wp_bind]
  refine wp_of_returns (hwf.checkActiveDeadline (Or.inr hcall)) fun ok t ht => ?_
  rcases ht with ⟨rfl, rfl⟩ | ⟨rfl, hsteps, -⟩
  swap
  · exact hsteps
  simp only [if_true, wp_bind, wp_get]
  rw [wp_ite]
  split
  · next hlate => exact hwf.failEpoch _ (.unwritten hcall hlate)
  simp only [wp_bind, wp_get]
  refine wp_of_returns (hwf.forM _ fun entry t hst ht =>
      ht.tickSession (hsame hst) ((Fixed.steps hst).log.current.trans hcall) entry)
    fun _ t₁ h₁ => ?_
  refine wp_of_returns (expireRemote_steps (hsame h₁)) fun _ t₂ h₂ => ?_
  have h₂ := h₁.trans h₂
  refine wp_of_returns (expireSigning_steps (hsame h₂)) fun _ t₃ h₃ => ?_
  have h₃ := h₂.trans h₃
  refine wp_of_returns ((hwf.steps h₃).poll t.now) fun _ t₄ h₄ => ?_
  exact hwf.thenSchedule rfl (h₃.trans h₄)

/-! ### The drain of a failed broker -/

theorem drainContactsStep_raises {transaction : Transaction} {e : Error}
    (h : drainContactsStep transaction payload = .error e) : ∃ message, e = .protocol message := by
  unfold drainContactsStep at h
  repeat' split at h
  all_goals first | exact ⟨_, (Except.error.inj h).symm⟩ | cases h

/-- **The drain** of a failed broker. -/
theorem WF.drainUncertainFrame (h : s.WF) (hreceived : received s.log = some payload)
    (hnow : s.now ≤ now) :
    Reaches (drainUncertainFrame payload now) s := by
  unfold Reaches MeshCoreTCPMux.drainUncertainFrame
  simp only [wp_bind, wp_get]
  split
  · exact .refl
  next transaction hdebt =>
  have hfailed : s.failed = true := by
    by_contra hrunning
    rw [h.debt (by simpa using hrunning)] at hdebt
    cases hdebt
  have hidle := (h.ended hfailed).2
  have hshape := h.owed transaction hdebt
  simp only [wp_bind]
  refine wp_ofExcept_protocol (fun e he => validateResponseShape_raises he) .refl rfl
    fun _ hpayload => ?_
  rw [wp_ite]
  split
  · next hpush =>
    have hreach := h.push hreceived hpayload hpush hnow fun hactive => by simp [hidle] at hactive
    exact (wp_bind _ _).mpr (wp_mono hreach (fun _ _ ht => ht) fun _ _ he => he.1)
  rw [wp_ite]
  split
  · rw [wp_ite]
    split
    · exact ⟨⟨_, rfl⟩, .refl, rfl⟩
    simp only [wp_bind]
    refine wp_logResponse fun report => ?_
    exact Steps.moveReport (.idle .debtCleared) report
  simp only [wp_bind]
  refine wp_ofExcept_protocol
    (fun e he => validateResponse_raises hshape.descriptor hshape.command he) .refl rfl
    fun disposition hvalid => ?_
  simp only [wp_modifyDebt, hdebt, Option.map_some]
  refine wp_logResponse fun report => ?_
  have htouched : ∀ started report, Steps s { s with
      responseDebt := some { transaction with
        contactsStarted := started, responseFrames := transaction.responseFrames + 1 }
      report := report } := fun started report =>
    Steps.moveReport (.idle (.debtTouched started _ hdebt)) report
  refine wp_ofExcept_protocol (fun e he => drainContactsStep_raises he) (htouched _ report) rfl
    fun started hstarted => ?_
  simp only [Option.map_some]
  rw [wp_ite]
  split
  swap
  · exact htouched started report
  next hcomplete =>
  subst hcomplete
  rw [wp_ite]
  split
  · next hpop =>
    have hcode := (pop_valid hshape hpop.1 hvalid hpop.2).2
    have hsame : started = transaction.contactsStarted := by
      simpa [drainContactsStep, (pop_descriptor hshape hpop.1).1] using hstarted.symm
    subst hsame
    have hhanding : Broker.Handing payload { s with
        responseDebt := some { transaction with responseFrames := transaction.responseFrames + 1 }
        report := report } := ⟨h.steps (htouched _ report), hidle, pop_payload hvalid⟩
    simp only [wp_bind]
    refine wp_of_returns (hhanding.popResult hcode) fun _ t ht => ?_
    have hdrained : Steps s t :=
      (htouched _ report).andThen (.drained hfailed rfl hreceived hpop.1 hvalid hpop.2 ht)
    exact hdrained.andThen (.idle .debtCleared)
  · exact (htouched started report).andThen (.idle .debtCleared)

/-! ### Every call -/

/-- What the runtime promises of a call: its clock does not go back, the ids that it gives to
sessions are positive and fresh, and the frames that it decodes are not empty. -/
def Promised (s : Broker) : Event → Prop
  | .admission id _ now => s.now ≤ now ∧ 0 < id ∧ Fresh id s.log
  | .clientFrame _ payload now => s.now ≤ now ∧ payload ≠ []
  | .clientClosed _ now _ _ => s.now ≤ now
  | .written _ _ _ now => s.now ≤ now
  | .writeFailed _ _ _ now => s.now ≤ now
  | .upstreamFrame _ now => s.now ≤ now
  | .tick now => s.now ≤ now
  | .failEpoch _ => True
  | .drainUncertainFrame _ now => s.now ≤ now

/-- The errors that a call may raise. -/
def MayRaise (s : Broker) : Event → Error → Prop
  | .admission _ slotId _, e =>
    (∃ k, slotId = some k ∧ k ∉ s.dedicatedSlots.keys) ∧ ∃ message, e = .argument message
  | .drainUncertainFrame _ _, e => ∃ message, e = .protocol message
  | _, _ => False

theorem current_input (log : List Note) (event : Event) :
    current (log ++ [.input event]) = some event := by
  rw [current, List.foldl_append]
  rfl

/-- **Every call is a sequence of atomic actions**, whether it returns or raises. -/
theorem WF.handle (h : s.WF) {event : Event} (hevent : s.Promised event) :
    wp (handle event) (fun _ t => Turns (s.record (.input event)) t)
      (fun e t => s.MayRaise event e ∧ Turns (s.record (.input event)) t) s := by
  have hinput : Acts s (s.record (.input event)) :=
    (ReflTransGen.single (.input event)).trans (Steps.report _).acts
  have hwf := h.acts hinput
  have hcall : current (s.record (.input event)).log = some event := current_input _ _
  have hturns : ∀ {now t}, s.now ≤ now → Steps { s.record (.input event) with now := now } t →
      Turns (s.record (.input event)) t := fun hnow ht =>
    (ReflTransGen.single (.clock hnow)).trans ht.turns
  have hreturns : ∀ {m : BrokerM Unit} {P : Broker → Prop},
      Returns m (s.record (.input event)) (fun _ t => P t) →
      (∀ t, P t → Turns (s.record (.input event)) t) →
      wp m (fun _ t => Turns (s.record (.input event)) t)
        (fun e t => s.MayRaise event e ∧ Turns (s.record (.input event)) t)
        (s.record (.input event)) := fun hm hP => wp_of_returns hm fun _ t ht => hP t ht
  unfold MeshCoreTCPMux.handle
  rw [wp_bind, wp_perform]
  cases event with
  | admission id slotId now =>
    obtain ⟨hnow, hid, hfresh⟩ := hevent
    have hfresh' : Fresh id (s.record (.input (.admission id slotId now))).log :=
      ⟨fun k hk => hfresh.1 k (by simpa [record] using hk),
        fun reason hk => hfresh.2 reason (by simpa [record] using hk)⟩
    refine wp_mono (hwf.admitSession hnow hid hfresh' hcall) (fun _ _ ht => hturns hnow ht) ?_
    rintro e t ⟨he, hslot, rfl⟩
    exact ⟨⟨hslot, he⟩, .single (.clock hnow)⟩
  | clientFrame id payload now =>
    exact hreturns (hwf.clientFrame hevent.1 hevent.2 hcall) fun _ ht => hturns hevent.1 ht.1
  | clientClosed id now reason category =>
    exact hreturns (hwf.clientClosed hevent hcall) fun _ ht => hturns hevent ht
  | written id epoch writeId now =>
    exact hreturns (hwf.written hevent hcall) fun _ ht => ht
  | writeFailed id epoch reason now =>
    exact hreturns (hwf.writeFailed hevent hcall) fun _ ht => ht
  | upstreamFrame payload now =>
    have hreceived : received (s.log ++ [.input (.upstreamFrame payload now)]) = some payload := by
      rw [received_append]
      rfl
    exact hreturns (hwf.upstreamFrame hreceived hevent hcall) fun _ ht => hturns hevent ht
  | tick now => exact hreturns (hwf.tick hevent hcall) fun _ ht => hturns hevent ht
  | failEpoch reason =>
    exact hreturns (hwf.failEpoch reason (.requested hcall)) fun _ ht => ht.turns
  | drainUncertainFrame payload now =>
    have hreceived : received (s.log ++ [.input (.drainUncertainFrame payload now)])
        = some payload := by
      rw [received_append]
      rfl
    simp only [wp_bind]
    refine wp_mono (hwf.drainUncertainFrame hreceived hevent) (fun _ _ ht => ht.turns) ?_
    rintro e t ⟨he, ht, -⟩
    exact ⟨he, ht.turns⟩

end Broker

end MeshCoreTCPMux

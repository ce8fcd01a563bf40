import MeshCoreTCPMux.Broker.Refinement.Events

/-!
# Runs

A run starts in a fresh broker, with whatever earlier epochs left in the radio state, in the slots
and in the orphan, and makes calls at times that do not go back. Every state of a run is reached by
atomic actions (`Run.acts`), so that a property of all runs is an invariant of the atomic actions
(`Invariant.run`).
-/

namespace MeshCoreTCPMux

open Protocol Program Relation

namespace Broker

variable {s s₀ t : Broker}

/-! ### Runs of one broker -/

/-- The state after a call, whether the call returned or raised. -/
def after (s : Broker) (event : Event) : Broker :=
  match MeshCoreTCPMux.handle event s with
  | .ok _ t => t
  | .error _ t => t

/-- A fresh broker: what it inherits holds deliverable items within the configured bound, and belongs
to nobody. -/
structure Starts (s : Broker) : Prop where
  fresh : ∃ epoch selfKey config now orphan slots radio,
    s = Broker.new epoch selfKey config now orphan slots radio
  config : s.config.Valid
  selfKey : 6 ≤ s.selfKey.length
  orphan : ∀ item, s.orphan = some item → InboxItem item
  slots : ∀ k slot, s.dedicatedSlots.find? k = some slot →
    slot.attachedSessionId = none ∧ (∀ item ∈ slot.offlineQueue, InboxItem item) ∧
      slot.offlineQueue.length ≤ s.config.offlineQueueSize
  lease : LeaseOK [] s.radio.remote

/-- The states of the runs that start in `s₀`. -/
inductive Run (s₀ : Broker) : Broker → Prop
  | start : Run s₀ s₀
  | call {s : Broker} {event : Event} (h : Run s₀ s) (hevent : s.Promised event) :
      Run s₀ (s.after event)
  | taken {s : Broker} (h : Run s₀ s) : Run s₀ s.takeActions.2

theorem Starts.wf (h : s.Starts) : s.WF := by
  obtain ⟨epoch, selfKey, config, now, orphan, slots, radio, rfl⟩ := h.fresh
  exact
    { config := h.config
      selfKey := h.selfKey
      ended := fun hfailed => nomatch hfailed
      debt := fun _ => rfl
      order := .refl _
      positive := List.not_mem_nil
      known := fun id hid => absurd hid List.not_mem_nil
      session := fun id session hlive => nomatch hlive
      slot := fun k slot hslot =>
        ⟨fun id hid => by simp [(h.slots k slot hslot).1] at hid, (h.slots k slot hslot).2.1⟩
      orphan := h.orphan
      active := fun _ hactive => nomatch hactive
      owed := fun _ howed => nomatch howed
      lease := h.lease
      signing := fun op hop => nomatch hop }

theorem Starts.log (h : s.Starts) : s.log = [] := by
  obtain ⟨epoch, selfKey, config, now, orphan, slots, radio, rfl⟩ := h.fresh
  rfl

/-- What a call does after it has been recorded. -/
theorem WF.turns (h : s.WF) {event : Event} (hevent : s.Promised event) :
    Turns (s.record (.input event)) (s.after event) := by
  have hhandle := h.handle hevent
  unfold wp at hhandle
  unfold Broker.after
  split at hhandle
  · next heq => rw [heq]; exact hhandle
  · next heq => rw [heq]; exact hhandle.2

theorem WF.after (h : s.WF) {event : Event} (hevent : s.Promised event) :
    Acts s (s.after event) := by
  have hinput : Acts s (s.record (.input event)) :=
    (ReflTransGen.single (.input event)).trans (Steps.report _).acts
  exact hinput.trans (h.turns hevent).acts

/-- **Every run is a sequence of atomic actions.** -/
theorem Run.acts (h : Run s₀ s) (hstart : s₀.WF) : Acts s₀ s := by
  induction h with
  | start => exact .refl
  | call _ hevent ih => exact ih.trans ((hstart.acts ih).after hevent)
  | taken _ ih => exact ih.trans (Steps.report _).acts

/-- The first broker of a multiplexer with the default settings. -/
def first : Broker := .new 1 (List.replicate 32 0) {} 0 none ∅ .new

theorem first_starts : first.Starts where
  fresh := ⟨_, _, _, _, _, _, _, rfl⟩
  config := Config.valid_default
  selfKey := by decide
  orphan := fun _ h => nomatch h
  slots := fun _ _ h => nomatch h
  lease := .free _

/-! ### Invariants -/

/-- `payload` is the valid answer of a physical inbox pop. -/
structure PopAnswer (transaction : Transaction) (payload : Bytes) : Prop where
  owner : transaction.owner = 0
  valid : validateResponse transaction.descriptor payload transaction.command transaction.phase
    = .ok .complete
  err : opcode payload ≠ respErr

/-- The active pop may take `payload` as its result. -/
structure Takes (s : Broker) (transaction : Transaction) (payload : Bytes) : Prop
    extends PopAnswer transaction payload where
  active : s.active = some transaction
  received : received s.log = some payload
  written : transaction.upstreamWriteId = none
  step : transaction.step = .command

/-- The pop that a failed epoch left behind may take `payload` as its result. -/
structure Owes (s : Broker) (transaction : Transaction) (payload : Bytes) : Prop
    extends PopAnswer transaction payload where
  failed : s.failed = true
  debt : s.responseDebt = some transaction
  received : Broker.received s.log = some payload

/-- The broker as the result of its active pop finds it. -/
abbrev took (s : Broker) (payload : Bytes) : Broker :=
  { s with active := none }.note (.replied payload s.now)

/-- `I` is preserved by every atomic action, where `K` is known. -/
structure Invariant (K I : Broker → Prop) : Prop where
  report : ∀ {s} report, I s → I { s with report := report }
  input : ∀ {s} event, K s → I s → I (s.note (.input event))
  clock : ∀ {s now}, K s → s.now ≤ now → I s → I { s with now := now }
  idle : ∀ {s t}, K s → Idle s t → I s → I t
  output : ∀ {s t}, K s → Output s t → I s → I t
  client : ∀ {s t}, K s → Client s t → I s → I t
  radio : ∀ {s t}, K s → Radio s t → I s → I t
  upstream : ∀ {s t}, K s → Upstream s t →
    (s.underMaintenance = true → t.active.isSome = true) → I s → I t
  ending : ∀ {s t}, K s → Ending s t → I s → I t
  pop : ∀ {s t transaction payload}, K s → s.Takes transaction payload →
    HandsOut transaction payload (s.took payload) t → I s → I t
  drained : ∀ {s t transaction payload}, K s → s.Owes transaction payload →
    HandsOut transaction payload s t → I s → I t

namespace Invariant

variable {K I J : Broker → Prop}

/-- An invariant may rely on one that is proved first. -/
theorem and (hJ : Invariant K J) (hI : Invariant (fun s => K s ∧ J s) I) :
    Invariant K fun s => J s ∧ I s where
  report := fun report h => ⟨hJ.report report h.1, hI.report report h.2⟩
  input := fun event hK h => ⟨hJ.input event hK h.1, hI.input event ⟨hK, h.1⟩ h.2⟩
  clock := fun hK hnow h => ⟨hJ.clock hK hnow h.1, hI.clock ⟨hK, h.1⟩ hnow h.2⟩
  idle := fun hK hst h => ⟨hJ.idle hK hst h.1, hI.idle ⟨hK, h.1⟩ hst h.2⟩
  output := fun hK hst h => ⟨hJ.output hK hst h.1, hI.output ⟨hK, h.1⟩ hst h.2⟩
  client := fun hK hst h => ⟨hJ.client hK hst h.1, hI.client ⟨hK, h.1⟩ hst h.2⟩
  radio := fun hK hst h => ⟨hJ.radio hK hst h.1, hI.radio ⟨hK, h.1⟩ hst h.2⟩
  upstream := fun hK hst hgoes h => ⟨hJ.upstream hK hst hgoes h.1,
    hI.upstream ⟨hK, h.1⟩ hst hgoes h.2⟩
  ending := fun hK hst h => ⟨hJ.ending hK hst h.1, hI.ending ⟨hK, h.1⟩ hst h.2⟩
  pop := fun hK ht hst h => ⟨hJ.pop hK ht hst h.1, hI.pop ⟨hK, h.1⟩ ht hst h.2⟩
  drained := fun hK ho hst h => ⟨hJ.drained hK ho hst h.1, hI.drained ⟨hK, h.1⟩ ho hst h.2⟩

theorem move (hI : Invariant K I) (h : K s) (hst : Move s t) (hs : I s) : I t := by
  cases hst with
  | idle hst => exact hI.idle h hst hs
  | output hst => exact hI.output h hst hs
  | client hst => exact hI.client h hst hs
  | radio hst => exact hI.radio h hst hs
  | upstream hst hgoes => exact hI.upstream h hst hgoes hs
  | ending hst => exact hI.ending h hst hs
  | pop hactive hreceived howner hwritten hstep hvalid herr hst =>
    exact hI.pop h ⟨⟨howner, hvalid, herr⟩, hactive, hreceived, hwritten, hstep⟩ hst hs
  | drained hfailed hdebt hreceived howner hvalid herr hst =>
    exact hI.drained h ⟨⟨howner, hvalid, herr⟩, hfailed, hdebt, hreceived⟩ hst hs

theorem act (hI : Invariant K I) (h : K s) (hst : Act s t) (hs : I s) : I t := by
  cases hst with
  | step hstep =>
    cases hstep with
    | mk hmove report => exact hI.report report (hI.move h hmove hs)
  | input event => exact hI.input event h hs
  | clock hnow => exact hI.clock h hnow hs

/-- An invariant holds wherever atomic actions lead. -/
theorem acts (hI : Invariant WF I) (h : s.WF) (hst : Acts s t) (hs : I s) : I t := by
  induction hst with
  | refl => exact hs
  | tail hacts hlast ih => exact hI.act (h.acts hacts) hlast ih

/-- **An invariant holds in every state of a run.** -/
theorem run (hI : Invariant WF I) (hstart : s₀.Starts) (h : Run s₀ s) (h₀ : I s₀) : I s :=
  hI.acts hstart.wf (h.acts hstart.wf) h₀

end Invariant

/-! ### Part by part -/

/-- While an inbox result is handed out, whatever each of its parts preserves holds before the last
one. -/
theorem HandsOut.before_last {transaction : Transaction} {payload : Bytes} {M : Broker → Prop}
    (hst : HandsOut transaction payload s t) (hwf : s.WF) (hidle : s.active = none)
    (hanswer : PopAnswer transaction payload) (hs : M s)
    (hreport : ∀ {u} report, M u → M { u with report := report })
    (hpart : ∀ {u v}, u.WF → u.active = none → Pop transaction payload u v → M u → M v) :
    ∃ u, u.WF ∧ u.active = none ∧ M u ∧ Closes transaction payload u t := by
  obtain ⟨u, hparts, hlast⟩ := hst.parts
  suffices h : u.WF ∧ u.active = none ∧ M u from ⟨u, h.1, h.2.1, h.2.2, hlast⟩
  clear hlast hst
  induction hparts with
  | refl => exact ⟨hwf, hidle, hs⟩
  | tail _ hlast ih =>
    obtain ⟨hwf, hidle, hu⟩ := ih
    refine ⟨hwf.popStep (pop_payload hanswer.valid) hlast, ?_, ?_⟩
    · exact (Shrinks.of_parts (.single hlast)).active.trans hidle
    · cases hlast with
      | report report => exact hreport report hu
      | mk hpop report => exact hreport report (hpart hwf hidle hpop hu)

/-- The parts of the end of an epoch: sessions leave one by one, a maintenance operation is released,
and the broker fails. -/
inductive Part : Broker → Broker → Prop
  | dropped {s : Broker} {id : Nat} {session : Session} (reason : Text)
      (h : s.sessions.find? id = some session) : Part s (s.drop id session reason)
  | released {s : Broker} {transaction : Transaction} (h : s.active = some transaction)
      (hstep : transaction.step = .maintenanceResult) : Part s (s.release transaction.owner)
  | writtenDown {s : Broker} (id writeId : Nat) : Part s (s.writtenDown id writeId)
  | upstream {s t : Broker} (h : Upstream s t) : Part s t
  | failed {s : Broker} (reason : Text) (hrunning : s.failed = false)
      (hsessions : s.sessions.isEmpty = true) : Part s (s.fail reason)

theorem WF.part (h : s.WF) (hst : Part s t) : t.WF := by
  cases hst with
  | dropped reason hlive => exact h.drop hlive reason
  | released => exact h.release _
  | writtenDown => exact h.writtenDown _ _
  | upstream hst => exact h.upstream hst
  | failed reason _ hsessions => exact h.fail hsessions reason

theorem parts_leave (id : Nat) : ReflTransGen Part s (s.leave id) := by
  unfold leave
  split
  · exact .refl
  · next session hlive =>
    split
    · next hdelivering =>
      obtain ⟨transaction, hactive, -, hstep, rfl⟩ := delivering_iff.mp hdelivering
      exact (ReflTransGen.single (.dropped _ hlive)).tail (.released hactive hstep)
    · exact .single (.dropped _ hlive)

theorem parts_failAll (hrunning : s.failed = false) (reason : Text) :
    ReflTransGen Part s (s.failAll reason) := by
  have hleft : ∀ (ids : List Nat) (u : Broker), ReflTransGen Part u (ids.foldl leave u) := by
    intro ids
    induction ids with
    | nil => exact fun _ => .refl
    | cons id ids ih => exact fun u => (parts_leave id).trans (ih _)
  refine (hleft _ s).tail (.failed reason (by simpa using hrunning) ?_)
  exact OrdMap.isEmpty_iff_keys.mpr (leaveAll_keys rfl)

theorem Ending.parts (h : s.WF) (hst : Ending s t) : ReflTransGen Part s t := by
  cases hst with
  | failed hrunning => exact parts_failAll hrunning _
  | @completed transaction writeId _ hactive hstep =>
    have hwritten := ReflTransGen.single (Part.writtenDown (s := s) transaction.owner writeId)
    exact (hwritten.tail (.released hactive hstep)).trans
      (parts_failAll (by exact h.running hactive) _)
  | @deserted _ _ reason hactive hstep hlive =>
    have hdropped := ReflTransGen.single (Part.dropped reason hlive)
    exact (hdropped.tail (.released hactive hstep)).trans
      (parts_failAll (by exact h.running hactive) _)
  | undelivered hupstream hmaintenance =>
    refine (ReflTransGen.single (.upstream hupstream)).trans (parts_failAll ?_ _)
    obtain ⟨transaction, hactive⟩ : ∃ transaction, s.active = some transaction := by
      cases hactive : s.active with
      | none => simp [underMaintenance, hactive] at hmaintenance
      | some transaction => exact ⟨transaction, rfl⟩
    exact hupstream.failed_eq.trans (h.running hactive)

/-- `I` is preserved by every part of every atomic action, where `K` is known. -/
structure Stepwise (K I : Broker → Prop) : Prop where
  report : ∀ {s} report, I s → I { s with report := report }
  input : ∀ {s} event, K s → I s → I (s.note (.input event))
  clock : ∀ {s now}, K s → s.now ≤ now → I s → I { s with now := now }
  idle : ∀ {s t}, K s → Idle s t → I s → I t
  output : ∀ {s t}, K s → Output s t → I s → I t
  client : ∀ {s t}, K s → Client s t → I s → I t
  radio : ∀ {s t}, K s → Radio s t → I s → I t
  part : ∀ {s t}, K s → Part s t → I s → I t
  took : ∀ {s transaction payload}, K s → s.Takes transaction payload → I s → I (s.took payload)
  pop : ∀ {s t transaction payload}, K s → s.active = none → PopAnswer transaction payload →
    Pop transaction payload s t → I s → I t
  closes : ∀ {s t transaction payload}, K s → Closes transaction payload s t → I s → I t

namespace Stepwise

variable {K I J : Broker → Prop}

/-- An invariant may rely on one that is proved first. -/
theorem and (hJ : Stepwise K J) (hI : Stepwise (fun s => K s ∧ J s) I) :
    Stepwise K fun s => J s ∧ I s where
  report := fun report h => ⟨hJ.report report h.1, hI.report report h.2⟩
  input := fun event hK h => ⟨hJ.input event hK h.1, hI.input event ⟨hK, h.1⟩ h.2⟩
  clock := fun hK hnow h => ⟨hJ.clock hK hnow h.1, hI.clock ⟨hK, h.1⟩ hnow h.2⟩
  idle := fun hK hst h => ⟨hJ.idle hK hst h.1, hI.idle ⟨hK, h.1⟩ hst h.2⟩
  output := fun hK hst h => ⟨hJ.output hK hst h.1, hI.output ⟨hK, h.1⟩ hst h.2⟩
  client := fun hK hst h => ⟨hJ.client hK hst h.1, hI.client ⟨hK, h.1⟩ hst h.2⟩
  radio := fun hK hst h => ⟨hJ.radio hK hst h.1, hI.radio ⟨hK, h.1⟩ hst h.2⟩
  part := fun hK hst h => ⟨hJ.part hK hst h.1, hI.part ⟨hK, h.1⟩ hst h.2⟩
  took := fun hK ht h => ⟨hJ.took hK ht h.1, hI.took ⟨hK, h.1⟩ ht h.2⟩
  pop := fun hK hidle ha hst h =>
    ⟨hJ.pop hK hidle ha hst h.1, hI.pop ⟨hK, h.1⟩ hidle ha hst h.2⟩
  closes := fun hK hst h => ⟨hJ.closes hK hst h.1, hI.closes ⟨hK, h.1⟩ hst h.2⟩

theorem handsOut (hI : Stepwise WF I) {transaction : Transaction} {payload : Bytes} (h : s.WF)
    (hidle : s.active = none) (hanswer : PopAnswer transaction payload)
    (hst : HandsOut transaction payload s t) (hs : I s) : I t := by
  obtain ⟨u, hwf, -, hu, hlast⟩ := hst.before_last h hidle hanswer hs (fun report hu =>
    hI.report report hu) fun hwf hidle hpop hu => hI.pop hwf hidle hanswer hpop hu
  exact hI.closes hwf hlast hu

theorem ending (hI : Stepwise WF I) (h : s.WF) (hst : Ending s t) (hs : I s) : I t := by
  have hparts := hst.parts h
  clear hst
  have hall : t.WF ∧ I t := by
    induction hparts with
    | refl => exact ⟨h, hs⟩
    | tail _ hlast ih => exact ⟨ih.1.part hlast, hI.part ih.1 hlast ih.2⟩
  exact hall.2

/-- What is preserved part by part is preserved by every atomic action. -/
theorem invariant (hI : Stepwise WF I) : Invariant WF I where
  report := hI.report
  input := hI.input
  clock := hI.clock
  idle := hI.idle
  output := hI.output
  client := hI.client
  radio := hI.radio
  upstream := fun h hst _ hs => hI.part h (.upstream hst) hs
  ending := hI.ending
  pop := fun h ht hst hs => hI.handsOut (h.rest.note _) rfl ht.toPopAnswer hst (hI.took h ht hs)
  drained := fun h ho hst hs => hI.handsOut h (h.ended ho.failed).2 ho.toPopAnswer hst hs

end Stepwise

/-! ### States between the parts -/

/-- The states that parts of atomic actions lead to from the start `s₀` of a run. What has been
proved of all of them may be used wherever a further property is preserved. -/
inductive Reached (s₀ : Broker) : Broker → Prop
  | start (h : s₀.Starts) : Reached s₀ s₀
  | report {s : Broker} (report : Report) (h : Reached s₀ s) :
      Reached s₀ { s with report := report }
  | input {s : Broker} (event : Event) (h : Reached s₀ s) : Reached s₀ (s.note (.input event))
  | clock {s : Broker} {now : Time} (h : Reached s₀ s) (hnow : s.now ≤ now) :
      Reached s₀ { s with now := now }
  | idle {s t : Broker} (h : Reached s₀ s) (hst : Idle s t) : Reached s₀ t
  | output {s t : Broker} (h : Reached s₀ s) (hst : Output s t) : Reached s₀ t
  | client {s t : Broker} (h : Reached s₀ s) (hst : Client s t) : Reached s₀ t
  | radio {s t : Broker} (h : Reached s₀ s) (hst : Radio s t) : Reached s₀ t
  | part {s t : Broker} (h : Reached s₀ s) (hst : Part s t) : Reached s₀ t
  | took {s : Broker} {transaction : Transaction} {payload : Bytes} (h : Reached s₀ s)
      (ht : s.Takes transaction payload) : Reached s₀ (s.took payload)
  | pop {s t : Broker} {transaction : Transaction} {payload : Bytes} (h : Reached s₀ s)
      (hidle : s.active = none) (ha : PopAnswer transaction payload)
      (hst : Pop transaction payload s t) : Reached s₀ t
  | closes {s t : Broker} {transaction : Transaction} {payload : Bytes} (h : Reached s₀ s)
      (hst : Closes transaction payload s t) : Reached s₀ t

theorem Reached.wf (h : Reached s₀ s) : s.WF := by
  induction h with
  | start h => exact h.wf
  | report report _ ih => exact { ih with }
  | input event _ ih => exact ih.note _
  | clock _ hnow ih => exact ih.clock hnow
  | idle _ hst ih => exact ih.idle hst
  | output _ hst ih => exact ih.output hst
  | client _ hst ih => exact ih.client hst
  | radio _ hst ih => exact ih.radio hst
  | part _ hst ih => exact ih.part hst
  | took _ ht ih => exact ih.rest.note _
  | pop _ _ ha hst ih => exact ih.pop (pop_payload ha.valid) hst
  | closes _ hst ih => exact ih.closes hst

theorem Stepwise.reached {K : Broker → Prop} : Stepwise K (Reached s₀) where
  report := .report
  input := fun event _ h => .input event h
  clock := fun _ hnow h => .clock h hnow
  idle := fun _ hst h => .idle h hst
  output := fun _ hst h => .output h hst
  client := fun _ hst h => .client h hst
  radio := fun _ hst h => .radio h hst
  part := fun _ hst h => .part h hst
  took := fun _ ht h => .took h ht
  pop := fun _ hidle ha hst h => .pop h hidle ha hst
  closes := fun _ hst h => .closes h hst

theorem Reached.parts (h : Reached s₀ s) (hst : ReflTransGen Part s t) : Reached s₀ t := by
  induction hst with
  | refl => exact h
  | tail _ hlast ih => exact ih.part hlast

theorem Run.reached (h : Run s₀ s) (hstart : s₀.Starts) : Reached s₀ s :=
  Stepwise.reached.invariant.run hstart h (.start hstart)

theorem Stepwise.mono {K L I : Broker → Prop} (hI : Stepwise K I) (hKL : ∀ s, L s → K s) :
    Stepwise L I where
  report := hI.report
  input := fun event h => hI.input event (hKL _ h)
  clock := fun h => hI.clock (hKL _ h)
  idle := fun h => hI.idle (hKL _ h)
  output := fun h => hI.output (hKL _ h)
  client := fun h => hI.client (hKL _ h)
  radio := fun h => hI.radio (hKL _ h)
  part := fun h => hI.part (hKL _ h)
  took := fun h => hI.took (hKL _ h)
  pop := fun h => hI.pop (hKL _ h)
  closes := fun h => hI.closes (hKL _ h)

theorem Invariant.mono {K L I : Broker → Prop} (hI : Invariant K I) (hKL : ∀ s, L s → K s) :
    Invariant L I where
  report := hI.report
  input := fun event h => hI.input event (hKL _ h)
  clock := fun h => hI.clock (hKL _ h)
  idle := fun h => hI.idle (hKL _ h)
  output := fun h => hI.output (hKL _ h)
  client := fun h => hI.client (hKL _ h)
  radio := fun h => hI.radio (hKL _ h)
  upstream := fun h => hI.upstream (hKL _ h)
  ending := fun h => hI.ending (hKL _ h)
  pop := fun h => hI.pop (hKL _ h)
  drained := fun h => hI.drained (hKL _ h)

/-- What every atomic action preserves holds in every state of a run. -/
theorem Invariant.holds {I : Broker → Prop} (hI : Invariant (Reached s₀) I) (hstart : s₀.Starts)
    (h : Run s₀ s) (h₀ : I s₀) : I s :=
  ((Stepwise.reached.invariant.and (hI.mono fun _ h => h.2)).run hstart h ⟨.start hstart, h₀⟩).2

/-- **What every part preserves holds wherever a run leads.** -/
theorem Stepwise.holds {I : Broker → Prop} (hI : Stepwise (Reached s₀) I)
    (h₀ : s₀.Starts → I s₀) (h : Reached s₀ s) : I s := by
  induction h with
  | start h => exact h₀ h
  | report report _ ih => exact hI.report report ih
  | input event h ih => exact hI.input event h ih
  | clock h hnow ih => exact hI.clock h hnow ih
  | idle h hst ih => exact hI.idle h hst ih
  | output h hst ih => exact hI.output h hst ih
  | client h hst ih => exact hI.client h hst ih
  | radio h hst ih => exact hI.radio h hst ih
  | part h hst ih => exact hI.part h hst ih
  | took h ht ih => exact hI.took h ht ih
  | pop h hidle ha hst ih => exact hI.pop h hidle ha hst ih
  | closes h hst ih => exact hI.closes h hst ih

end Broker

end MeshCoreTCPMux

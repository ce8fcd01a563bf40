import MeshCoreTCPMux.Broker.Bounds

/-!
# Successive brokers

When an epoch has ended, a fresh broker carries on with the dedicated slots, the orphan and the
radio state that the old one left. A run of any number of brokers is a run of each of them in turn
(`Epochs`), and no call of it escapes with anything but a protocol error, which only the drain of a
failed broker raises (`handle_returns`).
-/

namespace MeshCoreTCPMux

open Protocol Program Relation

/-- The time of a call, if it is given one. -/
def Event.time : Event → Option Time
  | .admission _ _ now | .clientFrame _ _ now | .clientClosed _ now _ _ | .written _ _ _ now
  | .writeFailed _ _ _ now | .upstreamFrame _ now | .tick now | .drainUncertainFrame _ now =>
    some now
  | .failEpoch _ => none

namespace Broker

variable {s s₀ t : Broker} {past : List Note} {clock : Time}

/-! ### Runs of successive brokers -/

/-- A fresh broker that carries on from `s`: it inherits the orphan, the slots and the radio
state. -/
def Succeeds (s t : Broker) : Prop :=
  s.failed = true ∧ 6 ≤ t.selfKey.length ∧ ∃ epoch selfKey now,
    t = Broker.new epoch selfKey s.config now s.orphan s.dedicatedSlots s.radio

/-- Runs of any number of successive brokers: the history of the earlier ones, the time of the last
call, and the state of the current one. -/
inductive Epochs : List Note → Time → Broker → Prop
  | start {s : Broker} (h : s.Starts) : Epochs [] 0 s
  | call {past : List Note} {clock : Time} {s : Broker} {event : Event} (h : Epochs past clock s)
      (hevent : s.Promised event) (htime : ∀ now, event.time = some now → clock ≤ now) :
      Epochs past (event.time.getD clock) (s.after event)
  | taken {past : List Note} {clock : Time} {s : Broker} (h : Epochs past clock s) :
      Epochs past clock s.takeActions.2
  | next {past : List Note} {clock : Time} {s t : Broker} (h : Epochs past clock s)
      (hnext : s.Succeeds t) : Epochs (past ++ s.log) clock t

/-- Nobody is attached to the slots of a failed broker, nor owns its lease. -/
theorem Succeeds.starts (h : s.WF) (hbounded : s.Bounded) (hst : s.Succeeds t) : t.Starts := by
  obtain ⟨hfailed, hkey, epoch, selfKey, now, rfl⟩ := hst
  have hgone := (h.ended hfailed).1
  refine ⟨⟨_, _, _, _, _, _, _, rfl⟩, h.config, hkey, h.orphan, fun k slot hslot => ?_, ?_⟩
  · refine ⟨?_, (h.slot k slot hslot).items, hbounded.slot k slot hslot⟩
    cases hid : slot.attachedSessionId with
    | none => rfl
    | some id =>
      obtain ⟨session, hlive, -⟩ := (h.slot k slot hslot).attached id hid
      simp [h.no_session hfailed id] at hlive
  · rw [← hgone]
    exact h.lease

/-- The current broker of an epoch is in a run of its own. -/
theorem Epochs.run (h : Epochs past clock s) : ∃ s₀ : Broker, s₀.Starts ∧ Run s₀ s := by
  induction h with
  | start h => exact ⟨_, h, .start⟩
  | call _ hevent _ ih =>
    obtain ⟨s₀, hstart, hrun⟩ := ih
    exact ⟨s₀, hstart, hrun.call hevent⟩
  | taken _ ih =>
    obtain ⟨s₀, hstart, hrun⟩ := ih
    exact ⟨s₀, hstart, hrun.taken⟩
  | next _ hnext ih =>
    obtain ⟨s₀, hstart, hrun⟩ := ih
    exact ⟨_, hnext.starts (hstart.wf.acts (hrun.acts hstart.wf)) (hrun.bounded hstart), .start⟩

theorem Epochs.wf (h : Epochs past clock s) : s.WF := by
  obtain ⟨s₀, hstart, hrun⟩ := h.run
  exact hstart.wf.acts (hrun.acts hstart.wf)

/-- A run stays in its epoch. -/
theorem Run.epoch (hstart : s₀.WF) (h : Run s₀ s) : s.epoch = s₀.epoch := by
  have hacts := h.acts hstart
  clear h
  induction hacts with
  | refl => rfl
  | tail _ hlast ih =>
    refine Eq.trans ?_ ih
    cases hlast with
    | step hstep => exact (Fixed.step hstep).epoch
    | input | clock => rfl

/-! ### No call escapes -/

/-- How a call may end: it returns, but the drain of a failed broker may raise a protocol error. -/
inductive Ends (s : Broker) (event : Event) : Prop
  | returns {t : Broker} (h : handle event s = .ok () t)
  | drain {payload : Bytes} {now : Time} {message : Text} {t : Broker}
      (hevent : event = .drainUncertainFrame payload now)
      (h : handle event s = .error (.protocol message) t)

theorem WF.ends (h : s.WF) {event : Event} (hevent : s.Promised event)
    (hslot : ∀ id k now, event = .admission id (some k) now → k ∈ s.dedicatedSlots.keys) :
    s.Ends event := by
  have hhandle := h.handle hevent
  unfold wp at hhandle
  split at hhandle
  · next hok => exact .returns hok
  · next hraise =>
    obtain ⟨hmay, -⟩ := hhandle
    cases event with
    | drainUncertainFrame payload now =>
      obtain ⟨message, rfl⟩ := hmay
      exact .drain rfl hraise
    | admission id slotId now =>
      -- only an admission to a slot that is not configured raises
      obtain ⟨⟨k, rfl, hk⟩, -⟩ := hmay
      exact absurd (hslot id k now rfl) hk
    | _ => exact hmay.elim

end Broker

end MeshCoreTCPMux

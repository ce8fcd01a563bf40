import MeshCoreTCPMux.Broker.Load
import MeshCoreTCPMux.Broker.Epochs

/-!
# Applying the broker's actions

The runtime executes the effects of a call only after the broker has decided it, and feeds every
refused write back as a call of its own, which may leave further actions. The clients are the ids of
the endpoints that the runtime knows; the endpoint of the companion, id 0, is always there. What an
endpoint answers, and the times at which the clock is read, are given from outside (`Outcome`).

The loop ends (`applyActions_finishes`): a refusal leaves new actions only at the expense of the load
of the broker.
-/

namespace MeshCoreTCPMux

open Program

/-- What `Endpoint#enqueue` answers to one write, and the time of the call that reports a refusal. -/
structure Outcome where
  accepted : Bool
  now : Time

/-- The state of `apply_actions`: `writes` counts the frames handled so far, `processed` is the ghost
list of all actions handled. -/
structure Applying where
  broker : Broker
  clients : List Nat
  ended : Bool := false
  writes : Nat := 0
  processed : List Action := []

abbrev ApplyingM := EStateM Error Applying

/-- A call on the broker. -/
def onBroker {α : Type} (m : BrokerM α) : ApplyingM α := fun r =>
  match m r.broker with
  | .ok a t => .ok a { r with broker := t }
  | .error e t => .error e { r with broker := t }

/-- One turn of the loop over a batch. -/
def applyAction (outcomes : Nat → Outcome) (action : Action) : ApplyingM Unit := do
  modify fun r => { r with processed := r.processed ++ [action] }
  match action with
  | .sendFrame frame =>
    let r ← get
    let outcome := outcomes r.writes
    modify fun r => { r with writes := r.writes + 1 }
    let known := frame.session = 0 ∨ frame.session ∈ r.clients
    if ¬ (known ∧ outcome.accepted) then
      onBroker (handle (.writeFailed frame.session frame.epoch ["writer queue unavailable"]
        outcome.now))
  | .closeSession session _ =>
    modify fun r => { r with clients := r.clients.filter (· ≠ session) }
  | .endEpoch epoch _ =>
    modify fun r => { r with ended := r.ended || epoch == r.broker.epoch }
  | .diagnostic _ _ => pure ()

/-- `apply_actions`, for at most so many rounds: whether the epoch ended, or nothing when the rounds
do not suffice. -/
def applyActions (outcomes : Nat → Outcome) : Nat → ApplyingM (Option Bool)
  | 0 => pure none
  | rounds + 1 => do
    let actions := (← get).broker.takeActions.1
    modify fun r => { r with broker := r.broker.takeActions.2 }
    if actions.isEmpty then pure (some (← get).ended)
    else
      actions.forM (applyAction outcomes)
      applyActions outcomes rounds

namespace Applying

open Broker

variable {s s₀ : Broker} {outcomes : Nat → Outcome} {r : Applying} {action : Action}

/-! ### One action, one batch -/

/-- What holds between the actions: the broker's run goes on, the clock has not passed the next
outcome, and the epoch is reported ended as far as that was among the actions. -/
structure Holds (s₀ : Broker) (outcomes : Nat → Outcome) (r : Applying) : Prop where
  run : Run s₀ r.broker
  clock : r.broker.now ≤ (outcomes r.writes).now
  ended : r.ended = true ↔ ∃ reason, .endEpoch s₀.epoch reason ∈ r.processed

theorem Holds.processed (h : Holds s₀ outcomes r) (hother : ∀ reason, action ≠ .endEpoch s₀.epoch reason) :
    Holds s₀ outcomes { r with processed := r.processed ++ [action] } where
  run := h.run
  clock := h.clock
  ended := by
    refine h.ended.trans (exists_congr fun reason => ?_)
    rw [List.mem_append, List.mem_singleton]
    exact ⟨.inl, fun hmem => hmem.resolve_right fun heq => hother reason heq.symm⟩

/-- A refusal is a call of the broker's run, and does not raise. -/
theorem Holds.refused (h : Holds s₀ outcomes r) (hstart : s₀.Starts)
    (hmono : ∀ n, (outcomes n).now ≤ (outcomes (n + 1)).now) (id epoch : Nat) (reason : Text) :
    Returns (onBroker (handle (.writeFailed id epoch reason (outcomes r.writes).now)))
      { r with writes := r.writes + 1 } fun _ t => Holds s₀ outcomes t ∧ Pays r.broker t.broker := by
  have hpromised : r.broker.Promised (.writeFailed id epoch reason (outcomes r.writes).now) := h.clock
  have hwf := hstart.wf.acts (h.run.acts hstart.wf)
  have hspent := Spent.handle id epoch reason (outcomes r.writes).now r.broker
  unfold wp at hspent
  cases hwf.ends hpromised (fun _ _ _ h => nomatch h) with
  | drain hevent => cases hevent
  | @returns t hreturns =>
    rw [hreturns] at hspent
    have hrun := h.run.call hpromised
    unfold Broker.after at hrun
    rw [hreturns] at hrun
    refine returns_iff.mpr ⟨(), { r with writes := r.writes + 1, broker := t }, ?_, ?_, hspent.pays⟩
    · simp only [onBroker, hreturns]
    · exact ⟨hrun, hspent.clock.elim (fun heq => heq ▸ h.clock.trans (hmono _))
        (fun heq => heq ▸ hmono _), h.ended⟩

theorem Holds.step (h : Holds s₀ outcomes r) (hstart : s₀.Starts)
    (hmono : ∀ n, (outcomes n).now ≤ (outcomes (n + 1)).now) (action : Action) :
    Returns (applyAction outcomes action) r fun _ t =>
      Holds s₀ outcomes t ∧ Pays r.broker t.broker := by
  unfold Returns applyAction
  rw [wp_bind, wp_modify]
  cases action with
  | sendFrame frame =>
    have hprocessed := @Holds.processed _ _ _ (Action.sendFrame frame) h fun _ => nofun
    rw [wp_bind, wp_get, wp_bind, wp_modify, wp_ite]
    split
    · exact hprocessed.refused hstart hmono _ _ _
    · exact ⟨⟨h.run, h.clock.trans (hmono _), hprocessed.ended⟩, refl_of Pays r.broker⟩
  | closeSession id reason =>
    have hprocessed := @Holds.processed _ _ _ (Action.closeSession id reason) h fun _ => nofun
    exact ⟨⟨h.run, h.clock, hprocessed.ended⟩, refl_of Pays r.broker⟩
  | endEpoch epoch reason =>
    have hepoch : r.broker.epoch = s₀.epoch := h.run.epoch hstart.wf
    refine ⟨⟨h.run, h.clock, ?_⟩, refl_of Pays r.broker⟩
    rw [Bool.or_eq_true, h.ended, beq_iff_eq, hepoch]
    constructor
    · rintro (⟨other, hmem⟩ | rfl)
      · exact ⟨other, List.mem_append_left _ hmem⟩
      · exact ⟨reason, List.mem_append_right _ (List.mem_singleton.mpr rfl)⟩
    · rintro ⟨other, hmem⟩
      rcases List.mem_append.mp hmem with hmem | hmem
      · exact .inl ⟨other, hmem⟩
      · exact .inr (Action.endEpoch.inj (List.mem_singleton.mp hmem)).1.symm
  | diagnostic message category =>
    exact ⟨h.processed fun _ => nofun, refl_of Pays r.broker⟩

theorem Holds.batch (h : Holds s₀ outcomes r) (hstart : s₀.Starts)
    (hmono : ∀ n, (outcomes n).now ≤ (outcomes (n + 1)).now) (actions : List Action) :
    Returns (actions.forM (applyAction outcomes)) r fun _ t =>
      Holds s₀ outcomes t ∧ Pays r.broker t.broker := by
  refine wp_forM (fun _ t => Holds s₀ outcomes t ∧ Pays r.broker t.broker)
    ⟨h, refl_of Pays r.broker⟩ (fun action _ t ht => ?_) fun _ ht => ht
  exact (ht.1.step hstart hmono action).mono fun _ _ hu => ⟨hu.1, trans_of Pays ht.2 hu.2⟩

/-! ### All rounds -/

/-- More rounds change nothing. -/
theorem applyActions_succ {rounds : Nat} {ended : Bool} {r t : Applying}
    (h : applyActions outcomes rounds r = .ok (some ended) t) :
    applyActions outcomes (rounds + 1) r = .ok (some ended) t := by
  induction rounds generalizing r with
  | zero => cases h
  | succ rounds ih =>
    rw [applyActions, get_bind, modify_bind] at h ⊢
    split at h
    · next hempty =>
      rw [if_pos hempty]
      exact h
    · next hsome =>
      rw [if_neg hsome]
      cases hbatch : r.broker.takeActions.1.forM (applyAction outcomes)
          { r with broker := r.broker.takeActions.2 } with
      | ok _ u =>
        rw [bind_of_ok hbatch] at h ⊢
        exact ih h
      | error e u =>
        change EStateM.bind _ _ _ = _ at h
        simp [EStateM.bind, hbatch] at h

/-- Each round but the first takes its actions out of the load. -/
theorem Holds.rounds (h : Holds s₀ outcomes r) (hstart : s₀.Starts)
    (hmono : ∀ n, (outcomes n).now ≤ (outcomes (n + 1)).now) {rounds : Nat}
    (hrounds : r.broker.report.actions = [] ∧ 0 < rounds ∨ r.broker.load + 2 ≤ rounds) :
    Returns (applyActions outcomes rounds) r fun ended t =>
      ended = some t.ended ∧ Holds s₀ outcomes t ∧ t.broker.report.actions = [] := by
  induction rounds generalizing r with
  | zero => omega
  | succ rounds ih =>
    have htaken : Holds s₀ outcomes { r with broker := r.broker.takeActions.2 } :=
      ⟨h.run.taken, h.clock, h.ended⟩
    unfold Returns
    rw [applyActions, wp_bind, wp_get, wp_bind, wp_modify, wp_ite]
    split
    · exact ⟨rfl, htaken, rfl⟩
    · next hsome =>
      have hload : r.broker.load + 2 ≤ rounds + 1 :=
        hrounds.resolve_left fun hnone => hsome (List.isEmpty_iff.mpr hnone.1)
      rw [wp_bind]
      refine wp_of_returns (htaken.batch hstart hmono _) fun _ t ⟨ht, hpays⟩ => ih ht ?_
      rcases hpays with hless | ⟨-, hactions⟩
      · have hless' : t.broker.load < r.broker.load := hless
        omega
      · exact .inl ⟨hactions, by omega⟩

/-- **Applying the actions ends**, after at most two rounds more than the load, whatever the
endpoints answer. It reports the end of the epoch exactly when that was among the actions. -/
theorem applyActions_finishes (hstart : s₀.Starts) (hrun : Run s₀ s) (clients : List Nat)
    (outcomes : Nat → Outcome) (hfirst : s.now ≤ (outcomes 0).now)
    (hmono : ∀ n, (outcomes n).now ≤ (outcomes (n + 1)).now) :
    ∃ r, (∀ rounds, s.load + 2 ≤ rounds →
        applyActions outcomes rounds { broker := s, clients := clients } = .ok (some r.ended) r) ∧
      r.broker.takeActions.1 = [] ∧ Run s₀ r.broker ∧
      (r.ended = true ↔ ∃ reason, .endEpoch s.epoch reason ∈ r.processed) := by
  have hholds : Holds s₀ outcomes { broker := s, clients := clients } :=
    ⟨hrun, hfirst, by simp⟩
  obtain ⟨ended, r, hreturns, rfl, hr, hactions⟩ :=
    returns_iff.mp (hholds.rounds hstart hmono (.inr le_rfl))
  refine ⟨r, fun rounds hrounds => ?_, hactions, hr.run, ?_⟩
  · induction rounds, hrounds using Nat.le_induction with
    | base => exact hreturns
    | succ rounds _ ih => exact applyActions_succ ih
  · rw [hrun.epoch hstart.wf]
    exact hr.ended

/-- One client joins, and every write is refused. -/
theorem applyActions_finishes_first :
    let s := first.after (.admission 1 none 1)
    let outcomes : Nat → Outcome := fun _ => ⟨false, 2⟩
    ∃ r, (∀ rounds, s.load + 2 ≤ rounds →
        applyActions outcomes rounds { broker := s, clients := [1] } = .ok (some r.ended) r) ∧
      r.broker.takeActions.1 = [] ∧ Run first r.broker ∧
      (r.ended = true ↔ ∃ reason, .endEpoch s.epoch reason ∈ r.processed) :=
  applyActions_finishes first_starts
    (show Run first (first.after (.admission 1 none 1)) from
      .call .start ⟨by decide, by decide, nofun, nofun⟩)
    [1] _ (show (_ : Time) ≤ 2 by decide) fun _ => le_rfl

end Applying

end MeshCoreTCPMux

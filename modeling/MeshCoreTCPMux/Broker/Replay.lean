import MeshCoreTCPMux.Broker.Run

/-!
# Scripted runs

Each call of the broker refines the transition system (`calls_refine`): it leads from one
well-formed state to another by atomic actions alone.

What the runtime promises of a call can be decided, so a list of calls can be replayed as a run.
-/

namespace MeshCoreTCPMux

/-- The session that comes or goes at an entry. -/
def Note.mover : Note → Option Nat
  | admitted id _ | closed id _ => some id
  | _ => none

namespace Broker

variable {s s₀ : Broker}

theorem fresh_iff {id : Nat} {log : List Note} :
    Fresh id log ↔ ∀ n ∈ log, n.mover ≠ some id := by
  constructor
  · rintro ⟨hadmitted, hclosed⟩ n hn hmover
    cases n with
    | admitted =>
      obtain rfl := Option.some.inj hmover
      exact hadmitted _ hn
    | closed =>
      obtain rfl := Option.some.inj hmover
      exact hclosed _ hn
    | _ => cases hmover
  · intro h
    exact ⟨fun _ hn => h _ hn rfl, fun _ hn => h _ hn rfl⟩

instance (id : Nat) (log : List Note) : Decidable (Fresh id log) :=
  decidable_of_iff _ fresh_iff.symm

instance (s : Broker) : ∀ event, Decidable (s.Promised event)
  | .admission id _ now => inferInstanceAs (Decidable (s.now ≤ now ∧ 0 < id ∧ Fresh id s.log))
  | .clientFrame _ payload now => inferInstanceAs (Decidable (s.now ≤ now ∧ payload ≠ []))
  | .clientClosed _ now _ _ | .written _ _ _ now | .writeFailed _ _ _ now | .upstreamFrame _ now
  | .tick now | .drainUncertainFrame _ now => inferInstanceAs (Decidable (s.now ≤ now))
  | .failEpoch _ => inferInstanceAs (Decidable True)

/-- The broker after a list of calls. -/
def replay (s : Broker) (events : List Event) : Broker := events.foldl after s

/-- Every call of a list keeps what the runtime promises. -/
def Allows (s : Broker) : List Event → Prop
  | [] => True
  | event :: events => s.Promised event ∧ (s.after event).Allows events

instance : ∀ (events : List Event) (s : Broker), Decidable (s.Allows events)
  | [], _ => inferInstanceAs (Decidable True)
  | event :: events, s =>
    have := instDecidableAllows events (s.after event)
    inferInstanceAs (Decidable (s.Promised event ∧ (s.after event).Allows events))

/-- **The code refines the transition system.** In every run, whatever the runtime may call, and
whether the call returns or raises, the broker gets from the record of the call to its state
afterwards by atomic actions alone, as time passes. The history grows by the call and by what these
actions record. -/
theorem calls_refine (hstart : s₀.Starts) (h : Run s₀ s) {event : Event}
    (hevent : s.Promised event) :
    (s.after event).WF ∧ Turns (s.record (.input event)) (s.after event) ∧
      ∃ notes, (s.after event).log = s.log ++ .input event :: notes ∧
        ∀ n ∈ notes, n.internal = true := by
  have hturns := (h.reached hstart).wf.turns hevent
  refine ⟨((h.call hevent).reached hstart).wf, hturns, ?_⟩
  obtain ⟨notes, hlog, hinternal⟩ := hturns.log
  refine ⟨notes, ?_, List.all_eq_true.mp hinternal⟩
  rw [hlog]
  show s.log ++ [.input event] ++ notes = _
  rw [List.append_assoc, List.singleton_append]

/-- The first client is admitted, and greeted with a hint. -/
theorem calls_refine_admission :
    let event := Event.admission 1 none 0
    (first.after event).WF ∧ Turns (first.record (.input event)) (first.after event) ∧
      ∃ notes, (first.after event).log = first.log ++ .input event :: notes ∧
        ∀ n ∈ notes, n.internal = true :=
  calls_refine first_starts .start (by decide +kernel)
theorem Run.replay (h : Run s₀ s) {events : List Event} (hallows : s.Allows events) :
    Run s₀ (s.replay events) := by
  induction events generalizing s with
  | nil => exact h
  | cons event events ih => exact ih (h.call hallows.1) hallows.2

end Broker

end MeshCoreTCPMux

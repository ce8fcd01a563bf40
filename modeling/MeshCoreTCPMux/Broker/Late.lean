import MeshCoreTCPMux.Broker.Overflow

/-!
# Late completions

Writers and readers report to the broker asynchronously, so that a report may come when what it is
about is gone: the epoch, the write, or the session (`Late`). Such a call changes nothing, but for
the scheduler, which every call may run (`late_events_harmless`). It cannot touch a session that took
the place of the one it names: ids are not used twice.
-/

namespace MeshCoreTCPMux

open Protocol Program Relation History

namespace Broker

variable {s s₀ t : Broker}

/-- A session that has been closed. -/
def Gone (s : Broker) (id : Nat) : Prop := ∃ reason, .closed id reason ∈ s.log

/-- A call, made at `now`, about something that is gone. -/
inductive Late (s : Broker) : Event → Time → Prop
  | writtenElsewhere {id epoch writeId : Nat} {now : Time} (h : epoch ≠ s.epoch) :
      Late s (.written id epoch writeId now) now
  | failedElsewhere {id epoch : Nat} {reason : Text} {now : Time} (h : epoch ≠ s.epoch) :
      Late s (.writeFailed id epoch reason now) now
  | notPending {epoch writeId : Nat} {now : Time} (h : writeId ∉ s.upstreamWrites.keys) :
      Late s (.written 0 epoch writeId now) now
  | written {id epoch writeId : Nat} {now : Time} (hid : id ≠ 0) (h : s.Gone id) :
      Late s (.written id epoch writeId now) now
  | writeFailed {id epoch : Nat} {reason : Text} {now : Time} (hid : id ≠ 0) (h : s.Gone id) :
      Late s (.writeFailed id epoch reason now) now
  | clientClosed {id : Nat} {now : Time} {reason : Text} {category : Category}
      (h : s.Gone id) : Late s (.clientClosed id now reason category) now
  | clientFrame {id : Nat} {payload : Bytes} {now : Time} (h : s.Gone id) :
      Late s (.clientFrame id payload now) now

/-- Whether a late call does not even run the scheduler. -/
def ignores (s : Broker) : Event → Bool
  | .written _ epoch _ _ | .writeFailed _ epoch _ _ => epoch ≠ s.epoch || s.failed
  | .clientFrame _ _ _ => true
  | _ => s.failed

/-! ### What is not there cannot be changed -/

theorem record_input (event : Event) : s.record (.input event) = s.note (.input event) := by
  simp [record, note, Note.effect]

theorem handle_eq (event : Event) (m : BrokerM Unit)
    (h : handle event = do perform (.input event); m) :
    handle event s = m (s.note (.input event)) := by
  rw [h, ← record_input]
  rfl

theorem schedule_of_failed (h : s.failed = true) (now : Time) : schedule now s = .ok () s := by
  unfold schedule
  rw [get_bind]
  simp only [h, if_true]
  rfl

/-- The scheduler sets the clock first. -/
theorem schedule_clock (h : s.failed = false) (now clock : Time) :
    schedule now { s with now := clock } = schedule now s := by
  unfold schedule
  rw [get_bind, get_bind, if_neg (Bool.eq_false_iff.mp h)]
  rfl

/-! ### Late calls -/

theorem clientFrame_gone {id : Nat} (h : s.sessions.find? id = none) (payload : Bytes)
    (now : Time) : MeshCoreTCPMux.clientFrame id payload now s = .ok () { s with now := now } := by
  unfold MeshCoreTCPMux.clientFrame
  rw [modify_bind, get_bind]
  simp only [h]
  split
  · rfl
  · rfl

theorem clientClosed_gone {id : Nat} (h : s.sessions.find? id = none) (now : Time) (reason : Text)
    (category : Category) : MeshCoreTCPMux.clientClosed id now reason category s
      = schedule now { s with now := now } := by
  unfold MeshCoreTCPMux.clientClosed
  rw [modify_bind]
  exact bind_of_ok (remove_gone reason category h)

theorem writeFailed_gone {id epoch : Nat} (hid : id ≠ 0) (h : s.sessions.find? id = none)
    (hcurrent : epoch = s.epoch ∧ ¬ s.failed = true) (reason : Text) (now : Time) :
    MeshCoreTCPMux.writeFailed id epoch reason now s = schedule now { s with now := now } := by
  unfold MeshCoreTCPMux.writeFailed
  rw [get_bind, if_pos hcurrent, modify_bind, if_neg hid]
  exact bind_of_ok (remove_gone _ _ h)

theorem writeFailed_ignored {id epoch : Nat} (h : ¬ (epoch = s.epoch ∧ ¬ s.failed = true))
    (reason : Text) (now : Time) : MeshCoreTCPMux.writeFailed id epoch reason now s = .ok () s := by
  unfold MeshCoreTCPMux.writeFailed
  rw [get_bind, if_neg h]
  rfl

theorem written_gone {id epoch : Nat} (hid : id ≠ 0) (h : s.sessions.find? id = none)
    (hcurrent : epoch = s.epoch ∧ ¬ s.failed = true) (writeId : Nat) (now : Time) :
    MeshCoreTCPMux.written id epoch writeId now s = schedule now s := by
  unfold MeshCoreTCPMux.written
  have hnot : ¬ s.sessions.contains id = true := by simp [OrdMap.contains, h]
  rw [get_bind, if_pos hcurrent, if_neg hid, if_neg hnot]

/-- The active transaction waits for no other write than those that are pending. -/
theorem written_notPending (h : s.Registered) {writeId epoch : Nat}
    (hwrite : writeId ∉ s.upstreamWrites.keys) (hcurrent : epoch = s.epoch ∧ ¬ s.failed = true)
    (now : Time) : MeshCoreTCPMux.written 0 epoch writeId now s = schedule now s := by
  have hother : ¬ s.active.any (·.upstreamWriteId = some writeId) = true := by
    rw [h.upstream] at hwrite
    cases hactive : s.active with
    | none => simp
    | some x =>
      rw [hactive] at hwrite
      simpa using hwrite
  unfold MeshCoreTCPMux.written
  rw [get_bind, if_pos hcurrent, if_pos rfl, modify_bind, OrdMap.erase_of_notMem hwrite]
  exact congrFun (if_neg hother) _

theorem written_ignored {id epoch : Nat} (h : ¬ (epoch = s.epoch ∧ ¬ s.failed = true))
    (writeId : Nat) (now : Time) : MeshCoreTCPMux.written id epoch writeId now s = .ok () s := by
  unfold MeshCoreTCPMux.written
  rw [get_bind, if_neg h]
  rfl

/-- **Late completions are harmless.** In every run, a call about an epoch, a write or a session that
is gone does what the scheduler alone does at that time; and when the epoch is another one, when the
broker has failed, or when the call brings a client's frame, it does nothing but remember the
time. -/
theorem late_events_harmless (hstart : s₀.Starts) (h : Run s₀ s) {event : Event} {now : Time}
    (hlate : s.Late event now) :
    if s.ignores event then
      ∃ clock, handle event s = .ok () { s.note (.input event) with now := clock }
    else handle event s = schedule now (s.note (.input event)) := by
  have hreached := h.reached hstart
  have hgone : ∀ id, s.Gone id → (s.note (.input event)).sessions.find? id = none :=
    fun id ⟨reason, hclosed⟩ => hreached.attended.gone hclosed
  have hregistered := hreached.registered.note (.input event)
  -- a report is ignored unless it comes from the current epoch of a running broker
  have hreport : ∀ epoch, (decide (epoch ≠ s.epoch) || s.failed) = false →
      epoch = s.epoch ∧ ¬ s.failed = true := by
    intro epoch hnot
    rw [Bool.or_eq_false_iff, decide_eq_false_iff_not, not_not] at hnot
    exact ⟨hnot.1, Bool.eq_false_iff.mp hnot.2⟩
  have hignored : ∀ epoch, (decide (epoch ≠ s.epoch) || s.failed) = true →
      ¬ (epoch = s.epoch ∧ ¬ s.failed = true) := by
    rintro epoch hor ⟨rfl, hnot⟩
    simp [hnot] at hor
  split
  · next hignores =>
    cases hlate with
    | writtenElsewhere | notPending | written =>
      refine ⟨s.now, (handle_eq _ (MeshCoreTCPMux.written _ _ _ _) rfl).trans ?_⟩
      exact written_ignored (by exact hignored _ hignores) _ _
    | failedElsewhere | writeFailed =>
      refine ⟨s.now, (handle_eq _ (MeshCoreTCPMux.writeFailed _ _ _ _) rfl).trans ?_⟩
      exact writeFailed_ignored (by exact hignored _ hignores) _ _
    | clientClosed hid =>
      refine ⟨now, (handle_eq _ (MeshCoreTCPMux.clientClosed _ _ _ _) rfl).trans ?_⟩
      refine (clientClosed_gone (hgone _ hid) _ _ _).trans ?_
      exact schedule_of_failed (by exact hignores) now
    | clientFrame hid =>
      refine ⟨now, (handle_eq _ (MeshCoreTCPMux.clientFrame _ _ _) rfl).trans ?_⟩
      exact clientFrame_gone (hgone _ hid) _ _
  · next hruns =>
    have hruns := Bool.eq_false_iff.mpr hruns
    rw [handle_eq event _ rfl]
    cases hlate with
    | writtenElsewhere hepoch => exact absurd (hreport _ hruns).1 hepoch
    | failedElsewhere hepoch => exact absurd (hreport _ hruns).1 hepoch
    | notPending hwrite => exact written_notPending hregistered hwrite (hreport _ hruns) now
    | written hid hremoved => exact written_gone hid (hgone _ hremoved) (hreport _ hruns) _ now
    | writeFailed hid hremoved =>
      refine (writeFailed_gone hid (hgone _ hremoved) (hreport _ hruns) _ now).trans ?_
      exact schedule_clock (by exact Bool.eq_false_iff.mpr (hreport _ hruns).2) now now
    | clientClosed hremoved =>
      refine (clientClosed_gone (hgone _ hremoved) now _ _).trans ?_
      exact schedule_clock (by exact hruns) now now
    | clientFrame => cases hruns

/-- A writer that belonged to a session replaced by another one reports a failure. -/
theorem late_events_harmless_first :
    let s := (first.after (.admission 1 none 1)).after (.clientClosed 1 2 [] .normal)
    handle (.writeFailed 1 1 [] 3) s = schedule 3 (s.note (.input (.writeFailed 1 1 [] 3))) := by
  intro s
  have hrun : Run first s :=
    .call (.call .start ⟨by decide, by decide, nofun, nofun⟩) (show (_ : Time) ≤ 2 by decide)
  have hgone : s.Gone 1 := ⟨[], by decide⟩
  have hlate : s.Late (.writeFailed 1 1 [] 3) 3 := .writeFailed (by decide) hgone
  have hruns : ¬ s.ignores (.writeFailed 1 1 [] 3) = true := by decide
  exact (if_neg hruns).mp (late_events_harmless first_starts hrun hlate)

end Broker

end MeshCoreTCPMux

import MeshCoreTCPMux.Broker.Keeps
import MeshCoreTCPMux.Broker.Membership

/-!
# Command queues

The history shows which commands of a session were queued and which have left its queue. They leave
in the order in which they were queued, each once, and what is left of a live session's queue is
what has not left it (`InOrder`).
-/

namespace MeshCoreTCPMux

open Protocol Relation

/-- An entry at which a command joins or leaves a queue. -/
def Note.queues : Note → Bool
  | queued _ _ | taken _ _ => true
  | _ => false

namespace Broker

variable {s s₀ t : Broker} {l m : List Note} {id : Nat}

/-- The commands of a session that a history shows queued. -/
def queuedBy (id : Nat) (log : List Note) : List Command :=
  log.filterMap fun | .queued i command => if i = id then some command else none | _ => none

/-- The commands of a session that a history shows taken from its queue. -/
def takenBy (id : Nat) (log : List Note) : List Command :=
  log.filterMap fun | .taken i command => if i = id then some command else none | _ => none

theorem queuedBy_append (id : Nat) (l m : List Note) :
    queuedBy id (l ++ m) = queuedBy id l ++ queuedBy id m := List.filterMap_append

theorem takenBy_append (id : Nat) (l m : List Note) :
    takenBy id (l ++ m) = takenBy id l ++ takenBy id m := List.filterMap_append

theorem queuedBy_eq_nil (h : ∀ n ∈ l, n.queues = false ∨ n.about ≠ some id) :
    queuedBy id l = [] := by
  refine List.filterMap_eq_nil_iff.mpr fun n hn => ?_
  have hn := h n hn
  cases n with
  | queued i command => simpa [Note.queues, Note.about] using hn
  | _ => rfl

theorem takenBy_eq_nil (h : ∀ n ∈ l, n.queues = false ∨ n.about ≠ some id) :
    takenBy id l = [] := by
  refine List.filterMap_eq_nil_iff.mpr fun n hn => ?_
  have hn := h n hn
  cases n with
  | taken i command => simpa [Note.queues, Note.about] using hn
  | _ => rfl

/-- Commands leave their queues in order. -/
structure InOrder (s : Broker) : Prop where
  live : ∀ id session, s.sessions.find? id = some session →
    queuedBy id s.log = takenBy id s.log ++ session.commands
  order : ∀ id, takenBy id s.log <+: queuedBy id s.log

namespace InOrder

theorem keep (hs : s.InOrder) (h : Keeps (·.queues = false) (·.commands) s t) : t.InOrder := by
  obtain ⟨notes, hlog, hnotes⟩ := h.log
  have hqueued : ∀ id, queuedBy id t.log = queuedBy id s.log := fun id => by
    rw [hlog, queuedBy_append, queuedBy_eq_nil fun n hn => .inl (hnotes n hn), List.append_nil]
  have htaken : ∀ id, takenBy id t.log = takenBy id s.log := fun id => by
    rw [hlog, takenBy_append, takenBy_eq_nil fun n hn => .inl (hnotes n hn), List.append_nil]
  refine ⟨fun id y hy => ?_, fun id => ?_⟩
  · obtain ⟨x, hx, hxy⟩ := h.sessions id y hy
    rw [hqueued, htaken, ← hxy]
    exact hs.live id x hx
  · rw [hqueued, htaken]
    exact hs.order id

theorem take (hs : s.InOrder) {session : Session} {command : Command}
    (h : s.Head id session command) : (s.take id command).InOrder where
  live := by
    intro i y hy
    simp only [Broker.take, OrdMap.find?_modify] at hy ⊢
    rw [queuedBy_append, takenBy_append]
    split at hy
    · next hid =>
      subst hid
      rw [h.live, Option.map_some] at hy
      obtain rfl := Option.some.inj hy
      have hlive := hs.live i session h.live
      rw [h.commands] at hlive
      simp [queuedBy, takenBy] at hlive ⊢
      exact hlive
    · next hid =>
      have hlive := hs.live i y hy
      simpa [queuedBy, takenBy, Ne.symm hid] using hlive
  order := by
    intro i
    simp only [Broker.take]
    rw [queuedBy_append, takenBy_append]
    by_cases hid : id = i
    · subst hid
      have hlive := hs.live id session h.live
      rw [h.commands] at hlive
      rw [hlive]
      simp [queuedBy, takenBy]
    · simpa [queuedBy, takenBy, hid] using hs.order i

theorem queue (hs : s.InOrder) {session : Session}
    (hlive : s.sessions.find? id = some session) (command : Command) :
    (s.queue id command).InOrder where
  live := by
    intro i y hy
    simp only [Broker.queue, OrdMap.find?_modify] at hy ⊢
    rw [queuedBy_append, takenBy_append]
    split at hy
    · next hid =>
      subst hid
      rw [hlive, Option.map_some] at hy
      obtain rfl := Option.some.inj hy
      rw [hs.live i session hlive]
      simp [queuedBy, takenBy]
    · next hid =>
      have hother := hs.live i y hy
      simpa [queuedBy, takenBy, Ne.symm hid] using hother
  order := by
    intro i
    simp only [Broker.queue]
    rw [queuedBy_append, takenBy_append]
    have hnone : takenBy i [.queued id command] = [] := rfl
    rw [hnone, List.append_nil]
    exact (hs.order i).trans (List.prefix_append _ _)

theorem enter (hs : s.InOrder) (hattended : s.Attended) (hfresh : Fresh id s.log)
    (slotId : Option Nat) : (s.enter id slotId).InOrder := by
  have hnotes : ∀ n ∈ .admitted id slotId ::
      (if slotId.isNone then s.orphan.toList.map (Note.offered id) else []), n.queues = false := by
    intro n hn
    rcases List.mem_cons.mp hn with rfl | hn
    · rfl
    · split at hn
      · obtain ⟨_, -, rfl⟩ := List.mem_map.mp hn
        rfl
      · cases hn
  have hquiet : ∀ i, queuedBy i (s.enter id slotId).log = queuedBy i s.log ∧
      takenBy i (s.enter id slotId).log = takenBy i s.log := fun i => by
    simp only [Broker.enter]
    rw [queuedBy_append, takenBy_append, queuedBy_eq_nil fun n hn => .inl (hnotes n hn),
      takenBy_eq_nil fun n hn => .inl (hnotes n hn)]
    exact ⟨List.append_nil _, List.append_nil _⟩
  refine ⟨fun i y hy => ?_, fun i => by rw [(hquiet i).1, (hquiet i).2]; exact hs.order i⟩
  rw [(hquiet i).1, (hquiet i).2]
  simp only [Broker.enter, OrdMap.find?_insert] at hy
  split at hy
  · next hid =>
    subst hid
    obtain rfl := Option.some.inj hy
    have hunused := hattended.unused hfresh
    rw [queuedBy_eq_nil fun n hn => .inr (hunused n hn),
      takenBy_eq_nil fun n hn => .inr (hunused n hn)]
    rfl
  · exact hs.live i y hy

theorem upstream (hs : s.InOrder) (h : Upstream s t) : t.InOrder := by
  cases h with
  | popDispatched | setupAccepted =>
    exact hs.keep (.notes rfl (List.append_assoc _ _ _) (by simp [Note.queues]))
  | dispatched _ h =>
    exact (hs.take h).keep (.notes rfl (List.append_assoc _ _ _) (by simp [Note.queues]))
  | restored => exact hs.keep (.notes (m := [_]) rfl rfl (by simp [Note.queues]))
  | setupRejected _ _ _ _ _ _ ht | progressed _ ht | heldReply _ ht | finalReply _ ht =>
    refine (hs.keep (.forwarded ht (fun _ _ => rfl) (fun _ _ => rfl) fun _ => rfl)).keep ?_
    exact .notes (m := [_]) rfl rfl (by simp [Note.queues])
  | scopedReply _ ht =>
    refine (hs.keep (.forwarded ht (fun _ _ => rfl) (fun _ _ => rfl) fun _ => rfl)).keep ?_
    exact .notes rfl (List.append_assoc _ _ _) (by simp [Note.queues])

end InOrder

/-- **Queues are first in, first out** in every state. -/
theorem Stepwise.inOrder : Stepwise (Reached s₀) InOrder where
  report := fun _ hs => { hs with }
  input := fun _ _ hs => hs.keep (.note rfl)
  clock := fun _ _ hs => { hs with }
  idle := fun _ h hs =>
    hs.keep (.idle h (fun _ _ => rfl) (fun _ _ => rfl) fun _ _ => rfl)
  output := fun _ h hs =>
    hs.keep (.output h (fun _ _ => rfl) (fun _ _ => rfl) (fun _ _ => rfl) fun _ => rfl)
  client := by
    intro s t hK h hs
    cases h with
    | entered _ _ _ hfresh => exact hs.enter hK.attended hfresh _
    | queued _ hlive => exact hs.queue hlive _
    | answered h => exact (hs.take h).keep (.send (fun _ _ => rfl) rfl)
    | @selected id _ command h =>
      have hscoped : Keeps (·.queues = false) (·.commands) (s.take id command)
          ((s.take id command).setScope id command.payload) := .modify fun _ => rfl
      exact (hs.take h).keep ((hscoped.trans (.send (fun _ _ => rfl) rfl)).trans (.note rfl))
    | choked h => exact (hs.take h).keep (.drop rfl)
    | @waits id _ command deadline h =>
      have hwaiting : Keeps (·.queues = false) (·.commands) (s.take id command)
          { s.take id command with
            sessions := (s.take id command).sessions.modify id fun x =>
              { x with sync := some ⟨s.popSequence + 1, deadline⟩ } } := .modify fun _ => rfl
      refine (hs.take h).keep (hwaiting.trans ?_)
      exact .notes (m := [.synced id ⟨s.popSequence + 1, deadline⟩]) rfl rfl
        (by simp [Note.queues])
    | delivered h =>
      refine InOrder.keep ?_ (.shiftInbox (fun _ _ => rfl) fun _ => rfl)
      exact (hs.take h).keep (.send (fun _ _ => rfl) rfl)
    | @syncExpired id =>
      have hended : Keeps (·.queues = false) (·.commands) s (s.endSync id) := .modify fun _ => rfl
      exact hs.keep (hended.trans (.send (fun _ _ => rfl) rfl))
    | broadcast => exact hs.keep (.send (fun _ _ => rfl) rfl)
  radio := fun _ h hs =>
    hs.keep (.radio h (fun _ _ => rfl) (fun _ => rfl) (fun _ _ => rfl) fun _ => rfl)
  part := by
    intro s t _ h hs
    cases h with
    | dropped => exact hs.keep (.drop rfl)
    | released => exact hs.keep (.same rfl rfl)
    | writtenDown => exact hs.keep (.writtenDown (fun _ _ => rfl) fun _ _ => rfl)
    | upstream h => exact hs.upstream h
    | failed => exact hs.keep (.notes (m := [_]) rfl rfl (by simp [Note.queues]))
  took := fun _ _ hs => hs.keep (.notes (m := [_]) rfl rfl (by simp [Note.queues]))
  pop := by
    intro s t transaction payload _ _ _ h hs
    refine hs.keep (.pop h (fun _ _ => rfl) (fun _ _ => rfl) (fun _ _ => rfl) (fun _ _ => rfl) ?_)
    intro n hn
    cases n with
    | queued | taken => cases hn
    | _ => rfl
  closes := fun _ h hs => hs.keep (.closes h rfl)

theorem Starts.inOrder (h : s.Starts) : s.InOrder := by
  obtain ⟨epoch, selfKey, config, now, orphan, slots, radio, rfl⟩ := h.fresh
  exact ⟨fun _ _ hlive => (nomatch hlive), fun _ => List.prefix_rfl⟩

theorem Reached.inOrder (h : Reached s₀ s) : s.InOrder := Stepwise.inOrder.holds Starts.inOrder h

end Broker

end MeshCoreTCPMux

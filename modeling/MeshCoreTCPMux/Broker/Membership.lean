import MeshCoreTCPMux.Broker.Run
import MeshCoreTCPMux.Library.History

/-!
# Membership

The history tells which sessions are live: those admitted and not closed since (`live`). Whatever
concerns a session happens while it is live (`Entitled`), and an id that has been closed never comes
back (`closed_for_good`).
-/

namespace MeshCoreTCPMux

open Protocol Relation History

/-- The live sessions after an entry. -/
def Note.attend (ids : List Nat) : Note → List Nat
  | admitted id _ => ids ++ [id]
  | closed id _ => ids.filter (· ≠ id)
  | _ => ids

/-- The session that an entry concerns, unless it comes or goes. -/
def Note.about : Note → Option Nat
  | sent frame _ => some frame.session
  | queued id _ | taken id _ | synced id _ | selected id _ | offered id _ => some id
  | _ => none

/-- An entry at which a session comes or goes. -/
def Note.moves : Note → Bool
  | admitted _ _ | closed _ _ => true
  | _ => false

namespace Broker

variable {s s₀ t : Broker} {l m : List Note} {n : Note}

/-- The sessions that a history shows live, in admission order. -/
def live (log : List Note) : List Nat := log.foldl Note.attend []

theorem live_snoc (l : List Note) (n : Note) : live (l ++ [n]) = n.attend (live l) := by
  simp [live]

theorem Note.attend_of_stays (hn : n.moves = false) (ids : List Nat) : n.attend ids = ids := by
  cases n with
  | admitted | closed => cases hn
  | _ => rfl

theorem live_append (hm : ∀ n ∈ m, n.moves = false) : live (l ++ m) = live l := by
  induction m generalizing l with
  | nil => rw [List.append_nil]
  | cons n m ih =>
    rw [List.append_cons, ih fun k hk => hm k (List.mem_cons_of_mem _ hk), live_snoc,
      Note.attend_of_stays (hm n List.mem_cons_self)]

/-- An entry may stand in a history: ids are fresh when they come, and what concerns a session
happens while it is live. -/
def Entitled (past : List Note) : Note → Prop
  | .admitted id _ => 0 < id ∧ Fresh id past
  | .closed id _ => id ∈ live past ∨ Fresh id past
  | n => ∀ id, n.about = some id → id ∈ live past

theorem Entitled.of_about (hn : n.moves = false) (h : ∀ id, n.about = some id → id ∈ live l) :
    Entitled l n := by
  cases n with
  | admitted | closed => cases hn
  | _ => exact h

/-- Entries that concern live sessions, at which nobody comes or goes. -/
theorem Entitled.append (h : Justified Entitled l)
    (hm : ∀ n ∈ m, n.moves = false ∧ ∀ id, n.about = some id → id ∈ live l) :
    Justified Entitled (l ++ m) := by
  induction m generalizing l with
  | nil => rwa [List.append_nil]
  | cons n m ih =>
    obtain ⟨hn, habout⟩ := hm n List.mem_cons_self
    rw [List.append_cons]
    refine ih (h.snoc (.of_about hn habout)) fun k hk => ?_
    rw [live_snoc, Note.attend_of_stays hn]
    exact hm k (List.mem_cons_of_mem _ hk)

/-- The sessions of a broker are those that its history shows live. -/
structure Attended (s : Broker) : Prop where
  live : s.sessions.keys = live s.log
  entitled : Justified Entitled s.log

namespace Attended

/-- Nobody comes or goes, and what happens concerns live sessions. -/
theorem extend (h : s.Attended) (hkeys : t.sessions.keys = s.sessions.keys)
    (hlog : ∃ notes, t.log = s.log ++ notes ∧
      ∀ n ∈ notes, n.moves = false ∧ ∀ id, n.about = some id → id ∈ s.sessions.keys) :
    t.Attended := by
  obtain ⟨notes, hlog, hnotes⟩ := hlog
  rw [h.live] at hnotes
  refine ⟨?_, hlog ▸ Entitled.append h.entitled hnotes⟩
  rw [hkeys, hlog, live_append fun n hn => (hnotes n hn).1]
  exact h.live

theorem note (h : s.Attended) (hn : n.moves = false)
    (habout : ∀ id, n.about = some id → id ∈ s.sessions.keys) : (s.note n).Attended where
  live := by
    rw [Broker.note, live_snoc, Note.attend_of_stays hn]
    exact h.live
  entitled := h.entitled.snoc (.of_about hn (h.live ▸ habout))

theorem modifySession (h : s.Attended) (id : Nat) (f : Session → Session) :
    Attended { s with sessions := s.sessions.modify id f } :=
  { h with live := by simpa using h.live }

theorem take (h : s.Attended) {id : Nat} {session : Session}
    (hlive : s.sessions.find? id = some session) (command : Command) :
    (s.take id command).Attended := by
  have htaken := h.modifySession id fun x => { x with commands := x.commands.tail }
  refine htaken.note (n := .taken id command) rfl fun i hi => ?_
  obtain rfl := Option.some.inj hi
  simpa using OrdMap.mem_keys_of_find? hlive

theorem send (h : s.Attended) {id : Nat} (hlive : id ∈ s.sessions.keys) (payload : Bytes)
    (cause : Cause) : (s.send id payload cause).Attended := by
  have hwritten : Attended { s with
      nextWrite := s.nextWrite + 1
      sessions := s.sessions.modify id fun x =>
        { x with writes := x.writes.insert (s.nextWrite + 1) ⟨s.now + s.config.writeTimeout⟩ } } :=
    { h.modifySession id _ with }
  refine hwritten.note rfl fun i hi => ?_
  obtain rfl := Option.some.inj hi
  simpa using hlive

theorem drop (h : s.Attended) {id : Nat} {session : Session}
    (hlive : s.sessions.find? id = some session) (session' : Session) (reason : Text) :
    (s.drop id session' reason).Attended where
  live := by
    simp only [Broker.drop, live_snoc, Note.attend, OrdMap.keys_erase, h.live]
  entitled := h.entitled.snoc (Or.inl (h.live ▸ OrdMap.mem_keys_of_find? hlive))

theorem shiftInbox (h : s.Attended) (id : Nat) (session : Session) (item : Bytes) :
    (s.shiftInbox id session item).Attended := by
  unfold Broker.shiftInbox
  split
  · exact h.modifySession id _
  · next slotId _ =>
    have hshifted : Attended { s with
        dedicatedSlots := s.dedicatedSlots.modify slotId fun slot =>
          { slot with offlineQueue := slot.offlineQueue.tail }.recordDelivery } := { h with }
    exact hshifted.note rfl fun _ hi => nomatch hi

theorem enter (h : s.Attended) {id : Nat} (slotId : Option Nat) (hid : 0 < id)
    (hfresh : Fresh id s.log) (hnew : id ∉ s.sessions.keys) : (s.enter id slotId).Attended := by
  have hlive : s.sessions.keys ++ [id] = Broker.live (s.log ++ [.admitted id slotId]) := by
    rw [live_snoc, h.live]
    rfl
  have hadmitted : Justified Entitled (s.log ++ [.admitted id slotId]) :=
    h.entitled.snoc (show Entitled _ _ from ⟨hid, hfresh⟩)
  have hoffers : ∀ n ∈ if slotId.isNone then s.orphan.toList.map (Note.offered id) else [],
      n.moves = false ∧ n.about = some id := by
    intro n hn
    split at hn
    · obtain ⟨_, -, rfl⟩ := List.mem_map.mp hn
      exact ⟨rfl, rfl⟩
    · cases hn
  constructor
  · simp only [Broker.enter]
    refine Eq.trans ?_ (congrArg Broker.live (List.append_cons s.log _ _).symm)
    rw [OrdMap.keys_insert_of_notMem hnew, hlive, live_append fun n hn => (hoffers n hn).1]
  · simp only [Broker.enter]
    rw [List.append_cons s.log]
    -- the orphan is offered to the session that has just come
    refine Entitled.append hadmitted fun n hn => ⟨(hoffers n hn).1, fun i hi => ?_⟩
    obtain rfl := Option.some.inj ((hoffers n hn).2.symm.trans hi)
    rw [← hlive]
    exact List.mem_append_right _ (List.mem_singleton_self _)

theorem forwarded {transaction : Transaction} {payload : Bytes} {w : Option Nat} (h : s.Attended)
    (ht : s.Forwarded transaction payload w t) : t.Attended := by
  cases ht with
  | gone => exact h
  | live hlive =>
    have hretargeted : (s.retarget transaction payload).Attended := by
      unfold Broker.retarget
      split
      · exact h.modifySession _ _
      · exact h
    refine hretargeted.send ?_ _ _
    unfold Broker.retarget
    split <;> simpa using OrdMap.mem_keys_of_find? hlive

theorem output (hs : s.Attended) (h : Output s t) : t.Attended := by
  cases h with
  | drop hlive => exact hs.drop hlive _ _
  | hint hlive => exact (hs.send (OrdMap.mem_keys_of_find? hlive) _ _).modifySession _ _

theorem upstream (hs : s.Attended) (h : Upstream s t) : t.Attended := by
  cases h with
  | popDispatched | setupAccepted =>
    exact hs.extend rfl ⟨_, List.append_assoc _ _ _, by simp [Note.moves, Note.about]⟩
  | dispatched hidle h =>
    exact (hs.take h.live _).extend rfl
      ⟨_, List.append_assoc _ _ _, by simp [Note.moves, Note.about]⟩
  | restored => exact hs.extend rfl ⟨[_], rfl, by simp [Note.moves, Note.about]⟩
  | setupRejected _ _ _ _ _ _ ht | progressed _ ht | heldReply _ ht | finalReply _ ht =>
    exact (hs.forwarded ht).extend rfl ⟨[_], rfl, by simp [Note.moves, Note.about]⟩
  | scopedReply _ ht =>
    exact (hs.forwarded ht).extend rfl
      ⟨_, List.append_assoc _ _ _, by simp [Note.moves, Note.about]⟩

theorem offer (hs : s.Attended) {id : Nat} (hlive : id ∈ s.sessions.keys) (item : Bytes) :
    (s.offer id item).Attended := by
  have hoffered := hs.modifySession id fun x => { x with inbox := x.inbox ++ [item] }
  refine hoffered.note (n := .offered id item) rfl fun i hi => ?_
  obtain rfl := Option.some.inj hi
  simpa using hlive

theorem receives (hs : s.Attended) {id : Nat} {session session' : Session}
    (hlive : s.sessions.find? id = some session) (h : s.Receives id session' t) : t.Attended := by
  cases h with
  | held => exact hs
  | served =>
    have hmem := OrdMap.mem_keys_of_find? (find?_endSync hlive)
    exact ((hs.modifySession _ _).send hmem _ _).shiftInbox _ _ _
  | slow => exact hs.drop hlive _ _

end Attended

/-- **Only live sessions take part**, in every state. -/
theorem Stepwise.attended : Stepwise WF Attended where
  report := fun _ hs => { hs with }
  input := fun _ _ hs => hs.note rfl fun _ hi => by cases hi
  clock := fun _ _ hs => { hs with }
  idle := by
    intro s t _ h hs
    cases h with
    | @refuse id _ _ reason hgone hfresh =>
      refine ⟨?_, hs.entitled.snoc (show Entitled _ _ from Or.inr hfresh)⟩
      rw [Broker.note, live_snoc, Note.attend, ← hs.live, List.filter_eq_self.mpr]
      intro i hi
      have hne : i ≠ id := fun heq => OrdMap.find?_eq_none.mp hgone (heq ▸ hi)
      simpa using hne
    | writtenDown => exact hs.modifySession _ _
    | _ => exact { hs with }
  output := fun _ h hs => hs.output h
  client := by
    intro s t hwf h hs
    cases h with
    | entered _ _ hid hfresh =>
      exact hs.enter _ hid hfresh fun hmem => (hwf.known _ hmem).elim hfresh.1
    | @queued id _ payload _ hlive =>
      have hqueued := hs.modifySession id fun x =>
        { x with commands := x.commands ++ [⟨payload, s.now⟩] }
      exact hqueued.note rfl fun i hi => by
        obtain rfl := Option.some.inj hi
        simpa using OrdMap.mem_keys_of_find? hlive
    | answered h => exact (hs.take h.live _).send (OrdMap.mem_keys_of_find? h.take_live) _ _
    | @selected id _ command h =>
      have hmem := OrdMap.mem_keys_of_find? h.take_live
      have hscoped := (hs.take h.live command).modifySession id fun x =>
        { x with scope := command.payload }
      refine Attended.note (hscoped.send (by simpa using hmem) _ _) rfl fun i hi => ?_
      obtain rfl := Option.some.inj hi
      simpa [Broker.send, setScope] using hmem
    | choked h => exact (hs.take h.live _).drop h.take_live _ _
    | @waits id _ command deadline h =>
      have hwaiting := (hs.take h.live command).modifySession id fun x =>
        { x with sync := some ⟨s.popSequence + 1, deadline⟩ }
      have hmem := OrdMap.mem_keys_of_find? h.take_live
      refine { hwaiting.note (n := .synced id ⟨s.popSequence + 1, deadline⟩) rfl ?_ with }
      intro i hi
      obtain rfl := Option.some.inj hi
      simpa using hmem
    | delivered h =>
      exact ((hs.take h.live _).send (OrdMap.mem_keys_of_find? h.take_live) _ _).shiftInbox _ _ _
    | syncExpired hlive =>
      exact (hs.modifySession _ _).send (OrdMap.mem_keys_of_find? (find?_endSync hlive)) _ _
    | broadcast hlive => exact hs.send (OrdMap.mem_keys_of_find? hlive) _ _
  radio := by
    intro s t _ h hs
    cases h with
    | leaseExpired | signingExpired | quarantineOver | notified => exact { hs with }
    | confirmed | unmatched =>
      exact hs.extend rfl ⟨[_], rfl, by simp [Note.moves, Note.about]⟩
    | @matched _ _ remote _ _ _ _ _ _ hlive =>
      have hfreed : Attended { s with radio := { s.radio with remote := remote } } := { hs with }
      exact (hfreed.send (OrdMap.mem_keys_of_find? hlive) _ _).note rfl fun _ hi => by cases hi
  part := by
    intro s t _ h hs
    cases h with
    | dropped _ hlive => exact hs.drop hlive _ _
    | released => exact { hs with }
    | writtenDown => exact hs.modifySession _ _
    | upstream h => exact hs.upstream h
    | failed => exact hs.extend rfl ⟨[_], rfl, by simp [Note.moves, Note.about]⟩
  took := by
    intro s transaction payload _ _ hs
    exact hs.extend rfl ⟨[_], rfl, by simp [Note.moves, Note.about]⟩
  pop := by
    intro s t transaction payload _ _ _ h hs
    cases h with
    | output h => exact hs.output h
    | answered _ hlive =>
      exact (hs.modifySession _ _).send (OrdMap.mem_keys_of_find? (find?_endSync hlive)) _ _
    | duplicate | popped | orphaned | slotOffered =>
      exact hs.extend rfl ⟨[_], rfl, by simp [Note.moves, Note.about]⟩
    | flooded hlive => exact hs.drop hlive _ _
    | @attachedOffered _ slotId _ _ _ _ _ hlive _ ht =>
      have hoffered : (s.offerSlot slotId payload).Attended :=
        hs.extend rfl ⟨[_], rfl, by simp [Note.moves, Note.about]⟩
      exact hoffered.receives hlive ht
    | offered hlive _ _ _ ht =>
      exact (hs.offer (OrdMap.mem_keys_of_find? hlive) _).receives (find?_offer _ hlive) ht
  closes := by
    intro s t transaction payload _ h hs
    cases h with
    | settled =>
      refine hs.extend rfl ⟨_, rfl, fun n hn => ?_⟩
      split at hn
      · cases hn
      · rw [List.mem_singleton.mp hn]
        exact ⟨rfl, fun _ hi => by cases hi⟩
    | continued => exact { hs with }

theorem Starts.attended (h : s.Starts) : s.Attended := by
  obtain ⟨epoch, selfKey, config, now, orphan, slots, radio, rfl⟩ := h.fresh
  exact ⟨rfl, .nil⟩

theorem Reached.attended (h : Reached s₀ s) : s.Attended :=
  (Stepwise.attended.mono fun _ h => h.wf).holds Starts.attended h

theorem Run.attended (h : Run s₀ s) (hstart : s₀.Starts) : s.Attended :=
  (h.reached hstart).attended

/-! ### An id that is fresh -/

/-- A live session was admitted. -/
theorem admitted_of_live {id : Nat} (h : id ∈ live l) : ∃ k, .admitted id k ∈ l := by
  induction l using List.reverseRecOn with
  | nil => cases h
  | append_singleton l n ih =>
    have hpast : id ∈ live l → ∃ k, .admitted id k ∈ l ++ [n] := fun hid =>
      (ih hid).imp fun k hk => List.mem_append_left _ hk
    rw [live_snoc] at h
    cases n with
    | admitted i k =>
      rcases List.mem_append.mp h with hid | hid
      · exact hpast hid
      · obtain rfl := List.mem_singleton.mp hid
        exact ⟨k, List.mem_append_right _ (List.mem_singleton_self _)⟩
    | closed => exact hpast (List.mem_filter.mp h).1
    | _ => exact hpast h

/-- Nothing has concerned an id that is fresh. -/
theorem Attended.unused (h : s.Attended) {id : Nat} (hfresh : Fresh id s.log) :
    ∀ n ∈ s.log, n.about ≠ some id := by
  intro n hn habout
  obtain ⟨past, future, heq⟩ := List.append_of_mem hn
  have hentitled : Entitled past n := h.entitled past n future heq
  have hlive : id ∈ Broker.live past := by
    cases n with
    | admitted | closed => cases habout
    | _ => exact hentitled id habout
  obtain ⟨k, hk⟩ := admitted_of_live hlive
  exact hfresh.1 k (heq ▸ List.mem_append_left _ hk)

/-! ### An id that has been closed -/

/-- An id that has been used is live only as long as it is not closed. -/
theorem not_live_of_used {id : Nat} (h : Justified Entitled (l ++ m)) (hused : ¬ Fresh id l)
    (hgone : id ∉ live l) : id ∉ live (l ++ m) := by
  induction m using List.reverseRecOn with
  | nil => rwa [List.append_nil]
  | append_singleton m n ih =>
    rw [← List.append_assoc] at h ⊢
    have hgone' := ih (h.of_append)
    have hn := h (l ++ m) n [] rfl
    rw [live_snoc]
    cases n with
    | admitted i k =>
      -- only a fresh id comes
      have hne : id ≠ i := by
        rintro rfl
        refine hused ⟨fun k hk => hn.2.1 k ?_, fun r hr => hn.2.2 r ?_⟩ <;>
          exact List.mem_append_left _ ‹_›
      simp [Note.attend, hgone', hne]
    | closed i r => exact fun hmem => hgone' (List.mem_filter.mp hmem).1
    | _ => exact hgone'

end Broker

end MeshCoreTCPMux

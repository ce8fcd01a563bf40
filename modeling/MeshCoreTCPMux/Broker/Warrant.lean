import MeshCoreTCPMux.Broker.Exchange
import MeshCoreTCPMux.Broker.Drain
import MeshCoreTCPMux.Broker.Queues
import MeshCoreTCPMux.Broker.Replay

/-!
# What warrants a pop

A pop takes an item away from the companion for good, so the broker may pop only because a client has
asked. The history shows whether a drain cycle is open (`Warranted`): the sync of a client has opened
it, somebody has been connected ever since, and no empty pop has ended it. Every pop of a run is
dispatched in an open cycle, and after a sync (`pops_warranted`).

The flags of the source allow one thing more. If everybody leaves while a pop is out, and others come
and the companion announces news before the pop is found empty, then that empty reply opens a cycle of
its own, although none of those who are connected has asked. `Opens` says so, and `newcomer` is such a
run.

The invariant is `Licensed`. An action that admits nobody and ends no cycle leaves it alone
(`Lingers`): sessions only leave, so that if somebody is there at its end then somebody was there all
the time.
-/

namespace MeshCoreTCPMux

open Protocol Relation History

/-- An entry that admits nobody, ends no drain cycle and is no pop. -/
def Note.steady : Note → Bool
  | admitted _ _ | drained => false
  | dispatched x _ => x.owner != 0
  | _ => true

namespace Broker

variable {s s₀ t u : Broker} {l m : List Note} {n : Note} {id : Nat} {x : Transaction}
  {payload : Bytes}

/-! ### Open drain cycles -/

/-- A drain cycle opens with a sync that finds nothing, or with an empty reply to a pop. -/
inductive Opens (before : List Note) : Note → Prop
  | synced (id : Nat) (sync : PendingSync) : Opens before (.synced id sync)
  | emptied {payload : Bytes} {o : Outstanding} (now : Time)
      (hempty : opcode payload = respNoMoreMessages) (ho : outstanding before = some o)
      (howner : o.transaction.owner = 0) : Opens before (.replied payload now)

/-- A drain cycle is open: it has not ended, and somebody has been connected ever since it opened. -/
def Warranted (log : List Note) : Prop :=
  ∃ before n after, log = before ++ n :: after ∧ Opens before n ∧ .drained ∉ after ∧
    ∀ front, front <+: after → live (before ++ n :: front) ≠ []

/-- Some client has asked for an item. -/
def Asked (log : List Note) : Prop := ∃ id sync, .synced id sync ∈ log

/-- A pop is dispatched for a client that has asked, in an open cycle. -/
def Sanctioned (past : List Note) : Note → Prop
  | .dispatched x _ => x.owner = 0 → Warranted past ∧ Asked past
  | _ => True

theorem Sanctioned.of_steady (hn : n.steady = true) : Sanctioned l n := by
  cases n with
  | dispatched x =>
    intro howner
    simp [Note.steady, howner] at hn
  | _ => trivial

theorem Asked.append (h : Asked l) (m : List Note) : Asked (l ++ m) := by
  obtain ⟨id, sync, hmem⟩ := h
  exact ⟨id, sync, List.mem_append_left _ hmem⟩

theorem Warranted.live_ne (h : Warranted l) : live l ≠ [] := by
  obtain ⟨before, n, after, rfl, -, -, hlive⟩ := h
  exact hlive after (List.prefix_refl _)

theorem Warranted.opened (hn : Opens l n) (hlive : live (l ++ [n]) ≠ []) : Warranted (l ++ [n]) := by
  refine ⟨l, n, [], rfl, hn, List.not_mem_nil, fun front hfront => ?_⟩
  rw [List.prefix_nil.mp hfront]
  exact hlive

theorem Warranted.snoc (h : Warranted l) (hn : n ≠ .drained) (hlive : live (l ++ [n]) ≠ []) :
    Warranted (l ++ [n]) := by
  obtain ⟨before, k, after, rfl, hopens, hdrained, hstaffed⟩ := h
  refine ⟨before, k, after ++ [n], by simp, hopens, ?_, fun front hfront => ?_⟩
  · intro hmem
    rcases List.mem_append.mp hmem with hmem | hmem
    · exact hdrained hmem
    · exact hn (List.mem_singleton.mp hmem).symm
  · rcases List.prefix_concat_iff.mp hfront with rfl | hfront
    · simpa using hlive
    · exact hstaffed front hfront

/-- Whoever is live after an entry that admits nobody was live before. -/
theorem live_of_live_snoc (hn : n.steady = true) (h : live (l ++ [n]) ≠ []) : live l ≠ [] := by
  intro hnone
  refine h ?_
  rw [live_snoc, hnone]
  cases n with
  | admitted => cases hn
  | _ => rfl

theorem live_of_live_append (hm : ∀ n ∈ m, n.steady = true) (h : live (l ++ m) ≠ []) :
    live l ≠ [] := by
  induction m using List.reverseRecOn with
  | nil => rwa [List.append_nil] at h
  | append_singleton m n ih =>
    rw [← List.append_assoc] at h
    refine ih (fun k hk => hm k (List.mem_append_left _ hk)) (live_of_live_snoc ?_ h)
    exact hm n (List.mem_append_right _ (List.mem_singleton_self n))

/-- A cycle stays open while nobody is admitted, as long as somebody is left in the end. -/
theorem Warranted.append (h : Warranted l) (hm : ∀ n ∈ m, n.steady = true)
    (hlive : live (l ++ m) ≠ []) : Warranted (l ++ m) := by
  induction m using List.reverseRecOn with
  | nil => rwa [List.append_nil]
  | append_singleton m n ih =>
    have hn := hm n (List.mem_append_right _ (List.mem_singleton_self n))
    rw [← List.append_assoc] at hlive ⊢
    refine Warranted.snoc (ih ?_ (live_of_live_snoc hn hlive)) ?_ hlive
    · exact fun k hk => hm k (List.mem_append_left _ hk)
    · rintro rfl
      cases hn

/-! ### What leaves a cycle alone -/

/-- A cycle that the flags show is one that the history shows, and a pop is requested in it only. -/
structure Licensed (s : Broker) : Prop where
  staffed : s.drainAuthorized = true → s.sessions.isEmpty = false
  requested : s.drainRequested = true → s.drainAuthorized = true
  warranted : s.drainAuthorized = true → Warranted s.log
  prompted : (s.drainAuthorized = true ∨ ∃ x, s.active = some x ∧ x.owner = 0) → Asked s.log
  justified : Justified Sanctioned s.log

/-- Nobody is admitted, and the flags of the drain change only when the last session leaves. -/
structure Lingers (s t : Broker) : Prop where
  adds : Adds (·.steady = true) s t
  authorized : t.drainAuthorized = true → s.drainAuthorized = true
  staffed : (s.drainAuthorized = true → s.sessions.isEmpty = false) →
    t.drainAuthorized = true → t.sessions.isEmpty = false
  requested : (s.drainRequested = true → s.drainAuthorized = true) →
    t.drainRequested = true → t.drainAuthorized = true

theorem Attended.live_ne_iff (h : s.Attended) : Broker.live s.log ≠ [] ↔ s.sessions.isEmpty = false := by
  rw [← h.live, ← Bool.not_eq_true, OrdMap.isEmpty_iff_keys]

theorem isEmpty_congr (hkeys : t.sessions.keys = s.sessions.keys) :
    t.sessions.isEmpty = s.sessions.isEmpty := by
  rw [Bool.eq_iff_iff, OrdMap.isEmpty_iff_keys, OrdMap.isEmpty_iff_keys, hkeys]

namespace Lingers

theorem trans (hst : Lingers s t) (htu : Lingers t u) : Lingers s u where
  adds := hst.adds.trans htu.adds
  authorized := fun h => hst.authorized (htu.authorized h)
  staffed := fun h => htu.staffed (hst.staffed h)
  requested := fun h => htu.requested (hst.requested h)

theorem of_adds (hadds : Adds (·.steady = true) s t) (hkeys : t.sessions.keys = s.sessions.keys)
    (hdrain : SameDrain s t) : Lingers s t where
  adds := hadds
  authorized := fun h => hdrain.authorized ▸ h
  staffed := fun h ht => by
    rw [isEmpty_congr hkeys]
    exact h (hdrain.authorized ▸ ht)
  requested := fun h ht => by
    rw [hdrain.authorized]
    exact h (hdrain.requested ▸ ht)

theorem same (hkeys : t.sessions.keys = s.sessions.keys) (hlog : t.log = s.log)
    (hdrain : SameDrain s t) : Lingers s t := of_adds (.refl hlog) hkeys hdrain

theorem refl : Lingers s s := same rfl rfl ⟨rfl, rfl, rfl⟩

theorem note (hn : n.steady = true) : Lingers s (s.note n) := of_adds (.one rfl hn) rfl ⟨rfl, rfl, rfl⟩

theorem send {cause : Cause} : Lingers s (s.send id payload cause) :=
  of_adds (.one rfl rfl) (send_sessions _ _ _) ⟨rfl, rfl, rfl⟩

theorem modify {f : Session → Session} :
    Lingers s { s with sessions := s.sessions.modify id f } :=
  same (OrdMap.keys_modify _ _ _) rfl ⟨rfl, rfl, rfl⟩

/-- With the last session, the cycle ends. -/
theorem drop {session : Session} {reason : Text} : Lingers s (s.drop id session reason) where
  adds := .one rfl rfl
  authorized := fun h => by
    simp only [Broker.drop] at h
    split at h
    · cases h
    · exact h
  staffed := fun _ h => by
    simp only [Broker.drop] at h ⊢
    split at h
    · cases h
    · next hmore => simpa using hmore
  requested := fun h ht => by
    simp only [Broker.drop] at ht ⊢
    split at ht
    · cases ht
    · next hmore => rw [if_neg hmore]; exact h ht

theorem shiftInbox {session : Session} {item : Bytes} :
    Lingers s (s.shiftInbox id session item) := by
  unfold Broker.shiftInbox
  split
  · exact modify
  · exact of_adds (.one rfl rfl) rfl ⟨rfl, rfl, rfl⟩

theorem output (h : Output s t) : Lingers s t := by
  cases h with
  | drop => exact drop
  | hint => exact send.trans modify

theorem receives {session : Session} (h : s.Receives id session t) : Lingers s t := by
  cases h with
  | held => exact refl
  | served =>
    have hended : Lingers s (s.endSync id) := modify
    exact (hended.trans send).trans shiftInbox
  | slow => exact drop

theorem pop (h : Pop x payload s t) : Lingers s t := by
  cases h with
  | output h => exact output h
  | @answered id =>
    have hended : Lingers s (s.endSync id) := modify
    exact hended.trans send
  | duplicate | popped | slotOffered | orphaned => exact of_adds (.one rfl rfl) rfl ⟨rfl, rfl, rfl⟩
  | @attachedOffered _ slotId _ _ _ _ _ _ _ ht =>
    have hoffered : Lingers s (s.offerSlot slotId payload) :=
      of_adds (.one rfl rfl) rfl ⟨rfl, rfl, rfl⟩
    exact hoffered.trans (receives ht)
  | @offered _ id _ _ _ _ _ ht =>
    have hoffered : Lingers s (s.offer id payload) :=
      of_adds (.one rfl rfl) (OrdMap.keys_modify _ _ _) ⟨rfl, rfl, rfl⟩
    exact hoffered.trans (receives ht)
  | flooded => exact drop

theorem idle (h : Idle s t) : Lingers s t := by
  cases h with
  | refuse => exact note rfl
  | writtenDown => exact modify
  | _ => exact same rfl rfl ⟨rfl, rfl, rfl⟩

theorem radio (h : Radio s t) : Lingers s t := by
  cases h with
  | leaseExpired | signingExpired | quarantineOver => exact same rfl rfl ⟨rfl, rfl, rfl⟩
  | notified =>
    refine ⟨.refl rfl, fun h => h, fun h => h, fun h ht => ?_⟩
    -- news requests another pop in an open cycle only
    rcases Bool.or_eq_true_iff.mp ht with hrequested | hauthorized
    · exact h hrequested
    · exact hauthorized
  | @confirmed _ _ ring =>
    have hring : Lingers s { s with radio := { s.radio with dmRing := ring } } :=
      same rfl rfl ⟨rfl, rfl, rfl⟩
    exact hring.trans (note rfl)
  | @unmatched _ _ remote =>
    have hremote : Lingers s { s with radio := { s.radio with remote := remote } } :=
      same rfl rfl ⟨rfl, rfl, rfl⟩
    exact hremote.trans (note rfl)
  | @matched _ _ remote owner =>
    have hremote : Lingers s { s with radio := { s.radio with remote := remote } } :=
      same rfl rfl ⟨rfl, rfl, rfl⟩
    exact (hremote.trans send).trans (note rfl)

theorem take {command : Command} : Lingers s (s.take id command) := by
  have htaken : Lingers s { s with
      sessions := s.sessions.modify id fun x => { x with commands := x.commands.tail } } := modify
  exact htaken.trans (note (n := .taken id command) rfl)

theorem forwarded {w : Option Nat} (h : s.Forwarded x payload w t) : Lingers s t := by
  cases h with
  | gone => exact refl
  | live =>
    refine trans (t := s.retarget x payload) ?_ send
    unfold retarget
    split
    · exact modify
    · exact refl

/-- A turn of the companion's that is no pop. -/
theorem upstream (hwf : s.WF) (h : Upstream s t) :
    (Lingers s t ∧ ∀ x, t.active = some x → x.owner = 0 → ∃ y, s.active = some y ∧ y.owner = 0) ∨
      ∃ x, x.owner = 0 ∧ s.drainRequested = true ∧
        t = ({ s with drainRequested := false, popSequence := s.popSequence + 1 }.claim x s.radio
          s.signing).sendUp [cmdSyncNextMessage] x := by
  -- whoever owns the transaction keeps it
  have howns : ∀ {x y : Transaction}, s.active = some y → y.owner = x.owner → ∀ z, some x = some z →
      z.owner = 0 → ∃ y, s.active = some y ∧ y.owner = 0 := by
    rintro x y hy howner z ⟨⟩ hzero
    exact ⟨y, hy, howner.trans hzero⟩
  cases h with
  | popDispatched _ _ hrequested _ _ htransaction =>
    refine .inr ⟨_, ?_, hrequested, rfl⟩
    rw [htransaction]
  | @dispatched id _ command _ radio signing transaction frame _ hhead _ _ _ htransaction =>
    have howner : transaction.owner ≠ 0 := by
      rw [htransaction]
      rintro rfl
      exact hwf.positive (OrdMap.mem_keys_of_find? hhead.live)
    refine .inl ⟨take.trans (of_adds ⟨[_, _], List.append_assoc _ _ _, ?_⟩ rfl ⟨rfl, rfl, rfl⟩), ?_⟩
    · simp [Note.steady, howner]
    · rintro x ⟨⟩ hzero
      exact absurd hzero howner
  | setupAccepted h =>
    refine .inl ⟨of_adds ⟨[_, _], List.append_assoc _ _ _, ?_⟩ rfl ⟨rfl, rfl, rfl⟩, howns h rfl⟩
    simp [Note.steady]
  | restored => exact .inl ⟨of_adds (.one rfl rfl) rfl ⟨rfl, rfl, rfl⟩, by rintro x ⟨⟩⟩
  | setupRejected _ _ _ _ _ _ ht | finalReply _ ht =>
    exact .inl ⟨(forwarded ht).trans (of_adds (.one rfl rfl) rfl ⟨rfl, rfl, rfl⟩), by rintro x ⟨⟩⟩
  | progressed h ht | heldReply h ht =>
    exact .inl ⟨(forwarded ht).trans (of_adds (.one rfl rfl) rfl ⟨rfl, rfl, rfl⟩),
      howns h.active rfl⟩
  | scopedReply h ht =>
    refine .inl ⟨(forwarded ht).trans (of_adds ⟨[_, _], List.append_assoc _ _ _, ?_⟩ rfl
      ⟨rfl, rfl, rfl⟩), howns h.active rfl⟩
    simp [Note.steady]

end Lingers

namespace Licensed

theorem linger (hs : Licensed s) (hattended : t.Attended) (h : Lingers s t)
    (hactive : ∀ x, t.active = some x → x.owner = 0 → ∃ y, s.active = some y ∧ y.owner = 0) :
    Licensed t where
  staffed := h.staffed hs.staffed
  requested := h.requested hs.requested
  warranted := fun hauthorized => by
    obtain ⟨notes, hlog, hnotes⟩ := h.adds
    have hlive := hattended.live_ne_iff.mpr (h.staffed hs.staffed hauthorized)
    rw [hlog] at hlive ⊢
    exact (hs.warranted (h.authorized hauthorized)).append hnotes hlive
  prompted := fun hcause => by
    obtain ⟨notes, hlog, -⟩ := h.adds
    rw [hlog]
    refine (hs.prompted ?_).append notes
    rcases hcause with hauthorized | ⟨x, hx, howner⟩
    · exact .inl (h.authorized hauthorized)
    · exact .inr (hactive x hx howner)
  justified := by
    obtain ⟨notes, hlog, hnotes⟩ := h.adds
    rw [hlog]
    exact hs.justified.append fun _ n hn => .of_steady (hnotes n hn)

/-- The active transaction is about the same. -/
theorem relax (hs : Licensed s) (hattended : t.Attended) (h : Lingers s t)
    (hcore : t.active.map Transaction.core = s.active.map Transaction.core) : Licensed t := by
  refine hs.linger hattended h fun x hx howner => ?_
  obtain ⟨y, hy, howner', -⟩ := active_of_core hcore hx
  exact ⟨y, hy, howner'.trans howner⟩

/-- Somebody joins. -/
theorem enter (hs : Licensed s) (slotId : Option Nat) : Licensed (s.enter id slotId) where
  staffed := fun _ => by
    have hmem : id ∈ (s.enter id slotId).sessions.keys :=
      OrdMap.mem_keys_of_find? (OrdMap.find?_insert_self _ _ _)
    rw [Bool.eq_false_iff]
    intro hempty
    rw [OrdMap.isEmpty_iff_keys.mp hempty] at hmem
    cases hmem
  requested := hs.requested
  warranted := fun hauthorized => by
    have hjoined : Warranted (s.log ++ [.admitted id slotId]) := by
      refine (hs.warranted hauthorized).snoc (by simp) ?_
      simp [live_snoc, Note.attend]
    have hoffered : ∀ n ∈ (if slotId.isNone then s.orphan.toList.map (Note.offered id) else []),
        n.steady = true ∧ n.moves = false := by
      intro n hn
      split at hn
      · obtain ⟨_, -, rfl⟩ := List.mem_map.mp hn
        exact ⟨rfl, rfl⟩
      · cases hn
    have hlog : (s.enter id slotId).log = (s.log ++ [.admitted id slotId]) ++
        (if slotId.isNone then s.orphan.toList.map (Note.offered id) else []) := by
      simp [Broker.enter]
    rw [hlog]
    refine hjoined.append (fun n hn => (hoffered n hn).1) ?_
    rw [live_append fun n hn => (hoffered n hn).2]
    exact hjoined.live_ne
  prompted := fun hcause => (hs.prompted hcause).append _
  justified := hs.justified.append fun _ n hn => by
    rcases List.mem_cons.mp hn with rfl | hn
    · trivial
    · split at hn
      · obtain ⟨_, -, rfl⟩ := List.mem_map.mp hn
        trivial
      · cases hn

/-- A sync that finds nothing opens a cycle. -/
theorem startSync (hs : Licensed s) (hattended : s.Attended) {session : Session}
    (hlive : s.sessions.find? id = some session) (sync : PendingSync) :
    Licensed (s.startSync id sync) where
  staffed := fun _ => by
    rw [Bool.eq_false_iff]
    intro hempty
    have hmem : id ∈ (s.startSync id sync).sessions.keys := by
      simpa [Broker.startSync] using OrdMap.mem_keys_of_find? hlive
    rw [OrdMap.isEmpty_iff_keys.mp hempty] at hmem
    cases hmem
  requested := fun _ => rfl
  warranted := fun _ => by
    refine Warranted.opened (.synced id sync) ?_
    have hmem : id ∈ live s.log := hattended.live ▸ OrdMap.mem_keys_of_find? hlive
    rw [live_snoc]
    exact List.ne_nil_of_mem hmem
  prompted := fun _ => ⟨id, sync, List.mem_append_right _ (List.mem_singleton_self _)⟩
  justified := hs.justified.snoc trivial

/-- The turn of the inbox consumer. -/
theorem popDispatched (hs : Licensed s) (hrequested : s.drainRequested = true)
    {frame : Bytes} : Licensed (({ s with
      drainRequested := false, popSequence := s.popSequence + 1 }.claim x s.radio
        s.signing).sendUp frame x) := by
  have hauthorized := hs.requested hrequested
  have hwarranted := hs.warranted hauthorized
  have hprompted := hs.prompted (.inl hauthorized)
  have hlive := hwarranted.live_ne
  refine ⟨hs.staffed, fun h => (by cases h), fun _ => ?_, fun _ => ?_, ?_⟩
  · have hclaimed : Warranted (s.log ++ [.dispatched x s.now]) :=
      hwarranted.snoc (by simp) (by rw [live_snoc]; exact hlive)
    exact hclaimed.snoc (by simp) (by rw [live_snoc, live_snoc]; exact hlive)
  · exact (hprompted.append _).append _
  · have hclaimed : Justified Sanctioned (s.log ++ [.dispatched x s.now]) :=
      hs.justified.snoc fun _ => ⟨hwarranted, hprompted⟩
    exact hclaimed.snoc trivial

/-- The parts of the end of an epoch. -/
theorem part (hs : Licensed s) (hwf : s.WF) (hattended : t.Attended) (h : Part s t) :
    Licensed t := by
  cases h with
  | dropped => exact hs.relax hattended .drop rfl
  | released => exact hs.linger hattended (.same rfl rfl ⟨rfl, rfl, rfl⟩) (by rintro x ⟨⟩)
  | writtenDown => exact hs.relax hattended .modify rfl
  | upstream h =>
    rcases Lingers.upstream hwf h with ⟨hlingers, howns⟩ | ⟨x, howner, hrequested, rfl⟩
    · exact hs.linger hattended hlingers howns
    · exact hs.popDispatched hrequested
  | failed reason _ hsessions =>
    refine ⟨fun h => ?_, hs.requested, fun h => ?_, fun h => ?_, hs.justified.snoc trivial⟩
    · exact absurd hsessions (Bool.eq_false_iff.mp (hs.staffed h))
    · exact absurd hsessions (Bool.eq_false_iff.mp (hs.staffed h))
    · rcases h with h | ⟨x, hx, -⟩
      · exact absurd hsessions (Bool.eq_false_iff.mp (hs.staffed h))
      · cases hx

end Licensed

/-- While the answer of a pop is handed out, and somebody is left: some client has asked, and if the
answer is that there is nothing, then it has opened a cycle. -/
structure Reopens (payload : Bytes) (s : Broker) : Prop extends Licensed s where
  asked : s.sessions.isEmpty = false → Asked s.log
  opened : opcode payload = respNoMoreMessages → s.sessions.isEmpty = false → Warranted s.log

namespace Reopens

theorem pop (hs : Reopens payload s) (hattended : s.Attended) (hattended' : t.Attended)
    (h : Pop x payload s t) : Reopens payload t where
  toLicensed := hs.relax hattended' (.pop h) h.calm.core
  asked := fun hleft => by
    obtain ⟨notes, hlog, hnotes⟩ := (Lingers.pop h).adds
    have hlive := hattended'.live_ne_iff.mpr hleft
    rw [hlog] at hlive ⊢
    -- whoever is left was there before
    have hbefore := hattended.live_ne_iff.mp (live_of_live_append hnotes hlive)
    exact (hs.asked hbefore).append notes
  opened := fun hempty hleft => by
    obtain ⟨notes, hlog, hnotes⟩ := (Lingers.pop h).adds
    have hlive := hattended'.live_ne_iff.mpr hleft
    rw [hlog] at hlive ⊢
    have hbefore := hattended.live_ne_iff.mp (live_of_live_append hnotes hlive)
    exact (hs.opened hempty hbefore).append hnotes hlive

/-- The flags are settled. -/
theorem closes (hs : Reopens payload s) (h : Closes x payload s t) : Licensed t := by
  cases h with
  | settled hempty report =>
    have hagain : (s.newerWork x && !s.sessions.isEmpty) = true →
        s.newerWork x = true ∧ s.sessions.isEmpty = false := fun h => by
      simpa using h
    refine ⟨fun h => (hagain h).2, fun h => h, fun h => ?_, fun h => ?_, ?_⟩
    · obtain ⟨hnewer, hleft⟩ := hagain h
      show Warranted (s.log ++ if s.newerWork x then [] else [.drained])
      rw [if_pos hnewer, List.append_nil]
      exact hs.opened hempty hleft
    · rcases h with h | hpop
      · exact (hs.asked (hagain h).2).append _
      · exact (hs.prompted (.inr hpop)).append _
    · refine hs.justified.append fun _ n hn => ?_
      split at hn
      · cases hn
      · rw [List.mem_singleton.mp hn]
        trivial
  | continued =>
    refine ⟨hs.staffed, fun h => ?_, hs.warranted, hs.prompted, hs.justified⟩
    exact (Bool.and_eq_true_iff.mp h).1

end Reopens

theorem Licensed.handsOut (hs : Reopens payload s) (hreached : Reached s₀ s) (hidle : s.active = none)
    (ha : PopAnswer x payload) (h : HandsOut x payload s t) : Licensed t := by
  obtain ⟨u, -, -, ⟨-, hu⟩, hlast⟩ := h.before_last (M := fun u => Reached s₀ u ∧ Reopens payload u)
    hreached.wf hidle ha ⟨hreached, hs⟩ (fun report hu => ⟨hu.1.report report, { hu.2 with }⟩)
    fun _ hidle hpop hu =>
      have hnext := hu.1.pop hidle ha hpop
      ⟨hnext, hu.2.pop hu.1.attended hnext.attended hpop⟩
  exact hu.closes hlast

end Broker

end MeshCoreTCPMux

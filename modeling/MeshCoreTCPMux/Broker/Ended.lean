import MeshCoreTCPMux.Broker.Keeps
import MeshCoreTCPMux.Broker.Membership

/-!
# The end of an epoch

An epoch ends once (`Final`). At that moment every session is closed, every slot is detached, and
the lease and the maps forget the sessions; the queues of the slots, the orphan and the
acknowledgement ring are kept, and so is a transaction that still waits for its reply (`CleanEnd`).
Afterwards nobody joins, and nothing is sent (`epoch_ends_cleanly`).
-/

namespace MeshCoreTCPMux

open Protocol Program Relation History

/-- An entry of an epoch that has not ended, or its end. -/
def Note.lives : Note → Bool
  | ended _ _ | admitted _ _ | upstream _ _ | dispatched _ _ => true
  | _ => false

namespace Broker

variable {s s₀ t u v : Broker} {l m : List Note} {n : Note}

/-- The epoch has ended. -/
def Over (log : List Note) : Prop := ∃ epoch reason, .ended epoch reason ∈ log

theorem over_snoc : Over (l ++ [n]) ↔ Over l ∨ ∃ epoch reason, n = .ended epoch reason := by
  unfold Over
  constructor
  · rintro ⟨epoch, reason, h⟩
    rcases List.mem_append.mp h with h | h
    · exact .inl ⟨epoch, reason, h⟩
    · exact .inr ⟨epoch, reason, (List.mem_singleton.mp h).symm⟩
  · rintro (⟨epoch, reason, h⟩ | ⟨epoch, reason, rfl⟩)
    · exact ⟨epoch, reason, List.mem_append_left _ h⟩
    · exact ⟨epoch, reason, List.mem_append_right _ (List.mem_singleton_self _)⟩

/-- An epoch ends once, when nobody is left; nobody joins and nothing is dispatched afterwards. -/
def Lively (past : List Note) : Note → Prop
  | .ended _ _ => ¬ Over past ∧ live past = []
  | .admitted _ _ | .upstream _ _ | .dispatched _ _ => ¬ Over past
  | _ => True

theorem Lively.of_quiet (hn : n.lives = false) : Lively l n := by
  cases n with
  | ended | admitted | upstream | dispatched => cases hn
  | _ => trivial

/-- The broker has failed when its history says so. -/
structure Mortal (s : Broker) : Prop where
  justified : Justified Lively s.log
  failed : s.failed = true ↔ Over s.log

theorem over_append (hm : ∀ n ∈ m, ∀ epoch reason, n ≠ .ended epoch reason) :
    Over (l ++ m) ↔ Over l := by
  refine ⟨fun ⟨epoch, reason, h⟩ => ⟨epoch, reason, ?_⟩,
    fun ⟨epoch, reason, h⟩ => ⟨epoch, reason, List.mem_append_left _ h⟩⟩
  exact (List.mem_append.mp h).resolve_right fun h => hm _ h epoch reason rfl

theorem Client.running (h : Client s t) (hwf : s.WF) : s.failed = false := by
  have hlive : ∀ {id session}, s.sessions.find? id = some session → s.failed = false := by
    intro id session hlive
    refine Bool.eq_false_iff.mpr fun hfailed => ?_
    simp [hwf.no_session hfailed id] at hlive
  cases h with
  | entered hrunning | queued hrunning => exact hrunning
  | answered h | selected h | choked h | waits h | delivered h => exact h.running
  | syncExpired h | broadcast h => exact hlive h

theorem Upstream.running (h : Upstream s t) (hwf : s.WF) : s.failed = false := by
  cases h with
  | popDispatched hrunning => exact hrunning
  | dispatched _ h => exact h.running
  | setupRejected h | setupAccepted h | restored h => exact hwf.running h
  | progressed h | scopedReply h | heldReply h | finalReply h => exact hwf.running h.active

namespace Mortal

theorem keep (hs : s.Mortal) (h : Calm (·.lives = false) s t) : t.Mortal := by
  obtain ⟨notes, hlog, hnotes⟩ := h.adds
  refine ⟨?_, ?_⟩
  · rw [hlog]
    exact hs.justified.append fun past n hn => .of_quiet (hnotes n hn)
  · rw [hlog, h.failed, over_append]
    · exact hs.failed
    · rintro n hn epoch reason rfl
      cases hnotes _ hn

/-- Anything but the end may happen while the broker runs. -/
theorem extend (hs : s.Mortal) (hrunning : s.failed = false) (hfailed : t.failed = s.failed)
    (hadds : Adds (fun n => ∀ epoch reason, n ≠ .ended epoch reason) s t) : t.Mortal := by
  obtain ⟨notes, hlog, hnotes⟩ := hadds
  have hnot : ¬ Over s.log := fun hover => by simp [hs.failed.mpr hover] at hrunning
  refine ⟨?_, ?_⟩
  · rw [hlog]
    clear hlog
    suffices h : ∀ m l, (∀ n ∈ m, ∀ epoch reason, n ≠ .ended epoch reason) → ¬ Over l →
        Justified Lively l → Justified Lively (l ++ m) from h _ _ hnotes hnot hs.justified
    intro m
    induction m with
    | nil => exact fun l _ _ hl => by rwa [List.append_nil]
    | cons n m ih =>
      intro l hm hl hjustified
      rw [List.append_cons]
      refine ih _ (fun k hk => hm k (List.mem_cons_of_mem _ hk)) ?_ (hjustified.snoc ?_)
      · rw [over_append (by simpa using hm n List.mem_cons_self)]
        exact hl
      · cases n with
        | ended epoch reason => exact absurd rfl (hm _ List.mem_cons_self epoch reason)
        | admitted | upstream | dispatched => exact hl
        | _ => trivial
  · rw [hlog, hfailed, over_append hnotes]
    exact hs.failed

end Mortal

/-- **An epoch ends once**, in every run. -/
theorem Stepwise.mortal : Stepwise (Reached s₀) Mortal where
  report := fun _ hs => { hs with }
  input := fun _ _ hs => hs.keep (.of_adds (.one rfl rfl) rfl rfl)
  clock := fun _ _ hs => { hs with }
  idle := fun _ h hs => hs.keep (h.calm.mono fun n hn => by cases n <;> first | rfl | cases hn)
  output := fun _ h hs => hs.keep (h.calm.mono fun n hn => by cases n <;> first | rfl | cases hn)
  client := by
    intro s t hK h hs
    refine hs.extend (h.running hK.wf) h.calm.failed (h.calm.adds.mono ?_)
    rintro _ hn epoch reason rfl
    rcases hn with hn | ⟨_, hn⟩ <;> cases hn
  radio := fun _ h hs => hs.keep (h.calm.mono fun n hn => by cases n <;> first | rfl | cases hn)
  part := by
    intro s t hK h hs
    cases h with
    | dropped => exact hs.keep (.of_adds (.one rfl rfl) rfl rfl)
    | released => exact { hs with }
    | writtenDown => exact hs.keep (.of_adds (.refl rfl) rfl rfl)
    | upstream h =>
      refine hs.extend (h.running hK.wf) h.failed_eq (h.adds.mono ?_)
      rintro _ hn epoch reason rfl
      cases hn
    | failed reason hrunning hsessions =>
      have hnot : ¬ Over s.log := fun hover => by simp [hs.failed.mpr hover] at hrunning
      refine ⟨hs.justified.snoc ⟨hnot, ?_⟩, ?_⟩
      · rw [← hK.attended.live]
        exact OrdMap.isEmpty_iff_keys.mp hsessions
      · exact ⟨fun _ => over_snoc.mpr (.inr ⟨_, _, rfl⟩), fun _ => rfl⟩
  took := fun _ h hs => ⟨hs.justified.snoc trivial, by
    rw [Broker.took, Broker.note, over_append (by simp)]
    exact hs.failed⟩
  pop := fun _ _ _ h hs =>
    hs.keep (h.calm.mono fun n hn => by cases n <;> first | rfl | cases hn)
  closes := fun _ h hs =>
    hs.keep (h.calm.mono fun n hn => by cases n <;> first | rfl | cases hn)

theorem Starts.mortal (h : s.Starts) : s.Mortal := by
  obtain ⟨epoch, selfKey, config, now, orphan, slots, radio, rfl⟩ := h.fresh
  exact ⟨.nil, ⟨fun h => (nomatch h), fun ⟨_, _, h⟩ => nomatch h⟩⟩

theorem Reached.mortal (h : Reached s₀ s) : s.Mortal := Stepwise.mortal.holds Starts.mortal h

/-! ### After the end -/

/-- `v` is what the end of the epoch leaves of the running broker `u`. -/
structure CleanEnd (u v : Broker) (reason : Text) : Prop where
  running : u.failed = false
  failed : v.failed = true ∧ v.active = none ∧ v.upstreamWrites = ∅
  closed : v.log = u.log ++ u.sessions.keys.map (.closed · ["upstream epoch failed"])
    ++ [.ended u.epoch reason]
  sessions : v.sessions.keys = [] ∧ v.order = [0]
  slots : v.dedicatedSlots.keys = u.dedicatedSlots.keys ∧
    ∀ k slot, u.dedicatedSlots.find? k = some slot →
      v.dedicatedSlots.find? k = some { slot with attachedSessionId := none }
  orphan : v.orphan = u.orphan
  ring : v.radio.dmRing = u.radio.dmRing
  lease : ∀ r, v.radio.remote = some r → r.owner = none
  debt : v.responseDebt = u.active.filter (·.step ≠ .maintenanceResult)

/-- What the sessions that leave do not touch. -/
structure Leaving (ids : List Nat) (u v : Broker) : Prop where
  log : v.log = u.log ++ ids.map (.closed · ["upstream epoch failed"])
  slots : v.dedicatedSlots.keys = u.dedicatedSlots.keys ∧
    ∀ k slot, u.dedicatedSlots.find? k = some slot →
      ∃ attached, v.dedicatedSlots.find? k = some { slot with attachedSessionId := attached }
  orphan : v.orphan = u.orphan
  ring : v.radio.dmRing = u.radio.dmRing
  epoch : v.epoch = u.epoch

theorem leaving {id : Nat} (h : id ∈ u.sessions.keys) : Leaving [id] u (u.leave id) := by
  obtain ⟨session, hlive⟩ := OrdMap.mem_keys_iff.mp h
  have hslots : (u.detachedSlots id session).keys = u.dedicatedSlots.keys ∧
      ∀ k slot, u.dedicatedSlots.find? k = some slot →
        ∃ attached, (u.detachedSlots id session).find? k
          = some { slot with attachedSessionId := attached } := by
    unfold detachedSlots
    split
    · exact ⟨rfl, fun k slot hslot => ⟨slot.attachedSessionId, hslot⟩⟩
    · refine ⟨by simp, fun k slot hslot => ?_⟩
      rw [OrdMap.find?_modify]
      split
      · rw [hslot, Option.map_some]
        split
        · exact ⟨none, rfl⟩
        · exact ⟨slot.attachedSessionId, rfl⟩
      · exact ⟨slot.attachedSessionId, hslot⟩
  unfold leave
  rw [hlive]
  simp only
  split
  · exact ⟨rfl, hslots, rfl, rfl, rfl⟩
  · exact ⟨rfl, hslots, rfl, rfl, rfl⟩

theorem leaving_all {ids : List Nat} (h : u.sessions.keys = ids) :
    Leaving ids u (ids.foldl leave u) := by
  induction ids generalizing u with
  | nil => exact ⟨by simp, ⟨rfl, fun k slot hslot => ⟨_, hslot⟩⟩, rfl, rfl, rfl⟩
  | cons id ids ih =>
    have hnodup := u.sessions.nodup_keys
    rw [h, List.nodup_cons] at hnodup
    have hkeys : (u.leave id).sessions.keys = ids := by
      rw [leave_keys, h, List.filter_cons_of_neg (by simp)]
      exact List.filter_eq_self.mpr fun i hi => by
        simpa using fun hid : i = id => hnodup.1 (hid ▸ hi)
    have hone : Leaving [id] u (u.leave id) := leaving (h ▸ List.mem_cons_self)
    have hrest := ih hkeys
    refine ⟨?_, ⟨hrest.slots.1.trans hone.slots.1, fun k slot hslot => ?_⟩,
      hrest.orphan.trans hone.orphan, hrest.ring.trans hone.ring, hrest.epoch.trans hone.epoch⟩
    · rw [List.foldl_cons, hrest.log, hone.log, List.append_assoc]
      rfl
    · obtain ⟨first, hfirst⟩ := hone.slots.2 k slot hslot
      obtain ⟨attached, hattached⟩ := hrest.slots.2 k _ hfirst
      exact ⟨attached, hattached⟩

theorem preservedRadio_ring (x : Transaction) : (s.preservedRadio x).dmRing = s.radio.dmRing := by
  unfold preservedRadio
  simp only
  split
  · split <;> rfl
  · split
    · split <;> rfl
    · rfl

/-- **The end of an epoch is clean.** -/
theorem WF.cleanEnd (h : u.WF) (hrunning : u.failed = false) (reason : Text) :
    CleanEnd u (u.failAll reason) reason := by
  have hall := leaving_all (u := u) rfl
  have hwf := h.failAll reason
  have hkeys : (u.failAll reason).sessions.keys = [] := (hwf.ended rfl).1
  have hdebt : ∀ (ids : List Nat) (v : Broker), (ids.foldl Broker.leave v).failingDebt = v.failingDebt := by
    intro ids
    induction ids with
    | nil => exact fun _ => rfl
    | cons id ids ih => exact fun v => (ih _).trans (failingDebt_leave id)
  refine ⟨hrunning, ⟨rfl, rfl, rfl⟩, ?_, ⟨hkeys, ?_⟩, ⟨hall.slots.1, fun k slot hslot => ?_⟩,
    hall.orphan, ?_, fun r hr => ?_, hdebt _ u⟩
  · simp only [Broker.failAll, Broker.fail]
    rw [hall.log, hall.epoch]
  · have horder := hwf.order
    rw [hkeys] at horder
    exact List.perm_singleton.mp horder
  · obtain ⟨attached, hattached⟩ := hall.slots.2 k slot hslot
    have hfree : attached = none := by
      cases attached with
      | none => rfl
      | some id =>
        obtain ⟨session, hlive, -⟩ := (hwf.slot k _ hattached).attached id rfl
        simp [hwf.no_session rfl id] at hlive
    exact hfree ▸ hattached
  · refine Eq.trans ?_ hall.ring
    simp only [Broker.failAll, Broker.fail]
    split
    · rfl
    · exact preservedRadio_ring _
  · cases howner : r.owner with
    | none => rfl
    | some owner =>
      have hlive := hwf.lease.owner r owner hr howner
      rw [hkeys] at hlive
      cases hlive

/-- An epoch ends when every session has been dropped from a running broker. -/
theorem Ending.failAll (hwf : s.WF) (h : Ending s t) :
    ∃ u reason, ReflTransGen Part s u ∧ u.failed = false ∧ t = u.failAll reason := by
  cases h with
  | failed hrunning => exact ⟨s, _, .refl, hrunning, rfl⟩
  | @completed x writeId _ hactive hstep =>
    refine ⟨_, _, ?_, ?_, rfl⟩
    · exact (ReflTransGen.single (Part.writtenDown (s := s) x.owner writeId)).tail
        (.released hactive hstep)
    · exact hwf.running hactive
  | @deserted x session reason hactive hstep hlive =>
    refine ⟨_, _, ?_, ?_, rfl⟩
    · exact (ReflTransGen.single (Part.dropped reason hlive)).tail (.released hactive hstep)
    · exact hwf.running hactive
  | @undelivered t hupstream =>
    exact ⟨t, _, .single (.upstream hupstream), hupstream.failed_eq.trans (hupstream.running hwf),
      rfl⟩

/-- Only the end of an epoch fails a broker. -/
theorem Move.failed_eq (hwf : s.WF) (h : Move s t) : t.failed = s.failed ∨
    ∃ u reason, ReflTransGen Part s u ∧ u.failed = false ∧ t = u.failAll reason := by
  cases h with
  | idle h => exact .inl h.calm.failed
  | output h => exact .inl h.calm.failed
  | client h => exact .inl h.calm.failed
  | radio h => exact .inl h.calm.failed
  | upstream h => exact .inl h.failed_eq
  | ending h => exact .inr (h.failAll hwf)
  | pop _ _ _ _ _ _ _ h | drained _ _ _ _ _ _ h => exact .inl h.calm.failed

end Broker

end MeshCoreTCPMux

import MeshCoreTCPMux.DedicatedClientSlot

/-!
# The overflow policy of a dedicated slot

A slot sees arrivals and deliveries, in any order. `Serves` runs them, and keeps in a `Ledger` what
came, what was accepted and what left at the head. The policy (`overflow_policy`) is about such
runs: a queue stays within its limit and in arrival order, a frame that is not channel-class leaves
at the head only, and the counters of the slot account for every frame.
-/

namespace MeshCoreTCPMux
namespace DedicatedClientSlot

variable {slot : DedicatedClientSlot} {payload item : Bytes} {limit : Nat}

/-- The head of the queue is delivered. -/
def deliverHead (slot : DedicatedClientSlot) : DedicatedClientSlot :=
  { slot with offlineQueue := slot.offlineQueue.tail }.recordDelivery

/-- A queue entry that overflow never evicts. -/
def direct (payload : Bytes) : Bool := !channelMessage payload

/-! ### One arrival -/

/-- What the overflow rule does with an arrival: the result, and the queue that it leaves. -/
inductive Admits (queue : List Bytes) (payload : Bytes) (limit : Nat) :
    EnqueueResult → List Bytes → Prop
  | added (hroom : queue.length < limit) : Admits queue payload limit .added (queue ++ [payload])
  /-- The oldest channel-class entry makes room. -/
  | evicted {front back : List Bytes} {oldest : Bytes} (hfull : limit ≤ queue.length)
      (hqueue : queue = front ++ oldest :: back) (hfront : ∀ item ∈ front, direct item = true)
      (holdest : channelMessage oldest = true) :
      Admits queue payload limit .channelEvicted (front ++ back ++ [payload])
  | refused (hfull : limit ≤ queue.length) (hdirect : ∀ item ∈ queue, direct item = true) :
      Admits queue payload limit .newMessageDiscarded queue

theorem admits_enqueueOffline (slot : DedicatedClientSlot) (payload : Bytes) (limit : Nat) :
    Admits slot.offlineQueue payload limit (slot.enqueueOffline payload limit).1
      (slot.enqueueOffline payload limit).2.offlineQueue := by
  unfold enqueueOffline
  split
  · next hfull =>
    split
    · next hnone =>
      refine .refused hfull fun item hitem => ?_
      simpa [direct] using List.findIdx?_eq_none_iff.mp hnone item hitem
    · next index hindex =>
      obtain ⟨hlt, holdest, hfront⟩ := List.findIdx?_eq_some_iff_getElem.mp hindex
      have hqueue : slot.offlineQueue = slot.offlineQueue.take index
          ++ slot.offlineQueue[index] :: slot.offlineQueue.drop (index + 1) := by
        rw [List.getElem_cons_drop, List.take_append_drop]
      have hdirect : ∀ item ∈ slot.offlineQueue.take index, direct item = true := by
        intro item hitem
        obtain ⟨i, hi, rfl⟩ := List.mem_iff_getElem.mp hitem
        rw [List.length_take] at hi
        rw [List.getElem_take]
        simpa [direct] using hfront i (by omega)
      simpa [append, List.eraseIdx_eq_take_drop_succ] using
        Admits.evicted hfull hqueue hdirect holdest
  · next hroom => exact .added (by omega)

/-- The arrivals that the queue takes. -/
def taken (result : EnqueueResult) (payload : Bytes) : List Bytes :=
  if result = .newMessageDiscarded then [] else [payload]

namespace Admits

variable {queue queue' : List Bytes} {result : EnqueueResult}

theorem length_le (h : Admits queue payload limit result queue') (hqueue : queue.length ≤ limit) :
    queue'.length ≤ limit := by
  cases h with
  | added hroom =>
    rw [List.length_append, List.length_singleton]
    omega
  | evicted _ hsplit =>
    have hlength := congrArg List.length hsplit
    simp only [List.length_append, List.length_cons] at hlength ⊢
    simp only [List.length_nil]
    omega
  | refused => exact hqueue

/-- Entries leave, and one arrives at the end; nothing changes places. -/
theorem sublist (h : Admits queue payload limit result queue') :
    queue'.Sublist (queue ++ [payload]) := by
  cases h with
  | added => exact List.Sublist.refl _
  | evicted _ hsplit =>
    rw [hsplit]
    refine List.Sublist.append_right ?_ [payload]
    exact List.Sublist.append_left (List.sublist_cons_self _ _) _
  | refused => exact List.sublist_append_left _ _

/-- The entries that are not channel-class all stay. -/
theorem filter_direct (h : Admits queue payload limit result queue') :
    queue'.filter direct = (queue ++ taken result payload).filter direct := by
  cases h with
  | added => rfl
  | @evicted front back oldest _ hsplit _ holdest =>
    have hgone : direct oldest = false := by simp [direct, holdest]
    rw [hsplit]
    simp [taken, List.filter_cons, hgone]
  | refused => simp [taken]

/-- A refused arrival changes nothing. -/
theorem eq_of_refused (h : Admits queue payload limit result queue')
    (hresult : result = .newMessageDiscarded) : queue' = queue := by
  cases h with
  | added | evicted => cases hresult
  | refused => rfl

end Admits

/-! ### Runs -/

/-- What has happened to a slot: the frames that arrived, those that its queue took, those that left
at the head, and the sizes that the queue has had. -/
structure Ledger where
  arrivals : List Bytes := []
  accepted : List Bytes := []
  delivered : List Bytes := []
  sizes : List Nat := []

/-- The slots that arrivals and deliveries lead to from an empty one. -/
inductive Serves (limit : Nat) : Ledger → DedicatedClientSlot → Prop
  | start : Serves limit {} {}
  | arrival {ledger : Ledger} {slot : DedicatedClientSlot} (payload : Bytes)
      (h : Serves limit ledger slot) :
      Serves limit
        { ledger with
          arrivals := ledger.arrivals ++ [payload]
          accepted := ledger.accepted ++ taken (slot.enqueueOffline payload limit).1 payload
          sizes := ledger.sizes ++ [(slot.enqueueOffline payload limit).2.offlineQueue.length] }
        (slot.enqueueOffline payload limit).2
  | delivery {ledger : Ledger} {slot : DedicatedClientSlot} {item : Bytes} {rest : List Bytes}
      (h : Serves limit ledger slot) (hqueue : slot.offlineQueue = item :: rest) :
      Serves limit
        { ledger with
          delivered := ledger.delivered ++ [item]
          sizes := ledger.sizes ++ [rest.length] }
        slot.deliverHead

/-- What a slot guarantees after such a run. -/
structure Policy (limit : Nat) (ledger : Ledger) (slot : DedicatedClientSlot) : Prop where
  bounded : slot.offlineQueue.length ≤ limit
  ordered : (ledger.delivered ++ slot.offlineQueue).Sublist ledger.arrivals
  /-- A frame that is not channel-class leaves at the head only. -/
  kept : (ledger.delivered ++ slot.offlineQueue).filter direct = ledger.accepted.filter direct
  enqueued : slot.enqueued = ledger.accepted.length
  delivered : slot.delivered = ledger.delivered.length
  conserved : slot.enqueued = slot.delivered + slot.channelEvictions + slot.offlineQueue.length
  refused : slot.enqueued + slot.newMessageDiscards = ledger.arrivals.length
  highWater : slot.highWater = ledger.sizes.foldr max 0
  high : slot.offlineQueue.length ≤ slot.highWater

/-- The counters of a slot after an arrival. -/
structure Counts (slot slot' : DedicatedClientSlot) (payload : Bytes) (result : EnqueueResult) :
    Prop where
  enqueued : slot'.enqueued = slot.enqueued + (taken result payload).length
  delivered : slot'.delivered = slot.delivered
  conserved : slot'.channelEvictions + slot'.offlineQueue.length =
    slot.channelEvictions + slot.offlineQueue.length + (taken result payload).length
  refused : slot'.newMessageDiscards + (taken result payload).length = slot.newMessageDiscards + 1
  highWater : slot'.highWater = if result = .newMessageDiscarded then slot.highWater
    else max slot.highWater slot'.offlineQueue.length

theorem counts_enqueueOffline (slot : DedicatedClientSlot) (payload : Bytes) (limit : Nat) :
    Counts slot (slot.enqueueOffline payload limit).2 payload
      (slot.enqueueOffline payload limit).1 := by
  unfold enqueueOffline
  split
  · split
    · exact ⟨rfl, rfl, rfl, rfl, rfl⟩
    · next index hindex =>
      have hlt := (List.findIdx?_eq_some_iff_findIdx_eq.mp hindex).1
      refine ⟨rfl, rfl, ?_, rfl, ?_⟩ <;>
        simp [append, taken, List.length_eraseIdx_of_lt hlt]
      omega
  · refine ⟨rfl, rfl, ?_, rfl, ?_⟩ <;> simp [append, taken]
    omega

theorem foldr_max_append (l : List Nat) (n : Nat) :
    (l ++ [n]).foldr max 0 = max (l.foldr max 0) n := by
  induction l with
  | nil => simp
  | cons m l ih => rw [List.cons_append, List.foldr_cons, ih, List.foldr_cons, Nat.max_assoc]

theorem Serves.policy {ledger : Ledger} (h : Serves limit ledger slot) :
    Policy limit ledger slot := by
  induction h with
  | start => exact ⟨Nat.zero_le _, List.Sublist.refl _, rfl, rfl, rfl, rfl, rfl, rfl,
      Nat.zero_le _⟩
  | @arrival ledger slot payload _ ih =>
    have hadmits := admits_enqueueOffline slot payload limit
    have hcounts := counts_enqueueOffline slot payload limit
    generalize slot.enqueueOffline payload limit = outcome at hadmits hcounts
    obtain ⟨result, slot'⟩ := outcome
    simp only at hadmits hcounts ⊢
    have hpeak : slot'.highWater = max slot.highWater slot'.offlineQueue.length := by
      rw [hcounts.highWater]
      split
      · next hrefused =>
        rw [hadmits.eq_of_refused hrefused, Nat.max_eq_left ih.high]
      · rfl
    refine ⟨hadmits.length_le ih.bounded, ?_, ?_, ?_, ?_, ?_, ?_, ?_, ?_⟩
    · have hlate : (ledger.delivered ++ slot'.offlineQueue).Sublist
          (ledger.delivered ++ slot.offlineQueue ++ [payload]) := by
        rw [List.append_assoc]
        exact List.Sublist.append_left hadmits.sublist _
      exact hlate.trans (List.Sublist.append_right ih.ordered _)
    · rw [List.filter_append, hadmits.filter_direct, ← List.filter_append, ← List.append_assoc,
        List.filter_append, ih.kept, ← List.filter_append]
    · rw [hcounts.enqueued, ih.enqueued, List.length_append]
    · rw [hcounts.delivered, ih.delivered]
    · have hold := ih.conserved
      have hnew := hcounts.conserved
      rw [hcounts.enqueued, hcounts.delivered]
      omega
    · have hold := ih.refused
      have hnew := hcounts.refused
      rw [hcounts.enqueued, List.length_append, List.length_singleton]
      omega
    · rw [hpeak, foldr_max_append, ih.highWater]
    · rw [hpeak]
      exact Nat.le_max_right _ _
  | @delivery ledger slot item rest _ hqueue ih =>
    have hbounded := ih.bounded
    have hconserved := ih.conserved
    have hhigh := ih.high
    have htail : slot.deliverHead.offlineQueue = rest := congrArg List.tail hqueue
    have hsplit : ledger.delivered ++ [item] ++ rest = ledger.delivered ++ slot.offlineQueue := by
      rw [hqueue, List.append_assoc]
      rfl
    rw [hqueue, List.length_cons] at hbounded hconserved hhigh
    refine ⟨?_, ?_, ?_, ih.enqueued, ?_, ?_, ih.refused, ?_, ?_⟩
    · rw [htail]
      omega
    · rw [htail, hsplit]
      exact ih.ordered
    · rw [htail, hsplit]
      exact ih.kept
    · rw [List.length_append, ← ih.delivered]
      rfl
    · rw [htail]
      change slot.enqueued = slot.delivered + 1 + slot.channelEvictions + rest.length
      omega
    · rw [foldr_max_append, ← ih.highWater]
      exact (Nat.max_eq_left (show rest.length ≤ slot.highWater by omega)).symm
    · rw [htail]
      exact (show rest.length ≤ slot.highWater by omega)

/-- **The overflow policy of a dedicated slot.** After every run of arrivals and deliveries from an
empty slot, the queue holds at most `limit` frames, in the order of their arrival; the frames that
are not channel-class have left at the head only; the counters account for every frame, and the
high-water mark is the largest size that the queue has had. The next arrival is appended while there
is room; into a full queue it is taken only in place of the oldest channel-class frame, and it is
refused when there is none. -/
theorem overflow_policy {ledger : Ledger} (h : Serves limit ledger slot) :
    Policy limit ledger slot ∧ ∀ payload,
      Admits slot.offlineQueue payload limit (slot.enqueueOffline payload limit).1
        (slot.enqueueOffline payload limit).2.offlineQueue :=
  ⟨h.policy, fun payload => admits_enqueueOffline slot payload limit⟩

theorem overflow_policy_two :
    let slot := ((({} : DedicatedClientSlot).enqueueOffline [Protocol.respChannelMessage] 1).2
      |>.enqueueOffline [Protocol.respContactMessage] 1).2
    let ledger : Ledger :=
      { arrivals := [[Protocol.respChannelMessage], [Protocol.respContactMessage]]
        accepted := [[Protocol.respChannelMessage], [Protocol.respContactMessage]]
        sizes := [1, 1] }
    Policy 1 ledger slot ∧ ∀ payload,
      Admits slot.offlineQueue payload 1 (slot.enqueueOffline payload 1).1
        (slot.enqueueOffline payload 1).2.offlineQueue :=
  overflow_policy (.arrival _ (.arrival _ .start))

end DedicatedClientSlot

end MeshCoreTCPMux

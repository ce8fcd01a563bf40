import MeshCoreTCPMux.Protocol.Codes

/-!
# Dedicated client slots

One port-identified client across socket replacements, with its firmware-style offline queue. The
slot's port, which the source keeps as `dedicated_slot_id`, is the key under which the broker holds
the slot.
-/

namespace MeshCoreTCPMux

structure DedicatedClientSlot where
  offlineQueue : List Bytes := []
  attachedSessionId : Option Nat := none
  enqueued : Nat := 0
  delivered : Nat := 0
  channelEvictions : Nat := 0
  newMessageDiscards : Nat := 0
  highWater : Nat := 0

namespace DedicatedClientSlot

inductive EnqueueResult
  | added
  | channelEvicted
  | newMessageDiscarded
  deriving DecidableEq, Repr

/-- The firmware's channel-class queue entries. -/
def channelMessage (payload : Bytes) : Bool :=
  payload[0]? ∈ [some Protocol.respChannelMessage, some Protocol.respChannelMessageV3,
    some Protocol.respChannelData]

/-- The tail of `enqueueOffline`, once there is room. -/
def append (slot : DedicatedClientSlot) (payload : Bytes) : DedicatedClientSlot :=
  { slot with
    offlineQueue := slot.offlineQueue ++ [payload]
    enqueued := slot.enqueued + 1
    highWater := max slot.highWater (slot.offlineQueue.length + 1) }

/-- At capacity, sacrifice the oldest channel-class frame. If only direct frames remain, keep them
and discard the new arrival. -/
def enqueueOffline (slot : DedicatedClientSlot) (payload : Bytes) (limit : Nat) :
    EnqueueResult × DedicatedClientSlot :=
  if slot.offlineQueue.length ≥ limit then
    match slot.offlineQueue.findIdx? channelMessage with
    | none =>
      (.newMessageDiscarded, { slot with newMessageDiscards := slot.newMessageDiscards + 1 })
    | some channelIndex =>
      (.channelEvicted,
        append
          { slot with
            offlineQueue := slot.offlineQueue.eraseIdx channelIndex
            channelEvictions := slot.channelEvictions + 1 }
          payload)
  else (.added, append slot payload)

/-- Count broker output acceptance. -/
def recordDelivery (slot : DedicatedClientSlot) : DedicatedClientSlot :=
  { slot with delivered := slot.delivered + 1 }

/-- Discard the queue and the attachment, and return the discarded count. -/
def clear (slot : DedicatedClientSlot) : Nat × DedicatedClientSlot :=
  (slot.offlineQueue.length, { slot with offlineQueue := [], attachedSessionId := none })

@[simp] theorem enqueueOffline_attached (slot : DedicatedClientSlot) (payload : Bytes)
    (limit : Nat) : (slot.enqueueOffline payload limit).2.attachedSessionId
      = slot.attachedSessionId := by
  unfold enqueueOffline
  split
  · split <;> rfl
  · rfl

/-- Enqueueing adds no item but the one offered. -/
theorem mem_enqueueOffline {slot : DedicatedClientSlot} {payload item : Bytes} {limit : Nat}
    (h : item ∈ (slot.enqueueOffline payload limit).2.offlineQueue) :
    item ∈ slot.offlineQueue ∨ item = payload := by
  unfold enqueueOffline at h
  split at h
  · split at h
    · exact Or.inl h
    · rcases List.mem_append.mp h with h | h
      · exact Or.inl (List.mem_of_mem_eraseIdx h)
      · exact Or.inr (List.mem_singleton.mp h)
  · rcases List.mem_append.mp h with h | h
    · exact Or.inl h
    · exact Or.inr (List.mem_singleton.mp h)

/-- What the overflow rule discards leaves the queue as it is. -/
theorem discarded_queue {slot : DedicatedClientSlot} {payload : Bytes} {limit : Nat}
    (h : (slot.enqueueOffline payload limit).1 = .newMessageDiscarded) :
    (slot.enqueueOffline payload limit).2.offlineQueue = slot.offlineQueue := by
  unfold enqueueOffline at h ⊢
  split at h
  · next hfull =>
    rw [if_pos hfull]
    split at h
    · rfl
    · cases h
  · cases h

/-- The overflow rule keeps a queue within its limit. -/
theorem length_enqueueOffline_le {slot : DedicatedClientSlot} {limit : Nat}
    (h : slot.offlineQueue.length ≤ limit) (payload : Bytes) :
    (slot.enqueueOffline payload limit).2.offlineQueue.length ≤ limit := by
  unfold enqueueOffline
  split
  · split
    · exact h
    · next index hindex =>
      have hlt : index < slot.offlineQueue.length := (List.findIdx?_eq_some_iff_findIdx_eq.mp hindex).1
      simp only [append, List.length_append, List.length_eraseIdx_of_lt hlt, List.length_singleton]
      omega
  · simp only [append, List.length_append, List.length_singleton]
    omega

end DedicatedClientSlot

end MeshCoreTCPMux

import MeshCoreTCPMux.Broker.Stable

/-!
# Stocks

The history tells what every inbox holds: what was offered less what was delivered, by the overflow
rule for a dedicated slot's queue. `Stocked` says that the broker's inboxes hold what the history
shows, and that they hold nothing but valid frames.
-/

namespace MeshCoreTCPMux

open Protocol Program

/-- The slot and the inbox of a live session. -/
structure Holding where
  slotId : Option Nat
  inbox : List Bytes

/-- What `id` holds after an entry. -/
def Note.hold (id : Nat) (h : Option Holding) : Note → Option Holding
  | admitted i slotId => if i = id then some ⟨slotId, []⟩ else h
  | closed i _ => if i = id then none else h
  | offered i item => if i = id then h.map fun x => { x with inbox := x.inbox ++ [item] } else h
  | sent frame (.item _) =>
    if frame.session = id then
      h.map fun x => { x with inbox := if x.slotId.isNone then x.inbox.tail else x.inbox }
    else h
  | _ => h

/-- A slot's queue after an arrival. -/
def DedicatedClientSlot.enqueue (queue : List Bytes) (item : Bytes) (limit : Nat) : List Bytes :=
  (enqueueOffline { offlineQueue := queue } item limit).2.offlineQueue

/-- A slot's queue after an entry. -/
def Note.restock (limit slotId : Nat) (queue : List Bytes) : Note → List Bytes
  | slotOffered k item => if k = slotId then DedicatedClientSlot.enqueue queue item limit else queue
  | slotDelivered k _ => if k = slotId then queue.tail else queue
  | _ => queue

/-- An entry that neither adds to an inbox nor takes from one, and at which nobody comes or goes. -/
def Note.still : Note → Bool
  | admitted _ _ | closed _ _ | offered _ _ | sent _ (.item _) | slotOffered _ _
  | slotDelivered _ _ => false
  | _ => true

theorem Note.still_of_plain {n : Note} (h : n.plain = true) : n.still = true := by
  cases n <;> first | rfl | cases h

theorem Note.hold_of_still {n : Note} (h : n.still = true) (id : Nat) (x : Option Holding) :
    n.hold id x = x := by
  cases n with
  | sent frame cause => cases cause <;> first | rfl | cases h
  | admitted | closed | offered | slotOffered | slotDelivered => cases h
  | _ => rfl

theorem Note.restock_of_still {n : Note} (h : n.still = true) (limit slotId : Nat)
    (queue : List Bytes) : n.restock limit slotId queue = queue := by
  cases n with
  | slotOffered | slotDelivered => cases h
  | _ => rfl

theorem DedicatedClientSlot.enqueueOffline_queue (slot : DedicatedClientSlot) (item : Bytes)
    (limit : Nat) : (slot.enqueueOffline item limit).2.offlineQueue
      = enqueue slot.offlineQueue item limit := by
  unfold enqueue enqueueOffline
  split
  · cases slot.offlineQueue.findIdx? channelMessage <;> rfl
  · rfl

/-- The queue gains nothing but the arrival. -/
theorem DedicatedClientSlot.mem_enqueue {queue : List Bytes} {item x : Bytes} {limit : Nat}
    (h : x ∈ enqueue queue item limit) : x ∈ queue ∨ x = item := mem_enqueueOffline h

/-- An empty queue takes the arrival or nothing. -/
theorem DedicatedClientSlot.tail_enqueue_nil (item : Bytes) (limit : Nat) :
    (enqueue [] item limit).tail = [] := by
  unfold enqueue enqueueOffline
  split <;> rfl

namespace Broker

variable {s s₀ t : Broker} {l : List Note} {n : Note} {id slotId : Nat}

/-- What the history shows a session to hold; `none` while it is not connected. -/
def holding (id : Nat) (log : List Note) : Option Holding := log.foldl (Note.hold id) none

/-- The queue that the history shows for a slot, from what the slot held in `s₀`. -/
def slotQueue (s₀ : Broker) (slotId : Nat) (log : List Note) : List Bytes :=
  log.foldl (Note.restock s₀.config.offlineQueueSize slotId)
    (((s₀.dedicatedSlots.find? slotId).map (·.offlineQueue)).getD [])

/-- What a session may consume: its slot's queue if it is dedicated, its own inbox otherwise, and
nothing while it is not connected. -/
def stock (s₀ : Broker) (id : Nat) (log : List Note) : List Bytes :=
  match holding id log with
  | none => []
  | some x =>
    match x.slotId with
    | none => x.inbox
    | some slotId => slotQueue s₀ slotId log

theorem holding_snoc (id : Nat) (l : List Note) (n : Note) :
    holding id (l ++ [n]) = n.hold id (holding id l) := by simp [holding]

theorem slotQueue_snoc (s₀ : Broker) (slotId : Nat) (l : List Note) (n : Note) :
    slotQueue s₀ slotId (l ++ [n])
      = n.restock s₀.config.offlineQueueSize slotId (slotQueue s₀ slotId l) := by simp [slotQueue]

theorem stock_of_still (h : n.still = true) (id : Nat) (l : List Note) :
    stock s₀ id (l ++ [n]) = stock s₀ id l := by
  unfold stock
  rw [holding_snoc, Note.hold_of_still h]
  split
  · rfl
  · split
    · rfl
    · rw [slotQueue_snoc, Note.restock_of_still h]

/-! ### The inboxes hold what the history shows -/

structure Stocked (s₀ s : Broker) : Prop where
  epoch : s.epoch = s₀.epoch
  config : s.config = s₀.config
  sessions : ∀ id, holding id s.log =
    (s.sessions.find? id).map fun x => ⟨x.dedicatedSlotId, x.inbox⟩
  slots : ∀ k slot, s.dedicatedSlots.find? k = some slot → slot.offlineQueue = slotQueue s₀ k s.log
  attached : ∀ id x k, s.sessions.find? id = some x → x.dedicatedSlotId = some k →
    ∃ slot, s.dedicatedSlots.find? k = some slot ∧ slot.attachedSessionId = some id
  -- what is held is valid
  inbox : ∀ id x, s.sessions.find? id = some x → ∀ item ∈ x.inbox, validateResponseShape item = .ok ()
  queue : ∀ k slot, s.dedicatedSlots.find? k = some slot →
    ∀ item ∈ slot.offlineQueue, validateResponseShape item = .ok ()
  orphan : ∀ item, s.orphan = some item → validateResponseShape item = .ok ()

namespace Stocked

/-- A live session consumes what the history shows. -/
theorem inboxFor? (h : Stocked s₀ s) {session : Session}
    (hlive : s.sessions.find? id = some session) :
    s.inboxFor? session = some (stock s₀ id s.log) := by
  have hholding := h.sessions id
  rw [hlive, Option.map_some] at hholding
  unfold Broker.inboxFor? stock
  rw [hholding]
  cases hslot : session.dedicatedSlotId with
  | none => rfl
  | some k =>
    obtain ⟨slot, hfound, -⟩ := h.attached id session k hlive hslot
    simp only [hfound, Option.map_some, h.slots k slot hfound]

theorem valid (h : Stocked s₀ s) {session : Session} {queue : List Bytes}
    (hlive : s.sessions.find? id = some session) (hinbox : s.inboxFor? session = some queue) :
    ∀ item ∈ queue, validateResponseShape item = .ok () := by
  unfold Broker.inboxFor? at hinbox
  split at hinbox
  · obtain rfl := Option.some.inj hinbox
    exact h.inbox id session hlive
  · obtain ⟨slot, hslot, rfl⟩ := Option.map_eq_some_iff.mp hinbox
    exact h.queue _ slot hslot

theorem stock_of_gone (h : Stocked s₀ s) (hgone : s.sessions.find? id = none) :
    stock s₀ id s.log = [] := by
  have hholding := h.sessions id
  rw [hgone] at hholding
  unfold stock
  rw [hholding]
  rfl

/-- Sessions that hold the same, and entries that move nothing. -/
theorem keep (h : Stocked s₀ s)
    (hsessions : ∀ i y, t.sessions.find? i = some y → ∃ x, s.sessions.find? i = some x ∧
      y.dedicatedSlotId = x.dedicatedSlotId ∧ y.inbox = x.inbox)
    (hkeys : t.sessions.keys = s.sessions.keys) (hslots : t.dedicatedSlots = s.dedicatedSlots)
    (hlog : t.log = s.log ∨ ∃ n : Note, n.still = true ∧ t.log = s.log ++ [n])
    (hconfig : t.config = s.config) (hepoch : t.epoch = s.epoch)
    (horphan : ∀ item, t.orphan = some item → validateResponseShape item = .ok ()) :
    Stocked s₀ t where
  epoch := hepoch.trans h.epoch
  config := hconfig.trans h.config
  sessions := by
    intro i
    have hholding : holding i t.log = holding i s.log := by
      rcases hlog with hlog | ⟨n, hn, hlog⟩
      · rw [hlog]
      · rw [hlog, holding_snoc, Note.hold_of_still hn]
    rw [hholding, h.sessions i]
    cases hy : t.sessions.find? i with
    | none =>
      rw [OrdMap.find?_eq_none, hkeys, ← OrdMap.find?_eq_none] at hy
      rw [hy]
    | some y =>
      obtain ⟨x, hx, hslotId, hinbox⟩ := hsessions i y hy
      rw [hx, Option.map_some, Option.map_some, hslotId, hinbox]
  slots := by
    intro k slot hslot
    rw [hslots] at hslot
    rw [h.slots k slot hslot]
    rcases hlog with hlog | ⟨n, hn, hlog⟩
    · rw [hlog]
    · rw [hlog, slotQueue_snoc, Note.restock_of_still hn]
  attached := by
    intro i y k hy hk
    obtain ⟨x, hx, hslotId, -⟩ := hsessions i y hy
    rw [hslots]
    exact h.attached i x k hx (hslotId ▸ hk)
  inbox := by
    intro i y hy
    obtain ⟨x, hx, -, hinbox⟩ := hsessions i y hy
    rw [hinbox]
    exact h.inbox i x hx
  queue := by
    rw [hslots]
    exact h.queue
  orphan := horphan

theorem record (h : Stocked s₀ s) (hn : n.still = true) : Stocked s₀ (s.record n) :=
  h.keep (fun _ y hy => ⟨y, hy, rfl, rfl⟩) rfl rfl (.inr ⟨n, hn, rfl⟩) rfl rfl h.orphan

theorem modifySession (h : Stocked s₀ s) (id : Nat) {f : Session → Session}
    (hslot : ∀ x, (f x).dedicatedSlotId = x.dedicatedSlotId) (hinbox : ∀ x, (f x).inbox = x.inbox) :
    Stocked s₀ { s with sessions := s.sessions.modify id f } := by
  refine h.keep (fun i y hy => ?_) (OrdMap.keys_modify _ _ _) rfl (.inl rfl) rfl rfl h.orphan
  simp only [OrdMap.find?_modify] at hy
  split at hy
  · obtain ⟨x, hx, rfl⟩ := Option.map_eq_some_iff.mp hy
    exact ⟨x, hx, hslot x, hinbox x⟩
  · exact ⟨y, hy, rfl, rfl⟩

/-- A session that leaves. Its slot is detached, if it is still attached to it. -/
theorem drop (h : Stocked s₀ s) (id : Nat) (session : Session) (reason : Text) :
    Stocked s₀ (s.drop id session reason) where
  epoch := h.epoch
  config := h.config
  sessions := by
    intro i
    simp only [Broker.drop, holding_snoc, Note.hold, OrdMap.find?_erase, h.sessions i]
    by_cases hid : id = i
    · rw [if_pos hid, if_pos hid.symm]
      rfl
    · rw [if_neg hid, if_neg (Ne.symm hid)]
  slots := by
    intro k slot hslot
    have hqueue : ∃ slot', s.dedicatedSlots.find? k = some slot' ∧
        slot.offlineQueue = slot'.offlineQueue := by
      simp only [Broker.drop, detachedSlots] at hslot
      split at hslot
      · exact ⟨slot, hslot, rfl⟩
      · rw [OrdMap.find?_modify] at hslot
        split at hslot
        · obtain ⟨slot', hfound, rfl⟩ := Option.map_eq_some_iff.mp hslot
          exact ⟨slot', hfound, by split <;> rfl⟩
        · exact ⟨slot, hslot, rfl⟩
    obtain ⟨slot', hfound, hqueue⟩ := hqueue
    rw [hqueue, h.slots k slot' hfound]
    exact (slotQueue_snoc s₀ k s.log (.closed id reason)).symm
  attached := by
    intro i x k hx hk
    rw [Broker.drop, OrdMap.find?_erase] at hx
    split at hx
    · cases hx
    next hid =>
      obtain ⟨slot, hslot, hattached⟩ := h.attached i x k hx hk
      have hother : slot.attachedSessionId ≠ some id := by
        rw [hattached]
        exact fun heq => hid (Option.some.inj heq)
      refine ⟨slot, ?_, hattached⟩
      simp only [Broker.drop, detachedSlots]
      split
      · exact hslot
      · rw [OrdMap.find?_modify]
        split
        · rw [hslot, Option.map_some, if_neg hother]
        · exact hslot
  inbox := by
    intro i x hx
    rw [Broker.drop, OrdMap.find?_erase] at hx
    split at hx
    · cases hx
    · exact h.inbox i x hx
  queue := by
    intro k slot hslot
    simp only [Broker.drop, detachedSlots] at hslot
    split at hslot
    · exact h.queue k slot hslot
    · rw [OrdMap.find?_modify] at hslot
      split at hslot
      · obtain ⟨slot', hfound, rfl⟩ := Option.map_eq_some_iff.mp hslot
        have hqueue := h.queue k slot' hfound
        split <;> exact hqueue
      · exact h.queue k slot hslot
  orphan := h.orphan

/-- A multi-client session is offered an item. -/
theorem offer (h : Stocked s₀ s) (id : Nat) {item : Bytes}
    (hshape : validateResponseShape item = .ok ()) : Stocked s₀ (s.offer id item) where
  epoch := h.epoch
  config := h.config
  sessions := by
    intro i
    simp only [Broker.offer, holding_snoc, Note.hold, h.sessions i, OrdMap.find?_modify]
    by_cases hid : id = i
    · rw [if_pos hid, if_pos hid.symm, Option.map_map, Option.map_map]
      rfl
    · rw [if_neg hid, if_neg (Ne.symm hid)]
  slots := fun k slot hslot => (h.slots k slot hslot).trans
    (slotQueue_snoc s₀ k s.log (.offered id item)).symm
  attached := by
    intro i y k hy hk
    simp only [Broker.offer, OrdMap.find?_modify] at hy
    split at hy
    · obtain ⟨x, hx, rfl⟩ := Option.map_eq_some_iff.mp hy
      exact h.attached i x k hx hk
    · exact h.attached i y k hy hk
  inbox := by
    intro i y hy
    simp only [Broker.offer, OrdMap.find?_modify] at hy
    split at hy
    · obtain ⟨x, hx, rfl⟩ := Option.map_eq_some_iff.mp hy
      intro item' hitem
      rcases List.mem_append.mp hitem with hitem | hitem
      · exact h.inbox i x hx item' hitem
      · rw [List.mem_singleton.mp hitem]
        exact hshape
    · exact h.inbox i y hy
  queue := h.queue
  orphan := h.orphan

/-- A slot is offered an item. -/
theorem offerSlot (h : Stocked s₀ s) (slotId : Nat) {item : Bytes}
    (hshape : validateResponseShape item = .ok ()) : Stocked s₀ (s.offerSlot slotId item) where
  epoch := h.epoch
  config := h.config
  sessions := fun i => (holding_snoc i s.log (.slotOffered slotId item)).trans (h.sessions i)
  slots := by
    intro k slot hslot
    simp only [Broker.offerSlot, slotQueue_snoc, Note.restock, OrdMap.find?_modify] at hslot ⊢
    by_cases hk : k = slotId
    · rw [if_pos hk] at hslot
      obtain ⟨x, hx, rfl⟩ := Option.map_eq_some_iff.mp hslot
      rw [if_pos hk.symm, DedicatedClientSlot.enqueueOffline_queue, h.slots k x hx, h.config]
    · rw [if_neg hk] at hslot
      rw [if_neg (Ne.symm hk)]
      exact h.slots k slot hslot
  attached := by
    intro i x k hx hk
    obtain ⟨slot, hslot, hattached⟩ := h.attached i x k hx hk
    simp only [Broker.offerSlot, OrdMap.find?_modify]
    split
    · exact ⟨_, by rw [hslot, Option.map_some],
        (DedicatedClientSlot.enqueueOffline_attached _ _ _).trans hattached⟩
    · exact ⟨slot, hslot, hattached⟩
  inbox := h.inbox
  queue := by
    intro k slot hslot
    simp only [Broker.offerSlot, OrdMap.find?_modify] at hslot
    split at hslot
    · obtain ⟨x, hx, rfl⟩ := Option.map_eq_some_iff.mp hslot
      intro item' hitem
      rcases DedicatedClientSlot.mem_enqueueOffline hitem with hitem | rfl
      · exact h.queue k x hx item' hitem
      · exact hshape
    · exact h.queue k slot hslot
  orphan := h.orphan

/-- The head of an inbox is delivered. -/
theorem deliver (h : Stocked s₀ s) {session : Session} (hlive : s.sessions.find? id = some session)
    (visible item : Bytes) :
    Stocked s₀ ((s.send id visible (.item item)).shiftInbox id session item) := by
  unfold shiftInbox
  split
  next hown =>
    refine { h with sessions := ?_, slots := ?_, attached := ?_, inbox := ?_ }
    · intro i
      simp only [send, holding_snoc, Note.hold, h.sessions i, OrdMap.modify_modify,
        OrdMap.find?_modify]
      by_cases hid : id = i
      · subst hid
        simp [hlive, hown]
      · rw [if_neg hid, if_neg (Ne.symm hid)]
    · exact fun k slot hslot => (h.slots k slot hslot).trans
        (slotQueue_snoc s₀ k s.log (.sent _ (.item item))).symm
    · intro i y k hy hk
      simp only [send, OrdMap.modify_modify, OrdMap.find?_modify] at hy
      split at hy
      · obtain ⟨x, hx, rfl⟩ := Option.map_eq_some_iff.mp hy
        exact h.attached i x k hx hk
      · exact h.attached i y k hy hk
    · intro i y hy
      simp only [send, OrdMap.modify_modify, OrdMap.find?_modify] at hy
      split at hy
      · obtain ⟨x, hx, rfl⟩ := Option.map_eq_some_iff.mp hy
        exact fun item' hitem => h.inbox i x hx item' (List.mem_of_mem_tail hitem)
      · exact h.inbox i y hy
  next slotId hslotId =>
    have hsent : ∀ i, holding i (s.log ++ [.sent ⟨id, s.epoch, s.nextWrite + 1, visible⟩
        (.item item)]) = holding i s.log := by
      intro i
      simp only [holding_snoc, Note.hold, h.sessions i]
      by_cases hid : id = i
      · subst hid
        simp [hlive, hslotId]
      · rw [if_neg hid]
    have hview : ∀ i, ((s.send id visible (.item item)).sessions.find? i).map
        (fun x => (⟨x.dedicatedSlotId, x.inbox⟩ : Holding)) =
          (s.sessions.find? i).map fun x => ⟨x.dedicatedSlotId, x.inbox⟩ := by
      intro i
      simp only [send, OrdMap.find?_modify]
      split
      · rw [Option.map_map]
        rfl
      · rfl
    refine { h with sessions := ?_, slots := ?_, attached := ?_, inbox := ?_, queue := ?_ }
    · intro i
      refine (holding_snoc i _ (.slotDelivered slotId item)).trans ((hsent i).trans ?_)
      exact (h.sessions i).trans (hview i).symm
    · intro k slot hslot
      simp only [send, slotQueue_snoc, Note.restock, OrdMap.find?_modify] at hslot ⊢
      by_cases hk : k = slotId
      · rw [if_pos hk] at hslot
        obtain ⟨x, hx, rfl⟩ := Option.map_eq_some_iff.mp hslot
        rw [if_pos hk.symm, ← h.slots k x hx]
        rfl
      · rw [if_neg hk] at hslot
        rw [if_neg (Ne.symm hk)]
        exact h.slots k slot hslot
    · intro i y k hy hk
      have hx : ∃ x, s.sessions.find? i = some x ∧ x.dedicatedSlotId = some k := by
        simp only [send, OrdMap.find?_modify] at hy
        split at hy
        · obtain ⟨x, hx, rfl⟩ := Option.map_eq_some_iff.mp hy
          exact ⟨x, hx, hk⟩
        · exact ⟨y, hy, hk⟩
      obtain ⟨x, hx, hk⟩ := hx
      obtain ⟨slot, hslot, hattached⟩ := h.attached i x k hx hk
      simp only [send, OrdMap.find?_modify]
      split
      · rw [hslot, Option.map_some]
        exact ⟨_, rfl, hattached⟩
      · exact ⟨slot, hslot, hattached⟩
    · intro i y hy
      simp only [send, OrdMap.find?_modify] at hy
      split at hy
      · obtain ⟨x, hx, rfl⟩ := Option.map_eq_some_iff.mp hy
        exact h.inbox i x hx
      · exact h.inbox i y hy
    · intro k slot hslot
      simp only [send, OrdMap.find?_modify] at hslot
      split at hslot
      · obtain ⟨x, hx, rfl⟩ := Option.map_eq_some_iff.mp hslot
        exact fun item' hitem => h.queue k x hx item' (List.mem_of_mem_tail hitem)
      · exact h.queue k slot hslot

/-- A client that is turned away. -/
theorem refuse (h : Stocked s₀ s) (hgone : s.sessions.find? id = none) (reason : Text) :
    Stocked s₀ (s.record (.closed id reason)) where
  epoch := h.epoch
  config := h.config
  sessions := by
    intro i
    simp only [Broker.record, holding_snoc, Note.hold, h.sessions i]
    by_cases hid : id = i
    · rw [if_pos hid, ← hid, hgone]
      rfl
    · rw [if_neg hid]
  slots := fun k slot hslot => (h.slots k slot hslot).trans
    (slotQueue_snoc s₀ k s.log (.closed id reason)).symm
  attached := h.attached
  inbox := h.inbox
  queue := h.queue
  orphan := h.orphan

/-- A session that comes to a free slot, or to none. -/
theorem opened (h : Stocked s₀ s) (id : Nat) {slotId : Option Nat}
    (hfree : ∀ k, slotId = some k →
      ∃ slot, s.dedicatedSlots.find? k = some slot ∧ slot.attachedSessionId = none) :
    Stocked s₀ (s.opened id slotId) := by
  -- attaching changes no queue
  have hslots : ∀ k slot, (s.attachedSlots id slotId).find? k = some slot →
      ∃ slot', s.dedicatedSlots.find? k = some slot' ∧ slot.offlineQueue = slot'.offlineQueue := by
    intro k slot hslot
    cases slotId with
    | none => exact ⟨slot, hslot, rfl⟩
    | some j =>
      simp only [attachedSlots, OrdMap.find?_modify] at hslot
      split at hslot
      · obtain ⟨slot', hfound, rfl⟩ := Option.map_eq_some_iff.mp hslot
        exact ⟨slot', hfound, rfl⟩
      · exact ⟨slot, hslot, rfl⟩
  refine ⟨h.epoch, h.config, fun i => ?_, fun k slot hslot => ?_, fun i x k hx hk => ?_,
    fun i x hx => ?_, fun k slot hslot => ?_, h.orphan⟩
  · simp only [Broker.opened, holding_snoc, Note.hold, h.sessions i, OrdMap.find?_insert]
    by_cases hid : id = i
    · rw [if_pos hid, if_pos hid.symm]
      rfl
    · rw [if_neg hid, if_neg (Ne.symm hid)]
  · obtain ⟨slot', hfound, hqueue⟩ := hslots k slot hslot
    exact hqueue.trans ((h.slots k slot' hfound).trans
      (slotQueue_snoc s₀ k s.log (.admitted id slotId)).symm)
  · simp only [Broker.opened, OrdMap.find?_insert] at hx ⊢
    split at hx
    · next hid =>
      obtain rfl := Option.some.inj hx
      obtain ⟨slot, hfound, -⟩ := hfree k hk
      refine ⟨{ slot with attachedSessionId := some id }, ?_, congrArg some hid.symm⟩
      simp only at hk
      rw [hk, attachedSlots, OrdMap.find?_modify, if_pos rfl, hfound]
      rfl
    · obtain ⟨slot, hfound, hattached⟩ := h.attached i x k hx hk
      refine ⟨slot, ?_, hattached⟩
      cases slotId with
      | none => exact hfound
      | some j =>
        have hne : k ≠ j := by
          rintro rfl
          obtain ⟨free, hfree, hnone⟩ := hfree k rfl
          obtain rfl := Option.some.inj (hfound.symm.trans hfree)
          exact Option.some_ne_none i (hattached.symm.trans hnone)
        rw [attachedSlots, OrdMap.find?_modify, if_neg hne]
        exact hfound
  · simp only [Broker.opened, OrdMap.find?_insert] at hx
    split at hx
    · obtain rfl := Option.some.inj hx
      exact fun _ hitem => absurd hitem List.not_mem_nil
    · exact h.inbox i x hx
  · obtain ⟨slot', hfound, hqueue⟩ := hslots k slot hslot
    rw [hqueue]
    exact h.queue k slot' hfound

end Stocked

end Broker

end MeshCoreTCPMux

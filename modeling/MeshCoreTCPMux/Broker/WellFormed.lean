import MeshCoreTCPMux.Broker.Transitions

/-!
# Well-formed brokers

`Broker.WF` is what every entry point relies on: sessions and slots point at each other, whatever is
queued can be delivered, and the leases hold what the active transaction reserved. It holds of every
state between two atomic actions (`WF.step`), and it is the reason why no entry point raises
anything but a protocol error.
-/

namespace MeshCoreTCPMux

open Protocol Relation

/-- An inbox item that `downgradeInbox` accepts. -/
structure InboxItem (item : Bytes) : Prop where
  shape : validateResponseShape item = .ok ()
  code : opcode item ∈ inboxItemCodes

/-- The queue that a session consumes is empty. -/
structure Drained (slots : OrdMap Nat DedicatedClientSlot) (session : Session) : Prop where
  own : session.dedicatedSlotId = none → session.inbox = []
  slot : ∀ k slot, session.dedicatedSlotId = some k → slots.find? k = some slot →
    slot.offlineQueue = []

/-- The session's slot exists and is attached to it, its queues hold deliverable values, and it waits
only while there is nothing for it. -/
structure SessionOK (slots : OrdMap Nat DedicatedClientSlot) (id : Nat) (session : Session) :
    Prop where
  slot : ∀ k, session.dedicatedSlotId = some k →
    ∃ slot, slots.find? k = some slot ∧ slot.attachedSessionId = some id
  items : ∀ item ∈ session.inbox, InboxItem item
  commands : ∀ command ∈ session.commands, command.payload ≠ []
  waits : session.sync.isSome = true → Drained slots session

/-- The attached session is live and dedicated to this slot, and the queue holds deliverable
items. -/
structure SlotOK (sessions : OrdMap Nat Session) (k : Nat) (slot : DedicatedClientSlot) : Prop where
  attached : ∀ id, slot.attachedSessionId = some id →
    ∃ session, sessions.find? id = some session ∧ session.dedicatedSlotId = some k
  items : ∀ item ∈ slot.offlineQueue, InboxItem item

/-- The command of a transaction is in the table and well formed; only the internal inbox consumer
pops. -/
structure Transaction.Shape (transaction : Transaction) : Prop where
  descriptor : Protocol.descriptor transaction.command = some transaction.descriptor
  command : commandShapeValid transaction.command = true
  pop : transaction.owner = 0 → transaction.command = [cmdSyncNextMessage]

/-- The signing state that an active signing command reserved. -/
structure Signs (signing : SigningLease) (transaction : Transaction) : Prop where
  start : opcode transaction.command = cmdSignStart →
    ∃ op, signing.operation = some op ∧ op.owner = transaction.owner ∧ op.tentative = true
  data : opcode transaction.command = cmdSignData →
    ∃ op bytes, signing.operation = some op ∧ op.owner = transaction.owner ∧
      op.pendingDataBytes = some bytes
  finish : opcode transaction.command = cmdSignFinish →
    ∃ op, signing.operation = some op ∧ op.owner = transaction.owner ∧ op.finishPending = true

/-- A tentative reservation has no deadline, and the owner of a lease is among the live sessions. -/
structure LeaseOK (live : List Nat) (remote : RemoteLease) : Prop where
  deadline : ∀ r, remote = some r → r.tentative = true → r.deadline = none
  owner : ∀ r owner, remote = some r → r.owner = some owner → owner ∈ live

theorem LeaseOK.free (live : List Nat) : LeaseOK live none :=
  ⟨fun _ hr => (nomatch hr), fun _ _ hr => nomatch hr⟩

theorem LeaseOK.mono {live live' : List Nat} {remote : RemoteLease} (h : LeaseOK live remote)
    (hsub : live ⊆ live') : LeaseOK live' remote :=
  ⟨h.deadline, fun r owner hr ho => hsub (h.owner r owner hr ho)⟩

/-- The step of a transaction whose user command has not been answered. -/
def Transaction.Step.unanswered : Transaction.Step → Bool
  | .command | .setup => true
  | _ => false

theorem Signs.of_plain {signing : SigningLease} {transaction : Transaction}
    (h : descriptor transaction.command = some transaction.descriptor)
    (hplain : transaction.descriptor.flags.signing = false) : Signs signing transaction := by
  obtain ⟨hmem, hop⟩ := mem_descriptors h
  have table : ∀ d ∈ remoteTelemetry :: descriptors, d.flags.signing = false →
      d.opcode ∉ [cmdSignStart, cmdSignData, cmdSignFinish] := by decide
  have hout := table _ hmem hplain
  simp only [hop, List.mem_cons, List.not_mem_nil, or_false, not_or] at hout
  exact ⟨fun h => absurd h hout.1, fun h => absurd h hout.2.1, fun h => absurd h hout.2.2⟩

/-- What the active transaction may rely on. -/
structure Running (radio : CompanionRadioState) (signing : SigningLease) (now : Time)
    (transaction : Transaction) : Prop where
  shape : transaction.Shape
  pop : transaction.owner = 0 → transaction.step = .command ∧ transaction.isScoped = false
  maintenance : transaction.maintenance = transaction.descriptor.flags.maintenance
  wrapped : transaction.step = .setup ∨ transaction.step = .restore → transaction.isScoped = true
  flagged : transaction.isScoped = true → transaction.descriptor.flags.scopeSend = true
  result : transaction.step = .maintenanceResult → transaction.maintenance = true
  ring : plainDm transaction.command = true → transaction.step.unanswered = true →
    radio.dmRing.available now = true
  lease : transaction.descriptor.flags.remoteLease = true → transaction.step.unanswered = true →
    RemoteLease.tentative radio.remote = true
  signs : transaction.step.unanswered = true → Signs signing transaction

/-! ### Keeping what a transaction relies on -/

namespace Running

variable {radio : CompanionRadioState} {signing : SigningLease} {now : Time}
  {transaction : Transaction}

theorem ownerGone {signing' : SigningLease} (h : Running radio signing now transaction) (id : Nat)
    (hsigning : signing' = signing ∨ (transaction.owner ≠ id ∧ signing' = signing.ownerGone id)) :
    Running { radio with remote := RemoteLease.ownerGone radio.remote id } signing' now
      transaction := by
  have hkept : ∀ op, signing.operation = some op → op.owner = transaction.owner →
      signing'.operation = some op := by
    rintro op hop howner
    rcases hsigning with rfl | ⟨hne, rfl⟩
    · exact hop
    · have hother : signing.owner ≠ some id := by
        simp [SigningLease.owner, hop, howner, hne]
      rw [SigningLease.ownerGone, if_neg hother, hop]
  exact { h with
    lease := fun hflag hstep => by simpa using h.lease hflag hstep
    signs := fun hstep =>
      ⟨fun hop => (h.signs hstep).start hop |>.imp fun op ⟨ho, hw, ht⟩ => ⟨hkept op ho hw, hw, ht⟩,
        fun hop => (h.signs hstep).data hop |>.imp fun op => Exists.imp
          fun _ ⟨ho, hw, ht⟩ => ⟨hkept op ho hw, hw, ht⟩,
        fun hop => (h.signs hstep).finish hop |>.imp
          fun op ⟨ho, hw, ht⟩ => ⟨hkept op ho hw, hw, ht⟩⟩ }

/-- The ring stays available as time passes, and when tokens are settled. -/
theorem later {radio' : CompanionRadioState} {later : Time}
    (h : Running radio signing now transaction)
    (hring : radio.dmRing.available now = true → radio'.dmRing.available later = true)
    (hlease : RemoteLease.tentative radio.remote = true →
      RemoteLease.tentative radio'.remote = true) :
    Running radio' signing later transaction :=
  { h with
    ring := fun hdm hstep => hring (h.ring hdm hstep)
    lease := fun hflag hstep => hlease (h.lease hflag hstep) }

/-- Nothing depends on the clocks, the stream phase or the write ids of a transaction. -/
theorem timing {transaction' : Transaction} (h : Running radio signing now transaction)
    (howner : transaction'.owner = transaction.owner)
    (hcommand : transaction'.command = transaction.command)
    (hdescriptor : transaction'.descriptor = transaction.descriptor)
    (hstep : transaction'.step = transaction.step)
    (hscoped : transaction'.isScoped = transaction.isScoped)
    (hmaintenance : transaction'.maintenance = transaction.maintenance) :
    Running radio signing now transaction' := by
  cases transaction
  cases transaction'
  subst howner hcommand hdescriptor hstep hscoped hmaintenance
  exact { h with
    shape := { h.shape with }
    signs := fun hu => { h.signs hu with } }

/-- After the terminal reply of a command its transaction relies on no lease. -/
theorem answered {radio' : CompanionRadioState} {signing' : SigningLease}
    {transaction' : Transaction} (h : Running radio signing now transaction) (hclient : transaction.owner ≠ 0)
    (howner : transaction'.owner = transaction.owner)
    (hcommand : transaction'.command = transaction.command)
    (hdescriptor : transaction'.descriptor = transaction.descriptor)
    (hscoped : transaction'.isScoped = transaction.isScoped)
    (hmaintenance : transaction'.maintenance = transaction.maintenance)
    (hstep : transaction'.step = .restore ∧ transaction.isScoped = true ∨
      transaction'.step = .maintenanceResult ∧ transaction.maintenance = true) :
    Running radio' signing' now transaction' := by
  cases transaction
  cases transaction'
  subst howner hcommand hdescriptor hscoped hmaintenance
  simp only at hstep hclient
  exact
    { shape := { h.shape with }
      pop := fun h0 => absurd h0 hclient
      maintenance := h.maintenance
      wrapped := by rcases hstep with ⟨rfl, hs⟩ | ⟨rfl, -⟩ <;> simp [*]
      flagged := h.flagged
      result := by rcases hstep with ⟨rfl, -⟩ | ⟨rfl, hm⟩ <;> simp [*]
      ring := fun _ hu => by rcases hstep with ⟨rfl, -⟩ | ⟨rfl, -⟩ <;> cases hu
      lease := fun _ hu => by rcases hstep with ⟨rfl, -⟩ | ⟨rfl, -⟩ <;> cases hu
      signs := fun hu => by rcases hstep with ⟨rfl, -⟩ | ⟨rfl, -⟩ <;> cases hu }

end Running

namespace Broker

/-- The invariant that every entry point relies on. -/
structure WF (s : Broker) : Prop where
  config : s.config.Valid
  selfKey : 6 ≤ s.selfKey.length
  ended : s.failed = true → s.sessions.keys = [] ∧ s.active = none
  debt : s.failed = false → s.responseDebt = none
  order : s.order.Perm (0 :: s.sessions.keys)
  positive : 0 ∉ s.sessions.keys
  known : ∀ id ∈ s.sessions.keys, ∃ k, .admitted id k ∈ s.log
  session : ∀ id session, s.sessions.find? id = some session →
    SessionOK s.dedicatedSlots id session
  slot : ∀ k slot, s.dedicatedSlots.find? k = some slot → SlotOK s.sessions k slot
  orphan : ∀ item, s.orphan = some item → InboxItem item
  active : ∀ transaction, s.active = some transaction →
    Running s.radio s.signing s.now transaction
  owed : ∀ transaction, s.responseDebt = some transaction → transaction.Shape
  lease : LeaseOK s.sessions.keys s.radio.remote
  signing : s.signing.Sound

variable {s : Broker}

theorem drained_of_empty {session : Session} {sync : Option PendingSync}
    (hempty : s.inboxFor? session = some []) :
    Drained s.dedicatedSlots { session with sync := sync } := by
  unfold inboxFor? at hempty
  split at hempty
  · next hown => exact ⟨fun _ => Option.some.inj hempty, fun k _ hk => by simp [hown] at hk⟩
  · next j hj =>
    obtain ⟨slot, hslot, hqueue⟩ := Option.map_eq_some_iff.mp hempty
    refine ⟨fun hown => by simp [hj] at hown, fun k other hk hother => ?_⟩
    obtain rfl := Option.some.inj (hj.symm.trans hk)
    obtain rfl := Option.some.inj (hslot.symm.trans hother)
    exact hqueue

/-- A session that waits has nothing to consume. -/
theorem WF.empty_of_waits (h : s.WF) {id : Nat} {session : Session}
    (hlive : s.sessions.find? id = some session) (hsync : session.sync.isSome = true) :
    s.inboxFor? session = some [] := by
  have hdrained := (h.session id session hlive).waits hsync
  unfold inboxFor?
  split
  · next hown => rw [hdrained.own hown]
  · next k hk =>
    obtain ⟨slot, hslot, -⟩ := (h.session id session hlive).slot k hk
    simp [hslot, hdrained.slot k slot hk hslot]

/-! ### Harmless changes -/

/-- A change of a session that keeps its slot and adds nothing to its queues. -/
structure Harmless (f : Session → Session) : Prop where
  slot : ∀ x, (f x).dedicatedSlotId = x.dedicatedSlotId
  items : ∀ x, (f x).inbox ⊆ x.inbox
  commands : ∀ x, (f x).commands ⊆ x.commands
  sync : ∀ x, (f x).sync = x.sync ∨ (f x).sync = none

theorem WF.note (h : s.WF) (n : Note) : (s.note n).WF :=
  { h with
    known := fun id hid => (h.known id hid).imp fun _ hk => List.mem_append_left _ hk }

/-- A session may be given deliverable items and nonempty commands, unless it waits. -/
theorem WF.extend (h : s.WF) (id : Nat) {f : Session → Session}
    (hslot : ∀ x, (f x).dedicatedSlotId = x.dedicatedSlotId)
    (hitems : ∀ x, ∀ item ∈ (f x).inbox, item ∈ x.inbox ∨ InboxItem item)
    (hcommands : ∀ x, ∀ c ∈ (f x).commands, c ∈ x.commands ∨ c.payload ≠ [])
    (hwaits : ∀ x, s.sessions.find? id = some x → (f x).sync.isSome = true →
      Drained s.dedicatedSlots (f x)) :
    WF { s with sessions := s.sessions.modify id f } where
  __ := h
  ended := fun hfail => by simpa using h.ended hfail
  order := by simpa using h.order
  positive := by simpa using h.positive
  known := fun i hi => h.known i (by simpa using hi)
  lease := by simpa using h.lease
  session := by
    intro i x hx
    rw [OrdMap.find?_modify] at hx
    split at hx
    · obtain ⟨y, hy, rfl⟩ := Option.map_eq_some_iff.mp hx
      have hok := h.session i y hy
      next hid =>
        exact ⟨fun k hk => hok.slot k (hslot y ▸ hk),
          fun item hi => (hitems y item hi).elim (hok.items item) fun h => h,
          fun c hc => (hcommands y c hc).elim (hok.commands c) fun h => h,
          hwaits y (hid ▸ hy)⟩
    · exact h.session i x hx
  slot := by
    intro k slot hk
    refine ⟨fun i hi => ?_, (h.slot k slot hk).items⟩
    obtain ⟨x, hx, hxk⟩ := (h.slot k slot hk).attached i hi
    rw [OrdMap.find?_modify]
    split
    · exact ⟨f x, by simp [hx], by rw [hslot, hxk]⟩
    · exact ⟨x, hx, hxk⟩

theorem WF.modifySession (h : s.WF) (id : Nat) {f : Session → Session} (hf : Harmless f) :
    WF { s with sessions := s.sessions.modify id f } := by
  refine h.extend id hf.slot (fun x _ hi => Or.inl (hf.items x hi))
    (fun x _ hc => Or.inl (hf.commands x hc)) fun x hx hsync => ?_
  have hwaits : x.sync.isSome = true := by
    rcases hf.sync x with hsame | hnone
    · rwa [← hsame]
    · simp [hnone] at hsync
  have hdrained := (h.session id x hx).waits hwaits
  refine ⟨fun hown => ?_, fun k slot hk => hdrained.slot k slot (hf.slot x ▸ hk)⟩
  have hempty := hdrained.own (hf.slot x ▸ hown)
  exact List.eq_nil_iff_forall_not_mem.mpr fun item hi => by simpa [hempty] using hf.items x hi

theorem Harmless.rfl {f : Session → Session}
    (hslot : ∀ x, (f x).dedicatedSlotId = x.dedicatedSlotId) (hitems : ∀ x, (f x).inbox = x.inbox)
    (hcommands : ∀ x, (f x).commands = x.commands) (hsync : ∀ x, (f x).sync = x.sync) :
    Harmless f :=
  ⟨hslot, fun x => by rw [hitems]; exact List.Subset.refl _,
    fun x => by rw [hcommands]; exact List.Subset.refl _, fun x => Or.inl (hsync x)⟩

theorem WF.send (h : s.WF) (id : Nat) (payload : Bytes) (cause : Cause) :
    (s.send id payload cause).WF :=
  { (h.modifySession id (f := fun x =>
        { x with writes := x.writes.insert (s.nextWrite + 1) ⟨s.now + s.config.writeTimeout⟩ })
      (.rfl (fun _ => rfl) (fun _ => rfl) (fun _ => rfl) fun _ => rfl)).note
        (.sent ⟨id, s.epoch, s.nextWrite + 1, payload⟩ cause) with }

theorem WF.markHint (h : s.WF) (id writeId : Nat) : (s.markHint id writeId).WF :=
  h.modifySession id (.rfl (fun _ => rfl) (fun _ => rfl) (fun _ => rfl) fun _ => rfl)

theorem WF.endSync (h : s.WF) (id : Nat) : (s.endSync id).WF :=
  h.modifySession id ⟨fun _ => rfl, fun _ => List.Subset.refl _, fun _ => List.Subset.refl _,
    fun _ => Or.inr rfl⟩

theorem WF.writtenDown (h : s.WF) (id writeId : Nat) : (s.writtenDown id writeId).WF :=
  h.modifySession id (.rfl (fun _ => rfl) (fun _ => rfl) (fun _ => rfl) fun _ => rfl)

theorem WF.setScope (h : s.WF) (id : Nat) (scope : Bytes) : (s.setScope id scope).WF :=
  h.modifySession id (.rfl (fun _ => rfl) (fun _ => rfl) (fun _ => rfl) fun _ => rfl)

theorem WF.retarget (h : s.WF) (transaction : Transaction) (payload : Bytes) :
    (s.retarget transaction payload).WF := by
  unfold Broker.retarget
  split
  · exact h.modifySession _ (.rfl (fun _ => rfl) (fun _ => rfl) (fun _ => rfl) fun _ => rfl)
  · exact h

theorem WF.take (h : s.WF) (id : Nat) (command : Command) : (s.take id command).WF :=
  (h.modifySession id (f := fun x => { x with commands := x.commands.tail })
    ⟨fun _ => rfl, fun _ => List.Subset.refl _, fun _ => List.tail_subset _,
      fun _ => Or.inl rfl⟩).note _

theorem WF.startSync (h : s.WF) {id : Nat} {session : Session} (sync : PendingSync)
    (hlive : s.sessions.find? id = some session) (hempty : s.inboxFor? session = some []) :
    (s.startSync id sync).WF := by
  have hsynced := h.extend id (f := fun x => { x with sync := some sync }) (fun _ => rfl)
    (fun _ _ hi => Or.inl hi) (fun _ _ hc => Or.inl hc) fun x hx _ => by
      obtain rfl := Option.some.inj (hlive.symm.trans hx)
      exact drained_of_empty hempty
  exact { hsynced.note (.synced id sync) with }

/-- A change of a slot that keeps its attachment and adds nothing but deliverable items, and nothing
at all while its session waits. -/
theorem WF.modifySlot (h : s.WF) (k : Nat) {f : DedicatedClientSlot → DedicatedClientSlot}
    (hattached : ∀ x, (f x).attachedSessionId = x.attachedSessionId)
    (hitems : ∀ x item, item ∈ (f x).offlineQueue → item ∈ x.offlineQueue ∨ InboxItem item)
    (hwaits : ∀ id session, s.sessions.find? id = some session →
      session.dedicatedSlotId = some k → session.sync.isSome = true →
      ∀ x, x.offlineQueue = [] → (f x).offlineQueue = []) :
    WF { s with dedicatedSlots := s.dedicatedSlots.modify k f } where
  __ := h
  session := by
    intro i x hx
    refine ⟨fun j hj => ?_, (h.session i x hx).items, (h.session i x hx).commands,
      fun hsync => ?_⟩
    · obtain ⟨slot, hslot, hattach⟩ := (h.session i x hx).slot j hj
      rw [OrdMap.find?_modify]
      split
      · exact ⟨f slot, by simp [hslot], by rw [hattached, hattach]⟩
      · exact ⟨slot, hslot, hattach⟩
    · have hdrained := (h.session i x hx).waits hsync
      refine ⟨hdrained.own, fun j slot hj hslot => ?_⟩
      rw [OrdMap.find?_modify] at hslot
      split at hslot
      · next hjk =>
        obtain ⟨old, hold, rfl⟩ := Option.map_eq_some_iff.mp hslot
        exact hwaits i x hx (hjk ▸ hj) hsync old (hdrained.slot j old hj hold)
      · exact hdrained.slot j slot hj hslot
  slot := by
    intro j slot hj
    rw [OrdMap.find?_modify] at hj
    split at hj
    · obtain ⟨old, hold, rfl⟩ := Option.map_eq_some_iff.mp hj
      refine ⟨fun i hi => (h.slot j old hold).attached i (hattached old ▸ hi), fun item hi => ?_⟩
      exact (hitems old item hi).elim ((h.slot j old hold).items item) id
    · exact h.slot j slot hj

theorem WF.shiftInbox (h : s.WF) (id : Nat) (session : Session) (item : Bytes) :
    (s.shiftInbox id session item).WF := by
  unfold Broker.shiftInbox
  split
  · exact h.modifySession id
      ⟨fun _ => rfl, fun _ => List.tail_subset _, fun _ => List.Subset.refl _, fun _ => Or.inl rfl⟩
  · exact (h.modifySlot _ (f := fun slot =>
        { slot with offlineQueue := slot.offlineQueue.tail }.recordDelivery)
      (fun _ => rfl) (fun _ _ hi => Or.inl (List.mem_of_mem_tail hi))
      fun _ _ _ _ _ _ hempty => by simp [DedicatedClientSlot.recordDelivery, hempty]).note _

theorem WF.offerSlot (h : s.WF) (k : Nat) {item : Bytes} (hitem : InboxItem item)
    (hidle : ∀ id session, s.sessions.find? id = some session →
      session.dedicatedSlotId = some k → session.sync = none) :
    (s.offerSlot k item).WF := by
  refine (h.modifySlot k (f := fun slot =>
    (slot.enqueueOffline item s.config.offlineQueueSize).2) (fun _ => ?_) (fun _ i hi => ?_)
    fun id session hlive hk hsync => ?_).note _
  · exact DedicatedClientSlot.enqueueOffline_attached _ _ _
  · rcases DedicatedClientSlot.mem_enqueueOffline hi with hi | rfl
    · exact Or.inl hi
    · exact Or.inr hitem
  · simp [hidle id session hlive hk] at hsync

theorem WF.queue (h : s.WF) (id : Nat) {command : Command} (hpayload : command.payload ≠ []) :
    (s.queue id command).WF := by
  refine (h.extend id (f := fun x => { x with commands := x.commands ++ [command] })
    (fun _ => rfl) (fun _ _ hi => Or.inl hi) (fun _ c hc => ?_) fun x hx hsync => ?_).note _
  · rcases List.mem_append.mp hc with hc | hc
    · exact Or.inl hc
    · exact Or.inr (List.mem_singleton.mp hc ▸ hpayload)
  · exact { (h.session id x hx).waits hsync with }

theorem WF.offer (h : s.WF) {id : Nat} {session : Session} {item : Bytes} (hitem : InboxItem item)
    (hlive : s.sessions.find? id = some session) (hidle : session.sync = none) :
    (s.offer id item).WF := by
  refine (h.extend id (f := fun x => { x with inbox := x.inbox ++ [item] })
    (fun _ => rfl) (fun _ i hi => ?_) (fun _ _ hc => Or.inl hc) fun x hx hsync => ?_).note _
  · rcases List.mem_append.mp hi with hi | hi
    · exact Or.inl hi
    · exact Or.inr (List.mem_singleton.mp hi ▸ hitem)
  · obtain rfl := Option.some.inj (hlive.symm.trans hx)
    simp [hidle] at hsync

/-! ### Sessions come and go -/

theorem mem_detachedSlots {id k : Nat} {session : Session} {slot : DedicatedClientSlot}
    (h : (s.detachedSlots id session).find? k = some slot) :
    ∃ old, s.dedicatedSlots.find? k = some old ∧ slot.offlineQueue = old.offlineQueue ∧
      (slot = old ∨ (session.dedicatedSlotId = some k ∧ slot.attachedSessionId = none)) ∧
      (session.dedicatedSlotId = some k → slot.attachedSessionId ≠ some id) := by
  unfold detachedSlots at h
  split at h
  · next hnone => exact ⟨slot, h, rfl, Or.inl rfl, fun hk => by simp [hnone] at hk⟩
  · next j hj =>
    rw [OrdMap.find?_modify] at h
    split at h
    · next hkj =>
      obtain ⟨old, hold, rfl⟩ := Option.map_eq_some_iff.mp h
      refine ⟨old, hold, ?_⟩
      split
      · exact ⟨rfl, Or.inr ⟨hkj ▸ hj, rfl⟩, fun _ => by simp⟩
      · next hother => exact ⟨rfl, Or.inl rfl, fun _ => hother⟩
    · next hkj =>
      refine ⟨slot, h, rfl, Or.inl rfl, fun hk => absurd (Option.some.inj (hj.symm.trans hk)) ?_⟩
      exact fun hjk => hkj hjk.symm

theorem find?_detachedSlots {id k : Nat} {session : Session} {slot : DedicatedClientSlot}
    (h : s.dedicatedSlots.find? k = some slot) (hother : slot.attachedSessionId ≠ some id) :
    (s.detachedSlots id session).find? k = some slot := by
  unfold detachedSlots
  split
  · exact h
  · rw [OrdMap.find?_modify]
    split
    · simp [h, hother]
    · exact h

theorem WF.drop (h : s.WF) {id : Nat} {session : Session}
    (hid : s.sessions.find? id = some session) (reason : Text) :
    (s.drop id session reason).WF where
  config := h.config
  selfKey := h.selfKey
  ended := fun hfail => by
    have hkeys := (h.ended hfail).1
    exact absurd (OrdMap.mem_keys_of_find? hid) (by simp [hkeys])
  debt := h.debt
  order := by
    have hpos : id ≠ 0 := fun h0 => h.positive (h0 ▸ OrdMap.mem_keys_of_find? hid)
    have hperm := h.order.filter (fun x => decide (x ≠ id))
    rw [List.filter_cons_of_pos (by simpa using hpos.symm)] at hperm
    simpa [Broker.drop] using hperm
  positive := by simp [Broker.drop, h.positive]
  known := fun i hi => by
    simp only [Broker.drop, OrdMap.keys_erase, List.mem_filter] at hi
    exact (h.known i hi.1).imp fun _ hk => List.mem_append_left _ hk
  session := by
    intro i x hx
    simp only [Broker.drop, OrdMap.find?_erase] at hx
    split at hx
    · cases hx
    · next hne =>
      refine ⟨fun k hk => ?_, (h.session i x hx).items, (h.session i x hx).commands,
        fun hsync => ?_⟩
      · obtain ⟨slot, hslot, hattach⟩ := (h.session i x hx).slot k hk
        exact ⟨slot, find?_detachedSlots hslot (by simp [hattach, hne]), hattach⟩
      · have hdrained := (h.session i x hx).waits hsync
        refine ⟨hdrained.own, fun k slot hk hslot => ?_⟩
        obtain ⟨old, hold, hqueue, -, -⟩ := mem_detachedSlots hslot
        rw [hqueue]
        exact hdrained.slot k old hk hold
  slot := by
    intro k slot hk
    obtain ⟨old, hold, hqueue, hsame, hgone⟩ := mem_detachedSlots hk
    refine ⟨fun i hi => ?_, hqueue ▸ (h.slot k old hold).items⟩
    rcases hsame with rfl | ⟨-, hnone⟩
    · obtain ⟨x, hx, hxk⟩ := (h.slot k slot hold).attached i hi
      have hne : i ≠ id := by
        rintro rfl
        obtain rfl := Option.some.inj (hid.symm.trans hx)
        exact hgone hxk hi
      exact ⟨x, by simpa [Broker.drop, OrdMap.find?_erase, hne] using hx, hxk⟩
    · simp [hnone] at hi
  orphan := h.orphan
  active := fun transaction ht => by
    refine (h.active transaction ht).ownerGone id ?_
    simp only [Broker.drop]
    split
    · exact Or.inl rfl
    · next hother =>
      refine Or.inr ⟨fun howner => hother ?_, rfl⟩
      have ht' : s.active = some transaction := ht
      simp [activeOwner, ht', howner]
  owed := h.owed
  lease := by
    have hold : ∀ r, RemoteLease.ownerGone s.radio.remote id = some r → ∃ old,
        s.radio.remote = some old ∧ r.tentative = old.tentative ∧ r.deadline = old.deadline ∧
        ∀ owner, r.owner = some owner → old.owner = some owner ∧ owner ≠ id := by
      intro r hr
      obtain ⟨old, hold, rfl⟩ := Option.map_eq_some_iff.mp hr
      refine ⟨old, hold, ?_⟩
      split
      · exact ⟨rfl, rfl, fun owner ho => by cases ho⟩
      · next hne => exact ⟨rfl, rfl, fun owner ho => ⟨ho, fun h => hne (h ▸ ho)⟩⟩
    refine ⟨fun r hr htentative => ?_, fun r owner hr howner => ?_⟩
    · obtain ⟨old, hremote, ht, hd, -⟩ := hold r hr
      rw [hd]
      exact h.lease.deadline old hremote (ht ▸ htentative)
    · obtain ⟨old, hremote, -, -, ho⟩ := hold r hr
      simpa [Broker.drop, (ho owner howner).2] using
        h.lease.owner old owner hremote (ho owner howner).1
  signing := by
    simp only [Broker.drop]
    split
    · exact h.signing
    · exact h.signing.ownerGone id

theorem WF.release (h : s.WF) (owner : Nat) : (s.release owner).WF where
  __ := h
  ended := fun hfail => ⟨(h.ended hfail).1, rfl⟩
  active := fun _ ht => nomatch ht
  signing := by
    simp only [Broker.release]
    split
    · exact h.signing
    · exact h.signing.ownerGone owner

theorem WF.enter (h : s.WF) {id : Nat} {slotId : Option Nat} (hrunning : s.failed = false)
    (hid : 0 < id) (hfresh : Fresh id s.log)
    (hslot : ∀ k, slotId = some k →
      ∃ slot, s.dedicatedSlots.find? k = some slot ∧ slot.attachedSessionId = none) :
    (s.enter id slotId).WF := by
  have hnew : id ∉ s.sessions.keys := fun hmem =>
    (h.known id hmem).elim fun k hk => hfresh.1 k hk
  have hkeys : (s.enter id slotId).sessions.keys = s.sessions.keys ++ [id] :=
    OrdMap.keys_insert_of_notMem hnew _
  refine { h with
    ended := fun hfail => absurd hfail (by simp [Broker.enter, hrunning])
    order := ?order
    positive := ?positive
    known := ?known
    session := ?session
    slot := ?slot
    orphan := ?orphan
    lease := h.lease.mono (hkeys ▸ List.subset_append_left _ _) }
  case order =>
    rw [hkeys]
    exact h.order.append_right [id]
  case positive =>
    rw [hkeys]
    simp only [List.mem_append, List.mem_singleton, not_or]
    exact ⟨h.positive, hid.ne⟩
  case known =>
    intro i hi
    rw [hkeys] at hi
    rcases List.mem_append.mp hi with hi | hi
    · exact (h.known i hi).imp fun _ hk => List.mem_append_left _ hk
    · obtain rfl := List.mem_singleton.mp hi
      exact ⟨slotId, List.mem_append_right _ List.mem_cons_self⟩
  case session =>
    intro i x hx
    simp only [Broker.enter, OrdMap.find?_insert] at hx
    split at hx
    · next hi =>
      obtain rfl := Option.some.inj hx
      refine ⟨fun k hk => ?_, fun item hitem => ?_, fun c hc => by simp at hc,
        fun hsync => by simp at hsync⟩
      · obtain ⟨slot, hfound, -⟩ := hslot k hk
        subst hk hi
        exact ⟨{ slot with attachedSessionId := some i }, by simp [Broker.enter, hfound], rfl⟩
      · split at hitem
        · exact h.orphan item (by simpa using hitem)
        · simp at hitem
    · have hkept : ∀ k slot, x.dedicatedSlotId = some k →
          ((s.enter id slotId).dedicatedSlots.find? k = some slot ↔
            s.dedicatedSlots.find? k = some slot) := by
        intro k slot hk
        simp only [Broker.enter]
        split
        · rfl
        · next j =>
          -- the slot that the new session takes was attached to nobody
          rw [OrdMap.find?_modify_of_ne _ _ ?_]
          rintro rfl
          obtain ⟨held, hheld, hattach⟩ := (h.session i x hx).slot k hk
          obtain ⟨free, hfree, hnone⟩ := hslot k rfl
          obtain rfl := Option.some.inj (hheld.symm.trans hfree)
          simp [hattach] at hnone
      refine ⟨fun k hk => ?_, (h.session i x hx).items, (h.session i x hx).commands,
        fun hsync => ?_⟩
      · obtain ⟨slot, hfound, hattach⟩ := (h.session i x hx).slot k hk
        exact ⟨slot, (hkept k slot hk).mpr hfound, hattach⟩
      · have hdrained := (h.session i x hx).waits hsync
        exact ⟨hdrained.own, fun k slot hk hfound =>
          hdrained.slot k slot hk ((hkept k slot hk).mp hfound)⟩
  case slot =>
    intro k slot hk
    simp only [Broker.enter] at hk
    have hlive : ∀ old, s.dedicatedSlots.find? k = some old →
        ∀ i, old.attachedSessionId = some i → ∃ session,
          (s.enter id slotId).sessions.find? i = some session ∧ session.dedicatedSlotId = some k := by
      intro old hold i hi
      obtain ⟨x, hx, hxk⟩ := (h.slot k old hold).attached i hi
      refine ⟨x, ?_, hxk⟩
      simp only [Broker.enter]
      rw [OrdMap.find?_insert_of_ne _ _ ?_]
      · exact hx
      · rintro rfl
        exact hnew (OrdMap.mem_keys_of_find? hx)
    split at hk
    · exact ⟨hlive slot hk, (h.slot k slot hk).items⟩
    · next j =>
      rw [OrdMap.find?_modify] at hk
      split at hk
      · next hkj =>
        obtain ⟨old, hold, rfl⟩ := Option.map_eq_some_iff.mp hk
        refine ⟨fun i hi => ?_, (h.slot k old hold).items⟩
        obtain rfl : id = i := by simpa using hi
        exact ⟨{ dedicatedSlotId := some j, inbox := [] }, by simp [Broker.enter], by rw [hkj]⟩
      · exact ⟨hlive slot hk, (h.slot k slot hk).items⟩
  case orphan =>
    intro item hitem
    simp only [Broker.enter] at hitem
    split at hitem
    · cases hitem
    · exact h.orphan item hitem

/-! ### The upstream side -/

/-- A new broker state whose transaction may rely on the leases. -/
theorem WF.run (h : s.WF) {transaction : Transaction} {radio : CompanionRadioState}
    {signing : SigningLease} (hrunning : s.failed = false)
    (hactive : Running radio signing s.now transaction)
    (hlease : LeaseOK s.sessions.keys radio.remote)
    (hsigning : signing.Sound) :
    WF { s with active := some transaction, radio := radio, signing := signing } :=
  { h with
    ended := fun hfail => absurd hfail (by simp [hrunning])
    active := fun _ ht => Option.some.inj ht ▸ hactive
    lease := hlease
    signing := hsigning }

theorem WF.running (h : s.WF) {transaction : Transaction} (ht : s.active = some transaction) :
    s.failed = false := by
  by_contra hfail
  rw [Bool.not_eq_false] at hfail
  simp [(h.ended hfail).2] at ht

/-- The active transaction may change in what nothing depends on. -/
theorem WF.retime (h : s.WF) {transaction transaction' : Transaction}
    (ht : s.active = some transaction)
    (hrun : Running s.radio s.signing s.now transaction →
      Running s.radio s.signing s.now transaction') :
    WF { s with active := some transaction' } :=
  { h with
    ended := fun hfail => absurd hfail (by simp [h.running ht])
    active := fun _ ht' => Option.some.inj ht' ▸ hrun (h.active transaction ht) }

theorem WF.sendUp (h : s.WF) (hrunning : s.failed = false) (payload : Bytes)
    {transaction : Transaction} (hactive : Running s.radio s.signing s.now transaction) :
    (s.sendUp payload transaction).WF := by
  have hwritten : Running s.radio s.signing s.now
      { transaction with upstreamWriteId := some (s.nextWrite + 1) } :=
    hactive.timing rfl rfl rfl rfl rfl rfl
  exact { (h.run hrunning hwritten h.lease h.signing).note
    (.upstream ⟨0, s.epoch, s.nextWrite + 1, payload⟩ transaction) with }

/-- What a dispatched command reserves is what it relies on. -/
theorem Reserves.running {owner : Nat} {command : Bytes} {descriptor : CommandDescriptor}
    {radio : CompanionRadioState} {signing : SigningLease} {transaction : Transaction}
    (h : s.Reserves owner command descriptor radio signing)
    (hdescriptor : Protocol.descriptor command = some descriptor)
    (hcommand : commandShapeValid command = true) (howner : owner ≠ 0)
    (ho : transaction.owner = owner) (hc : transaction.command = command)
    (hd : transaction.descriptor = descriptor) (hstep : transaction.step.unanswered = true)
    (hscoped : transaction.isScoped = true → descriptor.flags.scopeSend = true)
    (hsetup : transaction.step = .setup → transaction.isScoped = true)
    (hmaintenance : transaction.maintenance = descriptor.flags.maintenance) :
    Running radio signing s.now transaction := by
  obtain ⟨hexclusive, hleased⟩ := flags_disjoint hdescriptor
  subst hc hd
  refine
    { shape := ⟨hdescriptor, hcommand, fun h0 => absurd (ho ▸ h0) howner⟩
      pop := fun h0 => absurd (ho ▸ h0) howner
      maintenance := hmaintenance
      wrapped := ?wrapped
      flagged := hscoped
      result := fun hr => by simp [hr, Transaction.Step.unanswered] at hstep
      ring := fun hdm _ => ?ring
      lease := fun hflag _ => ?lease
      signs := fun _ => ?signs }
  case wrapped =>
    rintro (hs | hr)
    · exact hsetup hs
    · simp [hr, Transaction.Step.unanswered] at hstep
  case ring =>
    cases h with
    | maintenance _ _ _ _ _ hring _ => exact DmRing.available_of_pendingCount hring
    | dm _ _ hring => exact hring
    | lease hnot => simp [hnot] at hdm
    | signing hnot => simp [hnot] at hdm
    | plain hnot => simp [hnot] at hdm
  case lease =>
    cases h with
    | maintenance hm => simp [(hexclusive hm).2.1] at hflag
    | dm hdm => exact absurd (opcode_of_plainDm hdm) (hleased hflag).1
    | lease _ _ _ _ hr =>
      obtain ⟨-, kind, peer, tag, auth, -, hsome⟩ := RemoteLease.reserve_eq hr
      simp [RemoteLease.tentative, hsome]
    | signing _ hnot => simp [hnot] at hflag
    | plain _ hnot => simp [hnot] at hflag
  case signs =>
    have hnone : opcode transaction.command ∉ [cmdSignStart, cmdSignData, cmdSignFinish] →
        Signs signing transaction := by
      intro hout
      simp only [List.mem_cons, List.not_mem_nil, or_false, not_or] at hout
      exact ⟨fun hop => absurd hop hout.1, fun hop => absurd hop hout.2.1,
        fun hop => absurd hop hout.2.2⟩
    cases h with
    | maintenance hm => exact hnone (hexclusive hm).2.2
    | dm hdm => exact hnone (by rw [opcode_of_plainDm hdm]; decide)
    | lease _ hflag => exact hnone (hleased hflag).2
    | signing _ _ hsign =>
      rcases hsign with ⟨hop, hok⟩ | ⟨hop, hok⟩ | ⟨hop, hok⟩
      · rcases SigningLease.start_eq hok with ⟨hf, -⟩ | ⟨-, hstart⟩
        · cases hf
        · exact ⟨fun _ => ⟨_, hstart, ho.symm, rfl⟩,
            fun hop' => absurd (hop.symm.trans hop') (by decide),
            fun hop' => absurd (hop.symm.trans hop') (by decide)⟩
      · rcases SigningLease.beginData_eq hok with ⟨hf, -⟩ | ⟨-, op, limit, -, husable, -, -, rfl⟩
        · exact absurd rfl hf
        · have howns : op.owner = owner := by
            simp only [SigningLease.Operation.usableBy, Bool.and_eq_true, beq_iff_eq] at husable
            exact husable.1.1.1.1
          exact ⟨fun hop' => absurd (hop.symm.trans hop') (by decide),
            fun _ => ⟨_, _, rfl, howns.trans ho.symm, rfl⟩,
            fun hop' => absurd (hop.symm.trans hop') (by decide)⟩
      · rcases SigningLease.beginFinish_eq hok with ⟨hf, -⟩ | ⟨-, op, -, husable, rfl⟩
        · exact absurd rfl hf
        · have howns : op.owner = owner := by
            simp only [SigningLease.Operation.usableBy, Bool.and_eq_true, beq_iff_eq] at husable
            exact husable.1.1.1.1
          exact ⟨fun hop' => absurd (hop.symm.trans hop') (by decide),
            fun hop' => absurd (hop.symm.trans hop') (by decide),
            fun _ => ⟨_, rfl, howns.trans ho.symm, rfl⟩⟩
    | plain _ _ hout => exact hnone hout

/-- What a reservation leaves satisfies the lease invariants. -/
theorem Reserves.leases {owner : Nat} {command : Bytes} {descriptor : CommandDescriptor}
    {radio : CompanionRadioState} {signing : SigningLease} (h : s.WF)
    (hr : s.Reserves owner command descriptor radio signing) (howner : owner ∈ s.sessions.keys) :
    LeaseOK s.sessions.keys radio.remote ∧ signing.Sound := by
  cases hr with
  | maintenance | dm | plain => exact ⟨h.lease, h.signing⟩
  | lease _ _ _ _ hok =>
    obtain ⟨-, kind, peer, tag, auth, -, hsome⟩ := RemoteLease.reserve_eq hok
    refine ⟨⟨fun r' hr' _ => ?_, fun r' i hr' hi => ?_⟩, h.signing⟩
    · obtain rfl := Option.some.inj (hr'.symm.trans hsome)
      rfl
    · obtain rfl := Option.some.inj (hr'.symm.trans hsome)
      obtain rfl := Option.some.inj hi
      exact howner
  | signing _ _ hsign =>
    refine ⟨h.lease, ?_⟩
    rcases hsign with ⟨-, hok⟩ | ⟨-, hok⟩ | ⟨-, hok⟩
    · exact h.signing.start hok
    · exact h.signing.beginData hok
    · exact h.signing.beginFinish hok

/-- What a terminal reply can do to the leases, case by case. -/
inductive Accepts (transaction : Transaction) (payload : Bytes) (now : Time)
    (radio : CompanionRadioState) (signing : SigningLease) :
    CompanionRadioState → SigningLease → Prop
  | dm {ring : DmRing} (hdm : plainDm transaction.command = true)
      (hcode : opcode payload = respSent) (h : radio.dmRing.accepted payload now = .ok ring) :
      Accepts transaction payload now radio signing { radio with dmRing := ring } signing
  | lease {remote : RemoteLease} (hflag : transaction.descriptor.flags.remoteLease = true)
      (hcode : opcode payload = respSent)
      (h : RemoteLease.accepted radio.remote payload now = .ok remote) :
      Accepts transaction payload now radio signing { radio with remote := remote } signing
  | leaseRejected (hflag : transaction.descriptor.flags.remoteLease = true)
      (hcode : opcode payload ≠ respSent) :
      Accepts transaction payload now radio signing { radio with remote := none } signing
  | signStart {lease : SigningLease} (hop : opcode transaction.command = cmdSignStart)
      (hcode : opcode payload = respSignStart)
      (h : signing.acceptedStart payload now = .ok lease) :
      Accepts transaction payload now radio signing radio lease
  | signRejected (hop : opcode transaction.command = cmdSignStart)
      (hcode : opcode payload ≠ respSignStart) :
      Accepts transaction payload now radio signing radio signing.rejectedStart
  | signData {lease : SigningLease} (hop : opcode transaction.command = cmdSignData)
      (h : signing.dataResponse payload now = .ok lease) :
      Accepts transaction payload now radio signing radio lease
  | signFinish {lease : SigningLease} (hop : opcode transaction.command = cmdSignFinish)
      (h : signing.finishResponse payload now = .ok lease) :
      Accepts transaction payload now radio signing radio lease
  | plain (hdm : ¬ (plainDm transaction.command = true ∧ opcode payload = respSent))
      (hflag : transaction.descriptor.flags.remoteLease = false)
      (hop : opcode transaction.command ∉ [cmdSignStart, cmdSignData, cmdSignFinish]) :
      Accepts transaction payload now radio signing radio signing

theorem acceptance_eq {transaction : Transaction} {payload : Bytes} {now : Time}
    {radio radio' : CompanionRadioState} {signing signing' : SigningLease}
    (h : acceptance transaction payload now radio signing = .ok (radio', signing')) :
    Accepts transaction payload now radio signing radio' signing' := by
  unfold acceptance at h
  split at h
  · next hdm =>
    simp only [Except.bind_eq_ok, Except.pure_eq_ok, Prod.mk.injEq] at h
    obtain ⟨ring, hring, rfl, rfl⟩ := h
    exact .dm hdm.1 hdm.2 hring
  next hdm =>
  split at h
  · next hflag =>
    split at h
    · next hcode =>
      simp only [Except.bind_eq_ok, Except.pure_eq_ok, Prod.mk.injEq] at h
      obtain ⟨remote, hremote, rfl, rfl⟩ := h
      exact .lease hflag hcode hremote
    · next hcode =>
      simp only [Except.pure_eq_ok, Prod.mk.injEq] at h
      obtain ⟨rfl, rfl⟩ := h
      exact .leaseRejected hflag hcode
  next hflag =>
  split at h
  · next hop =>
    split at h
    · next hcode =>
      simp only [Except.bind_eq_ok, Except.pure_eq_ok, Prod.mk.injEq] at h
      obtain ⟨lease, hlease, rfl, rfl⟩ := h
      exact .signStart hop hcode hlease
    · next hcode =>
      simp only [Except.pure_eq_ok, Prod.mk.injEq] at h
      obtain ⟨rfl, rfl⟩ := h
      exact .signRejected hop hcode
  next hstart =>
  split at h
  · next hop =>
    simp only [Except.bind_eq_ok, Except.pure_eq_ok, Prod.mk.injEq] at h
    obtain ⟨lease, hlease, rfl, rfl⟩ := h
    exact .signData hop hlease
  next hdata =>
  split at h
  · next hop =>
    simp only [Except.bind_eq_ok, Except.pure_eq_ok, Prod.mk.injEq] at h
    obtain ⟨lease, hlease, rfl, rfl⟩ := h
    exact .signFinish hop hlease
  · next hfinish =>
    simp only [Except.pure_eq_ok, Prod.mk.injEq] at h
    obtain ⟨rfl, rfl⟩ := h
    exact .plain hdm (by simpa using hflag) (by simp [hstart, hdata, hfinish])

/-- What a terminal reply leaves satisfies the lease invariants. -/
theorem acceptance_leases {transaction : Transaction} {payload : Bytes} {now : Time}
    {live : List Nat} {radio radio' : CompanionRadioState} {signing signing' : SigningLease}
    (hlease : LeaseOK live radio.remote) (hsigning : signing.Sound)
    (h : acceptance transaction payload now radio signing = .ok (radio', signing')) :
    LeaseOK live radio'.remote ∧ signing'.Sound := by
  cases acceptance_eq h with
  | dm | plain => exact ⟨hlease, hsigning⟩
  | lease _ _ hremote =>
    obtain ⟨r, hr, -, rfl⟩ := RemoteLease.accepted_eq hremote
    refine ⟨⟨fun r' hr' ht => ?_, fun r' i hr' hi => ?_⟩, hsigning⟩
    · obtain rfl := Option.some.inj hr'
      cases ht
    · obtain rfl := Option.some.inj hr'
      exact hlease.owner r i hr hi
  | leaseRejected => exact ⟨.free _, hsigning⟩
  | signStart _ _ hok => exact ⟨hlease, hsigning.acceptedStart hok⟩
  | signRejected => exact ⟨hlease, .clear _⟩
  | signData _ hok => exact ⟨hlease, hsigning.dataResponse hok⟩
  | signFinish _ hok => exact ⟨hlease, hsigning.finishResponse hok⟩

theorem WF.preservedRadio_lease (h : s.WF) (transaction : Transaction) :
    LeaseOK s.sessions.keys (s.preservedRadio transaction).remote := by
  simp only [preservedRadio]
  split
  · split
    · exact .free _
    · exact h.lease
  · split
    · split
      · refine ⟨fun r hr ht => ?_, fun r i hr hi => ?_⟩ <;>
          simp only [CompanionRadioState.quarantine, abandonLease, Option.map_eq_some_iff] at hr <;>
          obtain ⟨old, hold, rfl⟩ := hr
        · split at ht
          · cases ht
          · next hnot => exact absurd ht hnot
        · split at hi
          · cases hi
          · exact h.lease.owner old i hold hi
      · exact h.lease
    · exact h.lease

@[simp] theorem leave_keys (id : Nat) :
    (s.leave id).sessions.keys = s.sessions.keys.filter (· ≠ id) := by
  unfold leave
  split
  · next hnone =>
    rw [OrdMap.find?_eq_none] at hnone
    exact (List.filter_eq_self.mpr fun i hi => by simpa using fun h : i = id => hnone (h ▸ hi)).symm
  · split <;> simp [drop, release]

@[simp] theorem leave_failed (id : Nat) : (s.leave id).failed = s.failed := by
  unfold leave
  split
  · rfl
  · split <;> rfl

@[simp] theorem leaveAll_failed {ids : List Nat} : (ids.foldl leave s).failed = s.failed := by
  induction ids generalizing s with
  | nil => rfl
  | cons id ids ih => simp [ih]

theorem leaveAll_keys {ids : List Nat} (h : s.sessions.keys = ids) :
    (ids.foldl leave s).sessions.keys = [] := by
  induction ids generalizing s with
  | nil => exact h
  | cons id ids ih =>
    refine ih ?_
    have hnodup := s.sessions.nodup_keys
    rw [h, List.nodup_cons] at hnodup
    rw [leave_keys, h, List.filter_cons_of_neg (by simp)]
    exact List.filter_eq_self.mpr fun i hi => by simpa using fun hid : i = id => hnodup.1 (hid ▸ hi)

theorem WF.fail (h : s.WF) (hsessions : s.sessions.isEmpty = true) (reason : Text) :
    (s.fail reason).WF := by
  refine { h.note (.ended s.epoch reason) with
    ended := fun _ => ⟨OrdMap.isEmpty_iff_keys.mp hsessions, rfl⟩
    debt := fun hfail => nomatch hfail
    active := fun _ ht => nomatch ht
    owed := fun transaction ht => ?owed
    lease := ?lease }
  case owed =>
    exact (h.active transaction (Option.filter_eq_some_iff.mp ht).1).shape
  case lease =>
    simp only [Broker.fail]
    split
    · exact h.lease
    · exact h.preservedRadio_lease _

theorem WF.leave (h : s.WF) (id : Nat) : (s.leave id).WF := by
  unfold Broker.leave
  split
  · exact h
  · next session hlive =>
    split
    · exact (h.drop hlive _).release _
    · exact h.drop hlive _

theorem WF.failAll (h : s.WF) (reason : Text) : (s.failAll reason).WF := by
  have hleft : ∀ (ids : List Nat) (u : Broker), u.WF → (ids.foldl Broker.leave u).WF := by
    intro ids
    induction ids with
    | nil => exact fun _ hu => hu
    | cons id ids ih => exact fun u hu => ih _ (hu.leave id)
  exact (hleft _ s h).fail (OrdMap.isEmpty_iff_keys.mpr (leaveAll_keys rfl)) reason

/-! ### Preservation -/

theorem WF.output {t : Broker} (h : s.WF) (hst : Output s t) : t.WF := by
  cases hst with
  | drop hid => exact h.drop hid _
  | hint hid hnone hroom => exact (h.send _ _ _).markHint _ _

theorem WF.clock (h : s.WF) {now : Time} (hnow : s.now ≤ now) : WF { s with now := now } :=
  { h with
    active := fun transaction ht =>
      (h.active transaction ht).later (fun ha => DmRing.available_mono hnow ha) fun hl => hl }

theorem WF.idle {t : Broker} (h : s.WF) (hst : Idle s t) : t.WF := by
  cases hst with
  | poll => exact { h with }
  | refuse => exact h.note _
  | rotate horder =>
    refine { h with order := ?_ }
    have hperm := h.order
    rw [horder] at hperm
    exact (List.perm_append_singleton _ _).trans hperm
  | writtenUp =>
    rename_i writeId
    refine { h with
      ended := fun hfail => ⟨(h.ended hfail).1, by simp [(h.ended hfail).2]⟩
      active := fun transaction ht => ?_ }
    obtain ⟨old, hold, rfl⟩ := Option.map_eq_some_iff.mp ht
    split
    · exact (h.active old hold).timing rfl rfl rfl rfl rfl rfl
    · exact h.active old hold
  | writtenDown => exact h.writtenDown _ _
  | proved ht hwrite =>
    rename_i transaction writeId
    have hproved : WF { s with active := some (proveWrite transaction s.now) } :=
      h.retime ht fun hrun => hrun.timing rfl rfl rfl rfl rfl rfl
    exact { hproved with }
  | touched progress responseFrames ht =>
    exact h.retime ht fun hrun => hrun.timing rfl rfl rfl rfl rfl rfl
  | debtTouched contactsStarted responseFrames ht =>
    refine { h with
      debt := fun hfail => absurd (h.debt hfail) (by simp [ht])
      owed := fun transaction ht' => ?_ }
    obtain rfl := Option.some.inj ht'
    exact { h.owed _ ht with }
  | debtCleared => exact { h with debt := fun _ => rfl, owed := fun _ ht => nomatch ht }

theorem WF.client {t : Broker} (h : s.WF) (hst : Client s t) : t.WF := by
  cases hst with
  | entered hrunning _ hid hfresh hslot => exact h.enter hrunning hid hfresh hslot
  | queued hrunning hid hpayload => exact h.queue _ hpayload
  | answered hhead hroom hreply => exact (h.take _ _).send _ _ _
  | selected hhead hroom hvalid hop => exact (((h.take _ _).setScope _ _).send _ _ _).note _
  | @choked id session command hhead =>
    have hlive : (s.take id command).sessions.find? id
        = some { session with commands := session.commands.tail } := by
      simp [Broker.take, hhead.live]
    exact (h.take id command).drop hlive _
  | @waits id session command deadline hhead hop hempty =>
    have hlive : (s.take id command).sessions.find? id
        = some { session with commands := session.commands.tail } := by
      simp [Broker.take, hhead.live]
    exact (h.take id command).startSync _ hlive hempty
  | delivered hhead hop hroom hinbox hvisible => exact ((h.take _ _).send _ _ _).shiftInbox _ _ _
  | syncExpired hid hsync hdeadline hroom => exact (h.endSync _).send _ _ _
  | broadcast hid hroom hpush hresult hwaiting => exact h.send _ _ _

/-- The remote lease may be released or expire, unless the active transaction still holds it. -/
theorem WF.setRemote (h : s.WF) {remote : RemoteLease}
    (hremote : remote = s.radio.remote ∨
      (remote = none ∧ RemoteLease.tentative s.radio.remote = false)) :
    WF { s with radio := { s.radio with remote := remote } } := by
  rcases hremote with rfl | ⟨rfl, hfree⟩
  · exact { h with }
  · exact { h with
      active := fun transaction ht => (h.active transaction ht).later (fun ha => ha)
        fun hl => absurd hl (by simp [hfree])
      lease := .free _ }

/-- Expiry releases only accepted leases. -/
theorem WF.expire_remote (h : s.WF) (now : Time) :
    (RemoteLease.expire s.radio.remote now).2 = s.radio.remote ∨
      ((RemoteLease.expire s.radio.remote now).2 = none ∧
        RemoteLease.tentative s.radio.remote = false) := by
  cases hr : s.radio.remote with
  | none => exact Or.inl rfl
  | some r =>
    cases ht : r.tentative with
    | true => exact Or.inl (by rw [RemoteLease.expire_of_tentative (h.lease.deadline r hr ht)])
    | false =>
      unfold RemoteLease.expire
      split
      · exact Or.inr ⟨rfl, by simp [RemoteLease.tentative, ht]⟩
      · exact Or.inl rfl

theorem WF.matchPush_remote (h : s.WF) {payload : Bytes} {now : Time} {owner : Option Nat}
    {remote : RemoteLease}
    (hmatch : RemoteLease.matchPush s.radio.remote payload now = .ok (owner, remote)) :
    remote = s.radio.remote ∨
      (remote = none ∧ RemoteLease.tentative s.radio.remote = false) := by
  rcases RemoteLease.matchPush_eq hmatch with ⟨-, rfl⟩ | ⟨r, hr, ht, -, -, rfl⟩
  · exact h.expire_remote now
  · refine Or.inr ⟨rfl, ?_⟩
    rcases h.expire_remote now with heq | ⟨hnone, -⟩
    · rw [← heq, hr]
      simp [RemoteLease.tentative, ht]
    · simp [hnone] at hr

theorem WF.radio {t : Broker} (h : s.WF) (hst : Radio s t) : t.WF := by
  cases hst with
  | leaseExpired hexpired =>
    refine h.setRemote (Or.inr ⟨rfl, ?_⟩)
    rcases h.expire_remote s.now with heq | ⟨-, hfree⟩
    · simp [RemoteLease.expire, hexpired] at heq
      simp [← heq] at hexpired
    · exact hfree
  | signingExpired hexpired hactive =>
    refine { h with
      active := fun transaction ht => ?_
      signing := .clear _ }
    have ht' : s.active = some transaction := ht
    have hplain : transaction.descriptor.flags.signing = false := by simpa [ht'] using hactive
    have hrun := h.active transaction ht
    exact { hrun with signs := fun _ => Signs.of_plain hrun.shape.descriptor hplain }
  | quarantineOver hover =>
    obtain ⟨heq, -, -⟩ := CompanionRadioState.quarantined_false hover
    rw [heq]
    exact { h with
      active := fun transaction ht => (h.active transaction ht).later (fun ha => ha) fun hl => hl }
  | notified => exact { h with }
  | confirmed hreceived hconfirm =>
    obtain rfl := DmRing.confirm_eq hconfirm
    refine WF.note ?_ _
    exact { h with
      active := fun transaction ht => (h.active transaction ht).later
        (fun ha => DmRing.available_settle _ ha) fun hl => hl }
  | unmatched hreceived hpush hnow hmatch => exact (h.setRemote (h.matchPush_remote hmatch)).note _
  | matched hreceived hpush hnow hmatch hlive hroom =>
    exact ((h.setRemote (h.matchPush_remote hmatch)).send _ _ _).note _

theorem WF.forwarded {t : Broker} {transaction : Transaction} {payload : Bytes} {w : Option Nat}
    (h : s.WF) (ht : s.Forwarded transaction payload w t) : t.WF := by
  cases ht with
  | gone => exact h
  | live => exact (h.retarget _ _).send _ _ _

/-- Forwarding a reply touches neither the transaction nor the leases. -/
theorem Forwarded.frame {t : Broker} {transaction : Transaction} {payload : Bytes} {w : Option Nat}
    (ht : s.Forwarded transaction payload w t) :
    t.failed = s.failed ∧ t.active = s.active ∧ t.now = s.now ∧ t.radio = s.radio ∧
      t.signing = s.signing ∧ t.sessions.keys = s.sessions.keys := by
  cases ht with
  | gone => exact ⟨rfl, rfl, rfl, rfl, rfl, rfl⟩
  | live => unfold retarget; split <;> exact ⟨rfl, rfl, rfl, rfl, rfl, by simp [Broker.send]⟩

/-- The companion's side fails nothing by itself. -/
theorem Upstream.failed_eq {t : Broker} (h : Upstream s t) : t.failed = s.failed := by
  cases h with
  | popDispatched | dispatched | setupAccepted | restored => rfl
  | setupRejected _ _ _ _ _ _ ht | progressed _ ht | scopedReply _ ht | heldReply _ ht
  | finalReply _ ht => exact ht.frame.1

/-- The leases may change when no transaction is left that relies on them. -/
theorem WF.relax (h : s.WF) {active : Option Transaction} {radio : CompanionRadioState}
    {signing : SigningLease}
    (hactive : ∀ transaction, active = some transaction →
      Running radio signing s.now transaction) (hfailed : s.failed = false)
    (hlease : LeaseOK s.sessions.keys radio.remote)
    (hsigning : signing.Sound) :
    WF { s with active := active, radio := radio, signing := signing } :=
  { h with
    ended := fun hfail => absurd hfail (by simp [hfailed])
    active := hactive
    lease := hlease
    signing := hsigning }

theorem WF.claim (h : s.WF) {transaction : Transaction} {radio : CompanionRadioState}
    {signing : SigningLease} (hrunning : s.failed = false)
    (hactive : Running radio signing s.now transaction)
    (hlease : LeaseOK s.sessions.keys radio.remote)
    (hsigning : signing.Sound) : (s.claim transaction radio signing).WF :=
  (h.run hrunning hactive hlease hsigning).note _

/-- The reply is settled and the transaction released. -/
theorem WF.finish (h : s.WF) (hfailed : s.failed = false) {radio : CompanionRadioState}
    {signing : SigningLease}
    (hlease : LeaseOK s.sessions.keys radio.remote)
    (hsigning : signing.Sound) (n : Note) (owner : Nat) :
    (({ s with radio := radio, signing := signing }.note n).release owner).WF := by
  have hgone :
      (if s.sessions.contains owner then signing else signing.ownerGone owner).Sound := by
    split
    · exact hsigning
    · exact hsigning.ownerGone owner
  have hfree := h.relax (fun _ (ht : none = some _) => nomatch ht) hfailed hlease hgone
  exact hfree.note n

theorem WF.upstream {t : Broker} (h : s.WF) (hst : Upstream s t) : t.WF := by
  cases hst with
  | @popDispatched descriptor transaction hrunning hidle hrequested hsessions hdescriptor
      htransaction =>
    have hrun : Running s.radio s.signing s.now transaction := by
      obtain rfl := Option.some.inj (hdescriptor.symm.trans (show Protocol.descriptor
        [cmdSyncNextMessage] = some _ from rfl))
      subst htransaction
      exact
        { shape := ⟨rfl, (by decide : commandShapeValid [cmdSyncNextMessage] = true), fun _ => rfl⟩
          pop := fun _ => ⟨rfl, rfl⟩
          maintenance := rfl
          wrapped := fun hs => by simp at hs
          flagged := fun hs => by cases hs
          result := fun hs => by cases hs
          ring := fun hdm => by cases hdm
          lease := fun hflag => by cases hflag
          signs := fun _ => Signs.of_plain rfl rfl }
    have hcount : WF { s with drainRequested := false, popSequence := s.popSequence + 1 } :=
      { h with }
    exact (hcount.claim hrunning hrun h.lease h.signing).sendUp hrunning _ hrun
  | @dispatched id session command descriptor radio signing transaction frame hidle hhead hforward
      hdescriptor hreserves htransaction hframe =>
    have hshape : commandShapeValid command.payload = true := by
      have hvalid := hforward.valid
      simp only [validateCommand, hdescriptor] at hvalid
      by_contra hbad
      simp [hbad] at hvalid
    have hid : id ≠ 0 := fun h0 => h.positive (h0 ▸ OrdMap.mem_keys_of_find? hhead.live)
    have hrun : Running radio signing s.now transaction := by
      subst htransaction
      refine hreserves.running hdescriptor hshape hid rfl rfl rfl ?_ ?_ ?_ rfl
      · dsimp only
        split <;> rfl
      · exact fun hs => (of_decide_eq_true hs).1
      · intro hs
        dsimp only at hs ⊢
        split at hs
        · next hscope => exact decide_eq_true hscope
        · cases hs
    obtain ⟨hlease, hsigning⟩ := hreserves.leases h (OrdMap.mem_keys_of_find? hhead.live)
    have hkeys : (s.take id command).sessions.keys = s.sessions.keys := by simp [Broker.take]
    exact ((h.take id command).claim hhead.running hrun (hkeys ▸ hlease) hsigning).sendUp hhead.running _ hrun
  | @setupRejected t transaction payload w ht hreceived hstep hwritten hreply herr hforwarded =>
    obtain ⟨hfailed, -, -, hradio, hsigning, hkeys⟩ := hforwarded.frame
    have ht' := h.forwarded hforwarded
    refine ht'.finish (hfailed.trans (h.running ht)) ?_ ht'.signing _ _
    rw [hkeys]
    split
    · exact .free _
    · exact h.lease
  | @setupAccepted transaction frame ht hreceived hstep hwritten hframe =>
    refine (h.note _).sendUp (h.running ht) _ ?_
    have hrun := h.active transaction ht
    exact
      { shape := { hrun.shape with }
        pop := fun h0 => absurd (hrun.pop h0).1 (by simp [hstep])
        maintenance := hrun.maintenance
        wrapped := fun hs => by simp at hs
        flagged := hrun.flagged
        result := fun hs => by cases hs
        ring := fun hdm _ => hrun.ring hdm (by simp [hstep, Transaction.Step.unanswered])
        lease := fun hflag _ => hrun.lease hflag (by simp [hstep, Transaction.Step.unanswered])
        signs := fun _ => { hrun.signs (by simp [hstep, Transaction.Step.unanswered]) with } }
  | restored ht hreceived hstep hwritten => exact (h.note _).release _
  | @progressed t transaction payload started w hreplied hforwarded =>
    obtain ⟨-, hactive, -⟩ := hforwarded.frame
    refine WF.note ((h.forwarded hforwarded).retime (hactive.trans hreplied.active) ?_) _
    exact fun hrun => hrun.timing rfl rfl rfl rfl rfl rfl
  | @scopedReply t transaction payload started w radio signing hreplied hforwarded haccept
      hscoped =>
    obtain ⟨hfailed, hactive, -, -, -, hkeys⟩ := hforwarded.frame
    have hrunning := hfailed.trans (h.running hreplied.active)
    have hrun := (h.forwarded hforwarded).active transaction (hactive.trans hreplied.active)
    obtain ⟨hlease, hsigning⟩ := acceptance_leases (hkeys ▸ h.lease) h.signing haccept
    have hrestore : Running radio signing t.now
        { transaction with
          contactsStarted := started
          responseFrames := transaction.responseFrames + 1
          progress := s.now
          step := .restore } :=
      hrun.answered hreplied.client rfl rfl rfl rfl rfl (Or.inl ⟨rfl, hscoped⟩)
    have hnext := ((h.forwarded hforwarded).run hrunning hrestore hlease hsigning).note
      (.replied payload s.now)
    exact { hnext.sendUp hrunning defaultScope hrestore with }
  | @heldReply t transaction payload started w radio signing hreplied hforwarded haccept hscoped
      hmaintenance =>
    obtain ⟨hfailed, hactive, -, -, -, hkeys⟩ := hforwarded.frame
    have hrun := (h.forwarded hforwarded).active transaction (hactive.trans hreplied.active)
    obtain ⟨hlease, hsigning⟩ := acceptance_leases (hkeys ▸ h.lease) h.signing haccept
    have hheld : Running radio signing t.now
        { transaction with
          contactsStarted := started
          responseFrames := transaction.responseFrames + 1
          progress := s.now
          step := .maintenanceResult
          maintenanceWriteId := some w } :=
      hrun.answered hreplied.client rfl rfl rfl rfl rfl (Or.inr ⟨rfl, hmaintenance⟩)
    exact WF.note ((h.forwarded hforwarded).run (hfailed.trans (h.running hreplied.active)) hheld
      hlease hsigning) _
  | @finalReply t transaction payload started w radio signing hreplied hforwarded haccept hscoped
      hmaintenance =>
    obtain ⟨hfailed, -, -, -, -, hkeys⟩ := hforwarded.frame
    obtain ⟨hlease, hsigning⟩ := acceptance_leases (hkeys ▸ h.lease) h.signing haccept
    exact (h.forwarded hforwarded).finish (hfailed.trans (h.running hreplied.active)) hlease
      hsigning _ _

theorem WF.rest (h : s.WF) : WF { s with active := none } :=
  { h with
    ended := fun hfail => ⟨(h.ended hfail).1, rfl⟩
    active := fun _ ht => nomatch ht }

theorem pop_payload {transaction : Transaction} {payload : Bytes}
    (hvalid : validateResponse transaction.descriptor payload transaction.command transaction.phase
      = .ok .complete) (hitem : opcode payload ∈ inboxItemCodes) : InboxItem payload := by
  have herr : opcode payload ≠ respErr := by
    rintro heq
    rw [heq] at hitem
    exact absurd hitem (by decide)
  exact ⟨(validateResponse_eq_ok hvalid herr).2.1, hitem⟩

/-- A session belongs to the slot that is attached to it. -/
theorem WF.attached_of (h : s.WF) {id k : Nat} {session : Session} {slot : DedicatedClientSlot}
    (hlive : s.sessions.find? id = some session) (hk : session.dedicatedSlotId = some k)
    (hslot : s.dedicatedSlots.find? k = some slot) : slot.attachedSessionId = some id := by
  obtain ⟨held, hheld, hattached⟩ := (h.session id session hlive).slot k hk
  obtain rfl := Option.some.inj (hheld.symm.trans hslot)
  exact hattached

theorem WF.attachedHeld (h : s.WF) {id k : Nat} {session : Session} {slot : DedicatedClientSlot}
    {item : Bytes} (hslot : s.dedicatedSlots.find? k = some slot)
    (hattached : slot.attachedSessionId = some id) (hlive : s.sessions.find? id = some session)
    (hitem : InboxItem item) (hsync : session.sync = none) : (s.offerSlot k item).WF := by
  refine h.offerSlot k hitem fun i x hx hk => ?_
  obtain rfl := Option.some.inj (hattached.symm.trans (h.attached_of hx hk hslot))
  obtain rfl := Option.some.inj (hlive.symm.trans hx)
  exact hsync

/-- The wait of a session ends when its slot is offered an item, … -/
theorem WF.attachedOffered (h : s.WF) {id k : Nat} {session : Session}
    {slot : DedicatedClientSlot} {item : Bytes} (hslot : s.dedicatedSlots.find? k = some slot)
    (hattached : slot.attachedSessionId = some id) (hlive : s.sessions.find? id = some session)
    (hitem : InboxItem item) : ((s.offerSlot k item).endSync id).WF :=
  (h.endSync id).attachedHeld hslot hattached (find?_endSync hlive) hitem rfl

/-- … and when it is offered one itself. -/
theorem WF.clientOffered (h : s.WF) {id : Nat} {session : Session} {item : Bytes}
    (hlive : s.sessions.find? id = some session) (hitem : InboxItem item) :
    ((s.offer id item).endSync id).WF := by
  rw [endSync_offer]
  exact (h.endSync id).offer hitem (find?_endSync hlive) rfl

/-- A session takes an item that it has been offered, once it does not wait any more. -/
theorem WF.receives {u t : Broker} {id : Nat} {session : Session} (h : (u.endSync id).WF)
    (hlive : u.sessions.find? id = some session) (hidle : session.sync = none → u.WF)
    (ht : u.Receives id session t) : t.WF := by
  cases ht with
  | held hsync => exact hidle hsync
  | served => exact (h.send _ _ _).shiftInbox _ _ _
  | slow =>
    rw [← drop_endSync]
    exact h.drop (find?_endSync hlive) _

theorem WF.pop {t : Broker} {transaction : Transaction} {payload : Bytes} (h : s.WF)
    (hitem : opcode payload ∈ inboxItemCodes → InboxItem payload)
    (hst : Pop transaction payload s t) : t.WF := by
  cases hst with
  | output hout => exact h.output hout
  | answered => exact (h.endSync _).send _ _ _
  | duplicate hseen hcode | popped hseen hcode =>
    refine WF.note ?_ _
    unfold seenRadio
    split
    · exact { h with
        active := fun transaction ht =>
          (h.active transaction ht).later (fun ha => ha) fun hl => hl }
    · exact h
  | slotOffered hslot hfree hcode =>
    refine h.offerSlot _ (hitem hcode) fun id session hlive hk => ?_
    simp [h.attached_of hlive hk hslot] at hfree
  | attachedOffered hslot hattached hlive hcode ht =>
    exact (h.attachedOffered hslot hattached hlive (hitem hcode)).receives hlive
      (fun hsync => h.attachedHeld hslot hattached hlive (hitem hcode) hsync) ht
  | offered hlive hclient hlimit hcode ht =>
    exact (h.clientOffered hlive (hitem hcode)).receives (find?_offer payload hlive)
      (fun hsync => h.offer (hitem hcode) hlive hsync) ht
  | flooded hlive => exact h.drop hlive _
  | orphaned hclients hmulti hcode =>
    refine WF.note ?_ _
    exact { h with orphan := fun item hi => Option.some.inj hi ▸ hitem hcode }

theorem WF.popStep {t : Broker} {transaction : Transaction} {payload : Bytes} (h : s.WF)
    (hitem : opcode payload ∈ inboxItemCodes → InboxItem payload)
    (hst : PopStep transaction payload s t) : t.WF := by
  cases hst with
  | report => exact { h with }
  | mk hpop report => exact { h.pop hitem hpop with }

theorem WF.popSteps {t : Broker} {transaction : Transaction} {payload : Bytes} (h : s.WF)
    (hitem : opcode payload ∈ inboxItemCodes → InboxItem payload)
    (hst : ReflTransGen (PopStep transaction payload) s t) : t.WF := by
  induction hst with
  | refl => exact h
  | tail _ hlast ih => exact ih.popStep hitem hlast

theorem WF.closes {t : Broker} {transaction : Transaction} {payload : Bytes} (h : s.WF)
    (hst : Closes transaction payload s t) : t.WF := by
  cases hst with
  | settled =>
    exact { h with
      known := fun id hid => (h.known id hid).imp fun _ hk => List.mem_append_left _ hk }
  | continued => exact { h with }

theorem WF.handsOut {t : Broker} {transaction : Transaction} {payload : Bytes} (h : s.WF)
    (hitem : opcode payload ∈ inboxItemCodes → InboxItem payload)
    (hst : HandsOut transaction payload s t) : t.WF := by
  obtain ⟨u, hparts, hlast⟩ := hst.parts
  exact (h.popSteps hitem hparts).closes hlast

theorem WF.ending {t : Broker} (h : s.WF) (hst : Ending s t) : t.WF := by
  cases hst with
  | failed => exact h.failAll _
  | completed => exact ((h.writtenDown _ _).release _).failAll _
  | deserted hactive hstep hlive => exact ((h.drop hlive _).release _).failAll _
  | undelivered hupstream => exact (h.upstream hupstream).failAll _

theorem WF.move {t : Broker} (h : s.WF) (hst : Move s t) : t.WF := by
  cases hst with
  | idle hst => exact h.idle hst
  | output hst => exact h.output hst
  | client hst => exact h.client hst
  | radio hst => exact h.radio hst
  | upstream hst => exact h.upstream hst
  | ending hst => exact h.ending hst
  | pop hactive hreceived howner hwritten hstep hvalid herr hst =>
    exact (h.rest.note _).handsOut (pop_payload hvalid) hst
  | drained hfailed hdebt hreceived howner hvalid herr hst =>
    exact h.handsOut (pop_payload hvalid) hst

/-- **Well-formedness is preserved.** It holds between any two atomic actions. -/
theorem WF.step {t : Broker} (h : s.WF) (hst : Step s t) : t.WF := by
  cases hst with
  | mk hmove report => exact { h.move hmove with }

theorem WF.steps {t : Broker} (h : s.WF) (hst : Steps s t) : t.WF := by
  induction hst with
  | refl => exact h
  | tail _ hlast ih => exact ih.step hlast

theorem WF.acts {t : Broker} (h : s.WF) (hst : Acts s t) : t.WF := by
  induction hst with
  | refl => exact h
  | tail _ hlast ih =>
    cases hlast with
    | step hstep => exact ih.step hstep
    | input => exact ih.note _
    | clock hnow => exact ih.clock hnow

end Broker

end MeshCoreTCPMux

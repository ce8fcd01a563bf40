import MeshCoreTCPMux.Broker.Output

/-!
# The virtual inbox

One physical pop of the companion's inbox becomes independent copies: one for every configured
dedicated slot, attached or not, and one for every live multi-client session.
-/

namespace MeshCoreTCPMux

/-- Remove a client's oldest inbox item only after successfully enqueueing its version-adjusted
reply. -/
def deliverItem (id : Nat) : BrokerM Unit := do
  let s ← get
  match s.sessions.find? id with
  | none => pure ()
  | some session =>
    match s.inboxFor? session with
    | none => throw .key
    | some [] => throw .index
    | some (item :: _) =>
      let visible ← ofExcept (Protocol.downgradeInbox item session.targetVersion)
      if (← emit id visible (.item item)).isSome then
        match session.dedicatedSlotId with
        | none => modifySession id fun x => { x with inbox := x.inbox.tail }
        | some slotId =>
          modifySlot slotId fun slot =>
            { slot with offlineQueue := slot.offlineQueue.tail }.recordDelivery
          perform (.slotDelivered slotId item)

/-- Multi-client inboxes are connection-scoped and isolate slow clients by disconnecting them at
their bound. -/
def enqueueMultiClient (payload : Bytes) (id : Nat) : BrokerM Unit := do
  let s ← get
  match s.sessions.find? id with
  | none => pure ()
  | some session =>
    if session.inbox.length ≥ s.config.inboxEntries then
      remove id ["inbox overflow"]
    else
      modifySession id fun x => { x with inbox := x.inbox ++ [payload] }
      perform (.offered id payload)
      if session.sync.isSome then
        modifySession id fun x => { x with sync := none }
        deliverItem id
      else if session.inbox.isEmpty then
        emitAvailabilityHint id

/-- Rate-limit metadata-only warnings per slot while counters continue to record every eviction and
drop. -/
def warnDedicatedOverflow (slotId : Nat) (event : String) : BrokerM Unit := do
  let s ← get
  let suppressed := (s.report.suppressedDedicatedOverflow.find? slotId).getD 0
  let recent := (s.report.lastDedicatedOverflowLog.find? slotId).any fun last =>
    s.now - last < seconds 1
  if recent then
    modify fun s => { s with
      report := { s.report with
        suppressedDedicatedOverflow :=
          s.report.suppressedDedicatedOverflow.insert slotId (suppressed + 1) } }
  else
    modify fun s => { s with
      report := { s.report with
        suppressedDedicatedOverflow := s.report.suppressedDedicatedOverflow.insert slotId 0
        lastDedicatedOverflowLog := s.report.lastDedicatedOverflowLog.insert slotId s.now } }
    let depth : Nat := ((s.dedicatedSlots.find? slotId).map (·.offlineQueue.length)).getD 0
    diagnostic ["event=dedicated_queue.", event, " epoch=", s.epoch, " dedicated_slot_id=", slotId,
      " depth=", depth, " suppressed_since_last=", suppressed] .debug

/-- Hand a slot's new item to its attached session: at once if it waits for one, else as a hint when
the queue became nonempty. -/
def notifySlot (attached : Option Nat) (wasEmpty : Bool) : BrokerM Unit := do
  match attached with
  | none => pure ()
  | some id =>
    match (← get).sessions.find? id with
    | none => pure ()
    | some session =>
      if session.sync.isSome then
        modifySession id fun x => { x with sync := none }
        deliverItem id
      else if wasEmpty then
        emitAvailabilityHint id

/-- One turn of `fan_out_dedicated`'s loop. -/
def offerSlot (payload : Bytes) (slotId : Nat) : BrokerM Unit := do
  let s ← get
  match s.dedicatedSlots.find? slotId with
  | none => pure ()
  | some slot =>
    let (result, slot') := slot.enqueueOffline payload s.config.offlineQueueSize
    modifySlot slotId fun _ => slot'
    perform (.slotOffered slotId payload)
    match result with
    | .newMessageDiscarded => warnDedicatedOverflow slotId "new_direct_message_discarded"
    | .channelEvicted | .added =>
      if result = .channelEvicted then
        warnDedicatedOverflow slotId "oldest_channel_message_evicted"
      if slot.highWater < slot'.highWater then
        diagnostic ["event=dedicated_queue.high_water epoch=", s.epoch, " dedicated_slot_id=",
          slotId, " depth=", slot'.highWater] .debug
      notifySlot slot'.attachedSessionId slot.offlineQueue.isEmpty

/-- Every configured dedicated client receives a copy, including detached clients. Overflow in one
slot never blocks another. -/
def fanOutDedicated (payload : Bytes) : BrokerM Unit := do
  (← get).dedicatedSlots.keys.forM (offerSlot payload)

/-- Answer one session whose wait is covered by the empty pop. -/
def answerNoMore (transaction : Transaction) (id : Nat) : BrokerM Unit := do
  match (← get).sessions.find? id with
  | none => pure ()
  | some session =>
    match session.sync with
    | none => pure ()
    | some sync =>
      if sync.minimumPop ≤ transaction.popSequence then
        modifySession id fun x => { x with sync := none }
        let _ ← emit id [Protocol.respNoMoreMessages] .answer

/-- Whether work newer than a pop has appeared: a notification, or a wait it does not answer. -/
def Broker.newerWork (s : Broker) (transaction : Transaction) : Bool :=
  s.notificationGeneration > transaction.notificationGeneration ||
    s.sessions.any fun _ session => session.sync.isSome

/-- `NO_MORE_MESSAGES` only satisfies waits old enough to be covered by this pop; newer waits, and a
newer notification, survive it. -/
def popEmpty (transaction : Transaction) : BrokerM Unit := do
  (← get).sessions.keys.forM (answerNoMore transaction)
  let s ← get
  unless s.newerWork transaction do perform .drained
  let again := s.newerWork transaction && !s.sessions.isEmpty
  modify fun s => { s with drainAuthorized := again, drainRequested := again }

/-- Keep draining while a cycle is authorized. -/
def continueDrain : BrokerM Unit :=
  modify fun s => { s with drainRequested := s.drainAuthorized && !s.sessions.isEmpty }

/-- `@received_message_deduplicator.duplicate?`, when the configuration asks for it. -/
def isDuplicate (payload : Bytes) : BrokerM Bool :=
  modifyGet fun s =>
    if s.config.deduplicateReceivedMessages then
      let (answer, dedup) := s.radio.receivedMessageDeduplicator.duplicate payload
      (answer, { s with radio := { s.radio with receivedMessageDeduplicator := dedup } })
    else (false, s)

/-- Fan a popped item out, unless it is a duplicate. A duplicate has still been removed from the
physical inbox, so the drain goes on for the pending sync. -/
def popItem (transaction : Transaction) (payload : Bytes) : BrokerM Unit := do
  count "inbox_pops"
  if ← isDuplicate payload then
    count "duplicate_received_messages"
    diagnostic ["event=inbox.duplicate_discarded epoch=", (← get).epoch, " count=",
      ((← get).report.counters.find? "duplicate_received_messages").getD 0, " ",
      .response payload false] .debug
    perform (.duplicate payload)
  else
    perform (.popped payload)
    fanOutDedicated payload
    let multiClients := (← get).multiClients
    if multiClients.isEmpty ∧ transaction.hadMultiClient then
      modify fun s => { s with orphan := some payload }
      perform (.orphaned payload)
    else
      multiClients.forM (enqueueMultiClient payload)
  continueDrain

/-- Turn one physical inbox result into independent client copies. -/
def popResult (transaction : Transaction) (payload : Bytes) : BrokerM Unit :=
  if opcode payload = Protocol.respNoMoreMessages then popEmpty transaction
  else popItem transaction payload

end MeshCoreTCPMux

import MeshCoreTCPMux.Broker.Response

/-!
# The broker's entry points

The calls that the runtime makes on a broker. `handle` runs one event; it records the call in the
history before it makes it.
-/

namespace MeshCoreTCPMux

open Protocol

/-- Attach a session to its slot, in place of the session that was attached before. -/
def attachSlot (id slotId : Nat) : BrokerM Unit := do
  match (← get).dedicatedSlots.find? slotId with
  | none => throw (.argument ["unknown dedicated client slot"])
  | some slot =>
    match slot.attachedSessionId with
    | none => pure ()
    | some old => remove old ["replaced by new dedicated client connection"]
    modifySlot slotId fun x => { x with attachedSessionId := some id }

/-- Give a session the item that was held for it, and the hint that prompts an explicit sync. A
false-positive `MSG_WAITING` is compatible with native clients. -/
def greet (id : Nat) (dedicatedSlotId : Option Nat) : BrokerM Unit := do
  match dedicatedSlotId with
  | some slotId =>
    let depth : Nat := (((← get).dedicatedSlots.find? slotId).map (·.offlineQueue.length)).getD 0
    diagnostic ["event=dedicated_client.attached epoch=", (← get).epoch, " session=", id,
      " dedicated_slot_id=", slotId, " queue_depth=", depth]
  | none =>
    match (← get).orphan with
    | none => pure ()
    | some item =>
      modify fun s => { s with orphan := none }
      enqueueMultiClient item id
  emitAvailabilityHint id

/-- Create an independent client view and include it in round-robin scheduling. -/
def admitSession (id : Nat) (now : Time) (dedicatedSlotId : Option Nat) : BrokerM Unit := do
  modify fun s => { s with now := now }
  let s ← get
  if s.failed ∨ s.underMaintenance then
    perform (.closed id ["upstream unavailable"])
  else
    match dedicatedSlotId with
    | none => pure ()
    | some slotId => attachSlot id slotId
    modify fun s => { s with
      sessions := s.sessions.insert id { dedicatedSlotId := dedicatedSlotId }
      order := s.order ++ [id] }
    count "connections"
    perform (.admitted id dedicatedSlotId)
    diagnostic ["event=session.admitted epoch=", (← get).epoch, " session=", id,
      " dedicated_slot_id=", orNone dedicatedSlotId, " sessions=", (← get).sessions.size]
    greet id dedicatedSlotId
    schedule now

/-- Queue a complete downstream command without allowing an unbounded client backlog. -/
def clientFrame (id : Nat) (payload : Bytes) (now : Time) : BrokerM Unit := do
  modify fun s => { s with now := now }
  let s ← get
  if ¬ s.failed then
    match s.sessions.find? id with
    | none => pure ()
    | some session =>
      count "commands"
      diagnostic ["event=command.received epoch=", s.epoch, " session=", id, " ",
        .command payload false, " queued_commands=", session.commands.length]
      diagnostic ["event=command.payload epoch=", s.epoch, " session=", id, " ",
        .command payload true] .debug
      if session.commands.length + (if session.sync.isSome then 1 else 0)
          + (if s.activeOwner = some id then 1 else 0) ≥ s.config.commandLimit then
        remove id ["command queue overflow"]
      else
        modifySession id fun x => { x with commands := x.commands ++ [⟨payload, now⟩] }
        perform (.queued id ⟨payload, now⟩)
      schedule now

/-- An active command remains owned until its real terminator, even though the owner has left. -/
def clientClosed (id : Nat) (now : Time) (reason : Text) (category : Category) : BrokerM Unit := do
  modify fun s => { s with now := now }
  remove id reason category
  schedule now

/-- Response time starts when the matching write actually completes. The contacts-wide deadline
measures the firmware operation, not time spent waiting for the socket writer. -/
def writeCompleted (transaction : Transaction) (now : Time) : Transaction :=
  { proveWrite transaction now with progress := now }

/-- Release output budgets only for completions from this epoch. -/
def written (id epoch writeId : Nat) (now : Time) : BrokerM Unit := do
  let s ← get
  if epoch = s.epoch ∧ ¬ s.failed then
    if id = 0 then
      modify fun s => { s with upstreamWrites := s.upstreamWrites.erase writeId }
      if s.active.any (·.upstreamWriteId = some writeId) then
        modifyActive fun x => writeCompleted x now
    else if s.sessions.contains id then
      modifySession id fun x =>
        { x with
          writes := x.writes.erase writeId
          availabilityHintWriteId :=
            if x.availabilityHintWriteId = some writeId then none else x.availabilityHintWriteId }
      match s.active with
      | none => pure ()
      | some transaction =>
        if transaction.maintenance ∧ transaction.step = .maintenanceResult ∧
            transaction.owner = id ∧ transaction.maintenanceWriteId = some writeId then
          finishTransaction transaction
    schedule now

def writeFailed (id epoch : Nat) (reason : Text) (now : Time) : BrokerM Unit := do
  let s ← get
  if epoch = s.epoch ∧ ¬ s.failed then
    modify fun s => { s with now := now }
    if id = 0 then failEpoch (joined [["upstream write failed: "], reason])
    else
      remove id (joined [["writer failed: "], reason])
      schedule now

/-- The body of `upstream_frame`, whose protocol errors fail the epoch. -/
def receiveFrame (payload : Bytes) (now : Time) : BrokerM Unit := do
  modify fun s => { s with now := now }
  if ¬ (← get).failed then
    if ← checkActiveDeadline now then
      count "upstream_frames"
      ofExcept (validateResponseShape payload)
      if opcode payload ≥ pushAdvert then push payload now else transactionResponse payload now
      schedule now

def upstreamFrame (payload : Bytes) (now : Time) : BrokerM Unit :=
  tryCatch (receiveFrame payload now) fun e =>
    match e with
    | .protocol message => failEpoch message
    | e => throw e

/-- The contacts order of the poisoned drain. -/
def drainContactsStep (transaction : Transaction) (payload : Bytes) : Except Error Bool :=
  if transaction.descriptor.grammar = .contacts ∧ opcode payload ≠ respErr then
    if opcode payload = respContactsStart then
      if transaction.contactsStarted then
        .error (.protocol ["duplicate contacts start in poisoned drain"])
      else .ok true
    else if opcode payload ≠ respEndOfContacts ∧ ¬ transaction.contactsStarted then
      .error (.protocol ["contacts record before start in poisoned drain"])
    else .ok transaction.contactsStarted
  else .ok transaction.contactsStarted

/-- Keep the old generation alive until its outstanding ordinary response terminates, so that this
reply cannot acquire a new epoch's owner. True when the response debt is clear. -/
def drainUncertainFrame (payload : Bytes) (now : Time) : BrokerM Bool := do
  match (← get).responseDebt with
  | none => pure true
  | some transaction =>
    ofExcept (validateResponseShape payload)
    if opcode payload ≥ pushAdvert then
      push payload now
      pure false
    else if transaction.step = .setup ∨ transaction.step = .restore then
      if ¬ scopeReply payload then throw (.protocol ["unexpected poisoned scope response"])
      logResponse transaction payload now
      modify fun s => { s with responseDebt := none }
      pure true
    else
      let disposition ← ofExcept
        (validateResponse transaction.descriptor payload transaction.command transaction.phase)
      let transaction := { transaction with responseFrames := transaction.responseFrames + 1 }
      modifyDebt fun _ => transaction
      logResponse transaction payload now
      let started ← ofExcept (drainContactsStep transaction payload)
      let transaction := { transaction with contactsStarted := started }
      modifyDebt fun _ => transaction
      if disposition = .complete then
        if transaction.owner = 0 ∧ opcode payload ≠ respErr then popResult transaction payload
        modify fun s => { s with responseDebt := none }
        pure true
      else pure false

/-- `tick`'s turn for one session. `session` is the object of the iteration's snapshot; it is stale
only when the session has left since. -/
def tickSession (now : Time) (entry : Nat × Session) : BrokerM Unit := do
  let (id, snapshot) := entry
  let session := ((← get).sessions.find? id).getD snapshot
  if session.writes.any fun _ budget => now ≥ budget.deadline then
    remove id ["output write deadline"]
  else
    match session.sync with
    | none => pure ()
    | some sync =>
      if now ≥ sync.deadline then
        modifySession id fun x => { x with sync := none }
        reject id errBadState ["virtual sync deadline"]

def expireRemote (now : Time) : BrokerM Unit := do
  let before := (← get).radio.remote
  match RemoteLease.command before with
  | none => pure ()
  | some command =>
    let (expired, remote) := RemoteLease.expire before now
    setRemote remote
    if expired then
      diagnostic ["event=remote_lease.expired epoch=", (← get).epoch, " session=",
        orNone (RemoteLease.owner before), " kind=", kindName (RemoteLease.kind before), " ",
        .command command false]

/-- The signing lease does not expire under an active signing command. -/
def expireSigning (now : Time) : BrokerM Unit := do
  let s ← get
  if ¬ s.active.any (·.descriptor.flags.signing) then
    let (expired, signing) := s.signing.expire now
    setSigning signing
    if expired then
      diagnostic ["event=signing_lease.expired epoch=", s.epoch, " session=", orNone s.signing.owner]

/-- Polling only reminds attached clients to sync; it never authorizes a destructive pop. -/
def poll (now : Time) : BrokerM Unit := do
  let s ← get
  if ¬ s.sessions.isEmpty ∧ now - s.lastPoll ≥ s.config.pollInterval then
    modify fun s => { s with lastPoll := now }
    notifyAllSessions

/-- Expire client waits and radio reservations. -/
def tick (now : Time) : BrokerM Unit := do
  modify fun s => { s with now := now }
  if ¬ (← get).failed then
    if ← checkActiveDeadline now then
      if (← get).upstreamWrites.any fun _ deadline => now ≥ deadline then
        failEpoch ["upstream write deadline"]
      else
        (← get).sessions.entries.forM (tickSession now)
        expireRemote now
        expireSigning now
        poll now
        schedule now

/-- Run one call of the runtime. -/
def handle (event : Event) : BrokerM Unit := do
  perform (.input event)
  match event with
  | .admission id dedicatedSlotId now => admitSession id now dedicatedSlotId
  | .clientFrame id payload now => clientFrame id payload now
  | .clientClosed id now reason category => clientClosed id now reason category
  | .written id epoch writeId now => written id epoch writeId now
  | .writeFailed id epoch reason now => writeFailed id epoch reason now
  | .upstreamFrame payload now => upstreamFrame payload now
  | .tick now => tick now
  | .failEpoch reason => failEpoch reason
  | .drainUncertainFrame payload now => do let _ ← drainUncertainFrame payload now

end MeshCoreTCPMux

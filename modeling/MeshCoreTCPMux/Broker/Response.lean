import MeshCoreTCPMux.Broker.Schedule

/-!
# Replies and pushes

An ordinary upstream frame belongs to the active transaction: hidden scope replies are consumed,
every other reply goes to the transaction's owner if it is still connected, and the terminal one
settles the radio and signing leases. A push is a hint, a broadcast, or a remote result for the
owner of the lease it matches; the push-shaped reply of self telemetry is routed back to the active
transaction.
-/

namespace MeshCoreTCPMux

open Protocol

/-- Log every response frame, not only the terminator of a multi-frame transaction. -/
def logResponse (transaction : Transaction) (payload : Bytes) (now : Time) : BrokerM Unit := do
  let s ← get
  let queued : Nat := ((s.sessions.find? transaction.owner).map (·.commands.length)).getD 0
  diagnostic ["event=command.response epoch=", s.epoch, " session=", transaction.owner, " job=",
    transaction.jobId, " command=", transaction.descriptor.name, " command_bytes=",
    transaction.command.length, " step=", transaction.step.name, " ", .response payload false,
    " response_frames=", transaction.responseFrames, " queued_commands=", queued, " elapsed_ms=",
    .millis (now - transaction.started)]
  diagnostic ["event=response.payload epoch=", s.epoch, " session=", transaction.owner, " job=",
    transaction.jobId, " ", .response payload true] .debug

/-- The replies that a hidden scope frame admits. -/
def scopeReply (payload : Bytes) : Bool :=
  payload = [respOk] ∨ (payload.length = 2 ∧ opcode payload = respErr)

/-- Consume internal scope replies instead of exposing them to the client. `OK` advances the
wrapper; `ERR` during setup rejects the command, while a failed restoration makes shared state
uncertain. -/
def scopeResponse (transaction : Transaction) (payload : Bytes) (now : Time) : BrokerM Unit := do
  if ¬ scopeReply payload then throw (.protocol ["unexpected internal scope response"])
  logResponse transaction payload now
  modifyActive fun x => { x with progress := now }
  if transaction.step = .setup then
    if opcode payload = respErr then
      if transaction.descriptor.flags.remoteLease then
        setRemote (RemoteLease.rejected (← get).radio.remote)
      let _ ← emit transaction.owner payload .reply
      perform (.replied payload now)
      finishTransaction transaction
    else
      perform (.replied payload now)
      sendCommand { transaction with progress := now } now
  else
    if opcode payload ≠ respOk then
      throw (.protocol ["scope restoration rejected after command response"])
    perform (.replied payload now)
    finishTransaction transaction

/-- What the terminal reply of a command does to the leases. A `SENT` reply accepts a radio
operation but does not prove delivery; signing commands update their phase from the actual firmware
reply. -/
def recordAcceptance (transaction : Transaction) (payload : Bytes) (now : Time) :
    BrokerM Unit := do
  let command := transaction.command
  if plainDm command ∧ opcode payload = respSent then
    let ring ← ofExcept ((← get).radio.dmRing.accepted payload now)
    modify fun s => { s with radio := { s.radio with dmRing := ring } }
  else if transaction.descriptor.flags.remoteLease then
    if opcode payload = respSent then
      let remote ← ofExcept (RemoteLease.accepted (← get).radio.remote payload now)
      setRemote remote
      match RemoteLease.kind remote with
      | none => throw .nil
      | some kind =>
        diagnostic ["event=remote_lease.accepted epoch=", (← get).epoch, " session=",
          transaction.owner, " kind=", kind.name, " ", .response payload false]
    else
      setRemote (RemoteLease.rejected (← get).radio.remote)
      diagnostic ["event=remote_lease.rejected epoch=", (← get).epoch, " session=",
        transaction.owner, " ", .response payload false]
  else if opcode command = cmdSignStart then
    if opcode payload = respSignStart then
      setSigning (← ofExcept ((← get).signing.acceptedStart payload now))
    else setSigning (← get).signing.rejectedStart
  else if opcode command = cmdSignData then
    setSigning (← ofExcept ((← get).signing.dataResponse payload now))
  else if opcode command = cmdSignFinish then
    setSigning (← ofExcept ((← get).signing.finishResponse payload now))

/-- A response proves that the corresponding write completed even if the writer's completion event
has not reached the broker yet. The contacts-wide duration starts here too. -/
def proveWrite (transaction : Transaction) (now : Time) : Transaction :=
  { transaction with
    upstreamWriteId := none
    started :=
      if transaction.step = .command ∧ transaction.descriptor.grammar = .contacts ∧
        ¬ transaction.contactsStarted then now else transaction.started }

/-- The order of a contacts stream: one start, then records. -/
def contactsStep (transaction : Transaction) (payload : Bytes) : Except Error Bool :=
  if transaction.descriptor.grammar = .contacts ∧ opcode payload ≠ respErr then
    if opcode payload = respContactsStart then
      if transaction.contactsStarted then .error (.protocol ["duplicate contacts start"])
      else .ok true
    else if transaction.contactsStarted then .ok true
    else .error (.protocol ["contacts record before start"])
  else .ok transaction.contactsStarted

/-- Forward a reply to the owner of the active transaction, if it is still connected. `DEVICE_INFO`
is rewritten to the mux's own capabilities. -/
def forwardReply (transaction : Transaction) (payload : Bytes) : BrokerM (Option Nat) := do
  if (← get).sessions.contains transaction.owner then
    if opcode transaction.command = cmdDeviceQuery ∧ opcode payload = respDeviceInfo then
      let version ← ofExcept (byteAt transaction.command 1)
      modifySession transaction.owner fun x => { x with targetVersion := version }
    let visible ← ofExcept
      (if opcode payload = respDeviceInfo then downstreamDeviceInfo payload else .ok payload)
    emit transaction.owner visible .reply
  else pure none

/-- The reply of the command step of a client's command. -/
def commandResponse (transaction : Transaction) (disposition : ResponseDisposition)
    (payload : Bytes) (now : Time) : BrokerM Unit := do
  let started ← ofExcept (contactsStep transaction payload)
  modifyActive fun x => { x with contactsStarted := started }
  let responseWriteId ← forwardReply transaction payload
  perform (.replied payload now)
  modifyActive fun x => { x with progress := now }
  if disposition = .complete then
    recordAcceptance transaction payload now
    if transaction.isScoped then
      modifyActive fun x => { x with step := .restore }
      let writeId ← sendUpstream defaultScope now
        { transaction with contactsStarted := started, progress := now, step := .restore }
      modifyActive fun x => { x with upstreamWriteId := some writeId }
    else if transaction.maintenance ∧ responseWriteId.isSome then
      -- the epoch ends only after the writer confirms the firmware's result
      modifyActive fun x =>
        { x with step := .maintenanceResult, maintenanceWriteId := responseWriteId }
    else finishTransaction transaction

/-- The reply of a command step, whoever owns it. -/
def commandStepResponse (transaction : Transaction) (payload : Bytes) (now : Time) :
    BrokerM Unit := do
  let disposition ← ofExcept
    (validateResponse transaction.descriptor payload transaction.command transaction.phase)
  let transaction := { transaction with responseFrames := transaction.responseFrames + 1 }
  modifyActive fun _ => transaction
  if transaction.owner ≠ 0 ∨ opcode payload ≠ respNoMoreMessages then
    logResponse transaction payload now
  if transaction.owner = 0 then
    if opcode payload = respErr then throw (.protocol ["internal inbox pop rejected"])
    modify fun s => { s with active := none }
    perform (.replied payload now)
    popResult transaction payload
  else commandResponse transaction disposition payload now

/-- Keep each ordinary reply with its active owner, including when that client has disconnected. -/
def transactionResponse (payload : Bytes) (now : Time) : BrokerM Unit := do
  match (← get).active with
  | none => throw (.protocol ["ordinary response without owner"])
  | some current =>
    let transaction := if current.upstreamWriteId.isSome then proveWrite current now else current
    match current.upstreamWriteId with
    | none => pure ()
    | some writeId =>
      modify fun s => { s with
        upstreamWrites := s.upstreamWrites.erase writeId
        active := some transaction }
    match transaction.step with
    | .setup | .restore => scopeResponse transaction payload now
    | .maintenanceResult => throw (.protocol ["ordinary response after maintenance result"])
    | .command => commandStepResponse transaction payload now

/-! ### Pushes -/

/-- The pushes that carry the result of a remote request. -/
def resultPushes : List UInt8 :=
  [pushLoginSuccess, pushLoginFailure, pushStatusResponse, pushTraceData, pushTelemetryResponse,
    pushBinaryResponse, pushPathDiscoveryResponse]

/-- The pushes that are copied to every session. -/
def broadcastPushes : List UInt8 :=
  [pushAdvert, pushPathUpdated, pushRawData, pushLogRxData, pushNewAdvert, pushControlData,
    pushContactDeleted, pushContactsFull]

/-- `TELEMETRY_RESPONSE` for this companion's own public-key prefix, while a client's self telemetry
request is active. -/
def selfTelemetryReply (payload : Bytes) : BrokerM Bool := do
  match (← get).active with
  | none => pure false
  | some transaction =>
    if opcode payload = pushTelemetryResponse ∧
        opcode transaction.command = cmdSendTelemetryReq ∧ transaction.command.length = 4 then
      pure ((← ofExcept (sliceAt payload 2 6)) = (← ofExcept (sliceAt (← get).selfKey 0 6)))
    else pure false

def broadcast (payload : Bytes) : BrokerM Unit := do
  (← get).sessions.keys.forM fun id => do
    let _ ← emit id payload .broadcast

/-- Whether a rate-limited log line is due again. -/
def logDue (last : Option Time) (now : Time) : Bool := last.all fun t => now - t ≥ seconds 1

/-- `Protocol.Kind?` of a lease, for diagnostics. -/
def kindName (kind : Option RemoteLease.Kind) : Piece := .text ((kind.map (·.name)).getD "none")

/-- A remote result goes only to the owner of the lease it matches. -/
def resultPush (payload : Bytes) (now : Time) : BrokerM Unit := do
  let before := (← get).radio.remote
  let (owner, remote) ← ofExcept (RemoteLease.matchPush before payload now)
  setRemote remote
  match owner with
  | some owner =>
    diagnostic ["event=push.received epoch=", (← get).epoch, " route=lease session=", owner,
      " kind=", kindName (RemoteLease.kind before), " ", .response payload false]
    diagnostic ["event=push.payload epoch=", (← get).epoch, " session=", owner, " ",
      .response payload true] .debug
    let _ ← emit owner payload .leaseResult
  | none =>
    count "orphan_remote"
    let s ← get
    if logDue s.report.lastOrphanLog now then
      modify fun s => { s with report := { s.report with lastOrphanLog := some now } }
      diagnostic ["event=push.orphan_remote epoch=", s.epoch, " expected_session=",
        orNone (RemoteLease.owner before), " expected_kind=", kindName (RemoteLease.kind before),
        " ", .response payload false, " count=",
        ((s.report.counters.find? "orphan_remote").getD 0 : Nat)]
  perform (.matched payload now)

/-- Every other push is opaque to the broker. -/
def broadcastPush (payload : Bytes) (now : Time) : BrokerM Unit := do
  if opcode payload ∈ broadcastPushes then
    diagnostic ["event=push.received epoch=", (← get).epoch, " route=broadcast sessions=",
      (← get).sessions.size, " ", .response payload false]
    diagnostic ["event=push.payload epoch=", (← get).epoch, " ", .response payload true] .debug
  else
    count "unknown_pushes"
    let s ← get
    if logDue s.report.lastUnknownLog now then
      modify fun s => { s with report := { s.report with lastUnknownLog := some now } }
      diagnostic ["event=push.received epoch=", s.epoch, " route=broadcast unknown_push code=",
        opcode payload, " sessions=", s.sessions.size, " count=",
        ((s.report.counters.find? "unknown_pushes").getD 0 : Nat)] .warn
  broadcast payload

def push (payload : Bytes) (now : Time) : BrokerM Unit := do
  if opcode payload = pushMsgWaiting then
    diagnostic ["event=push.received epoch=", (← get).epoch, " route=inbox_hint ",
      .response payload false]
    recordAvailabilityHint
  else if opcode payload = pushSendConfirmed then
    let (settled, ring) ← ofExcept ((← get).radio.dmRing.confirm payload)
    modify fun s => { s with radio := { s.radio with dmRing := ring } }
    perform (.confirmed payload)
    diagnostic ["event=push.received epoch=", (← get).epoch, " route=broadcast matched=",
      toString settled, " sessions=", (← get).sessions.size, " ", .response payload false]
    diagnostic ["event=push.payload epoch=", (← get).epoch, " ", .response payload true] .debug
    broadcast payload
  else if opcode payload ∈ resultPushes then
    if ← selfTelemetryReply payload then transactionResponse payload now
    else resultPush payload now
  else broadcastPush payload now

end MeshCoreTCPMux

import MeshCoreTCPMux.Broker.State

/-!
# Removal, output and failure

`remove`, `emit`, `reject`, `fail_epoch` and `finish_transaction` of the source call one another:
an overflowing output removes its session, removing the owner of a delivered maintenance result
finishes that transaction, finishing it fails the epoch, and failing the epoch removes every
session. The cycle closes at once, because a failed broker does not fail again. The definitions
below unroll it: `removeWith` and `finishWith` take as a parameter what the source calls next, the
removals inside `failEpoch` end in a finish that fails nothing, and `failEpoch_of_failed` justifies
the unrolling.
-/

namespace MeshCoreTCPMux

/-- Detach a removed session from its slot, or count the multi-client items it had not read. -/
def detach (id : Nat) (session : Session) : BrokerM Unit := do
  match session.dedicatedSlotId with
  | some slotId =>
    match (← get).dedicatedSlots.find? slotId with
    | some slot =>
      modifySlot slotId fun x =>
        if x.attachedSessionId = some id then { x with attachedSessionId := none } else x
      diagnostic ["event=dedicated_client.detached epoch=", (← get).epoch, " session=", id,
        " dedicated_slot_id=", slotId, " queue_depth=", slot.offlineQueue.length]
    | none => pure ()
  | none => count "discarded_inbox_items" session.inbox.length

/-- `remove`, with `finish` for the `finish_transaction` of its last line. -/
def removeWith (finish : Transaction → BrokerM Unit) (id : Nat) (reason : Text)
    (category : Category) : BrokerM Unit := do
  match (← get).sessions.find? id with
  | none => pure ()
  | some session =>
    modify fun s => { s with sessions := s.sessions.erase id }
    count "disconnections"
    detach id session
    setRemote (RemoteLease.ownerGone (← get).radio.remote id)
    -- an in-flight signing reply must still find the owner it is accounted to
    modify fun s => { s with
      signing := if s.activeOwner = some id then s.signing else s.signing.ownerGone id }
    modify fun s => { s with order := s.order.filter (· ≠ id) }
    diagnostic (joined [["epoch=", (← get).epoch, " session=", id, " close reason="],
      inspected reason, [" inbox_items=", session.inbox.length, " queued_commands=",
      session.commands.length]]) category
    perform (.closed id reason)
    modify fun s => { s with
      drainAuthorized := if s.sessions.isEmpty then false else s.drainAuthorized
      drainRequested := if s.sessions.isEmpty then false else s.drainRequested }
    match (← get).active with
    | some transaction =>
      if transaction.maintenance ∧ transaction.step = .maintenanceResult ∧ transaction.owner = id then
        finish transaction
    | none => pure ()

/-- `finish_transaction`, with `fail` for its `fail_epoch`. -/
def finishWith (fail : Text → BrokerM Unit) (transaction : Transaction) : BrokerM Unit := do
  modify fun s => { s with active := none }
  modify fun s => { s with
    signing :=
      if s.sessions.contains transaction.owner then s.signing
      else s.signing.ownerGone transaction.owner }
  if transaction.maintenance then fail ["maintenance operation completed"]

/-- A command-step transport failure may occur after the firmware executed the write but before its
reply arrived. Scope setup has not sent the user's command yet, and restoration happens only after
its reply was classified, so only the command step is an unknown-acceptance boundary. -/
def preserveRadioUncertainty : BrokerM Unit := do
  match (← get).active with
  | none => pure ()
  | some transaction =>
    let remote := transaction.descriptor.flags.remoteLease
    let dm := Protocol.plainDm transaction.command
    if transaction.step = .setup then
      if remote then setRemote (RemoteLease.rejected (← get).radio.remote)
    else if transaction.step = .command ∧ (remote ∨ dm) then
      let s ← get
      let (deadline, radio) :=
        s.radio.quarantine s.now s.config.radioUncertaintyTimeout dm
      set { s with radio := radio }
      if remote ∧ RemoteLease.tentative radio.remote then
        setRemote (← ofExcept (RemoteLease.acceptanceUnknown radio.remote deadline))
      diagnostic ["event=radio_state.quarantined epoch=", s.epoch, " minimum_until_ms=",
        .millis deadline, " dm_cursor_uncertain=", toString dm, " ",
        .command transaction.command false] .warn

/-- The removal that `fail_epoch` makes: the broker has failed already. -/
def removeFailed (id : Nat) : BrokerM Unit :=
  removeWith (finishWith fun _ => pure ()) id ["upstream epoch failed"] .normal

/-- The counters, printed in the order in which they were first used. -/
def counterSummary (s : Broker) : Text :=
  s.report.counters.entries.flatMap fun e => [.text " ", .text e.1, .text "=", .int e.2]

/-- Disconnect every client and never replay a possibly executed command. The response grammar of a
command still awaiting its reply is kept as `responseDebt`. -/
def failEpoch (reason : Text) : BrokerM Unit := do
  unless (← get).failed do
    preserveRadioUncertainty
    modify fun s => { s with
      responseDebt := s.responseDebt <|> s.active.filter (·.step ≠ .maintenanceResult) }
    modify fun s => { s with failed := true }
    diagnostic (joined [["epoch=", (← get).epoch, " failed reason="], inspected reason])
    (← get).sessions.keys.forM removeFailed
    modify fun s => { s with active := none, upstreamWrites := ∅ }
    diagnostic (joined [["epoch=", (← get).epoch, " summary"], counterSummary (← get)])
    perform (.ended (← get).epoch reason)

/-- Release ordinary response ownership. Disruptive operations end the whole connection epoch. -/
def finishTransaction (transaction : Transaction) : BrokerM Unit := finishWith failEpoch transaction

def remove (id : Nat) (reason : Text) (category : Category := .normal) : BrokerM Unit :=
  removeWith finishTransaction id reason category

/-- Bound the count of queued and in-flight frames, then request a downstream write. Return its id,
or `none` when the client is gone or too slow. -/
def emit (id : Nat) (payload : Bytes) (cause : Cause) : BrokerM (Option Nat) := do
  let s ← get
  match s.sessions.find? id with
  | none => pure none
  | some session =>
    if session.writes.size ≥ s.config.outputFrames then
      remove id ["output queue overflow"]
      pure none
    else
      let writeId := s.nextWrite + 1
      modify fun s => { s with nextWrite := writeId }
      modifySession id fun x =>
        { x with writes := x.writes.insert writeId ⟨s.now + s.config.writeTimeout⟩ }
      perform (.sent ⟨id, s.epoch, writeId, payload⟩ cause)
      pure (some writeId)

/-- Return native `ERR` plus its reason byte; this rejection never goes upstream. -/
def reject (id : Nat) (reason : UInt8) (detail : Text) : BrokerM Unit := do
  count "rejections"
  diagnostic (joined [["epoch=", (← get).epoch, " session=", id, " rejection=", reason,
    " reason="], inspected detail])
  let _ ← emit id [Protocol.respErr, reason] .answer

/-- Coalesce overlapping hints while one `MSG_WAITING` write is outstanding. -/
def emitAvailabilityHint (id : Nat) : BrokerM Unit := do
  match (← get).sessions.find? id with
  | none => pure ()
  | some session =>
    if session.availabilityHintWriteId.isNone then
      let writeId ← emit id [Protocol.pushMsgWaiting] .hint
      modifySession id fun x => { x with availabilityHintWriteId := writeId }

/-- `MSG_WAITING` is an availability hint, not a count or acknowledgement. -/
def notifyAllSessions : BrokerM Unit := do
  (← get).sessions.keys.forM emitAvailabilityHint

/-- Remember upstream evidence and notify clients without starting a drain. During an authorized
cycle the hint requires another empty check. -/
def recordAvailabilityHint : BrokerM Unit := do
  modify fun s => { s with
    notificationGeneration := s.notificationGeneration + 1
    drainRequested := s.drainRequested || s.drainAuthorized }
  notifyAllSessions

/-- Only a downstream sync against an empty local queue authorizes physical inbox custody. -/
def authorizeDrain : BrokerM Unit := do
  modify fun s => { s with
    drainAuthorized := true
    drainRequested := true
    notificationGeneration := s.notificationGeneration + 1 }
  diagnostic ["event=inbox.drain_requested epoch=", (← get).epoch, " generation=",
    (← get).notificationGeneration] .debug

/-- The reason with which a silent companion ends its epoch. -/
def timeoutReason (config : Config) (transaction : Transaction) (now : Time) : Text :=
  ["uncertain response timeout command=", transaction.descriptor.name, " opcode=",
    opcode transaction.command, " owner=", transaction.owner, " step=", transaction.step.name,
    " progress_elapsed_ms=", .millis (now - transaction.progress), " response_timeout_ms=",
    .millis config.responseTimeout, " total_elapsed_ms=", .millis (now - transaction.started),
    " contacts_timeout_ms=", .millis config.contactsTimeout, " response_frames=",
    transaction.responseFrames, " contacts_started=", toString transaction.contactsStarted,
    " write_pending=false"]

/-- False when the response deadline of the active transaction has passed, and the epoch failed.
While the current substep is still in the socket writer, its write budget is the only applicable
deadline. -/
def checkActiveDeadline (now : Time) : BrokerM Bool := do
  let s ← get
  match s.active with
  | none => pure true
  | some transaction =>
    if transaction.step = .maintenanceResult ∨ transaction.upstreamWriteId.isSome then pure true
    else if now - transaction.progress ≥ s.config.responseTimeout ∨
        (transaction.descriptor.grammar = .contacts ∧
          now - transaction.started ≥ s.config.contactsTimeout) then
      modify fun s => { s with responseDebt := some transaction }
      failEpoch (timeoutReason s.config transaction now)
      pure false
    else pure true

/-- A failed broker does not fail again. -/
theorem failEpoch_of_failed (reason : Text) {s : Broker} (h : s.failed = true) :
    failEpoch reason s = .ok () s := by
  simp [failEpoch, bind, EStateM.bind, get, getThe, MonadStateOf.get, EStateM.get, h]
  rfl

end MeshCoreTCPMux

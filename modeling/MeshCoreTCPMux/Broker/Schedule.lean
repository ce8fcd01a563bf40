import MeshCoreTCPMux.Broker.Inbox

/-!
# Scheduling and dispatch

`schedule` resolves the locally virtualized heads of every client's FIFO and then, when nothing is
in flight, rotates among the clients and the internal inbox consumer until one of them is
dispatched.
-/

namespace MeshCoreTCPMux

/-! ### Local heads -/

/-- `session.commands.shift`. -/
def shiftCommand (id : Nat) (command : Command) : BrokerM Unit := do
  modifySession id fun x => { x with commands := x.commands.tail }
  perform (.taken id command)

/-- Start to wait for the companion's inbox, or answer from the local one. False when the session
now waits. -/
def localSync (id : Nat) (now : Time) : BrokerM Bool := do
  let s ← get
  match (s.sessions.find? id).map s.inboxFor? with
  | none => pure false
  | some none => throw .key
  | some (some []) =>
    let sync : PendingSync := ⟨s.popSequence + 1, now + s.config.virtualSyncTimeout⟩
    modifySession id fun x => { x with sync := some sync }
    perform (.synced id sync)
    authorizeDrain
    pure false
  | some (some (_ :: _)) =>
    deliverItem id
    pure true

/-- A valid scope selection is virtual: it is remembered and acknowledged, never forwarded. -/
def localScope (id : Nat) (payload : Bytes) : BrokerM Unit := do
  modifySession id fun x => { x with scope := payload }
  if (← emit id [Protocol.respOk] .answer).isSome then perform (.selected id payload)

/-- One pass of the loop over a session's head commands. False leaves the loop. -/
def localCommand (id : Nat) (command : Command) (now : Time) : BrokerM Bool := do
  let payload := command.payload
  let config := (← get).config
  match (Protocol.validateCommand payload).reason with
  | some reason =>
    shiftCommand id command
    reject id reason ["invalid command opcode=", ← ofExcept (byteAt payload 0)]
    pure true
  | none =>
    if now - command.queuedAt ≥ config.commandAge then
      shiftCommand id command
      reject id Protocol.errBadState ["command queue age"]
      pure true
    else if opcode payload = Protocol.cmdSyncNextMessage then
      shiftCommand id command
      localSync id now
    else if opcode payload = Protocol.cmdSetFloodScopeKey then
      shiftCommand id command
      localScope id payload
      pure true
    else if opcode payload = Protocol.cmdExportPrivateKey ∧ ¬ config.privateKeyExport then
      shiftCommand id command
      count "rejections"
      diagnostic ["epoch=", (← get).epoch, " session=", id,
        " command=export_private_key rejection=disabled"]
      let _ ← emit id [Protocol.respDisabled] .answer
      pure true
    else if opcode payload = Protocol.cmdImportPrivateKey ∧ ¬ config.privateKeyImport then
      shiftCommand id command
      reject id Protocol.errUnsupportedCmd ["private-key import disabled"]
      pure true
    else if opcode payload = Protocol.cmdFactoryReset ∧ ¬ config.factoryReset then
      shiftCommand id command
      reject id Protocol.errUnsupportedCmd ["factory reset disabled"]
      pure true
    else pure false

/-- The loop over a session's head commands: `commands` is what is left of its queue. -/
def localCommands (id : Nat) (now : Time) : List Command → BrokerM Unit
  | [] => pure ()
  | command :: rest => do
    if ← localCommand id command now then
      if (← get).sessions.contains id then localCommands id now rest

/-- One turn of the loop over the sessions. A local response never passes the same client's active
transaction. -/
def localTurn (now : Time) (id : Nat) : BrokerM Unit := do
  let s ← get
  match s.sessions.find? id with
  | none => pure ()
  | some session =>
    if ¬ (session.sync.isSome ∨ s.activeOwner = some id) then
      localCommands id now session.commands

/-! ### Dispatch -/

def sendUpstream (payload : Bytes) (now : Time) (transaction : Transaction) : BrokerM Nat := do
  let writeId := (← get).nextWrite + 1
  modify fun s => { s with
    nextWrite := writeId
    upstreamWrites := s.upstreamWrites.insert writeId (now + s.config.writeTimeout) }
  perform (.upstream ⟨0, (← get).epoch, writeId, payload⟩ transaction)
  count "upstream_commands"
  pure writeId

/-- `DEVICE_QUERY` is forwarded at the mux-owned app target; the original client target stays in the
transaction. -/
def forwarded (command : Bytes) : Except Error Bytes :=
  if opcode command = Protocol.cmdDeviceQuery then Protocol.normalizeDeviceQuery command
  else .ok command

def sendCommand (transaction : Transaction) (now : Time) : BrokerM Unit := do
  modifyActive fun x => { x with step := .command }
  let payload ← ofExcept (forwarded transaction.command)
  let writeId ← sendUpstream payload now { transaction with step := .command }
  modifyActive fun x => { x with upstreamWriteId := some writeId }

/-- The scope that a command of `owner` must be wrapped in, if it must be. -/
def Broker.wrappingScope (s : Broker) (owner : Nat) (descriptor : Protocol.CommandDescriptor) :
    Option Bytes :=
  match s.sessions.find? owner with
  | none => none
  | some session =>
    if descriptor.flags.scopeSend ∧ session.scope ≠ defaultScope then some session.scope else none

/-- Claim upstream ownership before sending anything. A nondefault client scope wraps the command in
a hidden setup and a restoration of the default scope. -/
def dispatch (owner : Nat) (command : Bytes) (now : Time) (popSequence generation : Nat) :
    BrokerM Unit := do
  match Protocol.descriptor command with
  | none => throw .nil
  | some descriptor =>
    let s ← get
    let transaction : Transaction :=
      { owner, command, descriptor, popSequence
        started := now
        progress := now
        notificationGeneration := generation
        hadMultiClient := owner = 0 ∧ ¬ s.multiClients.isEmpty
        jobId := s.nextWrite + 1
        maintenance := descriptor.flags.maintenance }
    modify fun s => { s with active := some transaction }
    diagnostic ["event=command.dispatched epoch=", s.epoch, " session=", owner, " job=",
      transaction.jobId, " ", .command command false, " scoped=",
      toString descriptor.flags.scopeSend]
    diagnostic ["event=command.dispatched_payload epoch=", s.epoch, " session=", owner, " job=",
      transaction.jobId, " ", .command command true] .debug
    match s.wrappingScope owner descriptor with
    | some scope =>
      let wrapped := { transaction with step := .setup, isScoped := true }
      modifyActive fun _ => wrapped
      perform (.dispatched wrapped now)
      let writeId ← sendUpstream scope now wrapped
      modifyActive fun x => { x with upstreamWriteId := some writeId }
    | none =>
      perform (.dispatched transaction now)
      sendCommand transaction now

/-! ### Admission -/

/-- The permission and shared-resource checks of `admit_command?`: the native reason of a refusal,
and nothing when the command may go upstream. Disjunctions stop at the first busy resource, as in
the source. -/
def admissionReason (owner : Nat) (command : Bytes) (descriptor : Protocol.CommandDescriptor)
    (now : Time) : BrokerM (Option UInt8) := do
  let badState (refused : Bool) : Option UInt8 := if refused then Protocol.errBadState else none
  if descriptor.flags.maintenance ∧ opcode command ≠ Protocol.cmdReboot then
    badState <$> (pure ((← get).sessions.size ≠ 1 : Bool)
      <||> quarantined now
      <||> remoteOccupied now
      <||> ((fun s : Broker => decide (0 < s.radio.dmRing.pendingCount now)) <$> get)
      <||> signingOccupied now)
  else if ← (pure (Protocol.plainDm command) <&&> (quarantined now <||>
      ((fun s : Broker => !s.radio.dmRing.available now) <$> get))) then
    pure (some Protocol.errBadState)
  else if descriptor.flags.remoteLease then
    if ← quarantined now then pure (some Protocol.errBadState)
    else
      let (reserved, remote) ← ofExcept ((← get).radio.remote.reserve owner command now)
      setRemote remote
      if reserved then
        match RemoteLease.kind remote with
        | none => throw .nil
        | some kind =>
          diagnostic ["event=remote_lease.reserved epoch=", (← get).epoch, " session=", owner,
            " kind=", kind.name, " ", .command command false]
          pure none
      else pure (some Protocol.errBadState)
  else if opcode command = Protocol.cmdSignStart then
    let (started, signing) ← ofExcept ((← get).signing.start owner command now)
    setSigning signing
    pure (badState !started)
  else if opcode command = Protocol.cmdSignData then
    let (admission, signing) ← ofExcept ((← get).signing.beginData owner command now)
    setSigning signing
    pure (match admission with
      | .allowed => none
      | .tableFull => some Protocol.errTableFull
      | .badState => some Protocol.errBadState)
  else if opcode command = Protocol.cmdSignFinish then
    let (admission, signing) ← ofExcept ((← get).signing.beginFinish owner command now)
    setSigning signing
    pure (badState (admission ≠ .allowed))
  else pure none

/-- `admit_command?`. -/
def admitCommand (owner : Nat) (command : Bytes) (now : Time) : BrokerM Bool := do
  match Protocol.descriptor command with
  | none => throw .nil
  | some descriptor =>
    match ← admissionReason owner command descriptor now with
    | none => pure true
    | some reason =>
      reject owner reason ["resource unavailable opcode=", opcode command]
      pure false

/-! ### The schedule -/

/-- One turn of the rotation for the participant that was at the front. True when it was
dispatched. -/
def rotationTurn (id : Nat) (now : Time) : BrokerM Bool := do
  let s ← get
  if id = 0 then
    if s.drainRequested ∧ ¬ s.sessions.isEmpty then
      modify fun s => { s with drainRequested := false, popSequence := s.popSequence + 1 }
      dispatch 0 [Protocol.cmdSyncNextMessage] now (← get).popSequence (← get).notificationGeneration
      pure true
    else pure false
  else
    match s.sessions.find? id with
    | none => pure false
    | some session =>
      if session.sync.isSome then pure false
      else
        match session.commands with
        | [] => pure false
        | command :: _ =>
          shiftCommand id command
          if ← admitCommand id command.payload now then
            dispatch id command.payload now 0 0
            pure true
          else pure false

/-- `@order.size.times`, until a turn dispatches. An empty rotation is impossible: participant 0
never leaves it. -/
def rotate (now : Time) : Nat → BrokerM Unit
  | 0 => pure ()
  | turns + 1 => do
    match (← get).order with
    | [] => throw .index
    | id :: rest =>
      modify fun s => { s with order := rest ++ [id] }
      unless ← rotationTurn id now do rotate now turns

/-- Resolve locally virtualized commands first, respecting each client's FIFO, then rotate among
clients and the internal inbox consumer. Only one ordinary upstream transaction may be active. -/
def schedule (now : Time) : BrokerM Unit := do
  unless (← get).failed do
    modify fun s => { s with now := now }
    unless (← get).underMaintenance do
      (← get).sessions.keys.forM (localTurn now)
      if (← get).active.isNone then rotate now (← get).order.length

end MeshCoreTCPMux

import MeshCoreTCPMux.Broker.Events
import MeshCoreTCPMux.Library.History

/-!
# The broker as a transition system

Each entry point of the broker runs loops over sessions, slots and queued commands, and each of its
passes writes several fields before the state is meaningful again. `Step` cuts a run of the broker
into the atomic actions between which its invariants hold. An action is a total function of the
state (`send`, `drop`, `take`, `claim`, …) under a guard; the guards are the branch conditions under
which the source performs it.

* `Idle` — a writer reports, the rotation advances.
* `Output` — a session leaves, or receives a coalesced hint.
* `Client` — what happens between the broker and one client: it joins, its commands are queued and
  answered locally, broadcasts reach it.
* `Radio` — leases expire, and pushes settle them.
* `Upstream` — a command is dispatched, its reply is taken.
* `Pop` — the parts of handing out one physical inbox result.
* `Ending` — the epoch ends, and every session leaves.

A whole inbox result is one `Step`, and so is the end of an epoch, because their parts are
meaningless alone. Every step may also rewrite the broker's `report`, which only diagnostics depend
on. Calls arrive, and time passes, between steps, in an `Act` of its own.
-/

namespace MeshCoreTCPMux

open Protocol Relation

namespace Broker

/-! ### Atomic actions -/

/-- Append a history entry. -/
def note (s : Broker) (n : Note) : Broker := { s with log := s.log ++ [n] }

/-- Whether there is room for one more frame to a session. -/
def Room (s : Broker) (session : Session) : Prop := session.writes.size < s.config.outputFrames

/-- Address a frame to a client. -/
def send (s : Broker) (id : Nat) (payload : Bytes) (cause : Cause) : Broker :=
  { s with
    nextWrite := s.nextWrite + 1
    sessions := s.sessions.modify id fun x =>
      { x with writes := x.writes.insert (s.nextWrite + 1) ⟨s.now + s.config.writeTimeout⟩ }
    log := s.log ++ [.sent ⟨id, s.epoch, s.nextWrite + 1, payload⟩ cause] }

theorem find?_send {s : Broker} {id : Nat} {session : Session} (payload : Bytes) (cause : Cause)
    (h : s.sessions.find? id = some session) :
    (s.send id payload cause).sessions.find? id = some
      { session with
        writes := session.writes.insert (s.nextWrite + 1) ⟨s.now + s.config.writeTimeout⟩ } := by
  simp [send, h]

/-- The slots without the attachment of a session that leaves. -/
def detachedSlots (s : Broker) (id : Nat) (session : Session) : OrdMap Nat DedicatedClientSlot :=
  match session.dedicatedSlotId with
  | none => s.dedicatedSlots
  | some slotId =>
    s.dedicatedSlots.modify slotId fun x =>
      if x.attachedSessionId = some id then { x with attachedSessionId := none } else x

/-- Remove a session. -/
def drop (s : Broker) (id : Nat) (session : Session) (reason : Text) : Broker :=
  { s with
    sessions := s.sessions.erase id
    dedicatedSlots := s.detachedSlots id session
    radio := { s.radio with remote := RemoteLease.ownerGone s.radio.remote id }
    signing := if s.activeOwner = some id then s.signing else s.signing.ownerGone id
    order := s.order.filter (· ≠ id)
    drainAuthorized := if (s.sessions.erase id).isEmpty then false else s.drainAuthorized
    drainRequested := if (s.sessions.erase id).isEmpty then false else s.drainRequested
    log := s.log ++ [.closed id reason] }

/-- A client's writer has written a frame. -/
def writtenDown (s : Broker) (id writeId : Nat) : Broker :=
  { s with
    sessions := s.sessions.modify id fun x =>
      { x with
        writes := x.writes.erase writeId
        availabilityHintWriteId :=
          if x.availabilityHintWriteId = some writeId then none
          else x.availabilityHintWriteId } }

/-- Remove the head of a session's command queue. -/
def take (s : Broker) (id : Nat) (command : Command) : Broker :=
  { s with
    sessions := s.sessions.modify id fun x => { x with commands := x.commands.tail }
    log := s.log ++ [.taken id command] }

/-- End the wait of a session. -/
def endSync (s : Broker) (id : Nat) : Broker :=
  { s with sessions := s.sessions.modify id fun x => { x with sync := none } }

theorem find?_endSync {s : Broker} {id : Nat} {session : Session}
    (h : s.sessions.find? id = some session) :
    (s.endSync id).sessions.find? id = some { session with sync := none } := by
  simp [endSync, h]

/-- A session that leaves right after its wait ended left while it was waiting. -/
theorem drop_endSync (s : Broker) (id : Nat) (session : Session) (reason : Text) :
    (s.endSync id).drop id { session with sync := none } reason = s.drop id session reason := by
  simp only [drop, endSync, OrdMap.erase_modify]
  rfl

/-- Drop the head of the queue that a session consumes. -/
def shiftInbox (s : Broker) (id : Nat) (session : Session) (item : Bytes) : Broker :=
  match session.dedicatedSlotId with
  | none =>
    { s with sessions := s.sessions.modify id fun x => { x with inbox := x.inbox.tail } }
  | some slotId =>
    { s with
      dedicatedSlots := s.dedicatedSlots.modify slotId fun slot =>
        { slot with offlineQueue := slot.offlineQueue.tail }.recordDelivery
      log := s.log ++ [.slotDelivered slotId item] }

/-- Remember the write that carries a session's availability hint. -/
def markHint (s : Broker) (id writeId : Nat) : Broker :=
  { s with
    sessions := s.sessions.modify id fun x => { x with availabilityHintWriteId := some writeId } }

/-- Release the active transaction. An owner that has left gives up its signing state now. -/
def release (s : Broker) (owner : Nat) : Broker :=
  { s with
    active := none
    signing := if s.sessions.contains owner then s.signing else s.signing.ownerGone owner }

/-- Whether a session owns a maintenance result that waits for its write. -/
def delivering (s : Broker) (id : Nat) : Bool :=
  s.active.any fun x => x.maintenance && x.step == .maintenanceResult && x.owner == id

theorem delivering_iff {s : Broker} {id : Nat} : s.delivering id = true ↔
    ∃ transaction, s.active = some transaction ∧ transaction.maintenance = true ∧
      transaction.step = .maintenanceResult ∧ transaction.owner = id := by
  unfold delivering
  cases s.active <;> simp [and_assoc]

/-- Remove a session because the epoch fails. -/
def leave (s : Broker) (id : Nat) : Broker :=
  match s.sessions.find? id with
  | none => s
  | some session =>
    let left := s.drop id session ["upstream epoch failed"]
    if s.delivering id then left.release id else left

/-- Make a transaction the active one, with the leases it reserved. -/
def claim (s : Broker) (transaction : Transaction) (radio : CompanionRadioState)
    (signing : SigningLease) : Broker :=
  { s with
    active := some transaction
    radio := radio
    signing := signing
    log := s.log ++ [.dispatched transaction s.now] }

/-- Address a frame to the companion, on behalf of the active transaction. -/
def sendUp (s : Broker) (payload : Bytes) (transaction : Transaction) : Broker :=
  { s with
    nextWrite := s.nextWrite + 1
    upstreamWrites := s.upstreamWrites.insert (s.nextWrite + 1) (s.now + s.config.writeTimeout)
    active := some { transaction with upstreamWriteId := some (s.nextWrite + 1) }
    log := s.log ++ [.upstream ⟨0, s.epoch, s.nextWrite + 1, payload⟩ transaction] }

/-- The lease of a command that the companion may or may not have accepted. -/
def abandonLease (lease : RemoteLease) (deadline : Time) : RemoteLease :=
  lease.map fun r =>
    if r.tentative then { r with owner := none, deadline := some deadline, tentative := false }
    else r

/-- What a failure leaves of the radio state: the reservation of a command that was not sent is
released, and one that may have been accepted closes shared radio admission. -/
def preservedRadio (s : Broker) (transaction : Transaction) : CompanionRadioState :=
  let remote := transaction.descriptor.flags.remoteLease
  let dm := plainDm transaction.command
  if transaction.step = .setup then
    if remote then { s.radio with remote := none } else s.radio
  else if transaction.step = .command ∧ (remote ∨ dm) then
    let closed := s.radio.quarantine s.now s.config.radioUncertaintyTimeout dm
    if remote then { closed.2 with remote := abandonLease closed.2.remote closed.1 } else closed.2
  else s.radio

/-- End the epoch. -/
def fail (s : Broker) (reason : Text) : Broker :=
  { s with
    radio := match s.active with
      | none => s.radio
      | some transaction => s.preservedRadio transaction
    responseDebt := s.active.filter (·.step ≠ .maintenanceResult)
    failed := true
    active := none
    upstreamWrites := ∅
    log := s.log ++ [.ended s.epoch reason] }

/-- Disconnect every session, and end the epoch. -/
def failAll (s : Broker) (reason : Text) : Broker := (s.sessions.keys.foldl leave s).fail reason

/-- Create a session. The first multi-client one inherits the orphan. -/
def enter (s : Broker) (id : Nat) (slotId : Option Nat) : Broker :=
  { s with
    sessions := s.sessions.insert id
      { dedicatedSlotId := slotId
        inbox := if slotId.isNone then s.orphan.toList else [] }
    orphan := if slotId.isNone then none else s.orphan
    dedicatedSlots := match slotId with
      | none => s.dedicatedSlots
      | some k => s.dedicatedSlots.modify k fun x => { x with attachedSessionId := some id }
    order := s.order ++ [id]
    log := s.log ++ .admitted id slotId ::
      if slotId.isNone then s.orphan.toList.map (.offered id) else [] }

/-- Append to a session's command queue. -/
def queue (s : Broker) (id : Nat) (command : Command) : Broker :=
  { s with
    sessions := s.sessions.modify id fun x => { x with commands := x.commands ++ [command] }
    log := s.log ++ [.queued id command] }

/-- Start a wait for the companion's inbox, which authorizes a drain. -/
def startSync (s : Broker) (id : Nat) (sync : PendingSync) : Broker :=
  { s with
    sessions := s.sessions.modify id fun x => { x with sync := some sync }
    drainAuthorized := true
    drainRequested := true
    notificationGeneration := s.notificationGeneration + 1
    log := s.log ++ [.synced id sync] }

/-- Select a session's virtual scope. -/
def setScope (s : Broker) (id : Nat) (scope : Bytes) : Broker :=
  { s with sessions := s.sessions.modify id fun x => { x with scope := scope } }

/-- Append to a multi-client session's inbox. -/
def offer (s : Broker) (id : Nat) (item : Bytes) : Broker :=
  { s with
    sessions := s.sessions.modify id fun x => { x with inbox := x.inbox ++ [item] }
    log := s.log ++ [.offered id item] }

theorem find?_offer {s : Broker} {id : Nat} {session : Session} (item : Bytes)
    (h : s.sessions.find? id = some session) :
    (s.offer id item).sessions.find? id
      = some { session with inbox := session.inbox ++ [item] } := by
  simp [offer, h]

theorem endSync_offer (s : Broker) (id : Nat) (item : Bytes) :
    (s.offer id item).endSync id = (s.endSync id).offer id item := by
  simp only [offer, endSync, OrdMap.modify_modify]

/-- Append to a dedicated slot's queue, by its overflow rule. -/
def offerSlot (s : Broker) (slotId : Nat) (item : Bytes) : Broker :=
  { s with
    dedicatedSlots := s.dedicatedSlots.modify slotId fun slot =>
      (slot.enqueueOffline item s.config.offlineQueueSize).2
    log := s.log ++ [.slotOffered slotId item] }

/-- A `DEVICE_QUERY` answered for a live session sets the version that session talks. -/
def retarget (s : Broker) (transaction : Transaction) (payload : Bytes) : Broker :=
  if opcode transaction.command = cmdDeviceQuery ∧ opcode payload = respDeviceInfo then
    { s with
      sessions := s.sessions.modify transaction.owner fun x =>
        { x with targetVersion := transaction.command.getD 1 0 } }
  else s

/-- A drain goes on while its cycle is authorized. -/
def keepDraining (s : Broker) : Broker :=
  { s with drainRequested := s.drainAuthorized && !s.sessions.isEmpty }

/-- Settle the drain flags after an empty pop. -/
def settle (s : Broker) (transaction : Transaction) : Broker :=
  let again := s.newerWork transaction && !s.sessions.isEmpty
  { s with
    drainAuthorized := again
    drainRequested := again
    log := s.log ++ if s.newerWork transaction then [] else [.drained] }

/-- The radio state once `isDuplicate` has looked at an item. -/
def seenRadio (s : Broker) (item : Bytes) : CompanionRadioState :=
  if s.config.deduplicateReceivedMessages then
    { s.radio with
      receivedMessageDeduplicator := (s.radio.receivedMessageDeduplicator.duplicate item).2 }
  else s.radio

/-- Whether an item is a configured duplicate. -/
def seenBefore (s : Broker) (item : Bytes) : Bool :=
  s.config.deduplicateReceivedMessages && (s.radio.receivedMessageDeduplicator.duplicate item).1

/-- The frame that an owner sees of a reply. -/
def visibleReply (payload : Bytes) : Except Error Bytes :=
  if opcode payload = respDeviceInfo then downstreamDeviceInfo payload else .ok payload

/-- What the terminal reply of a command does to the leases, as `recordAcceptance` computes it. -/
def acceptance (transaction : Transaction) (payload : Bytes) (now : Time)
    (radio : CompanionRadioState) (signing : SigningLease) :
    Except Error (CompanionRadioState × SigningLease) :=
  if plainDm transaction.command ∧ opcode payload = respSent then do
    return ({ radio with dmRing := ← radio.dmRing.accepted payload now }, signing)
  else if transaction.descriptor.flags.remoteLease then
    if opcode payload = respSent then do
      return ({ radio with remote := ← RemoteLease.accepted radio.remote payload now }, signing)
    else return ({ radio with remote := none }, signing)
  else if opcode transaction.command = cmdSignStart then
    if opcode payload = respSignStart then do return (radio, ← signing.acceptedStart payload now)
    else return (radio, signing.rejectedStart)
  else if opcode transaction.command = cmdSignData then do
    return (radio, ← signing.dataResponse payload now)
  else if opcode transaction.command = cmdSignFinish then do
    return (radio, ← signing.finishResponse payload now)
  else return (radio, signing)

/-! ### The current call and its frame -/

/-- The call that a history ends in. -/
def call (event : Option Event) : Note → Option Event
  | .input event => some event
  | _ => event

/-- The call that is running. -/
def current (log : List Note) : Option Event := log.foldl call none

theorem current_append {l m : List Note} (h : m.all Note.internal = true) :
    current (l ++ m) = current l := by
  rw [current, List.foldl_append]
  refine History.foldl_neutral fun n hn event => ?_
  have hn := List.all_eq_true.mp h n hn
  cases n <;> first | rfl | cases hn

/-- A call of the runtime brings a frame or none, and the frame is taken once. -/
def receive (frame : Option Bytes) : Note → Option Bytes
  | .input (.upstreamFrame payload _) | .input (.drainUncertainFrame payload _) => some payload
  | .input _ | .replied _ _ | .matched _ _ => none
  | _ => frame

/-- The upstream frame of the current call, until a transaction or the lease has taken it. -/
def received (log : List Note) : Option Bytes := log.foldl receive none

/-- An entry that neither brings a frame nor takes one. -/
def Neutral (n : Note) : Prop := ∀ frame, receive frame n = frame

theorem received_append (l m : List Note) : received (l ++ m) = m.foldl receive (received l) := by
  simp [received]

theorem received_neutral {l m : List Note} (h : ∀ n ∈ m, Neutral n) :
    received (l ++ m) = received l := by
  rw [received_append]
  exact History.foldl_neutral h

/-! ### Guards -/

/-- An id that no admission has used: it was neither admitted nor refused. -/
def Fresh (id : Nat) (log : List Note) : Prop :=
  (∀ k, .admitted id k ∉ log) ∧ ∀ reason, .closed id reason ∉ log

/-- Why a session may leave while the epoch goes on: its output is full when a frame is due, its
queue when a command arrives; or the current call says so, or has found one of its writes
overdue. -/
inductive Departs (s : Broker) (id : Nat) (session : Session) : Text → Prop
  | slow (hfull : ¬ s.Room session) : Departs s id session ["output queue overflow"]
  | crowded {payload : Bytes} {now : Time}
      (hcall : current s.log = some (.clientFrame id payload now))
      (hfull : s.config.commandLimit ≤ session.commands.length
        + (if session.sync.isSome then 1 else 0) + (if s.activeOwner = some id then 1 else 0)) :
      Departs s id session ["command queue overflow"]
  | closed {now : Time} {reason : Text} {category : Category}
      (hcall : current s.log = some (.clientClosed id now reason category)) :
      Departs s id session reason
  | writerFailed {epoch : Nat} {reason : Text} {now : Time}
      (hcall : current s.log = some (.writeFailed id epoch reason now)) :
      Departs s id session (joined [["writer failed: "], reason])
  | replaced {new slotId : Nat} {now : Time}
      (hcall : current s.log = some (.admission new (some slotId) now))
      (hslot : session.dedicatedSlotId = some slotId) :
      Departs s id session ["replaced by new dedicated client connection"]
  | overdue {now : Time} (hcall : current s.log = some (.tick now))
      (hlate : (session.writes.any fun _ budget => budget.deadline ≤ now) = true) :
      Departs s id session ["output write deadline"]

/-- The response deadline of a transaction whose frame has been written is over. -/
def Overdue (s : Broker) (transaction : Transaction) : Prop :=
  s.config.responseTimeout ≤ s.now - transaction.progress ∨
    (transaction.descriptor.grammar = .contacts ∧
      s.config.contactsTimeout ≤ s.now - transaction.started)

/-- A frame that no part of the broker can take. -/
def Misfit (payload : Bytes) : Prop :=
  validateResponseShape payload ≠ .ok () ∨ opcode payload < pushAdvert ∨
    opcode payload ∈ resultPushes

/-- Why the epoch may fail. -/
inductive Fatal (s : Broker) : Text → Prop
  | requested {reason : Text} (hcall : current s.log = some (.failEpoch reason)) : Fatal s reason
  | writerFailed {epoch : Nat} {reason : Text} {now : Time}
      (hcall : current s.log = some (.writeFailed 0 epoch reason now)) :
      Fatal s (joined [["upstream write failed: "], reason])
  | silent {transaction : Transaction}
      (hcall : (∃ payload, current s.log = some (.upstreamFrame payload s.now)) ∨
        current s.log = some (.tick s.now))
      (hactive : s.active = some transaction) (hstep : transaction.step ≠ .maintenanceResult)
      (hwritten : transaction.upstreamWriteId = none) (hlate : s.Overdue transaction) :
      Fatal s (timeoutReason s.config transaction s.now)
  | unwritten (hcall : current s.log = some (.tick s.now))
      (hlate : (s.upstreamWrites.any fun _ deadline => deadline ≤ s.now) = true) :
      Fatal s ["upstream write deadline"]
  | rejected {payload : Bytes} {message : Text}
      (hcall : current s.log = some (.upstreamFrame payload s.now))
      (hreceived : received s.log = some payload) (hmisfit : Misfit payload) : Fatal s message

/-- The local answers of the broker to a command at the head of a queue. -/
inductive LocalReply (config : Config) (now : Time) (command : Command) : Bytes → Prop
  | invalid {reason : UInt8} (h : (validateCommand command.payload).reason = some reason) :
      LocalReply config now command [respErr, reason]
  | stale (hvalid : (validateCommand command.payload).reason = none)
      (h : config.commandAge ≤ now - command.queuedAt) :
      LocalReply config now command [respErr, errBadState]
  | exportDisabled (hvalid : (validateCommand command.payload).reason = none)
      (h : opcode command.payload = cmdExportPrivateKey) (hconfig : config.privateKeyExport = false) :
      LocalReply config now command [respDisabled]
  | importDisabled (hvalid : (validateCommand command.payload).reason = none)
      (h : opcode command.payload = cmdImportPrivateKey) (hconfig : config.privateKeyImport = false) :
      LocalReply config now command [respErr, errUnsupportedCmd]
  | resetDisabled (hvalid : (validateCommand command.payload).reason = none)
      (h : opcode command.payload = cmdFactoryReset) (hconfig : config.factoryReset = false) :
      LocalReply config now command [respErr, errUnsupportedCmd]
  | busy {reason : UInt8} (hvalid : (validateCommand command.payload).reason = none)
      (hreason : reason = errBadState ∨ reason = errTableFull) :
      LocalReply config now command [respErr, reason]

/-- A command that the local loop leaves at the head of its queue. -/
structure Forwardable (config : Config) (now : Time) (command : Command) : Prop where
  valid : (validateCommand command.payload).reason = none
  fresh : now - command.queuedAt < config.commandAge
  not_sync : opcode command.payload ≠ cmdSyncNextMessage
  not_scope : opcode command.payload ≠ cmdSetFloodScopeKey
  export_enabled : opcode command.payload = cmdExportPrivateKey → config.privateKeyExport = true
  import_enabled : opcode command.payload = cmdImportPrivateKey → config.privateKeyImport = true
  reset_enabled : opcode command.payload = cmdFactoryReset → config.factoryReset = true

/-- The session at the head of whose queue `command` stands, and which may progress. -/
structure Head (s : Broker) (id : Nat) (session : Session) (command : Command) : Prop where
  running : s.failed = false
  live : s.sessions.find? id = some session
  commands : session.commands = command :: session.commands.tail
  sync : session.sync = none
  inactive : s.activeOwner ≠ some id

/-- The leases that a dispatched command reserves. `radio` and `signing` are what it leaves of them;
expired reservations and a quarantine that is over have been cleared before. -/
inductive Reserves (s : Broker) (owner : Nat) (command : Bytes) (descriptor : CommandDescriptor) :
    CompanionRadioState → SigningLease → Prop
  | maintenance (hflag : descriptor.flags.maintenance = true)
      (hcommand : opcode command ≠ cmdReboot) (hsize : s.sessions.size = 1)
      (hquarantine : s.radio.uncertainUntil = none) (hremote : s.radio.remote = none)
      (hring : s.radio.dmRing.pendingCount s.now = 0) (hsigning : s.signing.operation = none) :
      Reserves s owner command descriptor s.radio s.signing
  | dm (hdm : plainDm command = true) (hquarantine : s.radio.uncertainUntil = none)
      (hring : s.radio.dmRing.available s.now = true) :
      Reserves s owner command descriptor s.radio s.signing
  | lease {r : RemoteLease.Reservation} (hdm : plainDm command = false)
      (hflag : descriptor.flags.remoteLease = true) (hquarantine : s.radio.uncertainUntil = none)
      (hremote : s.radio.remote = none)
      (hr : RemoteLease.reserve s.radio.remote owner command s.now = .ok (true, some r)) :
      Reserves s owner command descriptor { s.radio with remote := some r } s.signing
  | signing {signing : SigningLease} (hdm : plainDm command = false)
      (hflag : descriptor.flags.remoteLease = false)
      (h : (opcode command = cmdSignStart ∧
          s.signing.start owner command s.now = .ok (true, signing)) ∨
        (opcode command = cmdSignData ∧
          s.signing.beginData owner command s.now = .ok (.allowed, signing)) ∨
        (opcode command = cmdSignFinish ∧
          s.signing.beginFinish owner command s.now = .ok (.allowed, signing))) :
      Reserves s owner command descriptor s.radio signing
  | plain (hdm : plainDm command = false) (hflag : descriptor.flags.remoteLease = false)
      (hsigning : opcode command ∉ [cmdSignStart, cmdSignData, cmdSignFinish])
      (hmaintenance : descriptor.flags.maintenance = true → opcode command = cmdReboot) :
      Reserves s owner command descriptor s.radio s.signing

/-- A reply goes to the owner if it is still connected: the broker afterwards, and the id of the
write that carries the reply. -/
inductive Forwarded (s : Broker) (transaction : Transaction) (payload : Bytes) :
    Option Nat → Broker → Prop
  | gone (h : s.sessions.find? transaction.owner = none) : Forwarded s transaction payload none s
  | live {session : Session} {visible : Bytes}
      (h : s.sessions.find? transaction.owner = some session) (hroom : s.Room session)
      (hvisible : visibleReply payload = .ok visible) :
      Forwarded s transaction payload (some (s.nextWrite + 1))
        ((s.retarget transaction payload).send transaction.owner visible .reply)

/-- The active transaction waits in its command step, whose write has completed, and the reply
`payload` of a client's command is valid for it. -/
structure Replied (s : Broker) (transaction : Transaction) (payload : Bytes)
    (disposition : ResponseDisposition) (started : Bool) : Prop where
  active : s.active = some transaction
  received : received s.log = some payload
  step : transaction.step = .command
  written : transaction.upstreamWriteId = none
  client : transaction.owner ≠ 0
  shape : validateResponseShape payload = .ok ()
  valid : validateResponse transaction.descriptor payload transaction.command transaction.phase
    = .ok disposition
  contacts : contactsStep transaction payload = .ok started

/-! ### Steps -/

/-- A writer reports, the rotation advances. -/
inductive Idle : Broker → Broker → Prop
  | poll {s : Broker} {now : Time} : Idle s { s with lastPoll := now }
  | refuse {s : Broker} {id : Nat} {slotId : Option Nat} {now : Time} {reason : Text}
      (h : s.sessions.find? id = none) (hfresh : Fresh id s.log)
      (hcall : current s.log = some (.admission id slotId now)) :
      Idle s (s.note (.closed id reason))
  | rotate {s : Broker} {id : Nat} {rest : List Nat} (h : s.order = id :: rest) :
      Idle s { s with order := rest ++ [id] }
  | writtenUp {s : Broker} {writeId : Nat}
      (hcall : current s.log = some (.written 0 s.epoch writeId s.now)) :
      Idle s { s with
        upstreamWrites := s.upstreamWrites.erase writeId
        active := s.active.map fun x =>
          if x.upstreamWriteId = some writeId then writeCompleted x s.now else x }
  | writtenDown {s : Broker} {id writeId : Nat} {now : Time}
      (hcall : current s.log = some (.written id s.epoch writeId now))
      (hresult : s.active.any (fun x => x.step == .maintenanceResult && x.owner == id &&
        x.maintenanceWriteId == some writeId) = false) :
      Idle s (s.writtenDown id writeId)
  | proved {s : Broker} {transaction : Transaction} {writeId : Nat}
      (h : s.active = some transaction) (hwrite : transaction.upstreamWriteId = some writeId) :
      Idle s { s with
        upstreamWrites := s.upstreamWrites.erase writeId
        active := some (proveWrite transaction s.now) }
  | touched {s : Broker} {transaction : Transaction} (progress : Time) (responseFrames : Nat)
      (h : s.active = some transaction) :
      Idle s { s with
        active := some
          { transaction with progress := progress, responseFrames := responseFrames } }
  | debtTouched {s : Broker} {transaction : Transaction} (contactsStarted : Bool)
      (responseFrames : Nat) (h : s.responseDebt = some transaction) :
      Idle s { s with
        responseDebt := some
          { transaction with contactsStarted := contactsStarted, responseFrames := responseFrames } }
  | debtCleared {s : Broker} : Idle s { s with responseDebt := none }

/-- A session leaves, or receives a coalesced hint. -/
inductive Output : Broker → Broker → Prop
  | drop {s : Broker} {id : Nat} {session : Session} {reason : Text}
      (h : s.sessions.find? id = some session) (hdeparts : s.Departs id session reason)
      (hother : s.delivering id = false) : Output s (s.drop id session reason)
  | hint {s : Broker} {id : Nat} {session : Session} (h : s.sessions.find? id = some session)
      (hnone : session.availabilityHintWriteId = none) (hroom : s.Room session) :
      Output s ((s.send id [pushMsgWaiting] .hint).markHint id (s.nextWrite + 1))

/-- What happens between the broker and one client. -/
inductive Client : Broker → Broker → Prop
  | entered {s : Broker} {id : Nat} {slotId : Option Nat} (hrunning : s.failed = false)
      (hquiet : s.underMaintenance = false) (hid : 0 < id) (hfresh : Fresh id s.log)
      (hslot : ∀ k, slotId = some k →
        ∃ slot, s.dedicatedSlots.find? k = some slot ∧ slot.attachedSessionId = none) :
      Client s (s.enter id slotId)
  | queued {s : Broker} {id : Nat} {session : Session} {payload : Bytes}
      (hrunning : s.failed = false) (h : s.sessions.find? id = some session)
      (hpayload : payload ≠ []) (hcall : current s.log = some (.clientFrame id payload s.now))
      (hlimit : session.commands.length + (if session.sync.isSome then 1 else 0)
        + (if s.activeOwner = some id then 1 else 0) < s.config.commandLimit) :
      Client s (s.queue id ⟨payload, s.now⟩)
  | answered {s : Broker} {id : Nat} {session : Session} {command : Command} {reply : Bytes}
      (h : s.Head id session command) (hroom : s.Room session)
      (hreply : LocalReply s.config s.now command reply) :
      Client s ((s.take id command).send id reply .answer)
  | selected {s : Broker} {id : Nat} {session : Session} {command : Command}
      (h : s.Head id session command) (hroom : s.Room session)
      (hvalid : (validateCommand command.payload).reason = none)
      (hop : opcode command.payload = cmdSetFloodScopeKey) :
      Client s ((((s.take id command).setScope id command.payload).send id [respOk] .answer).note
        (.selected id command.payload))
  | choked {s : Broker} {id : Nat} {session : Session} {command : Command}
      (h : s.Head id session command) (hfull : ¬ s.Room session) :
      Client s ((s.take id command).drop id session ["output queue overflow"])
  | waits {s : Broker} {id : Nat} {session : Session} {command : Command} {deadline : Time}
      (h : s.Head id session command) (hop : opcode command.payload = cmdSyncNextMessage)
      (hempty : s.inboxFor? session = some []) :
      Client s ((s.take id command).startSync id ⟨s.popSequence + 1, deadline⟩)
  | delivered {s : Broker} {id : Nat} {session : Session} {command : Command} {item : Bytes}
      {rest : List Bytes} {visible : Bytes} (h : s.Head id session command)
      (hop : opcode command.payload = cmdSyncNextMessage) (hroom : s.Room session)
      (hinbox : s.inboxFor? session = some (item :: rest))
      (hvisible : downgradeInbox item session.targetVersion = .ok visible) :
      Client s (((s.take id command).send id visible (.item item)).shiftInbox id session item)
  | syncExpired {s : Broker} {id : Nat} {session : Session} {sync : PendingSync}
      (h : s.sessions.find? id = some session) (hsync : session.sync = some sync)
      (hdeadline : sync.deadline ≤ s.now) (hroom : s.Room session) :
      Client s ((s.endSync id).send id [respErr, errBadState] .answer)
  | broadcast {s : Broker} {id : Nat} {session : Session} {payload : Bytes}
      (h : s.sessions.find? id = some session) (hroom : s.Room session)
      (hreceived : received s.log = some payload) (hpush : pushAdvert ≤ opcode payload)
      (hresult : opcode payload ∉ resultPushes)
      (hwaiting : opcode payload ≠ pushMsgWaiting) :
      Client s (s.send id payload .broadcast)

/-- Leases expire, and pushes settle them. -/
inductive Radio : Broker → Broker → Prop
  | leaseExpired {s : Broker} (h : s.radio.remote.any (·.expired s.now) = true) :
      Radio s { s with radio := { s.radio with remote := none } }
  | signingExpired {s : Broker} (h : s.signing.expired s.now = true)
      (hactive : s.active.any (·.descriptor.flags.signing) = false) :
      Radio s { s with signing := s.signing.clear }
  | quarantineOver {s : Broker} {radio : CompanionRadioState}
      (h : s.radio.quarantined s.now = (false, radio)) : Radio s { s with radio := radio }
  | notified {s : Broker} :
      Radio s { s with
        notificationGeneration := s.notificationGeneration + 1
        drainRequested := s.drainRequested || s.drainAuthorized }
  | confirmed {s : Broker} {payload : Bytes} {settled : Bool} {ring : DmRing}
      (hreceived : received s.log = some payload)
      (h : s.radio.dmRing.confirm payload = .ok (settled, ring)) :
      Radio s ({ s with radio := { s.radio with dmRing := ring } }.note (.confirmed payload))
  | unmatched {s : Broker} {payload : Bytes} {now : Time} {remote : RemoteLease}
      (hreceived : received s.log = some payload) (hpush : opcode payload ∈ resultPushes)
      (hnow : s.now ≤ now)
      (h : RemoteLease.matchPush s.radio.remote payload now = .ok (none, remote)) :
      Radio s ({ s with radio := { s.radio with remote := remote } }.note (.matched payload now))
  | matched {s : Broker} {payload : Bytes} {now : Time} {remote : RemoteLease} {owner : Nat}
      {session : Session} (hreceived : received s.log = some payload)
      (hpush : opcode payload ∈ resultPushes) (hnow : s.now ≤ now)
      (h : RemoteLease.matchPush s.radio.remote payload now = .ok (some owner, remote))
      (hlive : s.sessions.find? owner = some session) (hroom : s.Room session) :
      Radio s (({ s with radio := { s.radio with remote := remote } }.send owner payload
        .leaseResult).note (.matched payload now))

/-- A command is dispatched, its reply is taken. -/
inductive Upstream : Broker → Broker → Prop
  /-- The internal inbox consumer's turn. -/
  | popDispatched {s : Broker} {descriptor : CommandDescriptor} {transaction : Transaction}
      (hrunning : s.failed = false) (hidle : s.active = none) (hrequested : s.drainRequested = true)
      (hsessions : s.sessions.isEmpty = false)
      (hdescriptor : Protocol.descriptor [cmdSyncNextMessage] = some descriptor)
      (htransaction : transaction =
        { owner := 0, command := [cmdSyncNextMessage], descriptor
          popSequence := s.popSequence + 1
          started := s.now
          progress := s.now
          notificationGeneration := s.notificationGeneration
          hadMultiClient := !s.multiClients.isEmpty
          jobId := s.nextWrite + 1 }) :
      Upstream s
        (({ s with drainRequested := false, popSequence := s.popSequence + 1 }.claim transaction
          s.radio s.signing).sendUp [cmdSyncNextMessage] transaction)
  /-- A client's turn: its command goes upstream, or first the scope that it is wrapped in. -/
  | dispatched {s : Broker} {id : Nat} {session : Session} {command : Command}
      {descriptor : CommandDescriptor} {radio : CompanionRadioState} {signing : SigningLease}
      {transaction : Transaction} {frame : Bytes} (hidle : s.active = none)
      (h : s.Head id session command) (hforward : Forwardable s.config s.now command)
      (hdescriptor : Protocol.descriptor command.payload = some descriptor)
      (hreserves : s.Reserves id command.payload descriptor radio signing)
      (htransaction : transaction =
        { owner := id, command := command.payload, descriptor
          started := s.now
          progress := s.now
          jobId := s.nextWrite + 1
          maintenance := descriptor.flags.maintenance
          isScoped := decide (descriptor.flags.scopeSend = true ∧ session.scope ≠ defaultScope)
          step := if descriptor.flags.scopeSend = true ∧ session.scope ≠ defaultScope then .setup
            else .command })
      (hframe : if transaction.isScoped then frame = session.scope
        else forwarded command.payload = .ok frame) :
      Upstream s (((s.take id command).claim transaction radio signing).sendUp frame transaction)
  | setupRejected {s t : Broker} {transaction : Transaction} {payload : Bytes} {w : Option Nat}
      (h : s.active = some transaction) (hreceived : received s.log = some payload)
      (hstep : transaction.step = .setup) (hwritten : transaction.upstreamWriteId = none)
      (hreply : scopeReply payload = true) (herr : opcode payload = respErr)
      (ht : s.Forwarded transaction payload w t) :
      Upstream s
        (({ t with
            radio :=
              if transaction.descriptor.flags.remoteLease then { s.radio with remote := none }
              else s.radio }.note (.replied payload s.now)).release transaction.owner)
  | setupAccepted {s : Broker} {transaction : Transaction} {frame : Bytes}
      (h : s.active = some transaction) (hreceived : received s.log = some [respOk])
      (hstep : transaction.step = .setup) (hwritten : transaction.upstreamWriteId = none)
      (hframe : forwarded transaction.command = .ok frame) :
      Upstream s ((s.note (.replied [respOk] s.now)).sendUp frame
        { transaction with progress := s.now, step := .command })
  | restored {s : Broker} {transaction : Transaction}
      (h : s.active = some transaction) (hreceived : received s.log = some [respOk])
      (hstep : transaction.step = .restore) (hwritten : transaction.upstreamWriteId = none) :
      Upstream s ((s.note (.replied [respOk] s.now)).release transaction.owner)
  | progressed {s t : Broker} {transaction : Transaction} {payload : Bytes} {started : Bool}
      {w : Option Nat} (h : s.Replied transaction payload .progress started)
      (ht : s.Forwarded transaction payload w t) :
      Upstream s
        ({ t with
            active := some
              { transaction with
                contactsStarted := started
                responseFrames := transaction.responseFrames + 1
                progress := s.now } }.note (.replied payload s.now))
  | scopedReply {s t : Broker} {transaction : Transaction} {payload : Bytes} {started : Bool}
      {w : Option Nat} {radio : CompanionRadioState} {signing : SigningLease}
      (h : s.Replied transaction payload .complete started)
      (ht : s.Forwarded transaction payload w t)
      (haccept : acceptance transaction payload s.now s.radio s.signing = .ok (radio, signing))
      (hscoped : transaction.isScoped = true) :
      Upstream s
        (({ t with radio := radio, signing := signing }.note (.replied payload s.now)).sendUp
          defaultScope
          { transaction with
            contactsStarted := started
            responseFrames := transaction.responseFrames + 1
            progress := s.now
            step := .restore })
  | heldReply {s t : Broker} {transaction : Transaction} {payload : Bytes} {started : Bool}
      {w : Nat} {radio : CompanionRadioState} {signing : SigningLease}
      (h : s.Replied transaction payload .complete started)
      (ht : s.Forwarded transaction payload (some w) t)
      (haccept : acceptance transaction payload s.now s.radio s.signing = .ok (radio, signing))
      (hscoped : transaction.isScoped = false) (hmaintenance : transaction.maintenance = true) :
      Upstream s
        ({ t with
            radio := radio
            signing := signing
            active := some
              { transaction with
                contactsStarted := started
                responseFrames := transaction.responseFrames + 1
                progress := s.now
                step := .maintenanceResult
                maintenanceWriteId := some w } }.note (.replied payload s.now))
  | finalReply {s t : Broker} {transaction : Transaction} {payload : Bytes} {started : Bool}
      {w : Option Nat} {radio : CompanionRadioState} {signing : SigningLease}
      (h : s.Replied transaction payload .complete started)
      (ht : s.Forwarded transaction payload w t)
      (haccept : acceptance transaction payload s.now s.radio s.signing = .ok (radio, signing))
      (hscoped : transaction.isScoped = false)
      (hmaintenance : transaction.maintenance = true → w = none) :
      Upstream s
        (({ t with radio := radio, signing := signing }.note (.replied payload s.now)).release
          transaction.owner)

/-- The reason with which a maintenance operation ends its epoch. -/
abbrev maintenanceReason : Text := ["maintenance operation completed"]

/-- The epoch ends, and every session leaves. A maintenance operation ends its epoch when its result
has been written, or when there is nobody left to write it to. -/
inductive Ending : Broker → Broker → Prop
  | failed {s : Broker} {reason : Text} (hrunning : s.failed = false) (hfatal : s.Fatal reason) :
      Ending s (s.failAll reason)
  | completed {s : Broker} {transaction : Transaction} {writeId : Nat} {now : Time}
      (h : s.active = some transaction) (hstep : transaction.step = .maintenanceResult)
      (hwrite : transaction.maintenanceWriteId = some writeId)
      (hcall : current s.log = some (.written transaction.owner s.epoch writeId now)) :
      Ending s (((s.writtenDown transaction.owner writeId).release transaction.owner).failAll
        maintenanceReason)
  | deserted {s : Broker} {transaction : Transaction} {session : Session} {reason : Text}
      (h : s.active = some transaction) (hstep : transaction.step = .maintenanceResult)
      (hlive : s.sessions.find? transaction.owner = some session)
      (hdeparts : s.Departs transaction.owner session reason) :
      Ending s (((s.drop transaction.owner session reason).release transaction.owner).failAll
        maintenanceReason)
  | undelivered {s t : Broker} (h : Upstream s t) (hmaintenance : s.underMaintenance = true)
      (hdone : t.active = none) : Ending s (t.failAll maintenanceReason)

/-- How a session takes an item that it has just been offered: it waits for nothing; or the head of
its queue answers its wait; or it cannot take the answer and leaves. -/
inductive Receives (s : Broker) (id : Nat) (session : Session) : Broker → Prop
  | held (hsync : session.sync = none) : Receives s id session s
  | served {sync : PendingSync} {item : Bytes} {rest : List Bytes} {visible : Bytes}
      (hsync : session.sync = some sync) (hroom : s.Room session)
      (hinbox : s.inboxFor? session = some (item :: rest))
      (hvisible : downgradeInbox item session.targetVersion = .ok visible) :
      Receives s id session
        (((s.endSync id).send id visible (.item item)).shiftInbox id session item)
  | slow {sync : PendingSync} (hsync : session.sync = some sync) (hfull : ¬ s.Room session) :
      Receives s id session (s.drop id session ["output queue overflow"])

/-- The parts of handing out `payload`, the result of the pop `transaction`. -/
inductive Pop (transaction : Transaction) (payload : Bytes) : Broker → Broker → Prop
  | output {s t : Broker} (h : Output s t) : Pop transaction payload s t
  | answered {s : Broker} {id : Nat} {session : Session} {sync : PendingSync}
      (hempty : opcode payload = respNoMoreMessages) (h : s.sessions.find? id = some session)
      (hsync : session.sync = some sync) (hpop : sync.minimumPop ≤ transaction.popSequence)
      (hroom : s.Room session) :
      Pop transaction payload s ((s.endSync id).send id [respNoMoreMessages] .answer)
  | duplicate {s : Broker} (h : s.seenBefore payload = true)
      (hitem : opcode payload ∈ inboxItemCodes) :
      Pop transaction payload s ({ s with radio := s.seenRadio payload }.note (.duplicate payload))
  | popped {s : Broker} (h : s.seenBefore payload = false)
      (hitem : opcode payload ∈ inboxItemCodes) :
      Pop transaction payload s ({ s with radio := s.seenRadio payload }.note (.popped payload))
  | slotOffered {s : Broker} {slotId : Nat} {slot : DedicatedClientSlot}
      (h : s.dedicatedSlots.find? slotId = some slot) (hfree : slot.attachedSessionId = none)
      (hitem : opcode payload ∈ inboxItemCodes) :
      Pop transaction payload s (s.offerSlot slotId payload)
  | attachedOffered {s t : Broker} {slotId : Nat} {slot : DedicatedClientSlot} {id : Nat}
      {session : Session} (hslot : s.dedicatedSlots.find? slotId = some slot)
      (hattached : slot.attachedSessionId = some id) (h : s.sessions.find? id = some session)
      (hitem : opcode payload ∈ inboxItemCodes)
      (ht : (s.offerSlot slotId payload).Receives id session t) : Pop transaction payload s t
  | offered {s t : Broker} {id : Nat} {session : Session} (h : s.sessions.find? id = some session)
      (hclient : session.dedicatedSlotId = none)
      (hlimit : session.inbox.length < s.config.inboxEntries)
      (hitem : opcode payload ∈ inboxItemCodes)
      (ht : (s.offer id payload).Receives id { session with inbox := session.inbox ++ [payload] } t) :
      Pop transaction payload s t
  | flooded {s : Broker} {id : Nat} {session : Session} (h : s.sessions.find? id = some session)
      (hclient : session.dedicatedSlotId = none)
      (hfull : s.config.inboxEntries ≤ session.inbox.length)
      (hitem : opcode payload ∈ inboxItemCodes) :
      Pop transaction payload s (s.drop id session ["inbox overflow"])
  | orphaned {s : Broker} (hclients : s.multiClients = [])
      (hmulti : transaction.hadMultiClient = true) (hitem : opcode payload ∈ inboxItemCodes) :
      Pop transaction payload s ({ s with orphan := some payload }.note (.orphaned payload))

/-- The last part of handing out `payload` decides whether the drain goes on. -/
inductive Closes (transaction : Transaction) (payload : Bytes) : Broker → Broker → Prop
  | settled {s : Broker} (hempty : opcode payload = respNoMoreMessages) (report : Report) :
      Closes transaction payload s { s.settle transaction with report := report }
  | continued {s : Broker} (hitem : opcode payload ∈ inboxItemCodes) :
      Closes transaction payload s s.keepDraining

/-- A part, up to the broker's report. -/
inductive PopStep (transaction : Transaction) (payload : Bytes) : Broker → Broker → Prop
  | report {s : Broker} (report : Report) :
      PopStep transaction payload s { s with report := report }
  | mk {s t : Broker} (h : Pop transaction payload s t) (report : Report) :
      PopStep transaction payload s { t with report := report }

/-- The items that a history shows popped. -/
def pops (log : List Note) : List Bytes :=
  log.filterMap fun | .popped item => some item | _ => none

/-- The items that a history shows offered to a multi-client session. -/
def offers (id : Nat) (log : List Note) : List Bytes :=
  log.filterMap fun | .offered i item => if i = id then some item else none | _ => none

/-- The items that a history shows offered to a slot. -/
def slotOffers (slotId : Nat) (log : List Note) : List Bytes :=
  log.filterMap fun | .slotOffered k item => if k = slotId then some item else none | _ => none

/-- The items that a history shows held for the next multi-client session. -/
def orphans (log : List Note) : List Bytes :=
  log.filterMap fun | .orphaned item => some item | _ => none

/-- Who has custody of `payload` once it has been handed out, as the history of that shows it. An
item that is no configured duplicate is popped. Every configured slot, and every multi-client
session that is live afterwards, has been offered what was popped. It is held at most once, and only
for a pop that was dispatched for a multi-client session; such a pop is held unless one is there. -/
structure Custody (transaction : Transaction) (payload : Bytes) (s t : Broker) (notes : List Note) :
    Prop where
  popped : pops notes =
    if opcode payload ∈ inboxItemCodes ∧ s.seenBefore payload = false then [payload] else []
  slots : ∀ slotId ∈ s.dedicatedSlots.keys, slotOffers slotId notes = pops notes
  clients : ∀ id session, t.sessions.find? id = some session → session.dedicatedSlotId = none →
    offers id notes = pops notes
  held : orphans notes = [] ∨ (orphans notes = pops notes ∧ transaction.hadMultiClient = true)
  kept : transaction.hadMultiClient = true → s.multiClients = [] → orphans notes = pops notes

/-- Handing out one inbox result, as a whole. -/
structure HandsOut (transaction : Transaction) (payload : Bytes) (s t : Broker) : Prop where
  parts : ∃ u, ReflTransGen (PopStep transaction payload) s u ∧ Closes transaction payload u t
  history : ∃ notes, t.log = s.log ++ notes ∧ Custody transaction payload s t notes

/-- A step, up to the broker's report. -/
inductive Move : Broker → Broker → Prop
  | idle {s t : Broker} (h : Idle s t) : Move s t
  | output {s t : Broker} (h : Output s t) : Move s t
  | client {s t : Broker} (h : Client s t) : Move s t
  | radio {s t : Broker} (h : Radio s t) : Move s t
  | upstream {s t : Broker} (h : Upstream s t)
      (hcontinues : s.underMaintenance = true → t.active.isSome = true) : Move s t
  | ending {s t : Broker} (h : Ending s t) : Move s t
  /-- The active pop takes its result. -/
  | pop {s t : Broker} {transaction : Transaction} {payload : Bytes}
      (hactive : s.active = some transaction) (hreceived : received s.log = some payload)
      (howner : transaction.owner = 0) (hwritten : transaction.upstreamWriteId = none)
      (hstep : transaction.step = .command)
      (hvalid : validateResponse transaction.descriptor payload transaction.command
        transaction.phase = .ok .complete) (herr : opcode payload ≠ respErr)
      (h : HandsOut transaction payload
        ({ s with active := none }.note (.replied payload s.now)) t) : Move s t
  /-- The pop that a failed epoch left behind takes its result. -/
  | drained {s t : Broker} {transaction : Transaction} {payload : Bytes}
      (hfailed : s.failed = true) (hdebt : s.responseDebt = some transaction)
      (hreceived : received s.log = some payload) (howner : transaction.owner = 0)
      (hvalid : validateResponse transaction.descriptor payload transaction.command
        transaction.phase = .ok .complete) (herr : opcode payload ≠ respErr)
      (h : HandsOut transaction payload s t) : Move s t

/-- An atomic action of the broker. -/
inductive Step : Broker → Broker → Prop
  | mk {s t : Broker} (h : Move s t) (report : Report) : Step s { t with report := report }

/-- A sequence of atomic actions. -/
abbrev Steps : Broker → Broker → Prop := ReflTransGen Step

/-- An atomic action, or the arrival of a call, or the passage of time. -/
inductive Act : Broker → Broker → Prop
  | step {s t : Broker} (h : Step s t) : Act s t
  | input {s : Broker} (event : Event) : Act s (s.note (.input event))
  | clock {s : Broker} {now : Time} (h : s.now ≤ now) : Act s { s with now := now }

/-- A sequence of atomic actions as time passes. -/
abbrev Acts : Broker → Broker → Prop := ReflTransGen Act

end Broker

end MeshCoreTCPMux

import MeshCoreTCPMux.Library.Hash
import MeshCoreTCPMux.Config
import MeshCoreTCPMux.Protocol.Responses

/-!
# Sessions, actions and events

The state of one downstream client, the side effects that the broker asks its runtime for, and the
calls that the runtime makes on the broker. A session's id is the key under which the broker holds
it; id 0 stands for the companion.
-/

namespace MeshCoreTCPMux

structure Command where
  payload : Bytes
  queuedAt : Time
  deriving DecidableEq, Repr

structure PendingSync where
  minimumPop : Nat
  deadline : Time
  deriving DecidableEq, Repr

structure WriteBudget where
  deadline : Time
  deriving DecidableEq, Repr

/-- `SET_FLOOD_SCOPE_KEY` with mode 0 and no key: the companion's default scope. -/
def defaultScope : Bytes := [Protocol.cmdSetFloodScopeKey, 0]

/-- One downstream client's command FIFO, inbox, protocol version, flood scope and outstanding write
budgets. -/
structure Session where
  dedicatedSlotId : Option Nat := none
  commands : List Command := []
  inbox : List Bytes := []
  writes : OrdMap Nat WriteBudget := ∅
  targetVersion : UInt8 := 0
  scope : Bytes := defaultScope
  sync : Option PendingSync := none
  availabilityHintWriteId : Option Nat := none

/-- Dedicated sessions consume their slot queue; multi-client sessions their own inbox. -/
def Session.dedicated (session : Session) : Bool := session.dedicatedSlotId.isSome

/-! ### Side effects -/

structure SendFrame where
  session : Nat
  epoch : Nat
  writeId : Nat
  payload : Bytes
  deriving DecidableEq, Repr

/-- The symbol that a diagnostic or a disconnection is filed under. -/
inductive Category
  | normal
  | debug
  | trace
  | warn
  | error
  | malformed
  deriving DecidableEq, Repr

inductive Action
  | sendFrame (frame : SendFrame)
  | closeSession (session : Nat) (reason : Text)
  | endEpoch (epoch : Nat) (reason : Text)
  | diagnostic (message : Text) (category : Category)
  deriving DecidableEq

/-- Every action but a diagnostic. -/
def Action.effect : Action → Bool
  | diagnostic _ _ => false
  | _ => true

/-! ### Transactions -/

/-- Hidden scope replies and maintenance result delivery have different owners and completion rules
from the client's ordinary command reply. -/
inductive Transaction.Step
  | command
  | setup
  | restore
  | maintenanceResult
  deriving DecidableEq, Repr

/-- `step.to_s.underscore`. -/
def Transaction.Step.name : Transaction.Step → String
  | command => "command"
  | setup => "setup"
  | restore => "restore"
  | maintenanceResult => "maintenance_result"

/-- The sole in-flight upstream command, its response grammar and its owner. -/
structure Transaction where
  owner : Nat
  command : Bytes
  descriptor : Protocol.CommandDescriptor
  started : Time
  progress : Time
  contactsStarted : Bool := false
  popSequence : Nat := 0
  notificationGeneration : Nat := 0
  hadMultiClient : Bool := false
  step : Transaction.Step := .command
  isScoped : Bool := false
  maintenance : Bool := false
  upstreamWriteId : Option Nat := none
  maintenanceWriteId : Option Nat := none
  jobId : Nat := 0
  responseFrames : Nat := 0
  deriving DecidableEq, Repr

/-- The phase of a contacts stream, as `validateResponse` counts it. -/
def Transaction.phase (transaction : Transaction) : Nat :=
  if transaction.contactsStarted then 1 else 0

/-! ### Events and history -/

/-- A call of the runtime on the broker. -/
inductive Event
  | admission (id : Nat) (dedicatedSlotId : Option Nat) (now : Time)
  | clientFrame (id : Nat) (payload : Bytes) (now : Time)
  | clientClosed (id : Nat) (now : Time) (reason : Text) (category : Category)
  | written (id epoch writeId : Nat) (now : Time)
  | writeFailed (id epoch : Nat) (reason : Text) (now : Time)
  | upstreamFrame (payload : Bytes) (now : Time)
  | tick (now : Time)
  | failEpoch (reason : Text)
  | drainUncertainFrame (payload : Bytes) (now : Time)
  deriving DecidableEq

/-- Why a frame was addressed to a client. -/
inductive Cause
  /-- A coalesced `MSG_WAITING`. -/
  | hint
  /-- A push copied to every session. -/
  | broadcast
  /-- A remote result for the owner of the lease it matches. -/
  | leaseResult
  /-- The companion's reply to the session's active command. -/
  | reply
  /-- An inbox item, before it is downgraded. -/
  | item (original : Bytes)
  /-- An answer of the broker itself. -/
  | answer
  deriving DecidableEq

/-- One entry of a broker's history. The history is a ghost: it records calls, effects and internal
decisions in the order in which they happen, and no function reads it. -/
inductive Note
  | input (event : Event)
  /-- A frame addressed to a client. -/
  | sent (frame : SendFrame) (cause : Cause)
  /-- A frame addressed to the companion, on behalf of `transaction` in its current step. -/
  | upstream (frame : SendFrame) (transaction : Transaction)
  | closed (id : Nat) (reason : Text)
  | ended (epoch : Nat) (reason : Text)
  | admitted (id : Nat) (dedicatedSlotId : Option Nat)
  /-- A client frame entered its session's command queue. -/
  | queued (id : Nat) (command : Command)
  /-- The head of a session's command queue was removed. -/
  | taken (id : Nat) (command : Command)
  /-- A sync started to wait; this authorises a drain. -/
  | synced (id : Nat) (sync : PendingSync)
  /-- A virtual scope update was acknowledged. -/
  | selected (id : Nat) (scope : Bytes)
  | dispatched (transaction : Transaction) (now : Time)
  /-- The active transaction took a reply. -/
  | replied (payload : Bytes) (now : Time)
  /-- A `SEND_CONFIRMED` settled its token. -/
  | confirmed (payload : Bytes)
  /-- A remote result was matched against the lease. -/
  | matched (payload : Bytes) (now : Time)
  /-- A popped item was discarded as a configured duplicate. -/
  | duplicate (item : Bytes)
  | popped (item : Bytes)
  /-- A popped item is held for the next multi-client session. -/
  | orphaned (item : Bytes)
  /-- A popped item reached a multi-client session. -/
  | offered (id : Nat) (item : Bytes)
  /-- A popped item reached a dedicated slot. -/
  | slotOffered (slot : Nat) (item : Bytes)
  /-- An item left the head of a dedicated slot's queue. -/
  | slotDelivered (slot : Nat) (item : Bytes)
  /-- An empty pop ended the drain cycle. -/
  | drained
  deriving DecidableEq

/-- Whether an entry is not a call. -/
def Note.internal : Note → Bool
  | .input _ => false
  | _ => true

/-- The effect that a history entry records. -/
def Note.effect : Note → Option Action
  | sent frame _ => some (.sendFrame frame)
  | upstream frame _ => some (.sendFrame frame)
  | closed id reason => some (.closeSession id reason)
  | ended epoch reason => some (.endEpoch epoch reason)
  | _ => none

end MeshCoreTCPMux

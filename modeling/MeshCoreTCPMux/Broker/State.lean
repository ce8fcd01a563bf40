import MeshCoreTCPMux.Session
import MeshCoreTCPMux.DedicatedClientSlot
import MeshCoreTCPMux.Leases

/-!
# The broker's state

`Broker` holds the fields of the source class. Three groups deserve a word.

* `radio` is the `CompanionRadioState`; the source's `@dm_ring`, `@remote` and
  `@received_message_deduplicator` are aliases of its parts.
* `report` collects what leaves the broker (the pending actions) and what only shapes diagnostics
  (the counters and the rate limits). Nothing outside diagnostics depends on it.
* `log` is the ghost history.

A method that may raise is a program over this state; what it wrote before it raised stays written,
as in the source.
-/

namespace MeshCoreTCPMux

/-- Pending actions, counters and the rate limits of diagnostics. -/
structure Report where
  actions : List Action := []
  counters : OrdMap String Nat := ∅
  lastUnknownLog : Option Time := none
  lastOrphanLog : Option Time := none
  lastDedicatedOverflowLog : OrdMap Nat Time := ∅
  suppressedDedicatedOverflow : OrdMap Nat Nat := ∅

structure Broker where
  epoch : Nat
  selfKey : Bytes
  config : Config
  sessions : OrdMap Nat Session := ∅
  active : Option Transaction := none
  responseDebt : Option Transaction := none
  failed : Bool := false
  orphan : Option Bytes := none
  dedicatedSlots : OrdMap Nat DedicatedClientSlot := ∅
  radio : CompanionRadioState := {}
  order : List Nat := [0]
  nextWrite : Nat := 0
  upstreamWrites : OrdMap Nat Time := ∅
  popSequence : Nat := 0
  notificationGeneration : Nat := 0
  drainRequested : Bool := false
  drainAuthorized : Bool := false
  lastPoll : Time
  now : Time := 0
  signing : SigningLease
  report : Report := {}
  log : List Note := []

abbrev BrokerM := EStateM Error Broker

namespace Broker

/-- `Broker.new`. -/
def new (epoch : Nat) (selfKey : Bytes) (config : Config) (now : Time) (orphan : Option Bytes)
    (dedicatedSlots : OrdMap Nat DedicatedClientSlot) (radio : CompanionRadioState) : Broker where
  epoch := epoch
  selfKey := selfKey
  config := config
  orphan := orphan
  dedicatedSlots := dedicatedSlots
  radio := radio
  lastPoll := now
  signing := { inactivityTimeout := config.signingTimeout }

/-- Transfer pending effects to the runtime and start a fresh batch. -/
def takeActions (s : Broker) : List Action × Broker :=
  (s.report.actions, { s with report := { s.report with actions := [] } })

/-- Append a history entry, and the action that it records if it records one. -/
def record (s : Broker) (n : Note) : Broker :=
  { s with
    report := { s.report with actions := s.report.actions ++ n.effect.toList }
    log := s.log ++ [n] }

/-- The owner of the active transaction. -/
def activeOwner (s : Broker) : Option Nat := s.active.map (·.owner)

/-- `@active.try(&.maintenance)`. -/
def underMaintenance (s : Broker) : Bool := s.active.any (·.maintenance)

/-- The queue that a session consumes: its slot's if it is dedicated, its own otherwise. `none`
stands for a dedicated session whose slot does not exist. -/
def inboxFor? (s : Broker) (session : Session) : Option (List Bytes) :=
  match session.dedicatedSlotId with
  | none => some session.inbox
  | some slotId => (s.dedicatedSlots.find? slotId).map (·.offlineQueue)

/-- The live multi-client sessions, in admission order. -/
def multiClients (s : Broker) : List Nat :=
  (s.sessions.entries.filter fun e => !e.2.dedicated).map Prod.fst

end Broker

/-! ### Elementary programs -/

section Programs

open Broker

/-- Lift a computation that raises without touching the state. -/
def ofExcept {α : Type} (x : Except Error α) : BrokerM α :=
  match x with
  | .ok a => pure a
  | .error e => throw e

def perform (n : Note) : BrokerM Unit := modify (·.record n)

def diagnostic (message : Text) (category : Category := .normal) : BrokerM Unit :=
  modify fun s => { s with
    report := { s.report with
      actions := s.report.actions ++ [.diagnostic message category] } }

/-- `@counters[name] += amount`. -/
def count (name : String) (amount : Nat := 1) : BrokerM Unit :=
  modify fun s => { s with
    report := { s.report with
      counters := s.report.counters.insert name
        ((s.report.counters.find? name).getD 0 + amount) } }

def modifySession (id : Nat) (f : Session → Session) : BrokerM Unit :=
  modify fun s => { s with sessions := s.sessions.modify id f }

def modifySlot (slotId : Nat) (f : DedicatedClientSlot → DedicatedClientSlot) : BrokerM Unit :=
  modify fun s => { s with dedicatedSlots := s.dedicatedSlots.modify slotId f }

def modifyActive (f : Transaction → Transaction) : BrokerM Unit :=
  modify fun s => { s with active := s.active.map f }

def modifyDebt (f : Transaction → Transaction) : BrokerM Unit :=
  modify fun s => { s with responseDebt := s.responseDebt.map f }

def setRemote (remote : RemoteLease) : BrokerM Unit :=
  modify fun s => { s with radio := { s.radio with remote := remote } }

def setSigning (signing : SigningLease) : BrokerM Unit := modify fun s => { s with signing := signing }

/-- A mutating predicate of the radio state. -/
def quarantined (now : Time) : BrokerM Bool :=
  modifyGet fun s =>
    let (answer, radio) := s.radio.quarantined now
    (answer, { s with radio := radio })

def remoteOccupied (now : Time) : BrokerM Bool :=
  modifyGet fun s =>
    let (answer, remote) := RemoteLease.occupied s.radio.remote now
    (answer, { s with radio := { s.radio with remote := remote } })

def signingOccupied (now : Time) : BrokerM Bool :=
  modifyGet fun s =>
    let (answer, signing) := s.signing.occupied now
    (answer, { s with signing := signing })

end Programs

end MeshCoreTCPMux

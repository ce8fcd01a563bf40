import MeshCoreTCPMux.Library.Lockstep
import MeshCoreTCPMux.Protocol.CliBodies
import MeshCoreTCPMux.Broker.Events

/-!
# Changing the CLI bodies in a broker

A `BodyMap` acts on whatever holds frames: on the events that come in, on the state and on the
actions that go out. A program commutes with it (`Commutes`) when it does, on changed frames, what it
does on the frames as they are.
-/

namespace MeshCoreTCPMux

open Protocol Program

namespace BodyMap

variable (f : BodyMap)

/-! ### The action on values -/

def piece : Piece → Piece
  | .command payload includePayload => .command (f.command payload) includePayload
  | .response payload includePayload => .response (f.response payload) includePayload
  | piece => piece

def text (message : Text) : Text := message.map f.piece

def error : Error → Error
  | .protocol message => .protocol (f.text message)
  | .argument message => .argument (f.text message)
  | .invalidState message => .invalidState (f.text message)
  | e => e

def queued (command : Command) : Command := { command with payload := f.command command.payload }

def session (x : Session) : Session :=
  { x with
    commands := x.commands.map f.queued
    inbox := x.inbox.map f.response
    scope := f.command x.scope }

def slot (x : DedicatedClientSlot) : DedicatedClientSlot :=
  { x with offlineQueue := x.offlineQueue.map f.response }

def transaction (x : Transaction) : Transaction := { x with command := f.command x.command }

def remote (lease : RemoteLease) : RemoteLease :=
  lease.map fun r => { r with command := f.command r.command }

def radio (x : CompanionRadioState) : CompanionRadioState := { x with remote := f.remote x.remote }

/-- Frames to session 0 are commands, all others are replies. -/
def sendFrame (frame : SendFrame) : SendFrame :=
  { frame with
    payload := if frame.session = 0 then f.command frame.payload else f.response frame.payload }

def action : Action → Action
  | .sendFrame frame => .sendFrame (f.sendFrame frame)
  | .closeSession id reason => .closeSession id (f.text reason)
  | .endEpoch epoch reason => .endEpoch epoch (f.text reason)
  | .diagnostic message category => .diagnostic (f.text message) category

def event : Event → Event
  | .clientFrame id payload now => .clientFrame id (f.command payload) now
  | .clientClosed id now reason category => .clientClosed id now (f.text reason) category
  | .writeFailed id epoch reason now => .writeFailed id epoch (f.text reason) now
  | .upstreamFrame payload now => .upstreamFrame (f.response payload) now
  | .failEpoch reason => .failEpoch (f.text reason)
  | .drainUncertainFrame payload now => .drainUncertainFrame (f.response payload) now
  | e => e

def cause : Cause → Cause
  | .item original => .item (f.response original)
  | c => c

def note : Note → Note
  | .input event => .input (f.event event)
  | .sent frame cause => .sent (f.sendFrame frame) (f.cause cause)
  | .upstream frame transaction => .upstream (f.sendFrame frame) (f.transaction transaction)
  | .closed id reason => .closed id (f.text reason)
  | .ended epoch reason => .ended epoch (f.text reason)
  | .queued id command => .queued id (f.queued command)
  | .taken id command => .taken id (f.queued command)
  | .selected id scope => .selected id (f.command scope)
  | .dispatched transaction now => .dispatched (f.transaction transaction) now
  | .replied payload now => .replied (f.response payload) now
  | .confirmed payload => .confirmed (f.response payload)
  | .matched payload now => .matched (f.response payload) now
  | .duplicate item => .duplicate (f.response item)
  | .popped item => .popped (f.response item)
  | .orphaned item => .orphaned (f.response item)
  | .offered id item => .offered id (f.response item)
  | .slotOffered slot item => .slotOffered slot (f.response item)
  | .slotDelivered slot item => .slotDelivered slot (f.response item)
  | n => n

def broker (s : Broker) : Broker :=
  { s with
    sessions := s.sessions.mapValues f.session
    active := s.active.map f.transaction
    responseDebt := s.responseDebt.map f.transaction
    orphan := s.orphan.map f.response
    dedicatedSlots := s.dedicatedSlots.mapValues f.slot
    radio := f.radio s.radio
    report := { s.report with actions := s.report.actions.map f.action }
    log := s.log.map f.note }

/-- What a computation that may raise does to changed frames. -/
def outcome {α β : Type} (v : α → β) : Except Error α → Except Error β
  | .ok a => .ok (v a)
  | .error e => .error (f.error e)

/-- A computation whose complaints quote no frame. -/
def Plain {α : Type} (x : Except Error α) : Prop := f.outcome id x = x

namespace Plain
variable {f} {α β γ : Type} {x : Except Error α}

theorem ok (a : α) : f.Plain (.ok a : Except Error α) := rfl

theorem error {e : Error} (h : f.error e = e) : f.Plain (.error e : Except Error α) :=
  congrArg Except.error h

theorem bind {k : α → Except Error β} (hx : f.Plain x) (hk : ∀ a, f.Plain (k a)) :
    f.Plain (x >>= k) := by
  cases x with
  | ok a => exact hk a
  | error e => exact error (Except.error.inj hx)

theorem ite {c : Prop} [Decidable c] {x y : Except Error α} (hx : f.Plain x) (hy : f.Plain y) :
    f.Plain (if c then x else y) := by
  split
  · exact hx
  · exact hy

/-- The frames in the result come from what is computed last. -/
theorem outcome_bind {k : α → Except Error β} {v : β → γ} (hx : f.Plain x) :
    f.outcome v (x >>= k) = x >>= fun a => f.outcome v (k a) := by
  cases x with
  | ok a => rfl
  | error e => exact congrArg Except.error (Except.error.inj hx)

end Plain

/-! ### Reading changed values -/

section Lemmas
variable {f}

@[simp] theorem text_append (a b : Text) : f.text (a ++ b) = f.text a ++ f.text b := List.map_append

@[simp] theorem text_inspected (a : Text) : f.text (inspected a) = inspected (f.text a) := by
  simp [inspected, text, piece]

@[simp] theorem text_joined (parts : List Text) :
    f.text (joined parts) = joined (parts.map f.text) :=
  List.map_flatten

@[simp] theorem text_counterSummary (s : Broker) : f.text (counterSummary s) = counterSummary s := by
  simp only [text, counterSummary, List.map_flatMap]
  rfl

variable (s : Broker)

@[simp] theorem sessions_broker : (f.broker s).sessions = s.sessions.mapValues f.session := rfl

@[simp] theorem active_broker : (f.broker s).active = s.active.map f.transaction := rfl

@[simp] theorem responseDebt_broker :
    (f.broker s).responseDebt = s.responseDebt.map f.transaction := rfl

@[simp] theorem orphan_broker : (f.broker s).orphan = s.orphan.map f.response := rfl

@[simp] theorem dedicatedSlots_broker :
    (f.broker s).dedicatedSlots = s.dedicatedSlots.mapValues f.slot := rfl

@[simp] theorem radio_broker : (f.broker s).radio = f.radio s.radio := rfl

@[simp] theorem remote_radio (x : CompanionRadioState) : (f.radio x).remote = f.remote x.remote :=
  rfl

theorem effect_note (n : Note) : (f.note n).effect = n.effect.map f.action := by
  cases n <;> rfl

@[simp] theorem activeOwner_broker : (f.broker s).activeOwner = s.activeOwner := by
  simp only [Broker.activeOwner, broker, Option.map_map]
  rfl

@[simp] theorem underMaintenance_broker :
    (f.broker s).underMaintenance = s.underMaintenance := by
  simp only [Broker.underMaintenance, broker, Option.any_map]
  rfl

@[simp] theorem inboxFor?_broker (x : Session) :
    (f.broker s).inboxFor? (f.session x) = (s.inboxFor? x).map (List.map f.response) := by
  have hslot : (f.session x).dedicatedSlotId = x.dedicatedSlotId := rfl
  unfold Broker.inboxFor?
  rw [hslot]
  cases x.dedicatedSlotId with
  | none => rfl
  | some slotId =>
    simp only [broker, OrdMap.find?_mapValues, Option.map_map]
    rfl

@[simp] theorem multiClients_broker : (f.broker s).multiClients = s.multiClients := by
  simp only [Broker.multiClients, broker, OrdMap.mapValues, List.filter_map, List.map_map]
  rfl

theorem record_broker (n : Note) :
    f.broker (s.record n) = (f.broker s).record (f.note n) := by
  simp [broker, Broker.record, effect_note]
  cases n.effect <;> rfl

end Lemmas

/-! ### Programs that commute -/

end BodyMap

/-- A transaction is described by the descriptor of its command. -/
def Transaction.Described (transaction : Transaction) : Prop :=
  Protocol.descriptor transaction.command = some transaction.descriptor

/-- Session 0 is the companion, and transactions carry their own descriptors. -/
structure Broker.Described (s : Broker) : Prop where
  positive : 0 ∉ s.sessions.keys
  active : ∀ transaction, s.active = some transaction → transaction.Described
  debt : ∀ transaction, s.responseDebt = some transaction → transaction.Described

theorem Broker.Described.idle {s : Broker} (h : s.Described) :
    { s with active := none }.Described :=
  ⟨h.positive, fun _ hactive => (nomatch hactive), h.debt⟩

namespace BodyMap

variable (f : BodyMap) {α β : Type}

/-- `m'` does on changed frames what `m` does; `v` changes the frames that it returns. -/
abbrev Commutes (v : α → β) (m : BrokerM α) (m' : BrokerM β) : Prop :=
  Lockstep Broker.Described f.broker f.error v m m'

variable {f}

theorem commutes_ofExcept {v : α → β} {x : Except Error α} {x' : Except Error β}
    (h : x' = f.outcome v x) : f.Commutes v (ofExcept x) (ofExcept x') := by
  subst h
  cases x with
  | ok a => exact .pure rfl
  | error e => exact .throw rfl

/-- A change of the state that leaves the sessions' ids, the active transaction and the debt alone. -/
theorem commutes_modify {g g' : Broker → Broker} (hg : ∀ s, f.broker (g s) = g' (f.broker s))
    (hkeys : ∀ s, (g s).sessions.keys = s.sessions.keys) (hactive : ∀ s, (g s).active = s.active)
    (hdebt : ∀ s, (g s).responseDebt = s.responseDebt) :
    f.Commutes id (modify g : BrokerM PUnit) (modify g') :=
  .modify (fun s _ => hg s) fun s hs =>
    ⟨by rw [hkeys]; exact hs.positive, by rw [hactive]; exact hs.active,
      by rw [hdebt]; exact hs.debt⟩

theorem commutes_perform {n n' : Note} (h : f.note n = n') :
    f.Commutes id (perform n) (perform n') := by
  subst h
  exact commutes_modify (fun s => record_broker s n) (fun _ => rfl) (fun _ => rfl) fun _ => rfl

theorem commutes_diagnostic {message message' : Text} {category : Category}
    (h : f.text message = message') :
    f.Commutes id (diagnostic message category) (diagnostic message' category) := by
  subst h
  refine commutes_modify (fun s => ?_) (fun _ => rfl) (fun _ => rfl) fun _ => rfl
  simp [broker, action]

theorem commutes_count (name : String) (amount : Nat) :
    f.Commutes id (count name amount) (count name amount) :=
  commutes_modify (fun _ => rfl) (fun _ => rfl) (fun _ => rfl) fun _ => rfl

theorem commutes_modifySession (key : Nat) {g g' : Session → Session}
    (h : ∀ x, f.session (g x) = g' (f.session x)) :
    f.Commutes id (modifySession key g) (modifySession key g') := by
  refine commutes_modify (fun s => ?_) (fun s => ?_) (fun _ => rfl) fun _ => rfl
  · simp only [broker, OrdMap.mapValues_modify s.sessions f.session key h]
  · exact OrdMap.keys_modify ..

theorem commutes_modifySlot (slotId : Nat) {g g' : DedicatedClientSlot → DedicatedClientSlot}
    (h : ∀ x, f.slot (g x) = g' (f.slot x)) :
    f.Commutes id (modifySlot slotId g) (modifySlot slotId g') := by
  refine commutes_modify (fun s => ?_) (fun _ => rfl) (fun _ => rfl) fun _ => rfl
  simp only [broker, OrdMap.mapValues_modify s.dedicatedSlots f.slot slotId h]

theorem commutes_modifyActive {g g' : Transaction → Transaction}
    (h : ∀ x, f.transaction (g x) = g' (f.transaction x))
    (hg : ∀ x, x.Described → (g x).Described) :
    f.Commutes id (modifyActive g) (modifyActive g') := by
  refine .modify (fun s _ => ?_) fun s hs => ⟨hs.positive, fun transaction ht => ?_, hs.debt⟩
  · cases hactive : s.active with
    | none => simp [broker, hactive]
    | some transaction => simp [broker, hactive, h]
  · obtain ⟨x, hx, rfl⟩ := Option.map_eq_some_iff.mp ht
    exact hg x (hs.active x hx)

theorem commutes_modifyDebt {g g' : Transaction → Transaction}
    (h : ∀ x, f.transaction (g x) = g' (f.transaction x))
    (hg : ∀ x, x.Described → (g x).Described) :
    f.Commutes id (modifyDebt g) (modifyDebt g') := by
  refine .modify (fun s _ => ?_) fun s hs => ⟨hs.positive, hs.active, fun transaction ht => ?_⟩
  · cases hdebt : s.responseDebt with
    | none => simp [broker, hdebt]
    | some transaction => simp [broker, hdebt, h]
  · obtain ⟨x, hx, rfl⟩ := Option.map_eq_some_iff.mp ht
    exact hg x (hs.debt x hx)

theorem commutes_setRemote {lease lease' : RemoteLease} (h : f.remote lease = lease') :
    f.Commutes id (setRemote lease) (setRemote lease') := by
  subst h
  exact commutes_modify (fun _ => rfl) (fun _ => rfl) (fun _ => rfl) fun _ => rfl

theorem commutes_setSigning (signing : SigningLease) :
    f.Commutes id (setSigning signing) (setSigning signing) :=
  commutes_modify (fun _ => rfl) (fun _ => rfl) (fun _ => rfl) fun _ => rfl

end BodyMap

end MeshCoreTCPMux

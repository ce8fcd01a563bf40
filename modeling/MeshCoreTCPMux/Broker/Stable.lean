import MeshCoreTCPMux.Library.Within
import MeshCoreTCPMux.Errors
import MeshCoreTCPMux.Broker.Run

/-!
# Relations that the broker's programs respect

The atomic actions say what a run does, but not in which order one call does it: that a session gets
a hint as soon as its inbox fills, or that the rotation passes nobody who could go. Such facts are
relations between the states before and after a program. Every program of the broker stays within a
relation that admits the elementary changes (`Elementary`), the programs that fill inboxes
(`Stable`), and the turns of the schedule (`StableTurns`).
-/

namespace MeshCoreTCPMux

open Protocol Program

/-- A frame that is neither a hint nor an inbox item. -/
def Cause.plain : Cause → Bool
  | hint | item _ => false
  | _ => true

/-- An entry at which no session comes, goes or is offered anything, and no command moves. -/
def Note.plain : Note → Bool
  | upstream _ _ | queued _ _ | selected _ _ | replied _ _ | confirmed _ | matched _ _ | duplicate _
  | popped _ | orphaned _ | drained => true
  | _ => false

/-- A change that concerns neither what a session is to do nor what it is to receive. -/
structure Session.Aside (x y : Session) : Prop where
  dedicatedSlotId : y.dedicatedSlotId = x.dedicatedSlotId
  commands : y.commands = x.commands
  inbox : y.inbox = x.inbox
  availabilityHintWriteId : y.availabilityHintWriteId = x.availabilityHintWriteId
  sync : x.sync = none → y.sync = none

namespace Broker

/-- A program stays within a relation. Nothing that it raises reads like a timeout. -/
abbrev Stays {α : Type} (R : Broker → Broker → Prop) (m : BrokerM α) : Prop :=
  Within Error.Ordinary R m

/-- What holds of the state that a program leaves, whether it returns or raises. -/
abbrev Leaves {α : Type} (m : BrokerM α) (Q : Broker → Prop) (s : Broker) : Prop :=
  wp m (fun _ t => Q t) (fun e t => e.Ordinary ∧ Q t) s

/-! ### Elementary changes -/

structure Elementary (R : Broker → Broker → Prop) : Prop where
  report : ∀ s report, R s { s with report := report }
  clock : ∀ s now, R s { s with now := now }
  polled : ∀ s now, R s { s with lastPoll := now }
  radio : ∀ s radio, R s { s with radio := radio }
  signing : ∀ s signing, R s { s with signing := signing }
  drain : ∀ s popSequence generation requested authorized, R s { s with
    popSequence := popSequence
    notificationGeneration := generation
    drainRequested := requested
    drainAuthorized := authorized }
  active : ∀ s active, R s { s with active := active }
  debt : ∀ s debt, R s { s with responseDebt := debt }
  upstream : ∀ s nextWrite writes, R s { s with nextWrite := nextWrite, upstreamWrites := writes }
  failed : ∀ s, R s { s with failed := true }
  orphan : ∀ s item, validateResponseShape item = .ok () → R s { s with orphan := some item }
  session : ∀ s id f, (∀ x, Session.Aside x (f x)) →
    R s { s with sessions := s.sessions.modify id f }
  queue : ∀ s id command, R s { s with
    sessions := s.sessions.modify id fun x => { x with commands := x.commands ++ [command] } }
  note : ∀ s (n : Note), n.plain = true → R s (s.record n)
  ended : ∀ s reason, ¬ IsTimeout reason → R s (s.record (.ended s.epoch reason))
  send : ∀ s id payload (cause : Cause), cause.plain = true → R s (s.send id payload cause)
  drop : ∀ s id session reason, s.sessions.find? id = some session → R s (s.drop id session reason)

/-- Output reaches a client with room, and removes one without. -/
theorem wp_emit {s : Broker} {id : Nat} {payload : Bytes} {cause : Cause}
    {Q : Option Nat → Broker → Prop} {E : Error → Broker → Prop}
    (hgone : s.sessions.find? id = none → Q none s)
    (hfull : ∀ session, s.sessions.find? id = some session → ¬ s.Room session →
      wp (remove id ["output queue overflow"]) (fun _ t => Q none t) E s)
    (hsent : ∀ session, s.sessions.find? id = some session → s.Room session → ∀ report,
      Q (some (s.nextWrite + 1)) { s.send id payload cause with report := report }) :
    wp (emit id payload cause) Q E s := by
  unfold emit
  rw [wp_bind, wp_get]
  split
  · next hlive => exact hgone hlive
  next session hlive =>
    rw [wp_ite]
    split
    · next hlimit =>
      rw [wp_bind]
      exact hfull session hlive (Nat.not_lt.mpr hlimit)
    · next hlimit => exact hsent session hlive (Nat.lt_of_not_le hlimit) _

variable {R : Broker → Broker → Prop} {α β : Type} {payload : Bytes}

namespace Stays

variable [IsPreorder Broker R] {x : Except Error α}

theorem ofExcept (hx : x.Raises Error.Ordinary) : Stays R (ofExcept x) := by
  cases x with
  | ok a => exact .pure a
  | error e => exact .throw (hx e rfl)

/-- What follows a computation may rely on its result. -/
theorem ofExcept_bind {f : α → BrokerM β} (hx : x.Raises Error.Ordinary)
    (hf : ∀ a, x = .ok a → Stays R (f a)) : Stays R (MeshCoreTCPMux.ofExcept x >>= f) := by
  cases x with
  | ok a => exact hf a rfl
  | error e => exact fun s => ⟨hx e rfl, refl_of R s⟩

theorem selfTelemetryReply (payload : Bytes) : Stays R (selfTelemetryReply payload) := by
  unfold MeshCoreTCPMux.selfTelemetryReply
  refine .get_bind fun s => ?_
  split
  · exact .pure _
  · exact .ite (fun _ => (ofExcept (Ordinary.sliceAt _ _ _)).bind fun _ => .get_bind fun _ =>
      (ofExcept (Ordinary.sliceAt _ _ _)).bind fun _ => .pure _) fun _ => .pure _

end Stays

namespace Elementary

variable (h : Elementary R)

include h

/-! ### Elementary programs -/

theorem perform {n : Note} (hn : n.plain = true) : Stays R (perform n) :=
  .modify fun s => h.note s n hn

theorem diagnostic (message : Text) (category : Category) :
    Stays R (diagnostic message category) := .modify fun s => h.report s _

theorem count (name : String) (amount : Nat) : Stays R (count name amount) :=
  .modify fun s => h.report s _

theorem setRemote (remote : RemoteLease) : Stays R (setRemote remote) :=
  .modify fun s => h.radio s _

theorem setSigning (signing : SigningLease) : Stays R (setSigning signing) :=
  .modify fun s => h.signing s _

theorem modifyActive (f : Transaction → Transaction) : Stays R (modifyActive f) :=
  .modify fun s => h.active s _

theorem modifyDebt (f : Transaction → Transaction) : Stays R (modifyDebt f) :=
  .modify fun s => h.debt s _

theorem modifySession (id : Nat) {f : Session → Session} (hf : ∀ x, Session.Aside x (f x)) :
    Stays R (modifySession id f) := .modify fun s => h.session s id f hf

theorem endSync (id : Nat) :
    Stays R (MeshCoreTCPMux.modifySession id fun x => { x with sync := none }) :=
  h.modifySession id fun _ => ⟨rfl, rfl, rfl, rfl, fun _ => rfl⟩

theorem quarantined (now : Time) : Stays R (quarantined now) := .modifyGet fun s => h.radio s _

theorem remoteOccupied (now : Time) : Stays R (remoteOccupied now) :=
  .modifyGet fun s => h.radio s _

theorem signingOccupied (now : Time) : Stays R (signingOccupied now) :=
  .modifyGet fun s => h.signing s _

variable [IsPreorder Broker R]

theorem isDuplicate (payload : Bytes) : Stays R (isDuplicate payload) := by
  refine .modifyGet fun s => ?_
  split
  · exact h.radio s _
  · exact refl_of R s

/-! ### Output -/

theorem removeWith {finish : Transaction → BrokerM Unit}
    (hfinish : ∀ transaction, Stays R (finish transaction)) (id : Nat) (reason : Text)
    (category : Category) : Stays R (removeWith finish id reason category) := by
  intro s
  cases hlive : s.sessions.find? id with
  | none =>
    unfold MeshCoreTCPMux.removeWith
    rw [wp_bind, wp_get, hlive]
    exact refl_of R s
  | some session =>
    have hdrop : ∀ report, R s { s.drop id session reason with report := report } := fun report =>
      trans_of R (h.drop s id session reason hlive) (h.report _ report)
    exact wp_removeWith hlive (fun _ report => hdrop report) fun _ transaction _ _ _ report =>
      (hfinish transaction).ends fun ht => trans_of R (hdrop report) ht

theorem finishWith {fail : Text → BrokerM Unit} (hfail : Stays R (fail maintenanceReason))
    (transaction : Transaction) : Stays R (finishWith fail transaction) := by
  unfold MeshCoreTCPMux.finishWith
  exact (Within.modify fun s => h.active s _).bind fun _ =>
    (Within.modify fun s => h.signing s _).bind fun _ => .ite (fun _ => hfail) fun _ => .pure _

/-- The end of an epoch, for a relation that admits the entry of its reason. -/
theorem failEpoch_of {reason : Text} (hended : ∀ s, R s (s.record (.ended s.epoch reason))) :
    Stays R (failEpoch reason) := by
  have hleave : ∀ id, Stays R (removeFailed id) := fun id =>
    h.removeWith (h.finishWith (.pure _)) id _ _
  have hend : Stays R (do
      MeshCoreTCPMux.perform (.ended (← get).epoch reason)) := fun s => hended s
  have huncertain : Stays R preserveRadioUncertainty := fun s =>
    wp_preserveRadioUncertainty fun report =>
      trans_of R (h.radio s s.failingRadio) (h.report _ report)
  unfold MeshCoreTCPMux.failEpoch
  refine .get_bind fun s => .ite (fun _ => .pure _) fun _ => huncertain.bind fun _ =>
    (Within.modify fun s => h.debt s _).bind fun _ => (Within.modify fun s => h.failed s).bind
    fun _ => .get_bind fun _ => (h.diagnostic _ _).bind fun _ => .get_bind fun _ =>
    (Within.forM fun id _ => hleave id).bind fun _ => .bind (.modify fun s => ?_) fun _ =>
    .get_bind fun _ => .get_bind fun _ => (h.diagnostic _ _).bind fun _ => hend
  exact trans_of R (h.active s none) (h.upstream _ s.nextWrite ∅)

theorem failEpoch {reason : Text} (hreason : ¬ IsTimeout reason) : Stays R (failEpoch reason) :=
  h.failEpoch_of fun s => h.ended s reason hreason

/-- The check of the deadline, for a relation that admits every end. -/
theorem checkActiveDeadline (hended : ∀ s reason, R s (s.record (.ended s.epoch reason)))
    (now : Time) : Stays R (checkActiveDeadline now) := by
  unfold MeshCoreTCPMux.checkActiveDeadline
  refine .get_bind fun s => ?_
  split
  · exact .pure _
  · exact .ite (fun _ => .pure _) fun _ => .ite (fun _ => (Within.modify fun s => h.debt s _).bind
      fun _ => (h.failEpoch_of fun s => hended s _).bind fun _ => .pure _) fun _ => .pure _

theorem finishTransaction (transaction : Transaction) : Stays R (finishTransaction transaction) :=
  h.finishWith (h.failEpoch (by decide)) transaction

theorem remove (id : Nat) (reason : Text) (category : Category) :
    Stays R (remove id reason category) := h.removeWith h.finishTransaction id reason category

theorem emit (id : Nat) (payload : Bytes) {cause : Cause} (hcause : cause.plain = true) :
    Stays R (emit id payload cause) := fun s =>
  wp_emit (fun _ => refl_of R s) (fun _ _ _ => h.remove id _ .normal s) fun _ _ _ _ =>
    trans_of R (h.send s id payload cause hcause) (h.report _ _)

theorem reject (id : Nat) (reason : UInt8) (detail : Text) :
    Stays R (reject id reason detail) := by
  unfold MeshCoreTCPMux.reject
  exact (h.count _ _).bind fun _ => .get_bind fun _ => (h.diagnostic _ _).bind fun _ =>
    (h.emit _ _ rfl).bind fun _ => .pure _

end Elementary

/-! ### The virtual inbox -/

/-- An elementary relation that also admits the programs that fill inboxes. -/
structure Stable (R : Broker → Broker → Prop) : Prop extends Elementary R where
  emitAvailabilityHint : ∀ id, Stays R (emitAvailabilityHint id)
  enqueueMultiClient : ∀ payload id, validateResponseShape payload = .ok () →
    Stays R (enqueueMultiClient payload id)
  offerSlot : ∀ payload slotId, validateResponseShape payload = .ok () →
    Stays R (MeshCoreTCPMux.offerSlot payload slotId)

/-- An elementary relation that admits whatever happens to an inbox. -/
structure Filling (R : Broker → Broker → Prop) : Prop extends Elementary R where
  output : ∀ s id payload cause, R s (s.send id payload cause)
  inbox : ∀ s id f, (∀ x : Session, (f x).commands = x.commands ∧ (x.sync = none → (f x).sync = none)) →
    R s { s with sessions := s.sessions.modify id f }
  slot : ∀ s slotId f, R s { s with dedicatedSlots := s.dedicatedSlots.modify slotId f }
  offered : ∀ s id item, R s (s.record (.offered id item))
  slotOffered : ∀ s slotId item, R s (s.record (.slotOffered slotId item))
  slotDelivered : ∀ s slotId item, R s (s.record (.slotDelivered slotId item))

namespace Filling

variable [IsPreorder Broker R] (h : Filling R)

include h

theorem emit (id : Nat) (payload : Bytes) (cause : Cause) :
    Stays R (MeshCoreTCPMux.emit id payload cause) := fun s =>
  wp_emit (fun _ => refl_of R s) (fun _ _ _ => h.remove id _ .normal s) fun _ _ _ _ =>
    trans_of R (h.output s id payload cause) (h.report _ _)

theorem emitAvailabilityHint (id : Nat) : Stays R (emitAvailabilityHint id) := by
  unfold MeshCoreTCPMux.emitAvailabilityHint
  refine .get_bind fun s => ?_
  split
  · exact .pure _
  · exact .ite (fun _ => (h.emit id _ _).bind fun _ => .modify fun s => h.inbox s id _ fun _ =>
      ⟨rfl, fun hsync => hsync⟩) fun _ => .pure _

theorem deliverItem (id : Nat) : Stays R (deliverItem id) := by
  unfold MeshCoreTCPMux.deliverItem
  refine .get_bind fun s => ?_
  split
  · exact .pure _
  split
  · exact .throw trivial
  · exact .throw trivial
  refine (Stays.ofExcept (Ordinary.downgradeInbox _ _)).bind fun _ => (h.emit _ _ _).bind fun _ =>
    .ite (fun _ => ?_) fun _ => .pure _
  split
  · exact .modify fun s => h.inbox s id _ fun _ => ⟨rfl, fun hsync => hsync⟩
  · exact (Within.modify fun s => h.slot s _ _).bind fun _ => .modify fun s => h.slotDelivered s _ _

theorem enqueueMultiClient (payload : Bytes) (id : Nat) :
    Stays R (enqueueMultiClient payload id) := by
  unfold MeshCoreTCPMux.enqueueMultiClient
  refine .get_bind fun s => ?_
  split
  · exact .pure _
  refine .ite (fun _ => h.remove _ _ _) fun _ => .bind (.modify fun s => ?_) fun _ =>
    .bind (.modify fun s => h.offered s _ _) fun _ => .ite (fun _ => (h.endSync id).bind fun _ =>
    h.deliverItem id) fun _ => .ite (fun _ => h.emitAvailabilityHint id) fun _ => .pure _
  exact h.inbox s id _ fun _ => ⟨rfl, fun hsync => hsync⟩

theorem notifySlot (attached : Option Nat) (wasEmpty : Bool) :
    Stays R (notifySlot attached wasEmpty) := by
  unfold MeshCoreTCPMux.notifySlot
  cases attached with
  | none => exact .pure _
  | some id =>
    refine .get_bind fun s => ?_
    split
    · exact .pure _
    · exact .ite (fun _ => (h.endSync id).bind fun _ => h.deliverItem id) fun _ => .ite
        (fun _ => h.emitAvailabilityHint id) fun _ => .pure _

theorem offerSlot (payload : Bytes) (slotId : Nat) :
    Stays R (MeshCoreTCPMux.offerSlot payload slotId) := by
  have hwarn : ∀ event, Stays R (warnDedicatedOverflow slotId event) := by
    intro event
    unfold warnDedicatedOverflow
    exact .get_bind fun _ => .ite (fun _ => .modify fun s => h.report s _) fun _ =>
      (Within.modify fun s => h.report s _).bind fun _ => h.diagnostic _ _
  unfold MeshCoreTCPMux.offerSlot
  refine .get_bind fun s => ?_
  split
  · exact .pure _
  refine .bind (.modify fun s => h.slot s _ _) fun _ => .bind (.modify fun s =>
    h.slotOffered s _ _) fun _ => ?_
  have hnotify : ∀ (c : Prop) [Decidable c] (message : Text) (attached : Option Nat)
      (wasEmpty : Bool), Stays R (do
        if c then MeshCoreTCPMux.diagnostic message .debug
        MeshCoreTCPMux.notifySlot attached wasEmpty) := by
    intro c _ message attached wasEmpty
    exact .ite (fun _ => (h.diagnostic _ _).bind fun _ => h.notifySlot _ _) fun _ =>
      h.notifySlot _ _
  split
  · exact hwarn _
  · exact .ite (fun _ => (hwarn _).bind fun _ => hnotify _ _ _ _) fun _ => hnotify _ _ _ _
  · exact .ite (fun _ => (hwarn _).bind fun _ => hnotify _ _ _ _) fun _ => hnotify _ _ _ _

theorem stable : Stable R where
  toElementary := h.toElementary
  emitAvailabilityHint := h.emitAvailabilityHint
  enqueueMultiClient := fun payload id _ => h.enqueueMultiClient payload id
  offerSlot := fun payload slotId _ => h.offerSlot payload slotId

end Filling

/-- A program that keeps a property of states, and raises nothing that reads like a timeout. -/
theorem Stays.of_leaves {m : BrokerM α} {P : Broker → Prop} (hm : Stays (fun _ _ => True) m)
    (h : ∀ s, P s → Leaves m P s) : Stays (fun s t => P s → P t) m := by
  intro s
  by_cases hs : P s
  · exact wp_mono (h s hs) (fun _ _ ht _ => ht) fun _ _ ⟨he, ht⟩ => ⟨he, fun _ => ht⟩
  · exact wp_mono (hm s) (fun _ _ _ hs' => absurd hs' hs) fun _ _ ⟨he, _⟩ =>
      ⟨he, fun hs' => absurd hs' hs⟩

instance : IsPreorder Broker fun _ _ => True where
  refl := fun _ => trivial
  trans := fun _ _ _ _ _ => trivial

theorem Filling.any : Filling fun _ _ => True := by
  constructor
  · constructor <;> intros <;> trivial
  all_goals intros; trivial

namespace Stable

variable [IsPreorder Broker R] (h : Stable R)

include h

theorem notifyAllSessions : Stays R notifyAllSessions := by
  unfold MeshCoreTCPMux.notifyAllSessions
  exact .get_bind fun _ => .forM fun id _ => h.emitAvailabilityHint id

theorem recordAvailabilityHint : Stays R recordAvailabilityHint := by
  unfold MeshCoreTCPMux.recordAvailabilityHint
  exact (Within.modify fun s => h.drain s _ _ _ _).bind fun _ => h.notifyAllSessions

theorem fanOutDedicated (hshape : validateResponseShape payload = .ok ()) :
    Stays R (fanOutDedicated payload) := by
  unfold MeshCoreTCPMux.fanOutDedicated
  exact .get_bind fun _ => .forM fun slotId _ => h.offerSlot payload slotId hshape

theorem answerNoMore (transaction : Transaction) (id : Nat) :
    Stays R (answerNoMore transaction id) := by
  unfold MeshCoreTCPMux.answerNoMore
  refine .get_bind fun s => ?_
  split
  · exact .pure _
  split
  · exact .pure _
  · exact .ite (fun _ => (h.endSync id).bind fun _ => (h.emit _ _ rfl).bind fun _ => .pure _)
      fun _ => .pure _

theorem popEmpty (transaction : Transaction) : Stays R (popEmpty transaction) := by
  unfold MeshCoreTCPMux.popEmpty
  refine .get_bind fun _ => (Within.forM fun id _ => h.answerNoMore transaction id).bind fun _ =>
    .get_bind fun s => ?_
  have hsettled : ∀ again, Stays R
      (modify fun s : Broker => { s with drainAuthorized := again, drainRequested := again }) :=
    fun _ => .modify fun s => h.drain s _ _ _ _
  exact .ite (fun _ => hsettled _) fun _ => (h.perform rfl).bind fun _ => hsettled _

theorem popItem (transaction : Transaction) (hshape : validateResponseShape payload = .ok ()) :
    Stays R (popItem transaction payload) := by
  have hcontinue : Stays R continueDrain := .modify fun s => h.drain s _ _ _ _
  unfold MeshCoreTCPMux.popItem
  refine (h.count _ _).bind fun _ => (h.isDuplicate payload).bind fun duplicate => ?_
  cases duplicate with
  | true =>
    exact (h.count _ _).bind fun _ => .get_bind fun _ => .get_bind fun _ =>
      (h.diagnostic _ _).bind fun _ => (h.perform rfl).bind fun _ => hcontinue
  | false =>
    refine (h.perform rfl).bind fun _ => (h.fanOutDedicated hshape).bind fun _ =>
      .get_bind fun s => ?_
    dsimp only
    split
    · exact (Within.modify fun s => h.orphan s _ hshape).bind fun _ =>
        (h.perform rfl).bind fun _ => hcontinue
    · exact (Within.forM fun id _ => h.enqueueMultiClient payload id hshape).bind fun _ => hcontinue

theorem popResult (transaction : Transaction) (hshape : validateResponseShape payload = .ok ()) :
    Stays R (popResult transaction payload) := by
  unfold MeshCoreTCPMux.popResult
  exact .ite (fun _ => h.popEmpty transaction) fun _ => h.popItem transaction hshape

/-! ### Local answers and dispatch -/

theorem localScope (id : Nat) (payload : Bytes) : Stays R (localScope id payload) := by
  unfold MeshCoreTCPMux.localScope
  exact .bind (h.modifySession id fun _ => ⟨rfl, rfl, rfl, rfl, fun hsync => hsync⟩) fun _ =>
    (h.emit _ _ rfl).bind fun _ => .ite (fun _ => h.perform rfl) fun _ => .pure _

theorem sendUpstream (payload : Bytes) (now : Time) (transaction : Transaction) :
    Stays R (sendUpstream payload now transaction) := by
  unfold MeshCoreTCPMux.sendUpstream
  exact .get_bind fun _ => (Within.modify fun s => h.upstream s _ _).bind fun _ =>
    .get_bind fun _ => (h.perform rfl).bind fun _ => (h.count _ _).bind fun _ => .pure _

theorem sendCommand (transaction : Transaction) (now : Time) :
    Stays R (sendCommand transaction now) := by
  unfold MeshCoreTCPMux.sendCommand
  refine (h.modifyActive _).bind fun _ => (Stays.ofExcept ?_).bind fun _ =>
    (h.sendUpstream _ _ _).bind fun _ => h.modifyActive _
  exact .ite (Ordinary.normalizeDeviceQuery _ _) (.ok _)

theorem admissionReason (owner : Nat) (command : Bytes) (descriptor : Protocol.CommandDescriptor)
    (now : Time) : Stays R (admissionReason owner command descriptor now) := by
  unfold MeshCoreTCPMux.admissionReason
  refine .ite (fun _ => .map (.get_bind fun s => ?_)) fun _ => ?_
  · exact .orM (.pure _) (.orM (h.quarantined _) (.orM (h.remoteOccupied _)
      (.orM (.map .get) (h.signingOccupied _))))
  refine .bind (.andM (.pure _) (.orM (h.quarantined _) (.map .get))) fun _ => .ite
    (fun _ => .pure _) fun _ => .ite (fun _ => ?_) fun _ => ?_
  · refine (h.quarantined _).bind fun _ => .ite (fun _ => .pure _) fun _ => .get_bind fun _ =>
      (Stays.ofExcept (Ordinary.reserve _ _ _ _)).bind fun _ => (h.setRemote _).bind fun _ =>
      .ite (fun _ => ?_) fun _ => .pure _
    split
    · exact .throw trivial
    · exact .get_bind fun _ => (h.diagnostic _ _).bind fun _ => .pure _
  refine .ite (fun _ => ?_) fun _ => .ite (fun _ => ?_) fun _ => .ite (fun _ => ?_) fun _ => .pure _
  · exact .get_bind fun _ => (Stays.ofExcept (Ordinary.start _ _ _ _)).bind fun _ =>
      (h.setSigning _).bind fun _ => .pure _
  · exact .get_bind fun _ => (Stays.ofExcept (Ordinary.beginData _ _ _ _)).bind fun _ =>
      (h.setSigning _).bind fun _ => .pure _
  · exact .get_bind fun _ => (Stays.ofExcept (Ordinary.beginFinish _ _ _ _)).bind fun _ =>
      (h.setSigning _).bind fun _ => .pure _

theorem admitCommand (owner : Nat) (command : Bytes) (now : Time) :
    Stays R (admitCommand owner command now) := by
  unfold MeshCoreTCPMux.admitCommand
  split
  · exact .throw trivial
  · refine (h.admissionReason _ _ _ _).bind fun reason => ?_
    cases reason with
    | none => exact .pure _
    | some reason => exact (h.reject _ _ _).bind fun _ => .pure _

/-- `hperform` concerns the entry that a dispatch leaves. -/
theorem dispatch {owner : Nat}
    (hperform : ∀ transaction now, transaction.owner = owner →
      Stays R (MeshCoreTCPMux.perform (.dispatched transaction now)))
    (command : Bytes) (now : Time) (popSequence generation : Nat) :
    Stays R (dispatch owner command now popSequence generation) := by
  unfold MeshCoreTCPMux.dispatch
  split
  · exact .throw trivial
  · refine .get_bind fun s => (Within.modify fun s => h.active s _).bind fun _ =>
      (h.diagnostic _ _).bind fun _ => (h.diagnostic _ _).bind fun _ => ?_
    split
    · exact (h.modifyActive _).bind fun _ => (hperform _ _ rfl).bind fun _ =>
        (h.sendUpstream _ _ _).bind fun _ => h.modifyActive _
    · exact (hperform _ _ rfl).bind fun _ => h.sendCommand _ _

/-- The loop's body, for a relation that admits taking a command and starting to wait. -/
theorem localCommand {id : Nat} {command : Command}
    (htake : Stays R (shiftCommand id command)) (hsync : ∀ now, Stays R (localSync id now))
    (now : Time) : Stays R (localCommand id command now) := by
  have hrejects : ∀ reason detail, Stays R (do
      MeshCoreTCPMux.reject id reason detail
      pure true) := fun _ _ => (h.reject _ _ _).bind fun _ => .pure _
  unfold MeshCoreTCPMux.localCommand
  refine .get_bind fun s => ?_
  dsimp only
  split
  · exact htake.bind fun _ => (Stays.ofExcept (Ordinary.byteAt _ _)).bind fun _ => hrejects _ _
  · refine .ite (fun _ => htake.bind fun _ => hrejects _ _) fun _ => .ite (fun _ => htake.bind
      fun _ => hsync now) fun _ => .ite (fun _ => htake.bind fun _ => (h.localScope _ _).bind
      fun _ => .pure _) fun _ => .ite (fun _ => ?_) fun _ => .ite (fun _ => htake.bind fun _ =>
      hrejects _ _) fun _ => .ite (fun _ => htake.bind fun _ => hrejects _ _) fun _ => .pure _
    exact htake.bind fun _ => (h.count _ _).bind fun _ => .get_bind fun _ =>
      (h.diagnostic _ _).bind fun _ => (h.emit _ _ rfl).bind fun _ => .pure _

/-- A sync, for a relation that admits what it does to its session. -/
theorem localSync {id : Nat}
    (hwait : ∀ sync, Stays R
      (MeshCoreTCPMux.modifySession id fun x => { x with sync := some sync }))
    (hnote : ∀ sync, Stays R (MeshCoreTCPMux.perform (.synced id sync)))
    (hdeliver : Stays R (deliverItem id)) (now : Time) : Stays R (localSync id now) := by
  unfold MeshCoreTCPMux.localSync
  refine .get_bind fun s => ?_
  split
  · exact .pure _
  · exact .throw trivial
  · refine (hwait _).bind fun _ => (hnote _).bind fun _ => .bind ?_ fun _ => .pure _
    exact (Within.modify fun s => h.drain s _ _ _ _).bind fun _ => .get_bind fun _ =>
      .get_bind fun _ => h.diagnostic _ _
  · exact hdeliver.bind fun _ => .pure _

/-- The rotation, for a relation that admits its moves and the entries of a dispatch. -/
theorem rotate (horder : ∀ s order, R s { s with order := order })
    (htake : ∀ id command, Stays R (shiftCommand id command))
    (hdispatched : ∀ transaction now, Stays R (MeshCoreTCPMux.perform (.dispatched transaction now)))
    (now : Time) (turns : Nat) : Stays R (rotate now turns) := by
  have hturn : ∀ id, Stays R (rotationTurn id now) := by
    intro id
    unfold rotationTurn
    refine .get_bind fun s => .ite (fun _ => .ite (fun _ => ?_) fun _ => .pure _) fun _ => ?_
    · exact (Within.modify fun s => h.drain s _ _ _ _).bind fun _ => .get_bind fun _ =>
        .get_bind fun _ => (h.dispatch (fun _ _ _ => hdispatched _ _) _ _ _ _).bind fun _ => .pure _
    split
    · exact .pure _
    refine .ite (fun _ => .pure _) fun _ => ?_
    split
    · exact .pure _
    · refine (htake _ _).bind fun _ => (h.admitCommand _ _ _).bind fun _ => .ite (fun _ => ?_)
        fun _ => .pure _
      exact (h.dispatch (fun _ _ _ => hdispatched _ _) _ _ _ _).bind fun _ => .pure _
  induction turns with
  | zero => exact .pure _
  | succ turns ih =>
    unfold MeshCoreTCPMux.rotate
    refine .get_bind fun s => ?_
    split
    · exact .throw trivial
    · refine (Within.modify fun s => horder s _).bind fun _ => (hturn _).bind fun dispatched => ?_
      cases dispatched with
      | true => exact .pure _
      | false => exact ih

end Stable

/-! ### Calls -/

/-- A stable relation that admits the turns of the schedule. -/
structure StableTurns (R : Broker → Broker → Prop) : Prop extends Stable R where
  localCommand : ∀ id command now, Stays R (localCommand id command now)
  rotate : ∀ now turns, Stays R (rotate now turns)

namespace StableTurns

variable [IsPreorder Broker R] (h : StableTurns R)

include h

theorem schedule (now : Time) : Stays R (schedule now) := by
  have hlocal : ∀ id commands, Stays R (localCommands id now commands) := by
    intro id commands
    induction commands with
    | nil => exact .pure _
    | cons command rest ih =>
      unfold localCommands
      exact (h.localCommand id command now).bind fun _ => .ite (fun _ => .get_bind fun _ =>
        .ite (fun _ => ih) fun _ => .pure _) fun _ => .pure _
  have hturn : ∀ id, Stays R (localTurn now id) := by
    intro id
    unfold localTurn
    refine .get_bind fun s => ?_
    split
    · exact .pure _
    · exact .ite (fun _ => hlocal id _) fun _ => .pure _
  unfold MeshCoreTCPMux.schedule
  refine .get_bind fun s => ?_
  cases s.failed with
  | true => exact .pure _
  | false =>
    refine (Within.modify fun s => h.clock s now).bind fun _ => .get_bind fun t => ?_
    cases t.underMaintenance with
    | true => exact .pure _
    | false =>
      exact .get_bind fun _ => (Within.forM fun id _ => hturn id).bind fun _ =>
        .get_bind fun _ => .ite (fun _ => .get_bind fun _ => h.rotate now _) fun _ => .pure _

/-! #### Replies -/

theorem logResponse (transaction : Transaction) (payload : Bytes) (now : Time) :
    Stays R (logResponse transaction payload now) := by
  unfold MeshCoreTCPMux.logResponse
  exact .get_bind fun _ => (h.diagnostic _ _).bind fun _ => h.diagnostic _ _

theorem scopeResponse (transaction : Transaction) (payload : Bytes) (now : Time) :
    Stays R (scopeResponse transaction payload now) := by
  have hfinish : Stays R (do
      MeshCoreTCPMux.perform (.replied payload now)
      finishTransaction transaction) := (h.perform rfl).bind fun _ => h.finishTransaction _
  have hrejected : Stays R (do
      let _ ← MeshCoreTCPMux.emit transaction.owner payload .reply
      MeshCoreTCPMux.perform (.replied payload now)
      finishTransaction transaction) := (h.emit _ _ rfl).bind fun _ => hfinish
  unfold MeshCoreTCPMux.scopeResponse
  refine .ite (fun _ => .bind (.throw ?_) fun _ => ?_) fun _ => ?_
  · exact Ordinary.protocol (by decide)
  all_goals
    refine (h.logResponse _ _ _).bind fun _ => (h.modifyActive _).bind fun _ => .ite
      (fun _ => .ite (fun _ => .ite (fun _ => ?_) fun _ => hrejected) fun _ => ?_) fun _ => .ite
      (fun _ => .bind (.throw ?_) fun _ => hfinish) fun _ => hfinish
    · exact .get_bind fun _ => (h.setRemote _).bind fun _ => hrejected
    · exact (h.perform rfl).bind fun _ => h.sendCommand _ _
    · exact Ordinary.protocol (by decide)

theorem recordAcceptance (transaction : Transaction) (payload : Bytes) (now : Time) :
    Stays R (recordAcceptance transaction payload now) := by
  unfold MeshCoreTCPMux.recordAcceptance
  dsimp only
  refine .ite (fun _ => ?_) fun _ => .ite (fun _ => .ite (fun _ => ?_) fun _ => ?_) fun _ => .ite
    (fun _ => .ite (fun _ => ?_) fun _ => ?_) fun _ => .ite (fun _ => ?_) fun _ => .ite
    (fun _ => ?_) fun _ => .pure _
  · exact .get_bind fun _ => (Stays.ofExcept (Ordinary.dmAccepted _ _ _)).bind fun _ =>
      .modify fun s => h.radio s _
  · refine .get_bind fun _ => (Stays.ofExcept (Ordinary.remoteAccepted _ _ _)).bind fun _ =>
      (h.setRemote _).bind fun _ => ?_
    split
    · exact .throw trivial
    · exact .get_bind fun _ => h.diagnostic _ _
  · exact .get_bind fun _ => (h.setRemote _).bind fun _ => .get_bind fun _ => h.diagnostic _ _
  · exact .get_bind fun _ => (Stays.ofExcept (Ordinary.acceptedStart _ _ _)).bind fun _ =>
      h.setSigning _
  · exact .get_bind fun _ => h.setSigning _
  · exact .get_bind fun _ => (Stays.ofExcept (Ordinary.dataResponse _ _ _)).bind fun _ =>
      h.setSigning _
  · exact .get_bind fun _ => (Stays.ofExcept (Ordinary.finishResponse _ _ _)).bind fun _ =>
      h.setSigning _

theorem forwardReply (transaction : Transaction) (payload : Bytes) :
    Stays R (forwardReply transaction payload) := by
  have hsend : Stays R (do
      let visible ← MeshCoreTCPMux.ofExcept
        (if opcode payload = respDeviceInfo then downstreamDeviceInfo payload else .ok payload)
      MeshCoreTCPMux.emit transaction.owner visible .reply) :=
    (Stays.ofExcept (.ite (Ordinary.downstreamDeviceInfo _) (.ok _))).bind fun _ => h.emit _ _ rfl
  unfold MeshCoreTCPMux.forwardReply
  refine .get_bind fun _ => .ite (fun _ => .ite (fun _ => ?_) fun _ => hsend) fun _ => .pure _
  refine (Stays.ofExcept (Ordinary.byteAt _ _)).bind fun _ => .bind ?_ fun _ => hsend
  exact h.modifySession _ fun _ => ⟨rfl, rfl, rfl, rfl, fun hsync => hsync⟩

theorem commandResponse (transaction : Transaction) (disposition : ResponseDisposition)
    (payload : Bytes) (now : Time) :
    Stays R (commandResponse transaction disposition payload now) := by
  unfold MeshCoreTCPMux.commandResponse
  refine (Stays.ofExcept ?_).bind fun _ => (h.modifyActive _).bind fun _ =>
    (h.forwardReply _ _).bind fun _ => (h.perform rfl).bind fun _ => (h.modifyActive _).bind
    fun _ => .ite (fun _ => (h.recordAcceptance _ _ _).bind fun _ => .ite (fun _ => ?_) fun _ =>
    .ite (fun _ => h.modifyActive _) fun _ => h.finishTransaction _) fun _ => .pure _
  · exact .ite (.ite (.ite (.error (Ordinary.protocol (by decide))) (.ok _))
      (.ite (.ok _) (.error (Ordinary.protocol (by decide))))) (.ok _)
  · exact (h.modifyActive _).bind fun _ => (h.sendUpstream _ _ _).bind fun _ => h.modifyActive _

theorem commandStepResponse (transaction : Transaction) (now : Time)
    (hshape : validateResponseShape payload = .ok ()) :
    Stays R (commandStepResponse transaction payload now) := by
  have htake : ∀ (x : Transaction) (disposition : ResponseDisposition), Stays R (do
      if x.owner = 0 then
        if opcode payload = respErr then throw (.protocol ["internal inbox pop rejected"])
        modify fun s => { s with active := none }
        MeshCoreTCPMux.perform (.replied payload now)
        MeshCoreTCPMux.popResult x payload
      else MeshCoreTCPMux.commandResponse x disposition payload now) := by
    intro x disposition
    have hpop : Stays R (do
        modify fun s => { s with active := none }
        MeshCoreTCPMux.perform (.replied payload now)
        MeshCoreTCPMux.popResult x payload) :=
      (Within.modify fun s => h.active s _).bind fun _ => (h.perform rfl).bind fun _ =>
        h.popResult x hshape
    refine .ite (fun _ => .ite (fun _ => .bind (.throw ?_) fun _ => hpop) fun _ => hpop) fun _ =>
      h.commandResponse _ _ _ _
    exact Ordinary.protocol (by decide)
  unfold MeshCoreTCPMux.commandStepResponse
  exact (Stays.ofExcept (Ordinary.validateResponse _ _ _ _)).bind fun _ =>
    (h.modifyActive _).bind fun _ => .ite (fun _ => (h.logResponse _ _ _).bind fun _ => htake _ _)
    fun _ => htake _ _

theorem transactionResponse (now : Time) (hshape : validateResponseShape payload = .ok ()) :
    Stays R (transactionResponse payload now) := by
  unfold MeshCoreTCPMux.transactionResponse
  refine .get_bind fun s => ?_
  split
  · exact .throw (Ordinary.protocol (by decide))
  next current _ =>
    dsimp only
    split
    · split
      · exact h.scopeResponse _ _ _
      · exact h.scopeResponse _ _ _
      · exact .throw (Ordinary.protocol (by decide))
      · exact h.commandStepResponse _ _ hshape
    next writeId _ =>
      refine .bind (.modify fun s => ?_) fun _ => ?_
      · have hup := h.upstream s s.nextWrite (s.upstreamWrites.erase writeId)
        exact trans_of R hup (h.active _ _)
      split
      · exact h.scopeResponse _ _ _
      · exact h.scopeResponse _ _ _
      · exact .throw (Ordinary.protocol (by decide))
      · exact h.commandStepResponse _ _ hshape

/-! #### Pushes -/

theorem broadcast (payload : Bytes) : Stays R (broadcast payload) := by
  unfold MeshCoreTCPMux.broadcast
  exact .get_bind fun _ => .forM fun id _ => (h.emit _ _ rfl).bind fun _ => .pure _

theorem resultPush (payload : Bytes) (now : Time) : Stays R (resultPush payload now) := by
  have hmatched : Stays R (MeshCoreTCPMux.perform (.matched payload now)) := h.perform rfl
  unfold MeshCoreTCPMux.resultPush
  refine .get_bind fun s => ?_
  dsimp only
  refine (Stays.ofExcept (Ordinary.matchPush _ _ _)).bind fun result => ?_
  obtain ⟨owner, remote⟩ := result
  refine (h.setRemote _).bind fun _ => ?_
  cases owner with
  | some owner =>
    exact .get_bind fun _ => (h.diagnostic _ _).bind fun _ => .get_bind fun _ =>
      (h.diagnostic _ _).bind fun _ => (h.emit _ _ rfl).bind fun _ => hmatched
  | none =>
    refine (h.count _ _).bind fun _ => .get_bind fun _ => .ite (fun _ => ?_) fun _ => hmatched
    exact (Within.modify fun s => h.report s _).bind fun _ => (h.diagnostic _ _).bind fun _ =>
      hmatched

theorem broadcastPush (payload : Bytes) (now : Time) : Stays R (broadcastPush payload now) := by
  unfold MeshCoreTCPMux.broadcastPush
  refine .ite (fun _ => ?_) fun _ => ?_
  · exact .get_bind fun _ => .get_bind fun _ => (h.diagnostic _ _).bind fun _ => .get_bind fun _ =>
      (h.diagnostic _ _).bind fun _ => h.broadcast _
  · exact (h.count _ _).bind fun _ => .get_bind fun _ => .ite (fun _ =>
      (Within.modify fun s => h.report s _).bind fun _ => (h.diagnostic _ _).bind fun _ =>
        h.broadcast _) fun _ => h.broadcast _

theorem push (now : Time) (hshape : validateResponseShape payload = .ok ()) :
    Stays R (push payload now) := by
  unfold MeshCoreTCPMux.push
  refine .ite (fun _ => ?_) fun _ => .ite (fun _ => ?_) fun _ => .ite (fun _ => ?_) fun _ =>
    h.broadcastPush _ _
  · exact .get_bind fun _ => (h.diagnostic _ _).bind fun _ => h.recordAvailabilityHint
  · refine .get_bind fun _ => (Stays.ofExcept (Ordinary.dmConfirm _ _)).bind fun _ =>
      (Within.modify fun s => h.radio s _).bind fun _ => (h.perform rfl).bind fun _ => ?_
    exact .get_bind fun _ => .get_bind fun _ => (h.diagnostic _ _).bind fun _ => .get_bind fun _ =>
      (h.diagnostic _ _).bind fun _ => h.broadcast _
  · exact (Stays.selfTelemetryReply _).bind fun _ => .ite (fun _ => h.transactionResponse _ hshape)
      fun _ => h.resultPush _ _

/-! #### Events -/

theorem clientFrame (id : Nat) (payload : Bytes) (now : Time) :
    Stays R (clientFrame id payload now) := by
  unfold MeshCoreTCPMux.clientFrame
  refine (Within.modify fun s => h.clock s now).bind fun _ => .get_bind fun s => .ite (fun _ => ?_)
    fun _ => .pure _
  split
  · exact .pure _
  · refine (h.count _ _).bind fun _ => (h.diagnostic _ _).bind fun _ => (h.diagnostic _ _).bind
      fun _ => .ite (fun _ => (h.remove _ _ _).bind fun _ => h.schedule now) fun _ => ?_
    exact .bind (.modify fun s => h.queue s id _) fun _ => (h.perform rfl).bind fun _ => h.schedule now

theorem clientClosed (id : Nat) (now : Time) (reason : Text) (category : Category) :
    Stays R (clientClosed id now reason category) := by
  unfold MeshCoreTCPMux.clientClosed
  exact (Within.modify fun s => h.clock s now).bind fun _ => (h.remove _ _ _).bind fun _ =>
    h.schedule now

theorem writeFailed (id epoch : Nat) (reason : Text) (now : Time) :
    Stays R (writeFailed id epoch reason now) := by
  have hordinary : ¬ IsTimeout (joined [["upstream write failed: "], reason]) := fun htimeout =>
    absurd (Option.some.inj htimeout) (by decide)
  unfold MeshCoreTCPMux.writeFailed
  exact .get_bind fun _ => .ite (fun _ => (Within.modify fun s => h.clock s now).bind fun _ => .ite
    (fun _ => h.failEpoch hordinary) fun _ => (h.remove _ _ _).bind fun _ => h.schedule now)
    fun _ => .pure _

/-- What follows the check of the deadline when a frame arrives. -/
theorem takeFrame (payload : Bytes) (now : Time) : Stays R (do
    MeshCoreTCPMux.count "upstream_frames"
    ofExcept (validateResponseShape payload)
    if opcode payload ≥ pushAdvert then MeshCoreTCPMux.push payload now
    else MeshCoreTCPMux.transactionResponse payload now
    MeshCoreTCPMux.schedule now) :=
  (h.count _ _).bind fun _ => Stays.ofExcept_bind (Ordinary.validateResponseShape _)
    fun _ hshape => .ite (fun _ => (h.push now hshape).bind fun _ => h.schedule now) fun _ =>
      (h.transactionResponse now hshape).bind fun _ => h.schedule now

theorem upstreamFrame (payload : Bytes) (now : Time)
    (hdeadline : Stays R (checkActiveDeadline now)) : Stays R (upstreamFrame payload now) := by
  unfold MeshCoreTCPMux.upstreamFrame
  refine .tryCatch (F := Error.Ordinary) ?_ fun e he => ?_
  · unfold receiveFrame
    exact (Within.modify fun s => h.clock s now).bind fun _ => .get_bind fun _ => .ite
      (fun _ => hdeadline.bind fun _ => .ite (fun _ => h.takeFrame payload now) fun _ => .pure _)
      fun _ => .pure _
  · cases e with
    | protocol message => exact h.failEpoch he
    | _ => exact .throw trivial

theorem drainUncertainFrame (payload : Bytes) (now : Time) :
    Stays R (drainUncertainFrame payload now) := by
  unfold MeshCoreTCPMux.drainUncertainFrame
  refine .get_bind fun s => ?_
  split
  · exact .pure _
  next transaction _ =>
    have hcleared : Stays R (do
        modify fun s => { s with responseDebt := none }
        pure true) := (Within.modify fun s => h.debt s _).bind fun _ => .pure _
    have hscope : Stays R (do
        MeshCoreTCPMux.logResponse transaction payload now
        modify fun s => { s with responseDebt := none }
        pure true) := (h.logResponse _ _ _).bind fun _ => hcleared
    refine Stays.ofExcept_bind (Ordinary.validateResponseShape _) fun _ hshape => .ite
      (fun _ => (h.push now hshape).bind fun _ => .pure _) fun _ => .ite (fun _ => .ite
      (fun _ => .bind (.throw (Ordinary.protocol (by decide))) fun _ => hscope) fun _ => hscope)
      fun _ => ?_
    refine (Stays.ofExcept (Ordinary.validateResponse _ _ _ _)).bind fun _ => ?_
    refine (h.modifyDebt _).bind fun _ => (h.logResponse _ _ _).bind fun _ =>
      (Stays.ofExcept ?_).bind fun _ => (h.modifyDebt _).bind fun _ => .ite (fun _ => .ite (fun _ =>
      (h.popResult _ hshape).bind fun _ => hcleared) fun _ => hcleared) fun _ => .pure _
    exact .ite (.ite (.ite (.error (Ordinary.protocol (by decide))) (.ok _))
      (.ite (.error (Ordinary.protocol (by decide))) (.ok _))) (.ok _)

theorem tick (now : Time) (hdeadline : Stays R (checkActiveDeadline now)) : Stays R (tick now) := by
  have hsession : ∀ entry, Stays R (tickSession now entry) := by
    intro entry
    unfold tickSession
    refine .get_bind fun s => ?_
    dsimp only
    refine .ite (fun _ => h.remove _ _ _) fun _ => ?_
    split
    · exact .pure _
    · exact .ite (fun _ => (h.endSync _).bind fun _ => h.reject _ _ _) fun _ => .pure _
  have hremote : Stays R (expireRemote now) := by
    unfold expireRemote
    refine .get_bind fun s => ?_
    dsimp only
    split
    · exact .pure _
    · exact (h.setRemote _).bind fun _ => .ite (fun _ => .get_bind fun _ => h.diagnostic _ _)
        fun _ => .pure _
  have hsigning : Stays R (expireSigning now) := by
    unfold expireSigning
    exact .get_bind fun _ => .ite (fun _ => (h.setSigning _).bind fun _ => .ite
      (fun _ => h.diagnostic _ _) fun _ => .pure _) fun _ => .pure _
  have hpoll : Stays R (poll now) := by
    unfold poll
    exact .get_bind fun _ => .ite (fun _ => (Within.modify fun s => h.polled s now).bind fun _ =>
      h.notifyAllSessions) fun _ => .pure _
  unfold MeshCoreTCPMux.tick
  refine (Within.modify fun s => h.clock s now).bind fun _ => .get_bind fun _ => .ite (fun _ =>
    hdeadline.bind fun _ => .ite (fun _ => .get_bind fun _ => .ite (fun _ => ?_) fun _ => ?_)
    fun _ => .pure _) fun _ => .pure _
  · exact h.failEpoch (by decide)
  · exact .get_bind fun _ => (Within.forM fun entry _ => hsession entry).bind fun _ =>
      hremote.bind fun _ => hsigning.bind fun _ => hpoll.bind fun _ => h.schedule now

end StableTurns

end Broker

end MeshCoreTCPMux

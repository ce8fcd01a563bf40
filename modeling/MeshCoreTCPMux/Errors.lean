import MeshCoreTCPMux.Library.Within
import MeshCoreTCPMux.Leases
import MeshCoreTCPMux.Protocol.Responses

/-!
# What is raised

The reasons with which an epoch ends are texts. The reason of a response timeout begins like no
error that a frame of the companion may raise (`Error.Ordinary`).
-/

namespace MeshCoreTCPMux

open Protocol

/-- How the reason of a response timeout begins. -/
def timeoutHead : Piece := "uncertain response timeout command="

/-- The reason of a response timeout. -/
def IsTimeout (reason : Text) : Prop := reason.head? = some timeoutHead

instance (reason : Text) : Decidable (IsTimeout reason) := inferInstanceAs (Decidable (_ = _))

/-- An error whose text is not the reason of a response timeout. -/
def Error.Ordinary : Error → Prop
  | .protocol message => ¬ IsTimeout message
  | _ => True

namespace Ordinary

theorem protocol {head : Piece} {rest : Text} (h : head ≠ timeoutHead) :
    Error.Ordinary (.protocol (head :: rest)) := fun hreason => h (Option.some.inj hreason)

theorem byteAt (payload : Bytes) (offset : Nat) : (byteAt payload offset).Raises Error.Ordinary := by
  unfold MeshCoreTCPMux.byteAt
  split
  · exact .ok _
  · exact .error trivial

theorem sliceAt (payload : Bytes) (offset count : Nat) :
    (sliceAt payload offset count).Raises Error.Ordinary := .ite (.ok _) (.error trivial)

/-! ### Replies -/

theorem validateResponseShape (payload : Bytes) :
    (validateResponseShape payload).Raises Error.Ordinary :=
  .ite (.error (protocol (by decide))) <| .ite (.error (protocol (by decide))) <|
    .ite (.ok _) (.error (protocol (by decide)))

theorem validateEcho (descriptor : CommandDescriptor) (payload command : Bytes) :
    (validateEcho descriptor payload command).Raises Error.Ordinary :=
  .ite (.bind (byteAt _ _) fun _ => .bind (byteAt _ _) fun _ =>
      .ite (.throw (protocol (by decide))) (.pure _)) <|
    .ite (.bind (byteAt _ _) fun _ => .bind (byteAt _ _) fun _ =>
      .ite (.throw (protocol (by decide))) (.pure _)) (.ok _)

theorem validateResponse (descriptor : CommandDescriptor) (payload command : Bytes) (phase : Nat) :
    (validateResponse descriptor payload command phase).Raises Error.Ordinary :=
  .ite (.error (protocol (by decide))) <| .ite (.error (protocol (by decide))) <|
    .ite (.ite (.error (protocol (by decide))) (.ok _)) <| .ite (.error (protocol (by decide))) <|
    .bind (validateResponseShape _) fun _ => .ite (.error (protocol (by decide))) <|
    .bind (validateEcho _ _ _) fun _ => .ok _

theorem downgradeInbox (payload : Bytes) (targetVersion : UInt8) :
    (downgradeInbox payload targetVersion).Raises Error.Ordinary := by
  unfold Protocol.downgradeInbox
  refine .bind (validateResponseShape _) fun _ => ?_
  split
  · exact .pure _
  split
  · exact .pure _
  split <;> exact .pure _

theorem downstreamDeviceInfo (payload : Bytes) :
    (downstreamDeviceInfo payload).Raises Error.Ordinary := by
  unfold Protocol.downstreamDeviceInfo validateDeviceInfo
  refine .bind ?_ fun _ => .pure _
  split
  · exact .error (@protocol "malformed DEVICE_INFO" [] (by decide))
  · refine .ite ?_ (.pure _)
    exact .error (@protocol "unsupported firmware protocol level " _ (by decide))

theorem normalizeDeviceQuery (payload : Bytes) (target : UInt8) :
    (normalizeDeviceQuery payload target).Raises Error.Ordinary := .ite (.ok _) (.error trivial)

/-! ### Leases -/

theorem readU32 (payload : Bytes) (offset : Nat) :
    (LeaseParsing.readU32 payload offset).Raises Error.Ordinary := .ite (.error trivial) (.ok _)

theorem requirePayload (payload : Bytes) (code : UInt8) (size : Nat) :
    (LeaseParsing.requirePayload payload code size).Raises Error.Ordinary :=
  .ite (.ok _) (.error trivial)

theorem requireCommand (command : Bytes) (code : UInt8) (minimumSize : Nat) :
    (LeaseParsing.requireCommand command code minimumSize).Raises Error.Ordinary :=
  .ite (.error trivial) (.ok _)

theorem dmAccepted (ring : DmRing) (sent : Bytes) (now : Time) :
    (ring.accepted sent now).Raises Error.Ordinary := by
  unfold DmRing.accepted
  refine .bind (requirePayload _ _ _) fun _ => .bind (readU32 _ _) fun _ => ?_
  split
  · exact .pure _
  split
  · exact .throw trivial
  · exact .bind (readU32 _ _) fun _ => .pure _

theorem dmConfirm (ring : DmRing) (push : Bytes) : (ring.confirm push).Raises Error.Ordinary :=
  .bind (requirePayload _ _ _) fun _ => .bind (readU32 _ _) fun _ => .pure _

theorem peerAt (command : Bytes) (offset : Nat) :
    (RemoteLease.peerAt command offset).Raises Error.Ordinary := .ite (.error trivial) (.ok _)

theorem classify (command : Bytes) : (RemoteLease.classify command).Raises Error.Ordinary := by
  have hpeer : ∀ (offset : Nat) (f : Bytes → RemoteLease.Kind × Option Bytes × Option Nat × Option Nat),
      (do return f (← RemoteLease.peerAt command offset) : Except Error _).Raises Error.Ordinary :=
    fun offset f => .bind (peerAt _ _) fun _ => .pure _
  unfold RemoteLease.classify
  refine .ite (hpeer _ _) <| .ite (hpeer _ _) <| .ite ?_ <| .ite ?_ <| .ite (hpeer _ _) <|
    .ite (hpeer _ _) <| .ite (hpeer _ _) (.throw trivial)
  · split
    · exact .throw trivial
    · exact .bind (readU32 _ _) fun _ => .bind (readU32 _ _) fun _ => .pure _
  · split
    · exact .throw trivial
    · exact hpeer _ _

theorem reserve (lease : RemoteLease) (owner : Nat) (command : Bytes) (now : Time) :
    (lease.reserve owner command now).Raises Error.Ordinary := by
  unfold RemoteLease.reserve
  split
  split
  · exact .pure _
  split
  · exact .throw trivial
  · exact .bind (classify _) fun _ => .pure _

theorem remoteAccepted (lease : RemoteLease) (sent : Bytes) (now : Time) :
    (lease.accepted sent now).Raises Error.Ordinary := by
  unfold RemoteLease.accepted
  split
  · exact .throw trivial
  · refine .ite (.bind (.throw trivial) fun _ => ?_) ?_ <;>
      exact .bind (requirePayload _ _ _) fun _ => .ite
        (.bind (.pure _) fun _ => .bind (readU32 _ _) fun _ => .pure _)
        (.bind (.map (readU32 _ _)) fun _ => .bind (readU32 _ _) fun _ => .pure _)

theorem acceptanceUnknown (lease : RemoteLease) (deadline : Time) :
    (lease.acceptanceUnknown deadline).Raises Error.Ordinary := by
  unfold RemoteLease.acceptanceUnknown
  split
  · exact .error trivial
  · exact .ite (.ok _) (.error trivial)

theorem matchesPush (r : RemoteLease.Reservation) (push : Bytes) :
    (RemoteLease.matchesPush r push).Raises Error.Ordinary := by
  have hpeer : (RemoteLease.matchingPeer r push).Raises Error.Ordinary :=
    .ite (.error trivial) (.ok _)
  unfold RemoteLease.matchesPush
  split
  · exact .ite hpeer (.pure _)
  · exact .ite hpeer (.pure _)
  · exact .ite hpeer (.pure _)
  · refine .ite ?_ (.pure _)
    split
    · exact .throw trivial
    · exact .bind (readU32 _ _) fun _ => .pure _
  · refine .ite ?_ (.pure _)
    split
    · exact .throw trivial
    · exact .bind (readU32 _ _) fun _ => .pure _
  · exact .ite hpeer (.pure _)
  · refine .ite ?_ (.pure _)
    split
    · exact .throw trivial
    · exact .bind (readU32 _ _) fun _ => .bind (readU32 _ _) fun _ => .pure _

theorem matchPush (lease : RemoteLease) (push : Bytes) (now : Time) :
    (lease.matchPush push now).Raises Error.Ordinary := by
  unfold RemoteLease.matchPush
  dsimp only
  split
  · exact .pure _
  split
  · exact .pure _
  · exact .bind (matchesPush _ _) fun _ => .ite (.pure _) (.pure _)

theorem start (lease : SigningLease) (owner : Nat) (command : Bytes) (now : Time) :
    (lease.start owner command now).Raises Error.Ordinary := by
  unfold SigningLease.start
  exact .bind (requireCommand _ _ _) fun _ => .ite (.pure _) (.pure _)

theorem acceptedStart (lease : SigningLease) (response : Bytes) (now : Time) :
    (lease.acceptedStart response now).Raises Error.Ordinary := by
  unfold SigningLease.acceptedStart
  split
  · exact .throw trivial
  split
  · exact .throw trivial
  · exact .bind (requirePayload _ _ _) fun _ => .bind (readU32 _ _) fun _ => .pure _

theorem beginData (lease : SigningLease) (owner : Nat) (command : Bytes) (now : Time) :
    (lease.beginData owner command now).Raises Error.Ordinary := by
  unfold SigningLease.beginData
  split
  · exact .throw trivial
  simp only
  split
  · exact .pure _
  split
  · exact .pure _
  split
  · exact .throw trivial
  split
  · exact .throw trivial
  · exact .ite (.pure _) (.pure _)

theorem beginFinish (lease : SigningLease) (owner : Nat) (command : Bytes) (now : Time) :
    (lease.beginFinish owner command now).Raises Error.Ordinary := by
  unfold SigningLease.beginFinish
  refine .bind (requireCommand _ _ _) fun _ => ?_
  dsimp only
  split
  · exact .pure _
  · exact .ite (.pure _) (.pure _)

theorem validateOkOrErr (response : Bytes) (allowOk : Bool) :
    (SigningLease.validateOkOrErr response allowOk).Raises Error.Ordinary :=
  .ite (.error trivial) <| .ite (.ok _) <| .ite (.ok _) (.error trivial)

theorem dataResponse (lease : SigningLease) (response : Bytes) (now : Time) :
    (lease.dataResponse response now).Raises Error.Ordinary := by
  unfold SigningLease.dataResponse
  split
  · exact .throw trivial
  split
  · exact .throw trivial
  · exact .bind (validateOkOrErr _ _) fun _ => .ite (.pure _) <|
      .bind (byteAt _ _) fun _ => .ite (.pure _) (.pure _)

theorem finishResponse (lease : SigningLease) (response : Bytes) (now : Time) :
    (lease.finishResponse response now).Raises Error.Ordinary := by
  unfold SigningLease.finishResponse
  split
  · exact .throw trivial
  · refine .ite (.bind (.throw trivial) fun _ => ?_) ?_ <;>
      exact .ite (.bind (requirePayload _ _ _) fun _ => .pure _) <|
        .bind (validateOkOrErr _ _) fun _ => .bind (byteAt _ _) fun _ => .ite (.pure _) (.pure _)

end Ordinary

end MeshCoreTCPMux

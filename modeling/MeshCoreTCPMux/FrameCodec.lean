import MeshCoreTCPMux.Wire

/-!
# The frame codec

The three-byte TCP envelope around companion payloads, and the decoder that removes it from any
portions of a stream. The decoder reads no clock: `now` is given.

`Progress` is what the source keeps in `@header`, `@header_size`, `@payload` and `@payload_size`
between two bytes. A header is never complete there, and a payload neither: completing one is part
of the byte that completes it.
-/

namespace MeshCoreTCPMux
namespace FrameCodec

abbrev maxPayloadSize : Nat := 176
abbrev clientToCompanionMarker : UInt8 := 0x3c
abbrev companionToClientMarker : UInt8 := 0x3e

/-- `FrameCodec::Error`. -/
inductive FrameError
  | malformed (message : Text)
  | deadlineExceeded
  | truncated
  deriving DecidableEq

def validateMarker (marker : UInt8) : Except Error Unit :=
  if marker = clientToCompanionMarker ∨ marker = companionToClientMarker then .ok ()
  else .error (.argument ["frame marker must be '<' or '>'"])

/-- Envelope: one direction byte, then the little-endian payload length. -/
def encode (payload : Bytes) (marker : UInt8) : Except Error Bytes := do
  validateMarker marker
  let size := payload.length
  unless 1 ≤ size ∧ size ≤ maxPayloadSize do
    throw (.argument ["payload length ", size, " is outside 1..", maxPayloadSize])
  return marker :: UInt8.ofNat (size % 256) :: UInt8.ofNat (size / 256 % 256) :: payload

/-- A frame under assembly. -/
inductive Progress
  | header (bytes : Bytes) (h : bytes.length < 3)
  | payload (size : Nat) (received : Bytes) (h : received.length < size)
  deriving DecidableEq

/-- Between two frames. -/
def Progress.start : Progress := .header [] (by decide)

structure Decoder where
  marker : UInt8
  assemblyTimeout : Time := seconds 5
  progress : Progress := .start
  startedAt : Option Time := none
  deriving DecidableEq

/-- `Decoder.new`. -/
def Decoder.new (marker : UInt8) (assemblyTimeout : Time) : Except Error Decoder := do
  validateMarker marker
  unless assemblyTimeout > 0 do throw (.argument ["assembly timeout must be positive"])
  return { marker, assemblyTimeout }

/-- What feeding has done: the payloads that it yielded, the bytes that it consumed, and the decoder
afterwards, or the error that it raised. -/
structure Fed where
  yielded : List Bytes
  consumed : Nat
  outcome : Except FrameError Decoder

/-- Feeding that came after other feeding. -/
def Fed.prepend (fed : Fed) (yielded : List Bytes) (consumed : Nat) : Fed :=
  { fed with yielded := yielded ++ fed.yielded, consumed := consumed + fed.consumed }

/-- `@header[1].to_i | (@header[2].to_i << 8)`. -/
def declaredSize (header : Bytes) : Nat := (header.getD 1 0).toNat + (header.getD 2 0).toNat * 256

/-- `validate_marker!`'s error. -/
def wrongMarker (actual expected : UInt8) : FrameError :=
  .malformed ["wrong frame marker 0x", .hex actual, "; expected 0x", .hex expected]

/-- `allocate_payload!`'s error. -/
def badLength (size : Nat) : FrameError :=
  .malformed ["payload length ", size, " is outside 1..", maxPayloadSize]

namespace Decoder

/-- `partial?`. -/
def incomplete (d : Decoder) : Bool := d.progress != .start

/-- Raise once the absolute assembly deadline has elapsed. An idle decoder has no deadline. -/
def checkDeadline (d : Decoder) (now : Time) : Except FrameError Unit :=
  match d.startedAt with
  | none => .ok ()
  | some startedAt =>
    if now - startedAt ≥ d.assemblyTimeout then .error .deadlineExceeded else .ok ()

/-- The loop of `feed`. A header takes one byte, a payload as many as are there. -/
def feedLoop (now : Time) (d : Decoder) (bytes : Bytes) : Fed :=
  match bytes with
  | [] => ⟨[], 0, .ok d⟩
  | byte :: rest =>
    let startedAt := if d.progress = .start then some now else d.startedAt
    match d.progress with
    | .header header _ =>
      let header := header ++ [byte]
      if header.length = 1 ∧ byte ≠ d.marker then ⟨[], 1, .error (wrongMarker byte d.marker)⟩
      else if hsize : header.length < 3 then
        (feedLoop now { d with progress := .header header hsize, startedAt } rest).prepend [] 1
      else if hlength : 1 ≤ declaredSize header ∧ declaredSize header ≤ maxPayloadSize then
        (feedLoop now
          { d with progress := .payload (declaredSize header) [] hlength.1, startedAt }
          rest).prepend [] 1
      else ⟨[], 1, .error (badLength (declaredSize header))⟩
    | .payload size received _ =>
      let count := min (byte :: rest).length (size - received.length)
      let received := received ++ (byte :: rest).take count
      if hpart : received.length < size then
        (feedLoop now { d with progress := .payload size received hpart, startedAt }
          ((byte :: rest).drop count)).prepend [] count
      else
        (feedLoop now { d with progress := .start, startedAt := none }
          ((byte :: rest).drop count)).prepend [received] count
termination_by bytes.length
decreasing_by
  all_goals simp only [List.length_cons, List.length_drop]
  all_goals omega

/-- Accept any portion of the stream, and yield every payload completed by it. -/
def feed (d : Decoder) (bytes : Bytes) (now : Time) : Fed :=
  match d.checkDeadline now with
  | .error e => ⟨[], 0, .error e⟩
  | .ok () => feedLoop now d bytes

/-- Validate the end of the stream. A clean frame boundary is valid. -/
def finish (d : Decoder) : Except FrameError Unit :=
  if d.incomplete then .error .truncated else .ok ()

/-- Feed the portions of a stream, at their times, until an error is raised. -/
def feedAll (d : Decoder) : List (Bytes × Time) → Fed
  | [] => ⟨[], 0, .ok d⟩
  | (bytes, now) :: portions =>
    match (d.feed bytes now).outcome with
    | .error _ => d.feed bytes now
    | .ok d' => (feedAll d' portions).prepend (d.feed bytes now).yielded (d.feed bytes now).consumed

end Decoder

/-- How a stream ends: with the error that feeding raised, or with what `finish` says. -/
def Fed.ending (fed : Fed) : Except FrameError Unit := fed.outcome.bind Decoder.finish

end FrameCodec
end MeshCoreTCPMux

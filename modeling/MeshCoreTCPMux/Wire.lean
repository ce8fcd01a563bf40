import MeshCoreTCPMux.Library.Wp

/-!
# Bytes, times, texts and exceptions

The values every other module speaks about.

* `Bytes` are decoded payloads, without the three-byte TCP envelope.
* `Time` is a `Time::Span`: a signed count of nanoseconds.
* `Text` is a diagnostic or an exception message. It is kept as the pieces its source string
  interpolates. How a duration or a payload is printed is left to the logger; the pieces hold
  everything the printed line depends on.
* `Error` is the exceptions the modelled functions raise.
-/

namespace MeshCoreTCPMux

abbrev Bytes := List UInt8

abbrev Time := Int

/-- `n.seconds`. -/
def seconds (n : Int) : Time := n * 1000000000

/-- `n.milliseconds`. -/
def milliseconds (n : Int) : Time := n * 1000000

/-- One interpolated piece of a message. -/
inductive Piece
  | text (s : String)
  | int (i : Int)
  /-- A duration, printed in milliseconds. -/
  | millis (t : Time)
  /-- `code.to_s(16)`. -/
  | hex (code : UInt8)
  /-- `Protocol.describe_command payload`. -/
  | command (payload : Bytes) (includePayload : Bool)
  /-- `Protocol.describe_response payload`. -/
  | response (payload : Bytes) (includePayload : Bool)
  /-- The pieces up to the matching `endInspect` are printed with `inspect`. -/
  | beginInspect
  | endInspect
  deriving DecidableEq

instance : Coe String Piece := ⟨.text⟩

instance : Coe Int Piece := ⟨.int⟩

instance : Coe Nat Piece := ⟨fun n => .int n⟩

instance : Coe UInt8 Piece := ⟨fun b => .int b.toNat⟩

abbrev Text := List Piece

/-- `text.inspect`. -/
def inspected (text : Text) : Text := .beginInspect :: text ++ [.endInspect]

/-- A message put together from parts. -/
def joined (parts : List Text) : Text := parts.flatten

/-- An identifier in a diagnostic, or `none`. -/
def orNone : Option Nat → Piece
  | some n => .int n
  | none => .text "none"

/-- A raised exception. Only `protocol` is a `Protocol::ProtocolError`. -/
inductive Error
  | protocol (message : Text)
  | argument (message : Text)
  | invalidState (message : Text)
  /-- `IndexError`. -/
  | index
  /-- `KeyError`. -/
  | key
  /-- `NilAssertionError`, from `not_nil!`. -/
  | nil
  /-- `OverflowError`, from unsigned subtraction. -/
  | overflow
  deriving DecidableEq

/-- `payload[offset]`. -/
def byteAt (payload : Bytes) (offset : Nat) : Except Error UInt8 :=
  match payload[offset]? with
  | some byte => .ok byte
  | none => .error .index

/-- `payload[offset, count]`. -/
def sliceAt (payload : Bytes) (offset count : Nat) : Except Error Bytes :=
  if offset + count ≤ payload.length then .ok ((payload.drop offset).take count)
  else .error .index

/-- The first byte, which names the command or the response. -/
def opcode (payload : Bytes) : UInt8 := payload.getD 0 0

/-- The little-endian 32-bit integer at `offset`. -/
def u32At (payload : Bytes) (offset : Nat) : Nat :=
  (payload.getD offset 0).toNat + (payload.getD (offset + 1) 0).toNat * 2 ^ 8
    + (payload.getD (offset + 2) 0).toNat * 2 ^ 16 + (payload.getD (offset + 3) 0).toNat * 2 ^ 24

theorem byteAt_eq {payload : Bytes} {offset : Nat} {b : UInt8} (h : byteAt payload offset = .ok b) :
    payload.getD offset 0 = b := by
  unfold byteAt at h
  split at h <;> simp_all

theorem byteAt_of_lt {payload : Bytes} {offset : Nat} (h : offset < payload.length) :
    byteAt payload offset = .ok (payload.getD offset 0) := by
  simp [byteAt, List.getD, List.getElem?_eq_getElem h]

theorem sliceAt_of_le {payload : Bytes} {offset count : Nat}
    (h : offset + count ≤ payload.length) :
    sliceAt payload offset count = .ok ((payload.drop offset).take count) :=
  if_pos h

theorem opcode_of_head? {payload : Bytes} {code : UInt8} (h : payload[0]? = some code) :
    opcode payload = code := by
  simp [opcode, List.getD, h]

@[simp] theorem opcode_cons (b : UInt8) (p : Bytes) : opcode (b :: p) = b := rfl

end MeshCoreTCPMux

import MeshCoreTCPMux.Protocol.DescriptionSafety

/-!
# The wire log

One line for each decoded frame, with its physical direction and its whole payload unless it is a
CLI body. Frames are logged as they come, before they are validated.
-/

namespace MeshCoreTCPMux

open Protocol

namespace WireLog

inductive Direction
  | tx
  | rx
  deriving DecidableEq

/-- The name of the command or the response, by the side of the socket. -/
def wireName (command : Bool) (payload : Bytes) : String :=
  if payload.length = 0 then "EMPTY"
  else if command then (((descriptor payload).map CommandDescriptor.name).getD "unknown").toUpper
  else (responseName (opcode payload)).toUpper

/-- CLI text can contain credentials on either side of the mux. -/
def wirePayload (command : Bool) (payload : Bytes) : Fragment :=
  let sensitive := if command then cmdRunCliCommand else respCliReply
  if payload.length ≠ 0 ∧ opcode payload = sensitive then redacted else .hex payload

/-- `tx` or `rx`. -/
def Direction.name : Direction → String
  | .tx => "tx"
  | .rx => "rx"

/-- `Protocol.describe_command` or `Protocol.describe_response`. -/
def describe (command : Bool) (payload : Bytes) : Except Error (List Fragment) :=
  if command then describeCommand payload else describeResponse payload

/-- A line of the log: the endpoint, the frame as it is, and its description. -/
def line (endpoint : String) (identity : Int) (direction : Direction) (command : Bool)
    (payload : Bytes) : Except Error (List Fragment) := do
  let description ← describe command payload
  return [.text endpoint, .number identity, .text "): ", .text direction.name, .text " ",
    .text (wireName command payload), .text " payload=", wirePayload command payload, .text " "]
      ++ description

/-- The companion, by its epoch: commands are sent to it. -/
def upstream (epoch : Int) (direction : Direction) (payload : Bytes) :
    Except Error (List Fragment) :=
  line "UPSTREAM(" epoch direction (direction = .tx) payload

/-- A client of the shared port, by its session: commands are received from it. -/
def multiClient (session : Int) (direction : Direction) (payload : Bytes) :
    Except Error (List Fragment) :=
  line "MULTI_CLIENT(" session direction (direction = .rx) payload

/-- A dedicated client, by its port. -/
def dedicatedClient (port : Int) (direction : Direction) (payload : Bytes) :
    Except Error (List Fragment) :=
  line "DEDICATED_CLIENT(" port direction (direction = .rx) payload

/-! ### Which frames can be logged -/

theorem line_ok_iff {endpoint : String} {identity : Int} {direction : Direction} {command : Bool}
    {payload : Bytes} : (∃ text, line endpoint identity direction command payload = .ok text) ↔
      ∃ text, describe command payload = .ok text := by
  unfold line
  constructor
  · rintro ⟨_, h⟩
    obtain ⟨text, htext, -⟩ := Except.bind_eq_ok.mp h
    exact ⟨text, htext⟩
  · rintro ⟨text, htext⟩
    rw [htext]
    exact ⟨_, rfl⟩

/-- A frame can be described as a command and as a response, and logged on every side. -/
def Described (payload : Bytes) : Prop :=
  (∀ includePayload, (∃ text, describeCommand payload includePayload = .ok text) ∧
    ∃ text, describeResponse payload includePayload = .ok text) ∧
  ∀ identity direction, (∃ text, upstream identity direction payload = .ok text) ∧
    (∃ text, multiClient identity direction payload = .ok text) ∧
    ∃ text, dedicatedClient identity direction payload = .ok text

/-- **Log descriptions are total but for one kind of frame.** Every byte string can be described and
logged, except a `TRACE_DATA` whose fixed part is there and whose path bytes are not all there: the
slice of the signal values then starts past the end. -/
theorem described_iff (payload : Bytes) : Described payload ↔
    ¬ (payload[0]? = some pushTraceData ∧ 12 ≤ payload.length ∧
      payload.length < 12 + (payload.getD 2 0).toNat) := by
  constructor
  · exact fun h => (describeResponse_ok_iff true).mp (h.1 true).2
  · intro h
    have hline : ∀ endpoint identity direction command,
        ∃ text, line endpoint identity direction command payload = .ok text := by
      intro endpoint identity direction command
      rw [line_ok_iff]
      cases command with
      | true => exact describeCommand_ok false
      | false => exact (describeResponse_ok_iff false).mpr h
    exact ⟨fun includePayload =>
        ⟨describeCommand_ok includePayload, (describeResponse_ok_iff includePayload).mpr h⟩,
      fun _ _ => ⟨hline _ _ _ _, hline _ _ _ _, hline _ _ _ _⟩⟩

/-- A `TRACE_DATA` that ends before its only path byte. -/
theorem not_all_described : ¬ ∀ payload, Described payload := by
  intro h
  obtain ⟨text, htext⟩ := ((h [pushTraceData, 0, 1, 0, 0, 0, 0, 0, 0, 0, 0, 0]).1 true).2
  have hraises : describeResponse [pushTraceData, 0, 1, 0, 0, 0, 0, 0, 0, 0, 0, 0] true
      = .error .index := by rfl
  cases hraises.symm.trans htext

end WireLog
end MeshCoreTCPMux

import MeshCoreTCPMux.WireLog
import MeshCoreTCPMux.ReceivedMessageDeduplicator
import MeshCoreTCPMux.DedicatedClientSlot

/-!
# The bodies of CLI frames

What follows the opcode of a `RUN_CLI_COMMAND` or of a `CLI_REPLY` may contain credentials. A
`BodyMap` changes such bodies and keeps their lengths; no check, no description and no queueing
decision notices.
-/

namespace MeshCoreTCPMux

open Protocol

/-- A change of bodies, given the opcode, that keeps their lengths. -/
@[ext] structure BodyMap where
  body : UInt8 → Bytes → Bytes
  length_body : ∀ code b, (body code b).length = b.length

namespace BodyMap

variable (f : BodyMap) {code : UInt8} {payload : Bytes}

/-- Change the body of a frame whose opcode is `code`. -/
def frame (code : UInt8) : Bytes → Bytes
  | [] => []
  | op :: body => if op = code then op :: f.body op body else op :: body

@[simp] theorem frame_cons (code : UInt8) (body : Bytes) :
    f.frame code (code :: body) = code :: f.body code body := if_pos rfl

theorem frame_cons_of_ne {op : UInt8} (h : op ≠ code) (body : Bytes) :
    f.frame code (op :: body) = op :: body := if_neg h

theorem frame_of_ne (h : opcode payload ≠ code) : f.frame code payload = payload := by
  cases payload with
  | nil => rfl
  | cons op body => exact f.frame_cons_of_ne h body

@[simp] theorem length_frame (code : UInt8) (payload : Bytes) :
    (f.frame code payload).length = payload.length := by
  cases payload with
  | nil => rfl
  | cons op body =>
    by_cases hop : op = code
    · simp only [hop, frame_cons, List.length_cons, f.length_body]
    · rw [f.frame_cons_of_ne hop]

@[simp] theorem head?_frame (code : UInt8) (payload : Bytes) :
    (f.frame code payload)[0]? = payload[0]? := by
  cases payload with
  | nil => rfl
  | cons op body =>
    by_cases hop : op = code
    · rw [hop, frame_cons]
      rfl
    · rw [f.frame_cons_of_ne hop]

@[simp] theorem opcode_frame (code : UInt8) (payload : Bytes) :
    opcode (f.frame code payload) = opcode payload := by
  simp only [opcode, List.getD, head?_frame]

/-- What depends on the length of a body alone does not notice. -/
theorem blind {α : Type} {g : Bytes → α}
    (h : ∀ b b' : Bytes, b.length = b'.length → g (code :: b) = g (code :: b')) (payload : Bytes) :
    g (f.frame code payload) = g payload := by
  cases payload with
  | nil => rfl
  | cons op body =>
    by_cases hop : op = code
    · subst hop
      rw [frame_cons]
      exact h _ _ (f.length_body _ body)
    · rw [f.frame_cons_of_ne hop]

theorem frame_eq_cons {p body : Bytes} (h : f.frame code p = code :: body) :
    ∃ b, p = code :: b ∧ f.body code b = body := by
  cases p with
  | nil => cases h
  | cons op b =>
    by_cases hop : op = code
    · subst hop
      rw [frame_cons] at h
      exact ⟨b, rfl, (List.cons.inj h).2⟩
    · rw [f.frame_cons_of_ne hop] at h
      exact absurd (List.cons.inj h).1 hop

theorem frame_eq_iff {p q : Bytes} (h : opcode q ≠ code) : f.frame code p = q ↔ p = q := by
  constructor
  · rintro rfl
    rw [opcode_frame] at h
    exact (f.frame_of_ne h).symm
  · rintro rfl
    exact f.frame_of_ne h

/-! ### Commands -/

/-- A client's or the upstream's copy of a command, with another CLI body. -/
abbrev command : Bytes → Bytes := f.frame cmdRunCliCommand

@[simp] theorem descriptor_command (payload : Bytes) :
    descriptor (f.command payload) = descriptor payload :=
  f.blind (fun _ _ _ => rfl) payload

@[simp] theorem validateCommand_command (payload : Bytes) :
    validateCommand (f.command payload) = validateCommand payload := by
  have hshape : commandShapeValid (f.command payload) = commandShapeValid payload := by
    refine f.blind (fun b b' h => ?_) payload
    simp only [commandShapeValid, List.length_cons, h, opcode_cons]
    rfl
  simp only [validateCommand, descriptor_command, hshape]

@[simp] theorem plainDm_command (payload : Bytes) :
    plainDm (f.command payload) = plainDm payload :=
  f.blind (fun _ _ _ => rfl) payload

theorem describeCommand_command (payload : Bytes) (includePayload : Bool) :
    describeCommand (f.command payload) includePayload = describeCommand payload includePayload := by
  refine f.blind (g := fun p => describeCommand p includePayload) (fun b b' h => ?_) payload
  have hdetails (b : Bytes) : commandDetails (cmdRunCliCommand :: b) = [] := rfl
  have hpeer (b : Bytes) : commandPeer (cmdRunCliCommand :: b) = .ok none := rfl
  have hname (b : Bytes) : descriptor (cmdRunCliCommand :: b) = descriptor [cmdRunCliCommand] := rfl
  simp only [describeCommand, hdetails, hpeer, hname b, hname b', List.length_cons, h, opcode_cons,
    List.getElem?_cons_zero]
  rfl

/-! ### Responses -/

/-- A reply with another CLI body. -/
abbrev response : Bytes → Bytes := f.frame respCliReply

@[simp] theorem validateResponseShape_response (payload : Bytes) :
    validateResponseShape (f.response payload) = validateResponseShape payload := by
  refine f.blind (fun b b' h => ?_) payload
  have hshape (b : Bytes) : responseShapeValid (respCliReply :: b) = true :=
    decide_eq_true (Nat.le_add_left 1 b.length)
  simp only [validateResponseShape, hshape, List.length_cons, h, opcode_cons]

theorem validateEcho_response (descriptor : CommandDescriptor) (payload command : Bytes) :
    validateEcho descriptor (f.response payload) command
      = validateEcho descriptor payload command :=
  f.blind (g := fun p => validateEcho descriptor p command) (fun _ _ _ => rfl) payload

theorem validateResponse_response (descriptor : CommandDescriptor) (payload command : Bytes)
    (phase : Nat) : validateResponse descriptor (f.response payload) command phase
      = validateResponse descriptor payload command phase := by
  simp only [validateResponse, opcode_frame, length_frame, validateResponseShape_response,
    validateEcho_response]

/-- An echo is checked for commands other than the CLI's. -/
theorem validateResponse_command {descriptor : CommandDescriptor} {command : Bytes}
    (h : Protocol.descriptor command = some descriptor) (payload : Bytes) (phase : Nat) :
    validateResponse descriptor payload (f.command command) phase
      = validateResponse descriptor payload command phase := by
  by_cases hop : opcode command = cmdRunCliCommand
  · obtain ⟨hmem, hcode⟩ := mem_descriptors h
    have htable : ∀ d ∈ remoteTelemetry :: descriptors, d.opcode = cmdRunCliCommand →
        d.flags.verifyIndex = false ∧ d.flags.verifySubtype = false := by decide
    obtain ⟨hindex, hsubtype⟩ := htable descriptor hmem (hcode.trans hop)
    have hecho (command : Bytes) : validateEcho descriptor payload command = .ok () := by
      simp [validateEcho, hindex, hsubtype]
    simp only [validateResponse, hecho]
  · rw [BodyMap.command, f.frame_of_ne hop]

theorem describeResponse_response (payload : Bytes) (includePayload : Bool) :
    describeResponse (f.response payload) includePayload
      = describeResponse payload includePayload := by
  refine f.blind (g := fun p => describeResponse p includePayload) (fun b b' h => ?_) payload
  have hdetails (b : Bytes) : responseDetails (respCliReply :: b) = [] := rfl
  have hsummary (b : Bytes) : responseSummary (respCliReply :: b) = [] := rfl
  simp only [describeResponse, hdetails, hsummary, List.length_cons, h, opcode_cons]
  rfl

@[simp] theorem identity_response (payload : Bytes) :
    receivedTextMessageIdentity (f.response payload) = receivedTextMessageIdentity payload :=
  f.blind (fun _ _ _ => rfl) payload

@[simp] theorem channelMessage_response (payload : Bytes) :
    DedicatedClientSlot.channelMessage (f.response payload)
      = DedicatedClientSlot.channelMessage payload := by
  simp only [DedicatedClientSlot.channelMessage, head?_frame]

/-! ### The wire log -/

theorem line_command (endpoint : String) (identity : Int) (direction : WireLog.Direction)
    (payload : Bytes) : WireLog.line endpoint identity direction true (f.command payload)
      = WireLog.line endpoint identity direction true payload := by
  have hpayload : WireLog.wirePayload true (f.command payload)
      = WireLog.wirePayload true payload :=
    f.blind (g := WireLog.wirePayload true) (fun _ _ _ => rfl) payload
  simp only [WireLog.line, WireLog.describe, if_true, describeCommand_command, hpayload,
    WireLog.wireName, length_frame, descriptor_command]

theorem line_response (endpoint : String) (identity : Int) (direction : WireLog.Direction)
    (payload : Bytes) : WireLog.line endpoint identity direction false (f.response payload)
      = WireLog.line endpoint identity direction false payload := by
  have hpayload : WireLog.wirePayload false (f.response payload)
      = WireLog.wirePayload false payload :=
    f.blind (g := WireLog.wirePayload false) (fun _ _ _ => rfl) payload
  simp only [WireLog.line, WireLog.describe, Bool.false_eq_true, if_false,
    describeResponse_response, hpayload, WireLog.wireName, length_frame, opcode_frame]

end BodyMap

end MeshCoreTCPMux

import MeshCoreTCPMux.Protocol.Descriptions

/-!
# Which frames can be described

Every part of a description stays within the payload (`whole_commandDetails`,
`whole_responseDetails`), except that a `TRACE_DATA` may count more path bytes than it has
(`whole_describeTraceResult_iff`).
-/

namespace MeshCoreTCPMux
namespace Protocol

/-! ### Parts that raise nothing -/

/-- No part raises. -/
def Whole (parts : Parts) : Prop := ∀ part ∈ parts, ∃ fragment, part = .ok fragment

theorem built_ok_iff {parts : Parts} : (∃ text, built parts = .ok text) ↔ Whole parts := by
  induction parts with
  | nil => exact iff_of_true ⟨_, rfl⟩ (fun _ h => nomatch h)
  | cons part parts ih =>
    simp only [built, List.mapM_cons, id_eq, Except.bind_eq_ok, Except.pure_eq_ok] at ih ⊢
    constructor
    · rintro ⟨_, fragment, rfl, rest, hrest, -⟩
      intro part hpart
      rcases List.mem_cons.mp hpart with rfl | hpart
      · exact ⟨fragment, rfl⟩
      · exact ih.mp ⟨rest, hrest⟩ part hpart
    · intro h
      obtain ⟨fragment, rfl⟩ := h part List.mem_cons_self
      obtain ⟨rest, hrest⟩ := ih.mpr fun p hp => h p (List.mem_cons_of_mem _ hp)
      exact ⟨_, fragment, rfl, rest, hrest, rfl⟩

section
variable {parts : Parts} {payload : Bytes} {offset count : Nat}

@[simp] theorem whole_nil : Whole [] := fun _ h => nomatch h

@[simp] theorem whole_cons {part : Part} :
    Whole (part :: parts) ↔ (∃ fragment, part = .ok fragment) ∧ Whole parts :=
  List.forall_mem_cons

@[simp] theorem whole_concatenated {strings : List Parts} :
    Whole (concatenated strings) ↔ ∀ parts ∈ strings, Whole parts := by
  simp only [Whole, concatenated, List.mem_flatten]
  exact ⟨fun h parts hparts part hpart => h part ⟨parts, hparts, hpart⟩,
    fun h part ⟨parts, hparts, hpart⟩ => h parts hparts part hpart⟩

@[simp] theorem whole_ite {c : Prop} [Decidable c] {parts' : Parts} :
    Whole (if c then parts else parts') ↔ (c → Whole parts) ∧ (¬ c → Whole parts') := by
  split <;> simp_all

/-- One branch at a time. -/
theorem Whole.ite {c : Prop} [Decidable c] {parts' : Parts} (h : c → Whole parts)
    (h' : ¬ c → Whole parts') : Whole (if c then parts else parts') :=
  whole_ite.mpr ⟨h, h'⟩

@[simp] theorem ok_text (s : String) : ∃ fragment, (s : Part) = .ok fragment := ⟨_, rfl⟩

@[simp] theorem ok_number (n : Nat) : ∃ fragment, (n : Part) = .ok fragment := ⟨_, rfl⟩

theorem map_ok_iff {α β : Type} {f : α → β} {x : Except Error α} :
    (∃ b, x.map f = .ok b) ↔ ∃ a, x = .ok a := by
  cases x <;> simp [Except.map]

@[simp] theorem byteAt_ok_iff : (∃ b, byteAt payload offset = .ok b) ↔ offset < payload.length := by
  constructor
  · rintro ⟨b, h⟩
    by_contra hlt
    rw [byteAt, List.getElem?_eq_none (Nat.le_of_not_lt hlt)] at h
    cases h
  · exact fun h => ⟨_, byteAt_of_lt h⟩

@[simp] theorem sliceAt_ok_iff :
    (∃ b, sliceAt payload offset count = .ok b) ↔ offset + count ≤ payload.length := by
  unfold sliceAt
  split <;> simp_all

@[simp] theorem restAt_ok_iff : (∃ b, restAt payload offset = .ok b) ↔ offset ≤ payload.length := by
  unfold restAt
  split <;> simp_all

@[simp] theorem readU32_ok_iff :
    (∃ n, readU32 payload offset = .ok n) ↔ offset + 3 < payload.length := by
  constructor
  · rintro ⟨n, h⟩
    unfold readU32 at h
    simp only [Except.bind_eq_ok] at h
    obtain ⟨_, -, _, -, _, -, b₃, hb₃, -⟩ := h
    exact byteAt_ok_iff.mp ⟨b₃, hb₃⟩
  · intro h
    unfold readU32
    rw [byteAt_of_lt (by omega), byteAt_of_lt (by omega), byteAt_of_lt (by omega), byteAt_of_lt h]
    exact ⟨_, rfl⟩

@[simp] theorem byte_ok_iff : (∃ f, byte payload offset = .ok f) ↔ offset < payload.length := by
  rw [byte, map_ok_iff, byteAt_ok_iff]

@[simp] theorem int8_ok_iff : (∃ f, int8 payload offset = .ok f) ↔ offset < payload.length := by
  rw [int8, map_ok_iff, byteAt_ok_iff]

@[simp] theorem u32_ok_iff : (∃ f, u32 payload offset = .ok f) ↔ offset + 3 < payload.length := by
  rw [u32, map_ok_iff, readU32_ok_iff]

@[simp] theorem i32_ok_iff : (∃ f, i32 payload offset = .ok f) ↔ offset + 3 < payload.length := by
  rw [i32, map_ok_iff, readU32_ok_iff]

@[simp] theorem hexAt_ok_iff :
    (∃ f, hexAt payload offset count = .ok f) ↔ offset + count ≤ payload.length := by
  rw [hexAt, map_ok_iff, sliceAt_ok_iff]

@[simp] theorem hexFrom_ok_iff :
    (∃ f, hexFrom payload offset = .ok f) ↔ offset ≤ payload.length := by
  rw [hexFrom, map_ok_iff, restAt_ok_iff]

@[simp] theorem hexByteAt_ok_iff :
    (∃ f, hexByteAt payload offset = .ok f) ↔ offset < payload.length := by
  rw [hexByteAt, map_ok_iff, byteAt_ok_iff]

@[simp] theorem textFrom_ok_iff :
    (∃ f, textFrom payload offset = .ok f) ↔ offset ≤ payload.length := by
  rw [textFrom, map_ok_iff, restAt_ok_iff]

@[simp] theorem fixedText_ok_iff :
    (∃ f, fixedText payload offset count = .ok f) ↔ offset + count ≤ payload.length := by
  rw [← sliceAt_ok_iff]
  unfold fixedText
  constructor
  · rintro ⟨_, h⟩
    simp only [Except.bind_eq_ok] at h
    obtain ⟨bytes, hbytes, -⟩ := h
    exact ⟨bytes, hbytes⟩
  · rintro ⟨bytes, hbytes⟩
    have hlength : 0 + (bytes.findIdx? (· == 0)).getD bytes.length ≤ bytes.length := by
      cases hfind : bytes.findIdx? (· == 0) with
      | none => simp
      | some i =>
        have hlt := (List.findIdx?_eq_some_iff_findIdx_eq.mp hfind).1
        simpa using Nat.le_of_lt hlt
    rw [hbytes]
    change ∃ f, (do return Fragment.quoted (← sliceAt bytes 0 _)) = Except.ok f
    rw [sliceAt_of_le hlength]
    exact ⟨_, rfl⟩

theorem reading_byteAt (h : offset < payload.length) (parts : UInt8 → Parts) :
    reading (byteAt payload offset) parts = parts (payload.getD offset 0) := by
  rw [byteAt_of_lt h]
  rfl

theorem reading_sliceAt (h : offset + count ≤ payload.length) (parts : Bytes → Parts) :
    reading (sliceAt payload offset count) parts = parts ((payload.drop offset).take count) := by
  rw [sliceAt_of_le h]
  rfl

theorem reading_restAt (h : offset ≤ payload.length) (parts : Bytes → Parts) :
    reading (restAt payload offset) parts = parts (payload.drop offset) := by
  rw [restAt, if_pos h]
  rfl

/-- A path is described by as many bytes as there are. -/
@[simp] theorem whole_describeNormalPath (encoded : UInt8) (available : Bytes) :
    Whole (describeNormalPath encoded available) := by
  unfold describeNormalPath
  split
  · simp
  · simpa using Nat.min_le_right _ _

/-! ### Which frames can be described -/

theorem whole_describeContact : Whole (describeContact payload) := by
  unfold describeContact
  split
  · simp
  · rw [reading_byteAt (by omega), reading_sliceAt (by omega)]
    simp
    omega

theorem whole_describeContactMessage :
    Whole (describeContactMessage payload 1 7 8 9 13) ∧
      Whole (describeContactMessage payload 4 10 11 12 16) := by
  unfold describeContactMessage
  simp
  omega

theorem whole_describeChannelMessage :
    Whole (describeChannelMessage payload 1 2 3 4 8) ∧
      Whole (describeChannelMessage payload 4 5 6 7 11) := by
  unfold describeChannelMessage
  simp
  omega

theorem whole_describeDiscoveryPaths : Whole (describeDiscoveryPaths payload) := by
  unfold describeDiscoveryPaths
  split
  · simp
  · next hlength =>
    rw [reading_byteAt (by omega)]
    generalize (normalEncodedPathBytes (payload.getD 8 0)).getD 0 = outSize
    simp only
    rw [reading_sliceAt (by omega)]
    simp only [whole_concatenated, List.mem_cons, List.not_mem_nil, or_false, forall_eq_or_imp,
      forall_eq, whole_cons, ok_text, whole_describeNormalPath, true_and, whole_ite]
    refine ⟨fun _ => whole_nil, fun hcursor => ?_⟩
    rw [reading_byteAt (by omega), reading_sliceAt (by omega)]
    simp

theorem whole_describeTraceResult_iff :
    Whole (describeTraceResult payload) ↔
      ¬ (12 ≤ payload.length ∧ payload.length < 12 + (payload.getD 2 0).toNat) := by
  unfold describeTraceResult
  split
  · simp
    omega
  · next hlength =>
    rw [reading_byteAt (by omega), reading_byteAt (by omega)]
    generalize (payload.getD 2 0).toNat = pathBytes
    generalize 2 ^ (payload.getD 3 0 &&& pathWidthShiftMask).toNat = width
    simp only
    generalize pathBytes / width = hopCount
    simp
    omega

/-- A peer is cut out of the bytes that are there. -/
theorem commandPeer_ok : ∃ peer, commandPeer payload = .ok peer := by
  unfold commandPeer
  simp only
  split
  · exact ⟨_, rfl⟩
  · next offset _ =>
    split
    · next hlength =>
      rw [sliceAt_of_le (by omega)]
      exact ⟨_, rfl⟩
    · exact ⟨_, rfl⟩

theorem whole_commandDetails : Whole (commandDetails payload) := by
  unfold commandDetails
  refine .ite (fun _ => whole_nil) fun hlength => .ite (fun _ => ?_) fun _ => ?_
  · simp
    omega
  refine .ite (fun _ => ?_) fun _ => .ite (fun _ => ?_) fun _ =>
    .ite (fun _ => whole_describeContact) fun _ => .ite (fun _ => ?_) fun _ => ?_
  · simp
    omega
  · simp
    omega
  · simp
    omega
  refine .ite (fun _ => .ite (fun _ => whole_nil) fun _ => ?_) fun _ => ?_
  · rw [reading_byteAt (by omega)]
    simp
    omega
  refine .ite (fun _ => .ite (fun _ => whole_nil) fun _ => ?_) fun _ => ?_
  · rw [reading_byteAt (by omega), reading_restAt (by omega)]
    simp
    omega
  refine .ite (fun _ => ?_) fun _ => ?_
  · simp
    omega
  refine .ite (fun _ => .ite (fun _ => whole_nil) fun _ => ?_) fun _ => ?_
  · rw [reading_byteAt (by omega)]
    split
    · rw [reading_restAt (by omega)]
      simp
      omega
    · simp [reading]
      omega
  refine .ite (fun _ => ?_) fun _ => whole_nil
  simp
  omega

theorem whole_responseSummary : Whole (responseSummary payload) := by
  unfold responseSummary
  simp
  omega

/-- Every branch but that of `TRACE_DATA` stays within the payload. -/
theorem whole_responseDetails (h : opcode payload = pushTraceData →
      Whole (describeTraceResult payload)) :
    Whole (responseDetails payload) := by
  unfold responseDetails
  refine .ite (fun _ => whole_nil) fun hlength => .ite (fun _ => whole_describeContact) fun _ =>
    .ite (fun _ => ?_) fun _ => .ite (fun _ => ?_) fun _ => .ite (fun _ => ?_) fun _ => ?_
  · simp
    omega
  · simp
    omega
  · simp
    omega
  refine .ite (fun _ => whole_describeContactMessage.1) fun _ => .ite (fun _ => ?_) fun _ =>
    .ite (fun _ => whole_describeChannelMessage.1) fun _ => .ite (fun _ => ?_) fun _ => ?_
  · simp [whole_describeContactMessage.2]
    omega
  · simp [whole_describeChannelMessage.2]
    omega
  refine .ite (fun _ => .ite (fun _ => whole_nil) fun _ => ?_) fun _ =>
    .ite h fun _ => .ite (fun _ => ?_) fun _ => .ite (fun _ => ?_) fun _ =>
    .ite (fun _ => whole_describeDiscoveryPaths) fun _ => whole_nil
  · rw [reading_byteAt (by omega), reading_restAt (by omega)]
    simp
  · simp
    omega
  · simp
    omega

/-- A `TRACE_DATA` is described by its own branch. -/
theorem responseDetails_traceData (h : opcode payload = pushTraceData)
    (hlength : payload.length ≠ 0) : responseDetails payload = describeTraceResult payload := by
  unfold responseDetails
  rw [if_neg hlength]
  simp only [h]
  rfl

theorem describeCommand_ok (includePayload : Bool) :
    ∃ text, describeCommand payload includePayload = .ok text := by
  unfold describeCommand
  rw [built_ok_iff]
  obtain ⟨peer, hpeer⟩ := @commandPeer_ok payload
  have hdetails : Whole (commandDetails payload) := whole_commandDetails
  rw [hpeer]
  cases peer <;> simp [hdetails, reading]

theorem describeResponse_ok_iff (includePayload : Bool) :
    (∃ text, describeResponse payload includePayload = .ok text) ↔
      ¬ (payload[0]? = some pushTraceData ∧ 12 ≤ payload.length ∧
        payload.length < 12 + (payload.getD 2 0).toNat) := by
  unfold describeResponse
  rw [built_ok_iff]
  by_cases hlength : payload.length = 0
  · rw [if_pos hlength]
    refine iff_of_true (by simp) fun h => ?_
    omega
  have hop : payload[0]? = some pushTraceData ↔ opcode payload = pushTraceData := by
    simp [opcode, List.getD, List.getElem?_eq_getElem (Nat.pos_of_ne_zero hlength)]
  have hsummary : Whole (responseSummary payload) := whole_responseSummary
  rw [if_neg hlength, hop]
  by_cases htrace : opcode payload = pushTraceData
  · rw [responseDetails_traceData htrace hlength]
    simp [hsummary, htrace, whole_describeTraceResult_iff]
  · have hdetails : Whole (responseDetails payload) :=
      whole_responseDetails fun h => absurd h htrace
    simp [hsummary, hdetails, htrace]

end
end Protocol
end MeshCoreTCPMux

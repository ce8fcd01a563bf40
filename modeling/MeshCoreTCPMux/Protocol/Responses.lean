import MeshCoreTCPMux.Protocol.Commands

/-!
# Response validation

`validateResponseShape` checks an upstream frame by itself; `validateResponse` also checks that an
ordinary reply belongs to the command that is waiting for it and to the phase of that command's
stream. `downgradeInbox` and `downstreamDeviceInfo` rewrite the two kinds of frame that a client does
not receive byte for byte.
-/

namespace MeshCoreTCPMux
namespace Protocol

/-- Whether a reply retains the active owner or permits scheduling another command. -/
inductive ResponseDisposition
  | progress
  | complete
  deriving DecidableEq, Repr

def statsResponseValid (p : Bytes) : Bool :=
  if p.length < 2 then false
  else if p.getD 1 0 = statsTypeCore then p.length = 11
  else if p.getD 1 0 = statsTypeRadio then p.length = 14
  else if p.getD 1 0 = statsTypePacket then p.length = 30
  else false

/-- A 12-byte prefix, path hashes, one SNR per hop and a final SNR byte. Byte 2 counts path bytes;
the low two bits of byte 3 encode log2 of the hash width. -/
def traceResponseValid (p : Bytes) : Bool :=
  if p.length < 13 then false
  else
    let pathBytes := (p.getD 2 0).toNat
    let hashWidth := 2 ^ (p.getD 3 0 &&& pathWidthShiftMask).toNat
    pathBytes % hashWidth = 0 ∧ pathBytes / hashWidth ≤ maxPathSize ∧
      p.length = 12 + pathBytes + pathBytes / hashWidth + 1

/-- A five-byte prefix, the encoded path length at byte 5, and the path hashes. -/
def advertPathResponseValid (p : Bytes) : Bool :=
  if p.length < 6 then false
  else match normalEncodedPathBytes (p.getD 5 0) with
    | none => false
    | some pathSize => p.length = 6 + pathSize

/-- Walk the outbound and inbound length-prefixed paths after the eight-byte prefix; neither
truncation nor trailing bytes are legal. -/
def pathDiscoveryResponseValid (p : Bytes) : Bool :=
  if p.length < 10 then false
  else match normalEncodedPathBytes (p.getD 8 0) with
    | none => false
    | some outSize =>
      if 8 + 1 + outSize ≥ p.length then false
      else match normalEncodedPathBytes (p.getD (8 + 1 + outSize) 0) with
        | none => false
        | some inSize => 8 + 1 + outSize + 1 + inSize = p.length

/-- Both DM formats carry a text type at the supplied offset. Signed text (type 2) adds a four-byte
sender prefix beyond the format's normal header. -/
def contactTextResponseValid (p : Bytes) (baseSize typeOffset : Nat) : Bool :=
  if p.length < baseSize then false
  else p.getD typeOffset 0 ≠ 2 ∨ p.length ≥ baseSize + 4

/-- The layout of a nonempty frame of at most `maxPayload` bytes. Unknown pushes are opaque;
unknown ordinary responses are fatal. -/
def responseShapeValid (p : Bytes) : Bool :=
  let n := p.length
  let op := opcode p
  if op ∈ [respOk, respNoMoreMessages, respDisabled] then n = 1
  else if op = respErr then n = 2
  else if op ∈ [respContactsStart, respEndOfContacts, respCurrentTime] then n = 5
  else if op ∈ [respContact, pushNewAdvert] then n = 148
  else if op = respSelfInfo then 58 ≤ n
  else if op = respSent then n = 10
  else if op = respContactMessage then contactTextResponseValid p 13 8
  else if op = respChannelMessage then 8 ≤ n
  else if op = respExportContact then 2 ≤ n
  else if op = respBatteryAndStorage then n = 11
  else if op = respDeviceInfo then
    deviceInfoSize ≤ n ∧ minSupportedUpstreamProtocolLevel ≤ p.getD 1 0
  else if op = respCliReply then 1 ≤ n
  else if op ∈ [respPrivateKey, respSignature] then n = 65
  else if op = respContactMessageV3 then contactTextResponseValid p 16 11
  else if op = respChannelMessageV3 then 11 ≤ n
  else if op = respChannelInfo then n = 50
  else if op = respSignStart then n = 6
  else if op = respCustomVars then 1 ≤ n
  else if op = respAdvertPath then advertPathResponseValid p
  else if op = respTuningParams then n = 9
  else if op = respStats then statsResponseValid p
  else if op = respAutoaddConfig then n = 3
  else if op = respAllowedRepeatFreq then 1 ≤ n ∧ (n - 1) % 8 = 0
  else if op = respChannelData then 9 ≤ n ∧ n = 9 + (p.getD 8 0).toNat
  else if op = respDefaultFloodScope then n = 1 ∨ n = 48
  else if op ∈ [pushAdvert, pushPathUpdated] then n = 33
  else if op = pushSendConfirmed then n = 9
  else if op ∈ [pushRawData, pushControlData] then 4 ≤ n
  else if op = pushLogRxData then 3 ≤ n
  else if op ∈ [pushMsgWaiting, pushContactsFull] then n = 1
  else if op = pushContactDeleted then n = 33
  else if op = pushLoginSuccess then n = 8 ∨ 14 ≤ n
  else if op ∈ [pushLoginFailure, pushTelemetryResponse] then 8 ≤ n
  else if op = pushStatusResponse then 9 ≤ n
  else if op = pushPathDiscoveryResponse then pathDiscoveryResponseValid p
  else if op = pushTraceData then traceResponseValid p
  else if op = pushBinaryResponse then 6 ≤ n
  else op ≥ pushAdvert

/-- Validate ordinary replies and asynchronous pushes without assuming an owner. -/
def validateResponseShape (p : Bytes) : Except Error Unit :=
  if p.length = 0 then .error (.protocol ["empty upstream payload"])
  else if p.length > maxPayload then .error (.protocol ["oversized upstream payload"])
  else if responseShapeValid p then .ok ()
  else .error (.protocol ["malformed response 0x", .hex (opcode p), " (", p.length, " bytes)"])

/-- The index or subtype that a `CHANNEL_INFO` or `STATS` reply must echo. -/
def validateEcho (descriptor : CommandDescriptor) (payload command : Bytes) : Except Error Unit :=
  if opcode payload = respChannelInfo ∧ descriptor.flags.verifyIndex then do
    if (← byteAt payload 1) ≠ (← byteAt command 1) then
      throw (.protocol ["channel response index mismatch"])
  else if opcode payload = respStats ∧ descriptor.flags.verifySubtype then do
    if (← byteAt payload 1) ≠ (← byteAt command 1) then
      throw (.protocol ["stats response subtype mismatch"])
  else .ok ()

/-- The reply code that a contacts stream admits next: `CONTACTS_START` in phase 0, records and
`END_OF_CONTACTS` in phase 1. -/
def contactsExpected (phase : Nat) (code : UInt8) : Bool :=
  if phase = 0 then code = respContactsStart
  else phase = 1 ∧ (code = respContact ∨ code = respEndOfContacts)

/-- Validate ownership as well as shape: a reply must belong to this command and its stream phase.
`ERR` terminates any command; only `END_OF_CONTACTS` completes a contacts stream. -/
def validateResponse (descriptor : CommandDescriptor) (payload : Bytes) (command : Bytes)
    (phase : Nat) : Except Error ResponseDisposition :=
  let code := opcode payload
  if payload.length = 0 then .error (.protocol ["empty upstream payload"])
  else if payload.length > maxPayload then .error (.protocol ["oversized upstream payload"])
  else if code = respErr then
    if payload.length ≠ 2 then .error (.protocol ["malformed ERR response"]) else .ok .complete
  else if code ∉ descriptor.successCodes then
    .error (.protocol ["unexpected response 0x", .hex code, " for ", descriptor.name])
  else do
    validateResponseShape payload
    if descriptor.grammar = .contacts ∧ ¬ contactsExpected phase code then
      .error (.protocol ["out-of-order contacts response"])
    else do
      validateEcho descriptor payload command
      .ok (if descriptor.grammar = .contacts ∧ code ≠ respEndOfContacts then .progress
        else .complete)

/-- What a valid reply other than `ERR` satisfies. -/
theorem validateResponse_eq_ok {descriptor : CommandDescriptor} {payload command : Bytes}
    {phase : Nat} {disposition : ResponseDisposition}
    (h : validateResponse descriptor payload command phase = .ok disposition)
    (herr : opcode payload ≠ respErr) :
    opcode payload ∈ descriptor.successCodes ∧ validateResponseShape payload = .ok () ∧
      (descriptor.grammar = .contacts → contactsExpected phase (opcode payload) = true) ∧
      (disposition = .progress ↔
        descriptor.grammar = .contacts ∧ opcode payload ≠ respEndOfContacts) := by
  simp only [validateResponse, herr, if_false] at h
  split at h
  · cases h
  split at h
  · cases h
  split at h
  · cases h
  next hcode =>
    simp only [Except.bind_eq_ok] at h
    obtain ⟨_, hshape, h⟩ := h
    split at h
    · cases h
    next hphase =>
      simp only [Except.bind_eq_ok] at h
      obtain ⟨_, -, h⟩ := h
      refine ⟨not_not.mp hcode, hshape, fun hgrammar => ?_, ?_⟩
      · simpa [hgrammar] using hphase
      · rw [← Except.ok.inj h]
        split
        · next hprogress => simpa using hprogress
        · next hcomplete => simpa using hcomplete

/-- `ERR` terminates any command. -/
theorem validateResponse_err {descriptor : CommandDescriptor} {payload command : Bytes}
    {phase : Nat} {disposition : ResponseDisposition}
    (h : validateResponse descriptor payload command phase = .ok disposition)
    (herr : opcode payload = respErr) : payload.length = 2 ∧ disposition = .complete := by
  simp only [validateResponse, herr, if_true] at h
  split at h
  · cases h
  split at h
  · cases h
  split at h
  · cases h
  next hlength => exact ⟨not_not.mp hlength, (Except.ok.inj h).symm⟩

/-- The codes of a destructively popped inbox item. -/
def inboxItemCodes : List UInt8 :=
  [respContactMessage, respChannelMessage, respContactMessageV3, respChannelMessageV3,
    respChannelData]

/-- Clients targeting pre-V3 messages lack the three-byte SNR prefix: remove only that metadata and
preserve the body. -/
def downgradeInbox (payload : Bytes) (targetVersion : UInt8) : Except Error Bytes := do
  validateResponseShape payload
  if targetVersion ≥ 3 then return payload
  if opcode payload = respContactMessageV3 then return respContactMessage :: payload.drop 4
  if opcode payload = respChannelMessageV3 then return respChannelMessage :: payload.drop 4
  return payload

/-- A well-formed frame can be rewritten for every client. -/
theorem exists_downgradeInbox {payload : Bytes} (h : validateResponseShape payload = .ok ())
    (targetVersion : UInt8) : ∃ visible, downgradeInbox payload targetVersion = .ok visible := by
  unfold downgradeInbox
  rw [h]
  simp only [bind, Except.bind]
  split
  · exact ⟨_, rfl⟩
  split
  · exact ⟨_, rfl⟩
  split <;> exact ⟨_, rfl⟩

/-- The firmware level of a well-formed `DEVICE_INFO`. -/
def validateDeviceInfo (payload : Bytes) : Except Error UInt8 := do
  if ¬ (deviceInfoSize ≤ payload.length ∧ payload.length ≤ maxPayload ∧
      opcode payload = respDeviceInfo) then
    throw (.protocol ["malformed DEVICE_INFO"])
  let actual := payload.getD 1 0
  if actual < minSupportedUpstreamProtocolLevel then
    throw (.protocol ["unsupported firmware protocol level ", actual, "; minimum ",
      minSupportedUpstreamProtocolLevel])
  return actual

/-- Advertise only implemented capabilities and their known record shape. -/
def downstreamDeviceInfo (payload : Bytes) : Except Error Bytes := do
  let actual ← validateDeviceInfo payload
  return (payload.take deviceInfoSize).set 1 (min actual maxExposedProtocolLevel)

/-! ### The logical identity of a received text -/

/-- `byte.to_s(16).rjust(2, '0')`. -/
def hexByte (byte : UInt8) : String :=
  String.ofList [Nat.digitChar (byte.toNat / 16), Nat.digitChar (byte.toNat % 16)]

/-- Render wire bytes in a stable form. -/
def hex (bytes : Bytes) : String := String.join (bytes.map hexByte)

/-- Direct-message identity includes the six-byte sender prefix. -/
def receivedContactMessageIdentity (payload : Bytes)
    (senderOffset typeOffset timestampOffset bodyOffset : Nat) : Option String :=
  if payload.length < bodyOffset then none
  else some ("direct:" ++ hex ((payload.drop senderOffset).take 6) ++ ":"
    ++ toString (payload.getD typeOffset 0).toNat ++ ":"
    ++ toString (u32At payload timestampOffset) ++ ":" ++ hex (payload.drop bodyOffset))

/-- Channel text carries its display sender inside the message bytes, so channel index plus the
full body supplies the available logical source. -/
def receivedChannelMessageIdentity (payload : Bytes)
    (channelOffset typeOffset timestampOffset bodyOffset : Nat) : Option String :=
  if payload.length < bodyOffset then none
  else some ("channel:" ++ toString (payload.getD channelOffset 0).toNat ++ ":"
    ++ toString (payload.getD typeOffset 0).toNat ++ ":"
    ++ toString (u32At payload timestampOffset) ++ ":" ++ hex (payload.drop bodyOffset))

/-- A version-independent logical identity for inbox text. Path and V3 SNR describe one particular
reception and do not distinguish copies. -/
def receivedTextMessageIdentity (payload : Bytes) : Option String :=
  if payload.length = 0 then none
  else if opcode payload = respContactMessage then
    receivedContactMessageIdentity payload 1 8 9 13
  else if opcode payload = respContactMessageV3 then
    receivedContactMessageIdentity payload 4 11 12 16
  else if opcode payload = respChannelMessage then
    receivedChannelMessageIdentity payload 1 3 4 8
  else if opcode payload = respChannelMessageV3 then
    receivedChannelMessageIdentity payload 4 6 7 11
  else none

end Protocol
end MeshCoreTCPMux

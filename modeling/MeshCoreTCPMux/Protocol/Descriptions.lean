import MeshCoreTCPMux.Protocol.Responses

/-!
# Descriptions of frames

The texts that the logs hold about a command or a response. A frame is described before it is
validated, and for wire-level logs as a whole.

A text is the list of the parts that its source string interpolates. Each part may raise: every read
of the payload is a part or stands in front of the parts that depend on it. How a number or an
escaped string is printed is left out.
-/

namespace MeshCoreTCPMux
namespace Protocol

/-- One interpolated part of a description, printed. -/
inductive Fragment
  | text (s : String)
  | number (n : Int)
  /-- `hex(bytes)`. -/
  | hex (bytes : Bytes)
  /-- `hex_byte(byte)`. -/
  | hexByte (byte : Option UInt8)
  /-- `String.new(bytes).inspect`. -/
  | quoted (bytes : Bytes)
  deriving DecidableEq

abbrev Part := Except Error Fragment

instance : Coe String Part := ⟨fun s => .ok (.text s)⟩

instance : Coe Nat Part := ⟨fun n => .ok (.number n)⟩

/-- The parts of a string, in the order in which they are evaluated. -/
abbrev Parts := List Part

/-- Strings joined by `+`. -/
def concatenated (strings : List Parts) : Parts := strings.flatten

/-- The string, or the first exception. -/
def built (parts : Parts) : Except Error (List Fragment) := parts.mapM id

/-- Evaluate something that the parts depend on. -/
def reading {α : Type} (value : Except Error α) (parts : α → Parts) : Parts :=
  match value with
  | .ok a => parts a
  | .error e => [.error e]

/-! ### Parts that read the payload -/

/-- `payload[offset..]`. -/
def restAt (payload : Bytes) (offset : Nat) : Except Error Bytes :=
  if offset ≤ payload.length then .ok (payload.drop offset) else .error .index

def readU32 (payload : Bytes) (offset : Nat) : Except Error Nat := do
  let b₀ ← byteAt payload offset
  let b₁ ← byteAt payload (offset + 1)
  let b₂ ← byteAt payload (offset + 2)
  let b₃ ← byteAt payload (offset + 3)
  return b₀.toNat + b₁.toNat * 2 ^ 8 + b₂.toNat * 2 ^ 16 + b₃.toNat * 2 ^ 24

def byte (payload : Bytes) (offset : Nat) : Part :=
  (byteAt payload offset).map fun b => .number b.toNat

/-- `payload[offset].unsafe_as(Int8)`. -/
def int8 (payload : Bytes) (offset : Nat) : Part :=
  (byteAt payload offset).map fun b => .number b.toInt8.toInt

def u32 (payload : Bytes) (offset : Nat) : Part :=
  (readU32 payload offset).map fun n : Nat => .number n

/-- `read_i32`, the same bits as a signed number. -/
def i32 (payload : Bytes) (offset : Nat) : Part :=
  (readU32 payload offset).map fun n : Nat => .number (if n < 2 ^ 31 then n else n - 2 ^ 32)

def hexAt (payload : Bytes) (offset count : Nat) : Part := (sliceAt payload offset count).map .hex

def hexFrom (payload : Bytes) (offset : Nat) : Part := (restAt payload offset).map .hex

def hexByteAt (payload : Bytes) (offset : Nat) : Part :=
  (byteAt payload offset).map fun b => .hexByte (some b)

def textFrom (payload : Bytes) (offset : Nat) : Part := (restAt payload offset).map .quoted

/-- Native fixed text fields are NUL-padded. -/
def fixedText (payload : Bytes) (offset count : Nat) : Part := do
  let bytes ← sliceAt payload offset count
  let length := (bytes.findIdx? (· == 0)).getD bytes.length
  return .quoted (← sliceAt bytes 0 length)

/-! ### Paths -/

def describeNormalPath (encoded : UInt8) (available : Bytes) : Parts :=
  if encoded = noPathEncoding then ["path_encoding=0xff path=none"]
  else
    let count := (encoded &&& pathCountMask).toNat
    let width := (encoded >>> 6).toNat + 1
    let wanted := count * width
    let present := min wanted available.length
    ["path_encoding=", .ok (.hexByte (some encoded)), " path_hashes=", count, " hash_width=", width,
      " path=", hexAt available 0 present]

def describeTraceResult (payload : Bytes) : Parts :=
  if payload.length < 12 then []
  else
    reading (byteAt payload 2) fun pathByte =>
    reading (byteAt payload 3) fun widthByte =>
      let pathBytes := pathByte.toNat
      let width := 2 ^ (widthByte &&& pathWidthShiftMask).toNat
      let present := min pathBytes (payload.length - 12)
      let hopCount := pathBytes / width
      let snrOffset := 12 + pathBytes
      let snrCount := min (hopCount + 1) (payload.length - snrOffset)
      [" tag=", u32 payload 4, " auth=", u32 payload 8, " hash_width=", width, " path_bytes=",
        pathBytes, " hashes=", hexAt payload 12 present, " snr_quarters=",
        hexAt payload snrOffset snrCount]

def describeDiscoveryPaths (payload : Bytes) : Parts :=
  if payload.length < 10 then []
  else
    reading (byteAt payload 8) fun outEncoded =>
      let outSize := (normalEncodedPathBytes outEncoded).getD 0
      let outAvailable := min outSize (payload.length - 8 - 1)
      let cursor := 8 + (1 + outSize)
      concatenated [
        reading (sliceAt payload (8 + 1) outAvailable) fun path =>
          " outbound_" :: describeNormalPath outEncoded path,
        if cursor ≥ payload.length then []
        else
          reading (byteAt payload cursor) fun inEncoded =>
            let inSize := (normalEncodedPathBytes inEncoded).getD 0
            let inAvailable := min inSize (payload.length - cursor - 1)
            reading (sliceAt payload (cursor + 1) inAvailable) fun path =>
              " inbound_" :: describeNormalPath inEncoded path]

/-! ### Commands -/

/-- The public key in a command to a peer, or as much of it as there is. -/
def commandPeer (payload : Bytes) : Except Error (Option Bytes) :=
  let op := opcode payload
  let offset : Option Nat :=
    if payload.length = 0 then none
    else if op ∈ [cmdResetPath, cmdRemoveContact, cmdShareContact, cmdSendLogin, cmdSendStatusReq,
        cmdHasConnection, cmdLogout, cmdGetContactByKey, cmdSendBinaryReq, cmdSendAnonReq] then
      some 1
    else if op = cmdSendTelemetryReq then if payload.length ≥ 36 then some 4 else none
    else if op = cmdSendPathDiscoveryReq then some 2
    else none
  match offset with
  | none => .ok none
  | some offset =>
    if payload.length ≥ offset + 6 then
      (sliceAt payload offset (min 32 (payload.length - offset))).map some
    else .ok none

/-- The fields that `ADD_UPDATE_CONTACT`, `CONTACT` and `NEW_ADVERT` share. -/
def describeContact (payload : Bytes) : Parts :=
  if payload.length < 132 then []
  else
    concatenated [
      [" contact_key=", hexAt payload 1 32, " contact_type=", byte payload 33, " flags=",
        byte payload 34, " "],
      reading (byteAt payload 35) fun encoded => reading (sliceAt payload 36 64) fun path =>
        describeNormalPath encoded path,
      [" name=", fixedText payload 100 32],
      if payload.length ≥ 144 then
        [" latitude_microdegrees=", i32 payload 136, " longitude_microdegrees=", i32 payload 140]
      else [],
      if payload.length ≥ 148 then [" last_modified=", u32 payload 144] else []]

/-- Descriptions also run for rejected frames, so that only fields whose offsets are present are
decoded. -/
def commandDetails (payload : Bytes) : Parts :=
  let op := opcode payload
  if payload.length = 0 then []
  else if op = cmdSendTxtMsg then
    if payload.length < 13 then []
    else [" type=", byte payload 1, " attempt=", byte payload 2, " timestamp=", u32 payload 3,
      " destination=", hexAt payload 7 6, " text=", textFrom payload 13]
  else if op = cmdSendChannelTxtMsg then
    if payload.length < 7 then []
    else [" type=", byte payload 1, " channel=", byte payload 2, " timestamp=", u32 payload 3,
      " text=", textFrom payload 7]
  else if op = cmdSetAdvertName then
    if payload.length > 1 then [" name=", textFrom payload 1] else []
  else if op = cmdAddUpdateContact then describeContact payload
  else if op = cmdSetAdvertLatlon then
    if payload.length < 9 then []
    else concatenated [
      [" latitude_microdegrees=", i32 payload 1, " longitude_microdegrees=", i32 payload 5],
      if payload.length ≥ 13 then [" altitude=", i32 payload 9] else []]
  else if op = cmdSendRawData then
    if payload.length < 2 then []
    else
      reading (byteAt payload 1) fun pathByte =>
        let pathBytes := pathByte.toNat
        let available := min pathBytes (payload.length - 2)
        let dataOffset := 2 + pathBytes
        concatenated [
          [" path_bytes=", pathBytes, " path=", hexAt payload 2 available],
          if dataOffset ≤ payload.length then [" data=", hexFrom payload dataOffset] else []]
  else if op = cmdSendTracePath then
    if payload.length < 10 then []
    else
      reading (byteAt payload 9) fun widthByte => reading (restAt payload 10) fun hashes =>
        let width : Nat := 2 ^ (widthByte &&& pathWidthShiftMask).toNat
        [" tag=", u32 payload 1, " auth=", u32 payload 5, " hash_width=", width, " path_bytes=",
          hashes.length, " hashes=", .ok (.hex hashes)]
  else if op = cmdSetChannel then
    if payload.length < 34 then []
    else [" channel=", byte payload 1, " name=", fixedText payload 2 32]
  else if op = cmdSendChannelData then
    if payload.length < 3 then []
    else
      reading (byteAt payload 2) fun encoded =>
      reading (if payload.length > 3 then restAt payload 3 else .ok []) fun path =>
        concatenated [[" channel=", byte payload 1, " "], describeNormalPath encoded path]
  else if op = cmdSendRawPacket then
    if payload.length > 1 then [" packet=", hexFrom payload 1] else []
  else []

/-- What a frame that must not be logged is replaced with. -/
def redacted : Fragment := .text "[redacted]"

/-- The body of a local CLI command may contain credentials. -/
def describeCommand (payload : Bytes) (includePayload : Bool := false) :
    Except Error (List Fragment) :=
  let name := ((descriptor payload).map CommandDescriptor.name).getD "unknown"
  built <| concatenated [
    ["command=", .ok (.text name), " opcode=", .ok (.hexByte payload[0]?), " command_bytes=",
      payload.length],
    reading (commandPeer payload) fun
      | some peer => [" peer=", .ok (.hex peer)]
      | none => [],
    commandDetails payload,
    if includePayload then
      if payload.length ≠ 0 ∧ opcode payload = cmdRunCliCommand then [" payload=", .ok redacted]
      else [" payload=", .ok (.hex payload)]
    else []]

/-! ### Responses -/

def responseNames : List (UInt8 × String) :=
  [(respOk, "ok"), (respErr, "err"), (respContactsStart, "contacts_start"),
    (respContact, "contact"), (respEndOfContacts, "end_of_contacts"), (respSelfInfo, "self_info"),
    (respSent, "sent"), (respContactMessage, "contact_message"),
    (respChannelMessage, "channel_message"), (respCurrentTime, "current_time"),
    (respNoMoreMessages, "no_more_messages"), (respExportContact, "export_contact"),
    (respBatteryAndStorage, "battery_and_storage"), (respDeviceInfo, "device_info"),
    (respPrivateKey, "private_key"), (respDisabled, "disabled"),
    (respContactMessageV3, "contact_message_v3"), (respChannelMessageV3, "channel_message_v3"),
    (respChannelInfo, "channel_info"), (respSignStart, "sign_start"), (respSignature, "signature"),
    (respCustomVars, "custom_vars"), (respAdvertPath, "advert_path"),
    (respTuningParams, "tuning_params"), (respStats, "stats"),
    (respAutoaddConfig, "autoadd_config"), (respAllowedRepeatFreq, "allowed_repeat_freq"),
    (respChannelData, "channel_data"), (respDefaultFloodScope, "default_flood_scope"),
    (respCliReply, "cli_reply"), (pushAdvert, "advert"), (pushPathUpdated, "path_updated"),
    (pushSendConfirmed, "send_confirmed"), (pushMsgWaiting, "msg_waiting"),
    (pushRawData, "raw_data"), (pushLoginSuccess, "login_success"),
    (pushLoginFailure, "login_failure"), (pushStatusResponse, "status_response"),
    (pushLogRxData, "log_rx_data"), (pushTraceData, "trace_data"), (pushNewAdvert, "new_advert"),
    (pushTelemetryResponse, "telemetry_response"), (pushBinaryResponse, "binary_response"),
    (pushPathDiscoveryResponse, "path_discovery_response"), (pushControlData, "control_data"),
    (pushContactDeleted, "contact_deleted"), (pushContactsFull, "contacts_full")]

def responseName (code : UInt8) : String :=
  (responseNames.lookup code).getD ("push_" ++ toString code.toNat)

def describeContactMessage (payload : Bytes)
    (peerOffset pathOffset typeOffset timestampOffset bodyOffset : Nat) : Parts :=
  if payload.length < bodyOffset then []
  else [" sender=", hexAt payload peerOffset 6, " path_encoding=", hexByteAt payload pathOffset,
    " type=", byte payload typeOffset, " timestamp=", u32 payload timestampOffset, " text=",
    textFrom payload bodyOffset]

def describeChannelMessage (payload : Bytes)
    (channelOffset pathOffset typeOffset timestampOffset bodyOffset : Nat) : Parts :=
  if payload.length < bodyOffset then []
  else [" channel=", byte payload channelOffset, " path_encoding=", hexByteAt payload pathOffset,
    " type=", byte payload typeOffset, " timestamp=", u32 payload timestampOffset, " text=",
    textFrom payload bodyOffset]

def responseDetails (payload : Bytes) : Parts :=
  let op := opcode payload
  if payload.length = 0 then []
  else if op ∈ [respContact, pushNewAdvert] then describeContact payload
  else if op = respSelfInfo then
    if payload.length < 58 then []
    else concatenated [
      [" node_type=", byte payload 1, " tx_power=", byte payload 2, " max_tx_power=",
        byte payload 3, " public_key=", hexAt payload 4 32, " latitude_microdegrees=",
        i32 payload 36, " longitude_microdegrees=", i32 payload 40, " frequency_hz=",
        u32 payload 48, " bandwidth_hz=", u32 payload 52, " spreading_factor=", byte payload 56,
        " coding_rate=", byte payload 57],
      if payload.length > 58 then [" name=", textFrom payload 58] else []]
  else if op = respDeviceInfo then
    if payload.length < 82 then []
    else [" protocol=", byte payload 1, " max_contacts_half=", byte payload 2, " max_channels=",
      byte payload 3, " pin=", u32 payload 4, " build=", fixedText payload 8 12, " model=",
      fixedText payload 20 40, " firmware=", fixedText payload 60 20, " repeater=",
      byte payload 80, " path_hash_mode=", byte payload 81]
  else if op = respChannelInfo then
    if payload.length < 50 then []
    else [" channel=", byte payload 1, " name=", fixedText payload 2 32]
  else if op = respContactMessage then describeContactMessage payload 1 7 8 9 13
  else if op = respContactMessageV3 then
    concatenated [
      if payload.length ≥ 4 then [" snr_quarters=", int8 payload 1] else [],
      describeContactMessage payload 4 10 11 12 16]
  else if op = respChannelMessage then describeChannelMessage payload 1 2 3 4 8
  else if op = respChannelMessageV3 then
    concatenated [
      if payload.length ≥ 4 then [" snr_quarters=", int8 payload 1] else [],
      describeChannelMessage payload 4 5 6 7 11]
  else if op = respAdvertPath then
    if payload.length < 6 then []
    else
      reading (byteAt payload 5) fun encoded => reading (restAt payload 6) fun path =>
        " " :: describeNormalPath encoded path
  else if op = pushTraceData then describeTraceResult payload
  else if op ∈ [pushRawData, pushControlData] then
    if payload.length < 4 then []
    else [" snr_quarters=", int8 payload 1, " rssi=", int8 payload 2, " path_encoding=",
      hexByteAt payload 3, " data=", hexFrom payload 4]
  else if op = pushLogRxData then
    if payload.length < 3 then []
    else [" snr_quarters=", int8 payload 1, " rssi=", int8 payload 2, " packet=",
      hexFrom payload 3]
  else if op = pushPathDiscoveryResponse then describeDiscoveryPaths payload
  else []

/-- The correlation fields of a response. -/
def responseSummary (payload : Bytes) : Parts :=
  let op := opcode payload
  if op = respSent ∧ payload.length ≥ 10 then
    [" token=", u32 payload 2, " radio_timeout_ms=", u32 payload 6]
  else if op ∈ [pushLoginSuccess, pushLoginFailure, pushStatusResponse, pushTelemetryResponse,
      pushPathDiscoveryResponse] ∧ payload.length ≥ 8 then
    [" peer=", hexAt payload 2 6]
  else if op = pushSendConfirmed ∧ payload.length ≥ 9 then
    [" token=", u32 payload 1, " round_trip_ms=", u32 payload 5]
  else []

/-- Summarize an ordinary response or a push. -/
def describeResponse (payload : Bytes) (includePayload : Bool := false) :
    Except Error (List Fragment) :=
  built <|
    if payload.length = 0 then ["response=empty response_bytes=0"]
    else concatenated [
      ["response=", .ok (.text (responseName (opcode payload))), " code=",
        .ok (.hexByte (some (opcode payload))), " response_bytes=", payload.length],
      responseSummary payload,
      responseDetails payload,
      if includePayload then
        if opcode payload = respCliReply then [" payload=", .ok redacted]
        else [" payload=", .ok (.hex payload)]
      else []]

end Protocol
end MeshCoreTCPMux

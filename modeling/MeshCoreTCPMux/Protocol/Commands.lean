import MeshCoreTCPMux.Protocol.Codes

/-!
# Command descriptors and command validation

The table of supported commands: for each opcode its reply grammar, the reply codes that answer it
and the broker policy it is subject to. `validateCommand` checks a client's payload against the
table (an unknown opcode is `UNSUPPORTED_CMD`) and then against the wire layout of its opcode (a bad
layout is `ILLEGAL_ARG`).
-/

namespace MeshCoreTCPMux
namespace Protocol

/-- The response stream shape that decides when upstream ownership can be released. -/
inductive Grammar
  | single
  | contacts
  | inbox
  | selfTelemetry
  | disconnecting
  deriving DecidableEq, Repr

/-- The active broker policy bits. -/
structure CommandFlags where
  scopeSend : Bool := false
  remoteLease : Bool := false
  signing : Bool := false
  maintenance : Bool := false
  verifyIndex : Bool := false
  verifySubtype : Bool := false
  deriving DecidableEq, Repr

/-- Wire identity, completion grammar, allowed successes, and broker policy for one command. -/
structure CommandDescriptor where
  opcode : UInt8
  name : String
  grammar : Grammar
  successCodes : List UInt8
  flags : CommandFlags := {}
  deriving DecidableEq, Repr

def CommandFlags.none : CommandFlags := {}

/-- `ScopeSend`. -/
def CommandFlags.scoped : CommandFlags := { scopeSend := true }

/-- `RemoteLease | ScopeSend`. -/
def CommandFlags.scopedLease : CommandFlags := { remoteLease := true, scopeSend := true }

def descriptors : List CommandDescriptor :=
  [ ⟨cmdAppStart, "app_start", .single, [respSelfInfo], .none⟩,
    ⟨cmdSendTxtMsg, "send_txt_msg", .single, [respSent], .scoped⟩,
    ⟨cmdSendChannelTxtMsg, "send_channel_txt_msg", .single, [respOk], .scoped⟩,
    ⟨cmdGetContacts, "get_contacts", .contacts,
      [respContactsStart, respContact, respEndOfContacts], .none⟩,
    ⟨cmdGetDeviceTime, "get_device_time", .single, [respCurrentTime], .none⟩,
    ⟨cmdSetDeviceTime, "set_device_time", .single, [respOk], .none⟩,
    ⟨cmdSendSelfAdvert, "send_self_advert", .single, [respOk], .none⟩,
    ⟨cmdSetAdvertName, "set_advert_name", .single, [respOk], .none⟩,
    ⟨cmdAddUpdateContact, "add_update_contact", .single, [respOk], .none⟩,
    ⟨cmdSyncNextMessage, "sync_next_message", .inbox,
      [respContactMessage, respChannelMessage, respNoMoreMessages, respContactMessageV3,
        respChannelMessageV3, respChannelData], .none⟩,
    ⟨cmdSetRadioParams, "set_radio_params", .single, [respOk], .none⟩,
    ⟨cmdSetRadioTxPower, "set_radio_tx_power", .single, [respOk], .none⟩,
    ⟨cmdResetPath, "reset_path", .single, [respOk], .none⟩,
    ⟨cmdSetAdvertLatlon, "set_advert_latlon", .single, [respOk], .none⟩,
    ⟨cmdRemoveContact, "remove_contact", .single, [respOk], .none⟩,
    ⟨cmdShareContact, "share_contact", .single, [respOk], .none⟩,
    ⟨cmdExportContact, "export_contact", .single, [respExportContact], .none⟩,
    ⟨cmdImportContact, "import_contact", .single, [respOk], .none⟩,
    ⟨cmdReboot, "reboot", .disconnecting, [], { maintenance := true }⟩,
    ⟨cmdGetBattAndStorage, "get_batt_and_storage", .single, [respBatteryAndStorage], .none⟩,
    ⟨cmdSetTuningParams, "set_tuning_params", .single, [respOk], .none⟩,
    ⟨cmdDeviceQuery, "device_query", .single, [respDeviceInfo], .none⟩,
    ⟨cmdExportPrivateKey, "export_private_key", .single, [respPrivateKey, respDisabled], .none⟩,
    ⟨cmdImportPrivateKey, "import_private_key", .single, [respOk, respDisabled],
      { maintenance := true }⟩,
    ⟨cmdSendRawData, "send_raw_data", .single, [respOk], .none⟩,
    ⟨cmdSendLogin, "send_login", .single, [respSent], .scopedLease⟩,
    ⟨cmdSendStatusReq, "send_status_req", .single, [respSent], .scopedLease⟩,
    ⟨cmdHasConnection, "has_connection", .single, [respOk], .none⟩,
    ⟨cmdLogout, "logout", .single, [respOk], .none⟩,
    ⟨cmdGetContactByKey, "get_contact_by_key", .single, [respContact], .none⟩,
    ⟨cmdGetChannel, "get_channel", .single, [respChannelInfo], { verifyIndex := true }⟩,
    ⟨cmdSetChannel, "set_channel", .single, [respOk], .none⟩,
    ⟨cmdSignStart, "sign_start", .single, [respSignStart], { signing := true }⟩,
    ⟨cmdSignData, "sign_data", .single, [respOk], { signing := true }⟩,
    ⟨cmdSignFinish, "sign_finish", .single, [respSignature], { signing := true }⟩,
    ⟨cmdSendTracePath, "send_trace_path", .single, [respSent], { remoteLease := true }⟩,
    ⟨cmdSetDevicePin, "set_device_pin", .single, [respOk], .none⟩,
    ⟨cmdSetOtherParams, "set_other_params", .single, [respOk], .none⟩,
    ⟨cmdSendTelemetryReq, "send_telemetry_req", .selfTelemetry, [pushTelemetryResponse], .none⟩,
    ⟨cmdGetCustomVars, "get_custom_vars", .single, [respCustomVars], .none⟩,
    ⟨cmdSetCustomVar, "set_custom_var", .single, [respOk], .none⟩,
    ⟨cmdGetAdvertPath, "get_advert_path", .single, [respAdvertPath], .none⟩,
    ⟨cmdGetTuningParams, "get_tuning_params", .single, [respTuningParams], .none⟩,
    ⟨cmdSendBinaryReq, "send_binary_req", .single, [respSent], .scopedLease⟩,
    ⟨cmdFactoryReset, "factory_reset", .disconnecting, [respOk], { maintenance := true }⟩,
    ⟨cmdSendPathDiscoveryReq, "send_path_discovery_req", .single, [respSent], .scopedLease⟩,
    ⟨cmdSetFloodScopeKey, "set_flood_scope_key", .single, [respOk], .none⟩,
    ⟨cmdSendControlData, "send_control_data", .single, [respOk], .none⟩,
    ⟨cmdGetStats, "get_stats", .single, [respStats], { verifySubtype := true }⟩,
    ⟨cmdSendAnonReq, "send_anon_req", .single, [respSent], .scopedLease⟩,
    ⟨cmdSetAutoaddConfig, "set_autoadd_config", .single, [respOk], .none⟩,
    ⟨cmdGetAutoaddConfig, "get_autoadd_config", .single, [respAutoaddConfig], .none⟩,
    ⟨cmdGetAllowedRepeatFreq, "get_allowed_repeat_freq", .single, [respAllowedRepeatFreq], .none⟩,
    ⟨cmdSetPathHashMode, "set_path_hash_mode", .single, [respOk], .none⟩,
    ⟨cmdSendChannelData, "send_channel_data", .single, [respOk], .scoped⟩,
    ⟨cmdSetDefaultFloodScope, "set_default_flood_scope", .single, [respOk], .none⟩,
    ⟨cmdGetDefaultFloodScope, "get_default_flood_scope", .single, [respDefaultFloodScope], .none⟩,
    ⟨cmdSendRawPacket, "send_raw_packet", .single, [respOk], .none⟩,
    ⟨cmdRunCliCommand, "run_cli_command", .single, [respCliReply], .none⟩ ]

/-- The remote form of `SEND_TELEMETRY_REQ`, selected by length. -/
def remoteTelemetry : CommandDescriptor :=
  ⟨cmdSendTelemetryReq, "send_telemetry_req", .single, [respSent], .scopedLease⟩

/-- Look up routing policy. Telemetry opcode 39 is two distinct native commands selected by
length: only the remote form completes first with `SENT`. -/
def descriptor (payload : Bytes) : Option CommandDescriptor :=
  match payload with
  | [] => none
  | code :: _ =>
    match descriptors.find? (·.opcode == code) with
    | none => none
    | some desc =>
      if code = cmdSendTelemetryReq ∧ payload.length ≠ 4 then some remoteTelemetry else some desc

theorem mem_descriptors {payload : Bytes} {desc : CommandDescriptor}
    (h : descriptor payload = some desc) :
    desc ∈ remoteTelemetry :: descriptors ∧ desc.opcode = opcode payload := by
  unfold descriptor at h
  split at h
  · cases h
  next code rest =>
    split at h
    · cases h
    next found hfound =>
      have hcode : found.opcode = code := by simpa using List.find?_some hfound
      split at h
      · next hremote =>
        cases h
        exact ⟨List.mem_cons_self, hremote.1.symm⟩
      · cases h
        exact ⟨List.mem_cons_of_mem _ (List.mem_of_find?_eq_some hfound), hcode⟩

/-- The broker policies of one command do not overlap: an exclusive maintenance command is neither
scoped nor leased, and signing and plain text are subject to nothing else. -/
theorem flags_disjoint {payload : Bytes} {desc : CommandDescriptor}
    (h : descriptor payload = some desc) :
    (desc.flags.maintenance = true → desc.flags.scopeSend = false ∧
      desc.flags.remoteLease = false ∧ opcode payload ∉ [cmdSignStart, cmdSignData, cmdSignFinish]) ∧
    (desc.flags.remoteLease = true → opcode payload ≠ cmdSendTxtMsg ∧
      opcode payload ∉ [cmdSignStart, cmdSignData, cmdSignFinish]) := by
  obtain ⟨hmem, hop⟩ := mem_descriptors h
  rw [← hop]
  have table : ∀ d ∈ remoteTelemetry :: descriptors,
      (d.flags.maintenance = true → d.flags.scopeSend = false ∧ d.flags.remoteLease = false ∧
        d.opcode ∉ [cmdSignStart, cmdSignData, cmdSignFinish]) ∧
      (d.flags.remoteLease = true → d.opcode ≠ cmdSendTxtMsg ∧
        d.opcode ∉ [cmdSignStart, cmdSignData, cmdSignFinish]) := by decide
  exact table desc hmem

/-- The byte count of an ordinary encoded path: the low six bits count hops, the upper two bits
encode the hash width minus one, and width four is reserved. -/
def normalEncodedPathBytes (encoded : UInt8) : Option Nat :=
  let count := (encoded &&& pathCountMask).toNat
  let width := (encoded >>> 6).toNat + 1
  if width = 4 then none
  else if count * width ≤ maxPathSize then some (count * width) else none

/-- `SEND_CHANNEL_DATA` has opcode, channel, encoded path, path bytes, then a two-byte data type;
`0xff` means no explicit path. -/
def channelDataCommandValid (p : Bytes) : Bool :=
  if p.length < 5 then false
  else if p.getD 2 0 = noPathEncoding then 3 + 0 + 2 ≤ p.length
  else match normalEncodedPathBytes (p.getD 2 0) with
    | none => false
    | some pathBytes => 3 + pathBytes + 2 ≤ p.length

/-- `SET_DEFAULT_FLOOD_SCOPE` clears with opcode alone, or carries a 31-byte name and a 16-byte
key. A supplied name is nonempty and NUL-terminated within its fixed field. -/
def defaultScopeCommandValid (p : Bytes) : Bool :=
  if p.length = 1 then true
  else if p.length ≠ 48 then false
  else match ((p.drop 1).take 31).findIdx? (· == 0) with
    | none => false
    | some nul => 0 < nul ∧ nul < 31

/-- `"reboot"`. -/
def rebootText : Bytes := [114, 101, 98, 111, 111, 116]

/-- `"reset"`. -/
def resetText : Bytes := [114, 101, 115, 101, 116]

/-- Validate a payload, without the TCP envelope. Minimum lengths allow native trailing
extensions. -/
def commandShapeValid (p : Bytes) : Bool :=
  let n := p.length
  let op := opcode p
  if n = 0 ∨ n > maxPayload then false
  else if op = cmdAppStart then 8 ≤ n
  else if op = cmdSendTxtMsg then 14 ≤ n
  else if op = cmdSendChannelTxtMsg then 7 ≤ n
  else if op = cmdGetContacts then n = 1 ∨ 5 ≤ n
  else if op ∈ [cmdGetDeviceTime, cmdSyncNextMessage, cmdGetBattAndStorage, cmdExportPrivateKey,
      cmdSignStart, cmdSignFinish, cmdGetCustomVars, cmdGetTuningParams, cmdGetAutoaddConfig,
      cmdGetAllowedRepeatFreq, cmdGetDefaultFloodScope] then 1 ≤ n
  else if op = cmdSetDeviceTime then 5 ≤ n
  else if op = cmdSendSelfAdvert then 1 ≤ n
  else if op = cmdRunCliCommand then 2 ≤ n
  else if op = cmdSetAdvertName then 2 ≤ n
  else if op = cmdAddUpdateContact then
    (n = 136 ∨ n = 144 ∨ n = 147 ∨ 148 ≤ n) ∧
      (p.getD 35 0 = noPathEncoding ∨ (normalEncodedPathBytes (p.getD 35 0)).isSome)
  else if op = cmdSetRadioParams then 11 ≤ n
  else if op = cmdSetRadioTxPower then 2 ≤ n
  else if op ∈ [cmdResetPath, cmdRemoveContact, cmdShareContact, cmdSendStatusReq,
      cmdHasConnection, cmdLogout, cmdGetContactByKey] then 33 ≤ n
  else if op = cmdSetAdvertLatlon then n = 9 ∨ 13 ≤ n
  else if op = cmdExportContact then n = 1 ∨ 33 ≤ n
  else if op = cmdImportContact then 99 ≤ n
  else if op = cmdReboot then n = 7 ∧ (p.drop 1).take 6 = rebootText
  else if op = cmdSetTuningParams then 9 ≤ n
  else if op = cmdDeviceQuery then 2 ≤ n
  else if op = cmdImportPrivateKey then 65 ≤ n
  else if op = cmdSendRawData then
    6 ≤ n ∧ p.getD 1 0 < 0x40 ∧ 2 + (p.getD 1 0).toNat + 4 ≤ n
  else if op = cmdSendLogin then 33 ≤ n
  else if op = cmdGetChannel then 2 ≤ n
  else if op = cmdSetChannel then 50 ≤ n ∧ n < 66
  else if op = cmdSignData then 2 ≤ n
  else if op = cmdSendTracePath then
    (10 < n ∧ n - 10 < 171) ∧ (n - 10) % 2 ^ (p.getD 9 0 &&& pathWidthShiftMask).toNat = 0 ∧
      (n - 10) / 2 ^ (p.getD 9 0 &&& pathWidthShiftMask).toNat ≤ maxPathSize
  else if op = cmdSetDevicePin then 5 ≤ n
  else if op = cmdSetOtherParams then 2 ≤ n
  else if op = cmdSendTelemetryReq then n = 4 ∨ 36 ≤ n
  else if op = cmdSetCustomVar then 4 ≤ n ∧ (58 : UInt8) ∈ p.drop 1
  else if op = cmdGetAdvertPath then 34 ≤ n
  else if op ∈ [cmdSendBinaryReq, cmdSendAnonReq] then 34 ≤ n
  else if op = cmdFactoryReset then n = 6 ∧ (p.drop 1).take 5 = resetText
  else if op = cmdSendPathDiscoveryReq then 34 ≤ n ∧ p.getD 1 0 = 0
  else if op = cmdSetFloodScopeKey then
    (n = 2 ∧ (p.getD 1 0 = 0 ∨ p.getD 1 0 = 1)) ∨ (n = 18 ∧ p.getD 1 0 = 0)
  else if op = cmdSendControlData then 2 ≤ n ∧ p.getD 1 0 &&& 0x80 ≠ 0
  else if op = cmdGetStats then 2 ≤ n ∧ p.getD 1 0 ≤ 2
  else if op = cmdSetAutoaddConfig then 2 ≤ n
  else if op = cmdSetPathHashMode then 3 ≤ n ∧ p.getD 1 0 = 0 ∧ p.getD 2 0 < 3
  else if op = cmdSendChannelData then channelDataCommandValid p
  else if op = cmdSetDefaultFloodScope then defaultScopeCommandValid p
  else if op = cmdSendRawPacket then 4 ≤ n
  else false

/-- Either a validated descriptor or the native error reason to send downstream. -/
structure ValidationResult where
  descriptor : Option CommandDescriptor
  reason : Option UInt8
  deriving DecidableEq

def ValidationResult.valid (r : ValidationResult) : Bool := r.descriptor.isSome && r.reason.isNone

def validateCommand (payload : Bytes) : ValidationResult :=
  match descriptor payload with
  | none => ⟨none, some errUnsupportedCmd⟩
  | some desc =>
    if commandShapeValid payload then ⟨some desc, none⟩ else ⟨some desc, some errIllegalArg⟩

/-- `SEND_TXT_MSG` type 0 uses the companion's acknowledgement ring; other text types do not
reserve a plain-message acknowledgement slot. -/
def plainDm (payload : Bytes) : Bool := payload[0]? == some cmdSendTxtMsg && payload[1]? == some 0

theorem opcode_of_plainDm {payload : Bytes} (h : plainDm payload = true) :
    opcode payload = cmdSendTxtMsg := by
  unfold plainDm at h
  cases payload with
  | nil => simp at h
  | cons code rest => simp_all

/-- Keep the upstream on our mux-owned app target, regardless of the downstream client's
version. -/
def normalizeDeviceQuery (payload : Bytes) (target : UInt8 := upstreamAppTarget) :
    Except Error Bytes :=
  if (validateCommand payload).valid ∧ opcode payload = cmdDeviceQuery then
    .ok (payload.set 1 target)
  else .error (.argument ["malformed DEVICE_QUERY"])

end Protocol
end MeshCoreTCPMux

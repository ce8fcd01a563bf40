import MeshCoreTCPMux.Leases
import MeshCoreTCPMux.Protocol.ValidResponses

/-!
# Lease operations that do not raise

The operations of the leases check their arguments and their own state again. Neither check fails
for a well-formed command or reply that arrives while the lease holds what that command reserved.
-/

namespace MeshCoreTCPMux

open Protocol

theorem LeaseParsing.requirePayload_of {payload : Bytes} {code : UInt8} {size : Nat}
    (hsize : payload.length = size) (hpos : 0 < size) (hop : opcode payload = code) :
    requirePayload payload code size = .ok () := by
  refine if_pos ⟨hsize, ?_⟩
  cases payload with
  | nil => simp at hsize; omega
  | cons b rest => simpa [opcode] using hop

namespace RemoteLease

theorem peerAt_of_le {command : Bytes} {offset : Nat} (h : offset + 6 ≤ command.length) :
    peerAt command offset = .ok ((command.drop offset).take 6) :=
  if_neg (not_lt.mpr h)

/-- The remote form of the telemetry request is the longer one. -/
theorem length_of_remoteTelemetry {command : Bytes} {desc : CommandDescriptor}
    (hdesc : descriptor command = some desc) (hflag : desc.flags.remoteLease = true)
    (hop : opcode command = cmdSendTelemetryReq) : command.length ≠ 4 := by
  intro hlength
  match command with
  | [a, b, c, d] =>
    obtain rfl : a = cmdSendTelemetryReq := hop
    have hself : descriptor [cmdSendTelemetryReq, b, c, d]
        = descriptors.find? (·.opcode == cmdSendTelemetryReq) := rfl
    rw [hself] at hdesc
    have table : ∀ found, descriptors.find? (·.opcode == cmdSendTelemetryReq) = some found →
        found.flags.remoteLease = false := by decide
    simp [table desc hdesc] at hflag

/-- Every well-formed command that needs the lease can be classified. -/
theorem exists_classify {command : Bytes} {desc : CommandDescriptor}
    (hdesc : descriptor command = some desc) (hflag : desc.flags.remoteLease = true)
    (hshape : commandShapeValid command = true) : ∃ result, classify command = .ok result := by
  have hop : opcode command ∈ [cmdSendLogin, cmdSendStatusReq, cmdSendTracePath,
      cmdSendTelemetryReq, cmdSendBinaryReq, cmdSendPathDiscoveryReq, cmdSendAnonReq] := by
    obtain ⟨hmem, hop⟩ := mem_descriptors hdesc
    rw [← hop]
    have table : ∀ d ∈ remoteTelemetry :: descriptors, d.flags.remoteLease = true →
        d.opcode ∈ [cmdSendLogin, cmdSendStatusReq, cmdSendTracePath, cmdSendTelemetryReq,
          cmdSendBinaryReq, cmdSendPathDiscoveryReq, cmdSendAnonReq] := by decide
    exact table desc hmem hflag
  have hremote := length_of_remoteTelemetry hdesc hflag
  unfold commandShapeValid at hshape
  unfold classify
  simp only [List.mem_cons, List.not_mem_nil, or_false] at hop
  rcases hop with hop | hop | hop | hop | hop | hop | hop <;> simp +decide [hop] at hshape ⊢
  case inr.inr.inr.inr.inr.inl => exact ⟨_, peerAt_of_le (by omega)⟩
  case inr.inr.inl =>
    rw [if_neg (by omega), LeaseParsing.readU32_of_le (by omega),
      LeaseParsing.readU32_of_le (by omega)]
    exact ⟨_, _, _, _, rfl⟩
  case inr.inr.inr.inl =>
    rw [if_neg (hremote hop), peerAt_of_le (by have := hremote hop; omega)]
    exact ⟨_, _, _, _, rfl⟩
  all_goals exact ⟨_, peerAt_of_le (by omega)⟩

/-- A well-formed command is refused, or reserves the lease once an expired one is cleared. -/
theorem exists_reserve {command : Bytes} {desc : CommandDescriptor}
    (hdesc : descriptor command = some desc) (hflag : desc.flags.remoteLease = true)
    (hshape : commandShapeValid command = true) (lease : RemoteLease) (owner : Nat) (now : Time) :
    (reserve lease owner command now = .ok (false, (expire lease now).2)) ∨
      ∃ r, (expire lease now).2 = none ∧ reserve lease owner command now = .ok (true, some r) ∧
        reserve none owner command now = .ok (true, some r) := by
  obtain ⟨⟨kind, peer, tag, auth⟩, hclass⟩ := exists_classify hdesc hflag hshape
  have hlength : command.length ≠ 0 := by
    intro h0
    simp [commandShapeValid, h0] at hshape
  cases hleft : (expire lease now).2 with
  | some r =>
    refine Or.inl ?_
    simp [reserve, occupied, hleft]
  | none =>
    have hfree : ∀ lease', (expire lease' now).2 = none → reserve lease' owner command now
        = .ok (true, some ⟨some owner, kind, command, none, peer, tag, auth, true⟩) := by
      intro lease' hleft'
      simp only [reserve, occupied, hleft', Option.isSome_none, Bool.false_eq_true, if_false,
        hlength, hclass]
      rfl
    exact Or.inr ⟨_, rfl, hfree lease hleft, hfree none rfl⟩

end RemoteLease

theorem LeaseParsing.requireCommand_of {command : Bytes} {code : UInt8} (hne : command ≠ [])
    (hop : opcode command = code) : requireCommand command code 1 = .ok () := by
  cases command with
  | nil => exact absurd rfl hne
  | cons b rest =>
    obtain rfl : b = code := hop
    simp [requireCommand]

namespace DmRing

theorem exists_accepted {ring : DmRing} {sent : Bytes} {now : Time}
    (hlength : sent.length = 10) (hop : opcode sent = respSent)
    (havailable : ring.available now = true) : ∃ ring', ring.accepted sent now = .ok ring' := by
  unfold accepted
  rw [LeaseParsing.requirePayload_of hlength (by omega) hop,
    LeaseParsing.readU32_of_le (by omega), LeaseParsing.readU32_of_le (by omega)]
  simp only [havailable, not_true_eq_false, if_false]
  by_cases h : u32At sent 2 = 0 <;> simp [h]

theorem exists_confirm {ring : DmRing} {push : Bytes} (hlength : push.length = 9)
    (hop : opcode push = pushSendConfirmed) :
    ∃ settled ring', ring.confirm push = .ok (settled, ring') := by
  unfold confirm
  rw [LeaseParsing.requirePayload_of hlength (by omega) hop, LeaseParsing.readU32_of_le (by omega)]
  exact ⟨_, _, rfl⟩

end DmRing

namespace RemoteLease

theorem exists_accepted {r : Reservation} {sent : Bytes} {now : Time}
    (htentative : r.tentative = true) (hlength : sent.length = 10) (hop : opcode sent = respSent) :
    ∃ r', accepted (some r) sent now = .ok (some r') := by
  unfold accepted
  simp only [htentative, not_true_eq_false, if_false]
  rw [LeaseParsing.requirePayload_of hlength (by omega) hop,
    LeaseParsing.readU32_of_le (by omega), LeaseParsing.readU32_of_le (by omega)]
  by_cases h : r.kind = .trace <;> simp [h]

/-- A result push is long enough for whatever it is compared with. -/
theorem exists_matchPush {push : Bytes} (h : validateResponseShape push = .ok ())
    (hop : opcode push ∈ [pushLoginSuccess, pushLoginFailure, pushStatusResponse, pushTraceData,
      pushTelemetryResponse, pushBinaryResponse, pushPathDiscoveryResponse])
    (lease : RemoteLease) (now : Time) : ∃ result, matchPush lease push now = .ok result := by
  have hvalid := (responseShapeValid_of h).2.2
  unfold responseShapeValid at hvalid
  have hbyte : push[0]? = some (opcode push) := by
    cases push with
    | nil => simp [validateResponseShape] at h
    | cons b rest => rfl
  have hlength : (opcode push ≠ pushBinaryResponse → 8 ≤ push.length) ∧
      (opcode push = pushBinaryResponse → 6 ≤ push.length) ∧
      (opcode push = pushTraceData → 13 ≤ push.length) := by
    simp only [List.mem_cons, List.not_mem_nil, or_false] at hop
    rcases hop with hop | hop | hop | hop | hop | hop | hop <;>
      simp +decide [hop, pathDiscoveryResponseValid, traceResponseValid] at hvalid ⊢ <;> omega
  have hmatches : ∀ r : Reservation, ∃ answer, matchesPush r push = .ok answer := by
    intro r
    have hpeer : opcode push ≠ pushBinaryResponse → ∃ answer, matchingPeer r push = .ok answer := by
      intro hne
      exact ⟨_, if_neg (not_lt.mpr (hlength.1 hne))⟩
    have hcode : ∀ {code : UInt8}, push[0]? = some code → opcode push = code :=
      fun h => Option.some.inj (hbyte.symm.trans h)
    unfold matchesPush
    split
    · split
      · next hlogin =>
        refine hpeer ?_
        rcases hlogin with hlogin | hlogin <;> rw [hcode hlogin] <;> decide
      · exact ⟨_, rfl⟩
    · split
      · next hstatus => exact hpeer (by rw [hcode hstatus]; decide)
      · exact ⟨_, rfl⟩
    · split
      · next htelemetry => exact hpeer (by rw [hcode htelemetry]; decide)
      · exact ⟨_, rfl⟩
    iterate 2
      split
      · next hbinary =>
        have hsix := hlength.2.1 (hcode hbinary)
        rw [if_neg (by omega), LeaseParsing.readU32_of_le (by omega)]
        exact ⟨_, rfl⟩
      · exact ⟨_, rfl⟩
    · split
      · next hpath => exact hpeer (by rw [hcode hpath]; decide)
      · exact ⟨_, rfl⟩
    · split
      · next htrace =>
        have hsize := hlength.2.2 (hcode htrace)
        rw [if_neg (by omega), LeaseParsing.readU32_of_le (by omega),
          LeaseParsing.readU32_of_le (by omega)]
        exact ⟨_, rfl⟩
      · exact ⟨_, rfl⟩
  unfold matchPush
  simp only
  split
  · exact ⟨_, rfl⟩
  next r hr =>
    split
    · exact ⟨_, rfl⟩
    · obtain ⟨answer, hanswer⟩ := hmatches r
      rw [hanswer]
      cases answer <;> exact ⟨_, rfl⟩

end RemoteLease

namespace SigningLease

theorem exists_start {command : Bytes} (hne : command ≠ []) (hop : opcode command = cmdSignStart)
    (lease : SigningLease) (owner : Nat) (now : Time) :
    ∃ started lease', lease.start owner command now = .ok (started, lease') := by
  unfold start
  rw [LeaseParsing.requireCommand_of hne hop]
  simp only [bind, Except.bind]
  split <;> exact ⟨_, _, rfl⟩

theorem exists_beginFinish {command : Bytes} (hne : command ≠ [])
    (hop : opcode command = cmdSignFinish) (lease : SigningLease) (owner : Nat) (now : Time) :
    ∃ admission lease', lease.beginFinish owner command now = .ok (admission, lease') := by
  unfold beginFinish
  rw [LeaseParsing.requireCommand_of hne hop]
  simp only [bind, Except.bind]
  split
  · exact ⟨_, _, rfl⟩
  · split <;> exact ⟨_, _, rfl⟩

theorem exists_beginData {command : Bytes} (hlength : 2 ≤ command.length)
    (hop : opcode command = cmdSignData) {lease : SigningLease} (hsound : lease.Sound)
    (owner : Nat) (now : Time) :
    ∃ admission lease', lease.beginData owner command now = .ok (admission, lease') := by
  unfold beginData
  have hcode : ¬ (command.length < 2 ∨ command[0]? ≠ some cmdSignData) := by
    cases command with
    | nil => simp at hlength
    | cons b rest =>
      obtain rfl : b = cmdSignData := hop
      rintro (hshort | hother)
      · omega
      · exact hother rfl
  rw [if_neg hcode]
  simp only
  split
  · exact ⟨_, _, rfl⟩
  next op hop =>
    by_cases h : op.usableBy owner = true
    swap
    · simp [h]
    obtain ⟨maximum, hlimit⟩ : ∃ maximum, op.limit = some maximum := by
      simp only [Operation.usableBy, Bool.and_eq_true] at h
      exact Option.isSome_iff_exists.mp h.1.1.2
    have hbound := (hsound.expire now op hop).bounded maximum hlimit
    have hnot : ¬ maximum < op.acceptedBytes := by omega
    simp only [h, hlimit, hnot, not_true_eq_false, if_false]
    by_cases hbytes : command.length - 1 > maximum - op.acceptedBytes <;> simp [hbytes]

/-- The replies that end a step of a signing operation. -/
theorem exists_acceptedStart {lease : SigningLease} {op : Operation} {response : Bytes}
    {now : Time} (hop : lease.operation = some op) (htentative : op.tentative = true)
    (hlength : response.length = 6) (hcode : opcode response = respSignStart) :
    ∃ lease', lease.acceptedStart response now = .ok lease' := by
  unfold acceptedStart
  simp only [hop, htentative, not_true_eq_false, if_false]
  rw [LeaseParsing.requirePayload_of hlength (by omega) hcode, LeaseParsing.readU32_of_le (by omega)]
  exact ⟨_, rfl⟩

theorem exists_dataResponse {lease : SigningLease} {op : Operation} {response : Bytes} {now : Time}
    {bytes : Nat} (hop : lease.operation = some op) (hpending : op.pendingDataBytes = some bytes)
    (hvalid : (response.length = 1 ∧ opcode response = respOk) ∨
      (response.length = 2 ∧ opcode response = respErr)) :
    ∃ lease', lease.dataResponse response now = .ok lease' := by
  unfold dataResponse
  simp only [hop, hpending]
  rcases hvalid with ⟨hlength, hcode⟩ | ⟨hlength, hcode⟩
  · have hok : validateOkOrErr response true = .ok () := by
      simp [validateOkOrErr, hlength, hcode]
    simp [hok, hcode]
  · have hok : validateOkOrErr response true = .ok () := by
      simp +decide [validateOkOrErr, hlength, hcode]
    have hbyte : byteAt response 1 = .ok (response.getD 1 0) := byteAt_of_lt (by omega)
    have hne : respErr ≠ respOk := by decide
    rw [hok, hbyte]
    simp only [bind, Except.bind, hcode, hne, if_false]
    split <;> exact ⟨_, rfl⟩

theorem exists_finishResponse {lease : SigningLease} {op : Operation} {response : Bytes}
    {now : Time} (hop : lease.operation = some op) (hpending : op.finishPending = true)
    (hvalid : (response.length = 65 ∧ opcode response = respSignature) ∨
      (response.length = 2 ∧ opcode response = respErr)) :
    ∃ lease', lease.finishResponse response now = .ok lease' := by
  unfold finishResponse
  simp only [hop, hpending, not_true_eq_false, if_false]
  have hfirst : response[0]? = some (opcode response) := by
    cases response with
    | nil => simp at hvalid
    | cons b rest => rfl
  rcases hvalid with ⟨hlength, hcode⟩ | ⟨hlength, hcode⟩
  · rw [hfirst, hcode, if_pos rfl, LeaseParsing.requirePayload_of hlength (by omega) hcode]
    exact ⟨_, rfl⟩
  · have hok : validateOkOrErr response false = .ok () := by
      simp [validateOkOrErr, hlength, hcode]
    have hbyte : byteAt response 1 = .ok (response.getD 1 0) := byteAt_of_lt (by omega)
    have hne : respErr ≠ respSignature := by decide
    rw [hfirst, hcode, if_neg (by simpa using hne), hok, hbyte]
    simp only [bind, Except.bind]
    split <;> exact ⟨_, rfl⟩

end SigningLease

end MeshCoreTCPMux

import MeshCoreTCPMux.Protocol.Responses

/-!
# What a valid response satisfies

The sizes that the layout of a frame guarantees, and the one kind of exception that response
validation raises.
-/

namespace MeshCoreTCPMux
namespace Protocol

theorem responseShapeValid_of {payload : Bytes} (h : validateResponseShape payload = .ok ()) :
    payload.length ≠ 0 ∧ payload.length ≤ maxPayload ∧ responseShapeValid payload = true := by
  unfold validateResponseShape at h
  split at h
  · cases h
  split at h
  · cases h
  split at h
  · next hempty hlength hvalid => exact ⟨hempty, Nat.not_lt.mp hlength, hvalid⟩
  · cases h

/-- The fixed sizes of the frames that the leases read. -/
theorem length_of_shape {payload : Bytes} (h : validateResponseShape payload = .ok ()) :
    (opcode payload = respOk → payload.length = 1) ∧
    (opcode payload = respSent → payload.length = 10) ∧
    (opcode payload = respSignStart → payload.length = 6) ∧
    (opcode payload = respSignature → payload.length = 65) ∧
    (opcode payload = pushSendConfirmed → payload.length = 9) := by
  have hvalid := (responseShapeValid_of h).2.2
  unfold responseShapeValid at hvalid
  refine ⟨?_, ?_, ?_, ?_, ?_⟩ <;> intro hop <;> simpa +decide [hop] using hvalid

/-- Every check of a lone frame raises a protocol error. -/
theorem validateResponseShape_raises {payload : Bytes} {e : Error}
    (h : validateResponseShape payload = .error e) : ∃ message, e = .protocol message := by
  unfold validateResponseShape at h
  repeat' split at h
  all_goals first | exact ⟨_, (Except.error.inj h).symm⟩ | cases h

/-- So does every check of a reply to a well-formed command. -/
theorem validateResponse_raises {desc : CommandDescriptor} {payload command : Bytes} {phase : Nat}
    {e : Error} (hdesc : descriptor command = some desc)
    (hshape : commandShapeValid command = true)
    (h : validateResponse desc payload command phase = .error e) :
    ∃ message, e = .protocol message := by
  simp only [validateResponse] at h
  split at h
  · exact ⟨_, (Except.error.inj h).symm⟩
  split at h
  · exact ⟨_, (Except.error.inj h).symm⟩
  split at h
  · split at h
    · exact ⟨_, (Except.error.inj h).symm⟩
    · cases h
  split at h
  · exact ⟨_, (Except.error.inj h).symm⟩
  cases hvalid : validateResponseShape payload with
  | error e' =>
    rw [hvalid] at h
    obtain rfl := Except.error.inj h
    exact validateResponseShape_raises hvalid
  | ok =>
    rw [hvalid] at h
    simp only [bind, Except.bind] at h
    split at h
    · exact ⟨_, (Except.error.inj h).symm⟩
    have hbytes : ∀ {op : UInt8}, op = respChannelInfo ∨ op = respStats → opcode payload = op →
        byteAt payload 1 = .ok (payload.getD 1 0) := by
      intro op hop heq
      have hsize := (responseShapeValid_of hvalid).2.2
      unfold responseShapeValid at hsize
      refine byteAt_of_lt ?_
      rcases hop with rfl | rfl
      · simp +decide [heq] at hsize
        omega
      · simp +decide [heq, statsResponseValid] at hsize
        omega
    have hcommand : desc.flags.verifyIndex = true ∨ desc.flags.verifySubtype = true →
        byteAt command 1 = .ok (command.getD 1 0) := by
      intro hflag
      obtain ⟨hmem, hop⟩ := mem_descriptors hdesc
      have table : ∀ d ∈ remoteTelemetry :: descriptors,
          d.flags.verifyIndex = true ∨ d.flags.verifySubtype = true →
          d.opcode = cmdGetChannel ∨ d.opcode = cmdGetStats := by decide
      refine byteAt_of_lt ?_
      unfold commandShapeValid at hshape
      rcases table desc hmem hflag with hd | hd <;> rw [hd] at hop <;>
        simp +decide [← hop] at hshape <;> omega
    have hecho : ∀ e', validateEcho desc payload command = .error e' →
        ∃ message, e' = .protocol message := by
      intro e' he
      unfold validateEcho at he
      split at he
      · next hindex =>
        rw [hbytes (Or.inl rfl) hindex.1, hcommand (Or.inl hindex.2)] at he
        simp only [bind, Except.bind] at he
        split at he
        · exact ⟨_, (Except.error.inj he).symm⟩
        · cases he
      split at he
      · next hsubtype =>
        rw [hbytes (Or.inr rfl) hsubtype.1, hcommand (Or.inr hsubtype.2)] at he
        simp only [bind, Except.bind] at he
        split at he
        · exact ⟨_, (Except.error.inj he).symm⟩
        · cases he
      · cases he
    cases hresult : validateEcho desc payload command with
    | error e' =>
      rw [hresult] at h
      obtain rfl := Except.error.inj h
      exact hecho e' hresult
    | ok =>
      rw [hresult] at h
      cases h

theorem exists_downstreamDeviceInfo {payload : Bytes} (h : validateResponseShape payload = .ok ())
    (hop : opcode payload = respDeviceInfo) :
    ∃ visible, downstreamDeviceInfo payload = .ok visible := by
  obtain ⟨-, hmax, hvalid⟩ := responseShapeValid_of h
  unfold responseShapeValid at hvalid
  simp +decide [hop] at hvalid
  unfold downstreamDeviceInfo validateDeviceInfo
  have hlevel : ¬ payload.getD 1 0 < minSupportedUpstreamProtocolLevel :=
    UInt8.not_lt.mpr hvalid.2
  simp only [hvalid.1, hmax, hop, and_self, not_true_eq_false, if_false, hlevel]
  exact ⟨_, rfl⟩

end Protocol
end MeshCoreTCPMux

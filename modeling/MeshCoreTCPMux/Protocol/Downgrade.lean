import MeshCoreTCPMux.Protocol.ValidResponses

/-!
# Inbox items for older clients

A V3 text carries three bytes of reception metadata behind its opcode, which older clients do not
expect. The three tables of offsets agree that a text without them is the same message: it is well
formed, and it keeps its logical identity (`downgradeInbox_preserves`).
-/

namespace MeshCoreTCPMux
namespace Protocol

variable {p q : Bytes}

/-- The legacy code of a V3 text of the same class. -/
def legacyCode (code : UInt8) : Option UInt8 :=
  if code = respContactMessageV3 then some respContactMessage
  else if code = respChannelMessageV3 then some respChannelMessage
  else none

/-- The frame of `p` without the bytes 1..3, under another opcode. -/
def withoutMetadata (code : UInt8) (p : Bytes) : Bytes := code :: p.drop 4

/-! ### Offsets -/

@[simp] theorem opcode_withoutMetadata (code : UInt8) (p : Bytes) :
    opcode (withoutMetadata code p) = code := rfl

theorem length_withoutMetadata (code : UInt8) (h : 4 ≤ p.length) :
    (withoutMetadata code p).length + 3 = p.length := by
  rw [withoutMetadata, List.length_cons, List.length_drop]
  omega

theorem getD_withoutMetadata (code : UInt8) (p : Bytes) (k : Nat) :
    (withoutMetadata code p).getD (k + 1) 0 = p.getD (k + 4) 0 := by
  rw [withoutMetadata, List.getD_cons_succ, List.getD_eq_getElem?_getD, List.getElem?_drop,
    List.getD_eq_getElem?_getD, Nat.add_comm]

theorem drop_withoutMetadata (code : UInt8) (p : Bytes) (k : Nat) :
    (withoutMetadata code p).drop (k + 1) = p.drop (k + 4) := by
  rw [withoutMetadata, List.drop_succ_cons, List.drop_drop, Nat.add_comm]

theorem u32At_withoutMetadata (code : UInt8) (p : Bytes) (k : Nat) :
    u32At (withoutMetadata code p) (k + 1) = u32At p (k + 4) := by
  have hbyte : ∀ i, (withoutMetadata code p).getD (k + 1 + i) 0 = p.getD (k + 4 + i) 0 := fun i => by
    rw [Nat.add_right_comm, getD_withoutMetadata, Nat.add_right_comm]
  have hfirst := hbyte 0
  simp only [Nat.add_zero] at hfirst
  rw [u32At, u32At, hfirst, hbyte, hbyte, hbyte]

theorem contactTextResponseValid_withoutMetadata (code : UInt8)
    (h : contactTextResponseValid p 16 11 = true) :
    contactTextResponseValid (withoutMetadata code p) 13 8 = true := by
  unfold contactTextResponseValid at h ⊢
  split at h
  · cases h
  next hsize =>
    have hlength := length_withoutMetadata (p := p) code (by omega)
    rw [if_neg (by omega), getD_withoutMetadata]
    simp only [decide_eq_true_eq] at h ⊢
    exact h.imp_right fun hsigned => by omega

/-! ### One text -/

theorem contactIdentity_withoutMetadata (code : UInt8) (h : 16 ≤ p.length) :
    receivedContactMessageIdentity (withoutMetadata code p) 1 8 9 13
      = receivedContactMessageIdentity p 4 11 12 16 := by
  have hlength := length_withoutMetadata (p := p) code (by omega)
  rw [receivedContactMessageIdentity, receivedContactMessageIdentity, if_neg (by omega),
    if_neg (by omega), drop_withoutMetadata, getD_withoutMetadata, u32At_withoutMetadata,
    drop_withoutMetadata]

theorem channelIdentity_withoutMetadata (code : UInt8) (h : 11 ≤ p.length) :
    receivedChannelMessageIdentity (withoutMetadata code p) 1 3 4 8
      = receivedChannelMessageIdentity p 4 6 7 11 := by
  have hlength := length_withoutMetadata (p := p) code (by omega)
  rw [receivedChannelMessageIdentity, receivedChannelMessageIdentity, if_neg (by omega),
    if_neg (by omega), getD_withoutMetadata, getD_withoutMetadata, u32At_withoutMetadata,
    drop_withoutMetadata]

/-- A V3 text that is well formed still is without its metadata, and is the same message. -/
theorem withoutMetadata_preserves {code : UInt8} (hshape : validateResponseShape p = .ok ())
    (hcode : legacyCode (opcode p) = some code) :
    11 ≤ p.length ∧ validateResponseShape (withoutMetadata code p) = .ok () ∧
      receivedTextMessageIdentity (withoutMetadata code p) = receivedTextMessageIdentity p := by
  obtain ⟨hempty, hmax, hvalid⟩ := responseShapeValid_of hshape
  have haccepted : ∀ q : Bytes, 0 < q.length → q.length ≤ p.length → responseShapeValid q = true →
      validateResponseShape q = .ok () := by
    intro q hpos hle hq
    rw [validateResponseShape, if_neg (by omega), if_neg (by omega), if_pos hq]
  unfold legacyCode at hcode
  split at hcode
  · next hop =>
    obtain rfl := Option.some.inj hcode
    have htext : contactTextResponseValid p 16 11 = true := by
      unfold responseShapeValid at hvalid
      simpa +decide [hop] using hvalid
    have hsize : 16 ≤ p.length := by
      by_contra hshort
      rw [contactTextResponseValid, if_pos (by omega)] at htext
      cases htext
    have hlength := length_withoutMetadata (p := p) respContactMessage (by omega)
    refine ⟨by omega, haccepted _ (by omega) (by omega) ?_, ?_⟩
    · unfold responseShapeValid
      simpa +decide using contactTextResponseValid_withoutMetadata respContactMessage htext
    · unfold receivedTextMessageIdentity
      rw [if_neg (by omega), if_neg hempty]
      simpa +decide [hop] using contactIdentity_withoutMetadata respContactMessage hsize
  · split at hcode
    · next hop =>
      obtain rfl := Option.some.inj hcode
      have hsize : 11 ≤ p.length := by
        unfold responseShapeValid at hvalid
        simpa +decide [hop] using hvalid
      have hlength := length_withoutMetadata (p := p) respChannelMessage (by omega)
      refine ⟨hsize, haccepted _ (by omega) (by omega) ?_, ?_⟩
      · unfold responseShapeValid
        simp +decide
        omega
      · unfold receivedTextMessageIdentity
        rw [if_neg (by omega), if_neg hempty]
        simpa +decide [hop] using channelIdentity_withoutMetadata respChannelMessage hsize
    · cases hcode

/-! ### Every inbox item -/

theorem downgradeInbox_eq (hshape : validateResponseShape p = .ok ()) (targetVersion : UInt8) :
    downgradeInbox p targetVersion = .ok (match legacyCode (opcode p) with
      | none => p
      | some code => if targetVersion ≥ 3 then p else withoutMetadata code p) := by
  unfold downgradeInbox legacyCode
  rw [hshape]
  simp only [bind, Except.bind]
  by_cases htarget : targetVersion ≥ 3
  · rw [if_pos htarget]
    split
    · rfl
    · rw [if_pos htarget]
      rfl
  · rw [if_neg htarget]
    split
    · rfl
    · split <;> rfl

theorem downgradeInbox_of_legacy {code targetVersion : UInt8}
    (hshape : validateResponseShape p = .ok ()) (hcode : legacyCode (opcode p) = some code)
    (htarget : targetVersion < 3) :
    downgradeInbox p targetVersion = .ok (withoutMetadata code p) := by
  rw [downgradeInbox_eq hshape, hcode]
  exact congrArg Except.ok (if_neg (UInt8.not_le.mpr htarget))

theorem legacyCode_inj {code op op' : UInt8} (h : legacyCode op = some code)
    (h' : legacyCode op' = some code) : op = op' := by
  unfold legacyCode at h h'
  split at h
  · next hop =>
    obtain rfl := Option.some.inj h
    split at h'
    · next hop' => exact hop.trans hop'.symm
    · split at h' <;> simp +decide at h'
  · split at h
    · next hop =>
      obtain rfl := Option.some.inj h
      split at h'
      · simp +decide at h'
      · split at h'
        · next hop' => exact hop.trans hop'.symm
        · cases h'
    · cases h

/-- Which text a frame without metadata came from. -/
theorem withoutMetadata_inj {code code' : UInt8} (hp : 11 ≤ p.length) (hq : 11 ≤ q.length)
    (hcode : legacyCode (opcode p) = some code) (hcode' : legacyCode (opcode q) = some code') :
    withoutMetadata code p = withoutMetadata code' q ↔ ∀ i, i < 1 ∨ 3 < i → p[i]? = q[i]? := by
  have hfirst : ∀ r : Bytes, 11 ≤ r.length → r[0]? = some (opcode r) := fun r hr => by
    rw [opcode, List.getD_eq_getElem?_getD, List.getElem?_eq_getElem (by omega)]
    rfl
  rw [withoutMetadata, withoutMetadata, List.cons.injEq]
  constructor
  · rintro ⟨rfl, hrest⟩ i hi
    rcases hi with hi | hi
    · obtain rfl : i = 0 := by omega
      rw [hfirst p hp, hfirst q hq, legacyCode_inj hcode hcode']
    · obtain ⟨k, rfl⟩ := Nat.exists_eq_add_of_le hi
      have hk := congrArg (fun r : Bytes => r[k]?) hrest
      simpa only [List.getElem?_drop] using hk
  · intro h
    have hop : opcode p = opcode q :=
      Option.some.inj ((hfirst p hp).symm.trans ((h 0 (.inl Nat.one_pos)).trans (hfirst q hq)))
    refine ⟨Option.some.inj (hcode.symm.trans (hop ▸ hcode')), List.ext_getElem? fun k => ?_⟩
    rw [List.getElem?_drop, List.getElem?_drop]
    exact h _ (.inr (by omega))

/-- What `visible`, the form of `p` for a client of version `targetVersion`, has in common with
`p`. -/
structure Preserved (p : Bytes) (targetVersion : UInt8) (visible : Bytes) : Prop where
  valid : validateResponseShape visible = .ok ()
  identity : receivedTextMessageIdentity visible = receivedTextMessageIdentity p
  unchanged : 3 ≤ targetVersion ∨
    opcode p ∈ [respContactMessage, respChannelMessage, respChannelData] → visible = p
  shortened : targetVersion < 3 → ∀ code, legacyCode (opcode p) = some code →
    visible = code :: p.drop 4

/-- **The downgrade of an inbox item preserves the message**: it is well formed and keeps its
identity. It changes nothing but V3 texts for targets below 3, which lose the bytes 1..3; so two of
them become the same frame exactly when they differ at most there. -/
theorem downgradeInbox_preserves (hshape : validateResponseShape p = .ok ())
    (targetVersion : UInt8) :
    (∃ visible, downgradeInbox p targetVersion = .ok visible ∧ Preserved p targetVersion visible) ∧
    (∀ code, legacyCode (opcode p) = some code → targetVersion < 3 →
      ∀ q code', validateResponseShape q = .ok () → legacyCode (opcode q) = some code' →
      ∀ target < 3, (downgradeInbox p targetVersion = downgradeInbox q target ↔
        ∀ i, i < 1 ∨ 3 < i → p[i]? = q[i]?)) := by
  constructor
  · cases hcode : legacyCode (opcode p) with
    | none =>
      refine ⟨p, ?_, hshape, rfl, fun _ => rfl, fun _ code h => ?_⟩
      · rw [downgradeInbox_eq hshape, hcode]
      · rw [hcode] at h
        cases h
    | some code =>
      have hlegacy : opcode p ∉ [respContactMessage, respChannelMessage, respChannelData] := by
        intro hmem
        simp only [List.mem_cons, List.not_mem_nil, or_false] at hmem
        rcases hmem with hop | hop | hop <;> simp +decide [hop, legacyCode] at hcode
      by_cases htarget : targetVersion < 3
      · obtain ⟨-, hvalid, hidentity⟩ := withoutMetadata_preserves hshape hcode
        refine ⟨withoutMetadata code p, downgradeInbox_of_legacy hshape hcode htarget, hvalid,
          hidentity, fun h => ?_, fun _ code' h => ?_⟩
        · exact absurd (h.resolve_right hlegacy) (UInt8.not_le.mpr htarget)
        · rw [Option.some.inj (hcode.symm.trans h)]
          rfl
      · refine ⟨p, ?_, hshape, rfl, fun _ => rfl, fun h => absurd h htarget⟩
        rw [downgradeInbox_eq hshape, hcode]
        exact congrArg Except.ok (if_pos (UInt8.not_lt.mp htarget))
  · intro code hcode htarget q code' hshape' hcode' target htarget'
    rw [downgradeInbox_of_legacy hshape hcode htarget,
      downgradeInbox_of_legacy hshape' hcode' htarget', Except.ok.injEq]
    exact withoutMetadata_inj (withoutMetadata_preserves hshape hcode).1
      (withoutMetadata_preserves hshape' hcode').1 hcode hcode'

/-- A signed text, for a client of version 1. -/
theorem downgradeInbox_preserves_one :
    let p : Bytes := [0x10, 9, 0, 0, 1, 1, 1, 1, 1, 1, 255, 2, 0, 0, 0, 0, 7, 7, 7, 7, 104]
    (∃ visible, downgradeInbox p 1 = .ok visible ∧ Preserved p 1 visible) ∧
    (∀ code, legacyCode (opcode p) = some code → (1 : UInt8) < 3 →
      ∀ q code', validateResponseShape q = .ok () → legacyCode (opcode q) = some code' →
      ∀ target < 3, (downgradeInbox p 1 = downgradeInbox q target ↔
        ∀ i, i < 1 ∨ 3 < i → p[i]? = q[i]?)) :=
  downgradeInbox_preserves (by decide) 1

end Protocol
end MeshCoreTCPMux

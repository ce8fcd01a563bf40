import MeshCoreTCPMux.Library.PrefixCode
import MeshCoreTCPMux.Protocol.ValidResponses

/-!
# The variable-length replies

`ADVERT_PATH`, `PATH_DISCOVERY_RESPONSE` and `TRACE_DATA` carry paths behind a fixed header. The
records below say what they mean; their serialisations are prefix-free, and the layout checks accept
exactly them (`paths_exact`). An ordinary path and a trace encode the width of their hashes in
different ways.
-/

namespace MeshCoreTCPMux
namespace Protocol

variable {p : Bytes}

/-! ### Ordinary paths -/

/-- At most 63 hashes of one width, and of at most 64 bytes together. -/
structure OrdinaryPath where
  count : Nat
  width : Nat
  hashes : Bytes
  count_le : count ≤ 63
  width_pos : 1 ≤ width
  width_le : width ≤ 3
  size_le : count * width ≤ 64
  length_eq : hashes.length = count * width

namespace OrdinaryPath

/-- The low six bits count the hashes, the upper two hold their width minus one. -/
def lengthByte (x : OrdinaryPath) : UInt8 := UInt8.ofNat ((x.width - 1) * 64 + x.count)

def encode (x : OrdinaryPath) : Bytes := x.lengthByte :: x.hashes

theorem toNat_lengthByte (x : OrdinaryPath) :
    x.lengthByte.toNat = (x.width - 1) * 64 + x.count := by
  have hcount := x.count_le
  have hwidth := x.width_le
  rw [lengthByte, UInt8.toNat_ofNat']
  exact Nat.mod_eq_of_lt (by omega)

end OrdinaryPath

theorem normalEncodedPathBytes_eq (b : UInt8) : normalEncodedPathBytes b =
    if b.toNat / 64 = 3 then none
    else if b.toNat % 64 * (b.toNat / 64 + 1) ≤ 64 then some (b.toNat % 64 * (b.toNat / 64 + 1))
    else none := by
  have hcount : (b &&& pathCountMask).toNat = b.toNat % 64 := by
    rw [UInt8.toNat_and]
    exact Nat.and_two_pow_sub_one_eq_mod b.toNat 6
  have hwidth : (b >>> 6).toNat = b.toNat / 64 := by
    rw [UInt8.toNat_shiftRight]
    exact Nat.shiftRight_eq_div_pow b.toNat 6
  unfold normalEncodedPathBytes
  simp only [hcount, hwidth]
  congr 1
  exact propext (by omega)

namespace OrdinaryPath

theorem normalEncodedPathBytes_lengthByte (x : OrdinaryPath) :
    normalEncodedPathBytes x.lengthByte = some x.hashes.length := by
  have hcount := x.count_le
  have hpos := x.width_pos
  have hwidth := x.width_le
  have hlow : ((x.width - 1) * 64 + x.count) % 64 = x.count := by omega
  have hhigh : ((x.width - 1) * 64 + x.count) / 64 = x.width - 1 := by omega
  rw [normalEncodedPathBytes_eq, x.toNat_lengthByte, hlow, hhigh, if_neg (by omega),
    Nat.sub_add_cancel hpos, if_pos x.size_le, x.length_eq]

theorem prefixFree : PrefixFree encode := by
  intro x y r r' h
  obtain ⟨hbyte, hrest⟩ := List.cons.inj h
  have hnat := congrArg UInt8.toNat hbyte
  rw [x.toNat_lengthByte, y.toNat_lengthByte] at hnat
  have hcount : x.count = y.count := by
    have hx := x.count_le
    have hy := y.count_le
    omega
  have hwidth : x.width = y.width := by
    have hx := x.width_pos
    have hy := y.width_pos
    omega
  have hlength : x.hashes.length = y.hashes.length := by
    rw [x.length_eq, y.length_eq, hcount, hwidth]
  obtain ⟨hhashes, hr⟩ := List.append_inj hrest hlength
  refine ⟨?_, hr⟩
  cases x
  cases y
  subst hcount hwidth hhashes
  rfl

end OrdinaryPath

theorem exists_ordinaryPath {b : UInt8} {hashes : Bytes}
    (h : normalEncodedPathBytes b = some hashes.length) :
    ∃ x : OrdinaryPath, x.encode = b :: hashes := by
  rw [normalEncodedPathBytes_eq] at h
  split at h
  · cases h
  next hwidth =>
    split at h
    · next hsize =>
      have hlt := b.toNat_lt
      refine ⟨⟨b.toNat % 64, b.toNat / 64 + 1, hashes, by omega, by omega, by omega, hsize,
        (Option.some.inj h).symm⟩, ?_⟩
      rw [OrdinaryPath.encode, OrdinaryPath.lengthByte, Nat.add_sub_cancel, Nat.div_add_mod']
      rw [UInt8.ofNat_toNat]
    · cases h

/-! ### Headers -/

/-- The byte behind a header. -/
theorem getD_header {header rest : Bytes} {k : Nat} (h : header.length = k) (b : UInt8) :
    (header ++ b :: rest).getD k 0 = b := by
  rw [List.getD_append_right _ _ _ _ h.le, h, Nat.sub_self, List.getD_cons_zero]

theorem eq_header {k : Nat} (h : k < p.length) :
    p.take k ++ p.getD k 0 :: p.drop (k + 1) = p := by
  have hbyte : p.getD k 0 = p[k] := by
    rw [List.getD_eq_getElem?_getD, List.getElem?_eq_getElem h]
    rfl
  rw [hbyte, ← List.drop_eq_getElem_cons h, List.take_append_drop]

theorem opcode_append {header : Bytes} (h : 0 < header.length) (rest : Bytes) :
    opcode (header ++ rest) = opcode header := List.getD_append _ _ _ _ h

theorem opcode_take {k : Nat} (h : 0 < k) (p : Bytes) : opcode (p.take k) = opcode p := by
  cases p with
  | nil => rw [List.take_nil]
  | cons b p =>
    obtain ⟨k, rfl⟩ := Nat.exists_eq_succ_of_ne_zero h.ne'
    rfl

/-! ### Advertised paths -/

/-- A five-byte header and one ordinary path. -/
structure AdvertPath where
  header : Bytes
  path : OrdinaryPath
  header_length : header.length = 5
  header_code : opcode header = respAdvertPath

namespace AdvertPath

def encode (x : AdvertPath) : Bytes := x.header ++ x.path.encode

theorem prefixFree : PrefixFree encode := by
  intro x y r r' h
  rw [encode, encode, List.append_assoc, List.append_assoc] at h
  obtain ⟨hheader, hrest⟩ := List.append_inj h (x.header_length.trans y.header_length.symm)
  obtain ⟨hpath, hr⟩ := OrdinaryPath.prefixFree hrest
  refine ⟨?_, hr⟩
  cases x
  cases y
  subst hheader hpath
  rfl

theorem opcode_encode (x : AdvertPath) : opcode x.encode = respAdvertPath :=
  (opcode_append (by rw [x.header_length]; decide) _).trans x.header_code

end AdvertPath

theorem advertPathResponseValid_iff (hop : opcode p = respAdvertPath) :
    advertPathResponseValid p = true ↔ ∃ x : AdvertPath, x.encode = p := by
  constructor
  · intro h
    unfold advertPathResponseValid at h
    split at h
    · cases h
    next hsize =>
      split at h
      · cases h
      next pathSize hpath =>
        have hlength : p.length = 6 + pathSize := by simpa using h
        have hhashes : (p.drop 6).length = pathSize := by
          rw [List.length_drop]
          omega
        obtain ⟨x, hx⟩ := exists_ordinaryPath (hpath.trans (congrArg some hhashes.symm))
        refine ⟨⟨p.take 5, x, ?_, (opcode_take (by decide) p).trans hop⟩, ?_⟩
        · rw [List.length_take]
          omega
        · rw [AdvertPath.encode, hx]
          exact eq_header (by omega)
  · rintro ⟨x, rfl⟩
    have hlength : x.encode.length = 6 + x.path.hashes.length := by
      rw [AdvertPath.encode, OrdinaryPath.encode, List.length_append, List.length_cons,
        x.header_length]
      omega
    have hbyte : x.encode.getD 5 0 = x.path.lengthByte := getD_header x.header_length _
    rw [advertPathResponseValid, if_neg (by omega), hbyte,
      OrdinaryPath.normalEncodedPathBytes_lengthByte]
    exact decide_eq_true hlength

/-! ### Discovered paths -/

/-- An eight-byte header, the outbound path and the inbound path. -/
structure PathDiscovery where
  header : Bytes
  outbound : OrdinaryPath
  inbound : OrdinaryPath
  header_length : header.length = 8
  header_code : opcode header = pushPathDiscoveryResponse

namespace PathDiscovery

def encode (x : PathDiscovery) : Bytes := x.header ++ (x.outbound.encode ++ x.inbound.encode)

theorem prefixFree : PrefixFree encode := by
  intro x y r r' h
  simp only [encode, List.append_assoc] at h
  obtain ⟨hheader, hrest⟩ := List.append_inj h (x.header_length.trans y.header_length.symm)
  obtain ⟨houtbound, hrest⟩ := OrdinaryPath.prefixFree hrest
  obtain ⟨hinbound, hr⟩ := OrdinaryPath.prefixFree hrest
  refine ⟨?_, hr⟩
  cases x
  cases y
  subst hheader houtbound hinbound
  rfl

theorem opcode_encode (x : PathDiscovery) : opcode x.encode = pushPathDiscoveryResponse :=
  (opcode_append (by rw [x.header_length]; decide) _).trans x.header_code

end PathDiscovery

theorem pathDiscoveryResponseValid_iff (hop : opcode p = pushPathDiscoveryResponse) :
    pathDiscoveryResponseValid p = true ↔ ∃ x : PathDiscovery, x.encode = p := by
  constructor
  · intro h
    unfold pathDiscoveryResponseValid at h
    split at h
    · cases h
    next hsize =>
      split at h
      · cases h
      next outSize hout =>
        split at h
        · cases h
        next hcursor =>
          split at h
          · cases h
          next inSize hin =>
            have hlength : 8 + 1 + outSize + 1 + inSize = p.length := by simpa using h
            have houtbound : ((p.drop 9).take outSize).length = outSize := by
              rw [List.length_take, List.length_drop]
              omega
            have hinbound : (p.drop (8 + 1 + outSize + 1)).length = inSize := by
              rw [List.length_drop]
              omega
            obtain ⟨x, hx⟩ := exists_ordinaryPath (hout.trans (congrArg some houtbound.symm))
            obtain ⟨y, hy⟩ := exists_ordinaryPath (hin.trans (congrArg some hinbound.symm))
            refine ⟨⟨p.take 8, x, y, ?_, (opcode_take (by decide) p).trans hop⟩, ?_⟩
            · rw [List.length_take]
              omega
            · -- The second length byte stands where the cursor is after the outbound path.
              have hrest : (p.drop 9).take outSize ++
                  p.getD (8 + 1 + outSize) 0 :: p.drop (8 + 1 + outSize + 1) = p.drop 9 := by
                have hbyte := eq_header (p := p.drop 9) (k := outSize)
                  (by rw [List.length_drop]; omega)
                rw [List.drop_drop, List.getD_eq_getElem?_getD, List.getElem?_drop] at hbyte
                rw [List.getD_eq_getElem?_getD]
                exact hbyte
              rw [PathDiscovery.encode, hx, hy, List.cons_append, hrest]
              exact eq_header (by omega)
  · rintro ⟨x, rfl⟩
    have hlength : x.encode.length = 8 + 1 + x.outbound.hashes.length + 1 +
        x.inbound.hashes.length := by
      simp only [PathDiscovery.encode, OrdinaryPath.encode, List.length_append, List.length_cons,
        x.header_length]
      omega
    have hout : x.encode.getD 8 0 = x.outbound.lengthByte := getD_header x.header_length _
    have hin : x.encode.getD (8 + 1 + x.outbound.hashes.length) 0 = x.inbound.lengthByte := by
      have hheader : (x.header ++ x.outbound.encode).length = 8 + 1 + x.outbound.hashes.length := by
        rw [OrdinaryPath.encode, List.length_append, List.length_cons, x.header_length]
        omega
      rw [PathDiscovery.encode, ← List.append_assoc]
      exact getD_header hheader _
    rw [pathDiscoveryResponseValid, if_neg (by omega), hout,
      OrdinaryPath.normalEncodedPathBytes_lengthByte]
    dsimp only
    rw [if_neg (by omega), hin, OrdinaryPath.normalEncodedPathBytes_lengthByte]
    exact decide_eq_true hlength.symm

/-! ### Traces -/

/-- A 12-byte header whose bytes 2 and 3 describe the hashes, at most 64 hashes of `2 ^ shift` bytes,
and one SNR more than there are hashes. -/
structure TraceData where
  header : Bytes
  shift : Nat
  hashes : List Bytes
  snrs : Bytes
  header_length : header.length = 12
  header_code : opcode header = pushTraceData
  hashes_le : hashes.length ≤ 64
  width_eq : ∀ hash ∈ hashes, hash.length = 2 ^ shift
  snrs_length : snrs.length = hashes.length + 1
  size_byte : (header.getD 2 0).toNat = hashes.length * 2 ^ shift
  shift_bits : (header.getD 3 0 &&& pathWidthShiftMask).toNat = shift

namespace TraceData

def encode (x : TraceData) : Bytes := x.header ++ (x.hashes.flatten ++ x.snrs)

/-- The widths are 1, 2, 4 and 8. -/
theorem shift_le (x : TraceData) : x.shift ≤ 3 := by
  rw [← x.shift_bits, UInt8.toNat_and]
  exact Nat.and_le_right

theorem length_flatten (x : TraceData) : x.hashes.flatten.length = (x.header.getD 2 0).toNat :=
  (length_flatten_blocks x.width_eq).trans x.size_byte.symm

theorem prefixFree : PrefixFree encode := by
  intro x y r r' h
  simp only [encode, List.append_assoc] at h
  obtain ⟨hheader, hrest⟩ := List.append_inj h (x.header_length.trans y.header_length.symm)
  have hshift : x.shift = y.shift := by rw [← x.shift_bits, ← y.shift_bits, hheader]
  have hcount : x.hashes.length = y.hashes.length := by
    have hsize : x.hashes.length * 2 ^ x.shift = y.hashes.length * 2 ^ x.shift := by
      rw [← x.size_byte, hheader, y.size_byte, hshift]
    exact Nat.eq_of_mul_eq_mul_right (Nat.two_pow_pos _) hsize
  have hflatten : x.hashes.flatten.length = y.hashes.flatten.length := by
    rw [x.length_flatten, y.length_flatten, hheader]
  obtain ⟨hhashes, hrest⟩ := List.append_inj hrest hflatten
  obtain ⟨hsnrs, hr⟩ := List.append_inj hrest
    (x.snrs_length.trans (hcount ▸ y.snrs_length.symm))
  have hblocks : x.hashes = y.hashes :=
    flatten_inj x.width_eq (hshift ▸ y.width_eq) hcount hhashes
  refine ⟨?_, hr⟩
  cases x
  cases y
  subst hheader hshift hblocks hsnrs
  rfl

theorem opcode_encode (x : TraceData) : opcode x.encode = pushTraceData :=
  (opcode_append (by rw [x.header_length]; decide) _).trans x.header_code

end TraceData

theorem traceResponseValid_iff (hop : opcode p = pushTraceData) :
    traceResponseValid p = true ↔ ∃ x : TraceData, x.encode = p := by
  constructor
  · intro h
    unfold traceResponseValid at h
    split at h
    · cases h
    next hsize =>
      obtain ⟨hmod, hcount, hlength⟩ := of_decide_eq_true h
      have hbytes : (p.getD 2 0).toNat =
          (p.getD 2 0).toNat / 2 ^ (p.getD 3 0 &&& pathWidthShiftMask).toNat *
            2 ^ (p.getD 3 0 &&& pathWidthShiftMask).toNat :=
        (Nat.div_mul_cancel (Nat.dvd_of_mod_eq_zero hmod)).symm
      generalize (p.getD 2 0).toNat / 2 ^ (p.getD 3 0 &&& pathWidthShiftMask).toNat = hops
        at hcount hlength hbytes
      have hpath : ((p.drop 12).take (p.getD 2 0).toNat).length = (p.getD 2 0).toNat := by
        rw [List.length_take, List.length_drop]
        omega
      obtain ⟨hashes, hhashes, hwidth, hflatten⟩ := exists_flatten (hpath.trans hbytes)
      have hbyte : ∀ k, k < 12 → (p.take 12).getD k 0 = p.getD k 0 := by
        intro k hk
        rw [List.getD_eq_getElem?_getD, List.getElem?_take_of_lt hk, ← List.getD_eq_getElem?_getD]
      refine ⟨{
        header := p.take 12
        shift := (p.getD 3 0 &&& pathWidthShiftMask).toNat
        hashes := hashes
        snrs := (p.drop 12).drop (p.getD 2 0).toNat
        header_length := ?_
        header_code := (opcode_take (by decide) p).trans hop
        hashes_le := hhashes ▸ hcount
        width_eq := hwidth
        snrs_length := ?_
        size_byte := ?_
        shift_bits := ?_ }, ?_⟩
      · rw [List.length_take]
        omega
      · rw [List.length_drop, List.length_drop]
        omega
      · rw [hbyte 2 (by decide), hhashes]
        exact hbytes
      · rw [hbyte 3 (by decide)]
      · rw [TraceData.encode]
        dsimp only
        rw [hflatten, List.take_append_drop, List.take_append_drop]
  · rintro ⟨x, rfl⟩
    have hbyte : ∀ k, k < 12 → x.encode.getD k 0 = x.header.getD k 0 := by
      intro k hk
      exact List.getD_append _ _ _ _ (hk.trans_eq x.header_length.symm)
    have hlength : x.encode.length = 12 + (x.header.getD 2 0).toNat + x.hashes.length + 1 := by
      simp only [TraceData.encode, List.length_append, x.header_length, x.length_flatten,
        x.snrs_length]
      omega
    have hhops : (x.header.getD 2 0).toNat / 2 ^ x.shift = x.hashes.length := by
      rw [x.size_byte, Nat.mul_div_cancel _ (Nat.two_pow_pos _)]
    have hmod : (x.header.getD 2 0).toNat % 2 ^ x.shift = 0 := by
      rw [x.size_byte, Nat.mul_mod_left]
    rw [traceResponseValid, if_neg (by omega), hbyte 2 (by decide), hbyte 3 (by decide),
      x.shift_bits]
    exact decide_eq_true ⟨hmod, hhops ▸ x.hashes_le, by rw [hhops]; exact hlength⟩

/-! ### The three grammars -/

/-- A layout check that accepts a prefix-free grammar accepts each encoding for one value and
neither a truncation nor an extension of it. -/
theorem accepts_exactly {α : Type} {encode : α → Bytes} {code : UInt8}
    (hfree : PrefixFree encode) (hcode : ∀ x, opcode (encode x) = code)
    (hvalid : ∀ {p : Bytes}, opcode p = code →
      (responseShapeValid p = true ↔ ∃ x, encode x = p))
    (hnonempty : ∀ x, encode x ≠ []) :
    (∀ p : Bytes, p.length ≤ maxPayload → opcode p = code →
      (validateResponseShape p = .ok () ↔ ∃! x, encode x = p)) ∧
    ∀ x (q : Bytes), q <+: encode x ∨ encode x <+: q → q ≠ encode x →
      validateResponseShape q ≠ .ok () := by
  have hiff : ∀ p : Bytes, opcode p = code →
      (validateResponseShape p = .ok () ↔ p.length ≤ maxPayload ∧ ∃ x, encode x = p) := by
    intro p hop
    refine ⟨fun h => ?_, fun ⟨hsize, x, hx⟩ => ?_⟩
    · obtain ⟨-, hmax, hshape⟩ := responseShapeValid_of h
      exact ⟨hmax, (hvalid hop).mp hshape⟩
    · have hempty : p.length ≠ 0 := fun h =>
        hnonempty x (hx.trans (List.length_eq_zero_iff.mp h))
      rw [validateResponseShape, if_neg hempty, if_neg (by omega),
        if_pos ((hvalid hop).mpr ⟨x, hx⟩)]
  refine ⟨fun p hsize hop => ?_, fun x q hq hne h => ?_⟩
  · rw [hiff p hop, hfree.existsUnique_iff]
    exact and_iff_right hsize
  · have hempty : q ≠ [] := fun hnil =>
      (responseShapeValid_of h).1 (List.length_eq_zero_iff.mpr hnil)
    have hop : opcode q = code := by
      rw [← hcode x]
      obtain ⟨b, q, rfl⟩ := List.exists_cons_of_ne_nil hempty
      rcases hq with ⟨r, hr⟩ | ⟨r, hr⟩
      · rw [← hr]
        rfl
      · obtain ⟨c, rest, hcons⟩ := List.exists_cons_of_ne_nil (hnonempty x)
        rw [hcons] at hr ⊢
        exact (List.cons.inj hr).1.symm
    obtain ⟨-, y, rfl⟩ := (hiff q hop).mp h
    exact hne (hfree.eq_of_comparable hq)

/-- Each variable-length reply is accepted exactly when it is the encoding of one record, and no
truncation or extension of an encoding is accepted. -/
theorem paths_exact :
    (∀ p : Bytes, p.length ≤ maxPayload →
      (opcode p = respAdvertPath →
        (validateResponseShape p = .ok () ↔ ∃! x : AdvertPath, x.encode = p)) ∧
      (opcode p = pushPathDiscoveryResponse →
        (validateResponseShape p = .ok () ↔ ∃! x : PathDiscovery, x.encode = p)) ∧
      (opcode p = pushTraceData →
        (validateResponseShape p = .ok () ↔ ∃! x : TraceData, x.encode = p))) ∧
    (∀ encoding : Bytes,
      (∃ x : AdvertPath, x.encode = encoding) ∨ (∃ x : PathDiscovery, x.encode = encoding) ∨
        (∃ x : TraceData, x.encode = encoding) →
      ∀ q : Bytes, q <+: encoding ∨ encoding <+: q → q ≠ encoding →
        validateResponseShape q ≠ .ok ()) := by
  obtain ⟨hadvert, hadvert'⟩ := accepts_exactly AdvertPath.prefixFree AdvertPath.opcode_encode
    (fun {p} hop => by
      rw [← advertPathResponseValid_iff hop, responseShapeValid]
      simp +decide [hop])
    (fun x h => by
      have hlength := congrArg List.length h
      simp [AdvertPath.encode, x.header_length] at hlength)
  obtain ⟨hdiscovery, hdiscovery'⟩ := accepts_exactly PathDiscovery.prefixFree
    PathDiscovery.opcode_encode
    (fun {p} hop => by
      rw [← pathDiscoveryResponseValid_iff hop, responseShapeValid]
      simp +decide [hop])
    (fun x h => by
      have hlength := congrArg List.length h
      simp [PathDiscovery.encode, x.header_length] at hlength)
  obtain ⟨htrace, htrace'⟩ := accepts_exactly TraceData.prefixFree TraceData.opcode_encode
    (fun {p} hop => by
      rw [← traceResponseValid_iff hop, responseShapeValid]
      simp +decide [hop])
    (fun x h => by
      have hlength := congrArg List.length h
      simp [TraceData.encode, x.header_length] at hlength)
  refine ⟨fun p hsize => ⟨hadvert p hsize, hdiscovery p hsize, htrace p hsize⟩, ?_⟩
  rintro encoding (⟨x, rfl⟩ | ⟨x, rfl⟩ | ⟨x, rfl⟩)
  · exact hadvert' x
  · exact hdiscovery' x
  · exact htrace' x

/-- Two hashes of two bytes are accepted; without the last byte they are not. -/
theorem paths_exact_one :
    (∃! x : AdvertPath, x.encode = [respAdvertPath, 1, 2, 3, 4, 0x42, 5, 6, 7, 8]) ∧
    validateResponseShape [respAdvertPath, 1, 2, 3, 4, 0x42, 5, 6, 7] ≠ .ok () := by
  have h : ∃! x : AdvertPath, x.encode = [respAdvertPath, 1, 2, 3, 4, 0x42, 5, 6, 7, 8] :=
    ((paths_exact.1 _ (by decide)).1 rfl).mp (by decide)
  exact ⟨h, paths_exact.2 _ (.inl h.exists) _ (.inl ⟨[8], rfl⟩) (by decide)⟩

end Protocol
end MeshCoreTCPMux

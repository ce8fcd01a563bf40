import MeshCoreTCPMux.FrameCodec

/-!
# Framing does not depend on the cutting

A decoder is fed a stream in portions. What it does is what `scan` does with the stream byte by byte
(`feedAll_scan`), wherever it is cut; and `scan` takes a stream apart into frames and a rest that
starts no complete frame (`Parsed`).
-/

namespace MeshCoreTCPMux
namespace FrameCodec

variable {marker : UInt8} {p p' : Progress} {d d' : Decoder} {now : Time}

/-! ### Byte by byte -/

/-- What one byte does to a frame under assembly. -/
def advance (marker : UInt8) : Progress → UInt8 → Except FrameError (Progress × List Bytes)
  | .header header _, byte =>
    let header := header ++ [byte]
    if header.length = 1 ∧ byte ≠ marker then .error (wrongMarker byte marker)
    else if hsize : header.length < 3 then .ok (.header header hsize, [])
    else if hlength : 1 ≤ declaredSize header ∧ declaredSize header ≤ maxPayloadSize then
      .ok (.payload (declaredSize header) [] hlength.1, [])
    else .error (badLength (declaredSize header))
  | .payload size received _, byte =>
    let received := received ++ [byte]
    if hpart : received.length < size then .ok (.payload size received hpart, [])
    else .ok (.start, [received])

/-- What scanning has done. -/
structure Scan where
  yielded : List Bytes
  consumed : Nat
  outcome : Except FrameError Progress

def Scan.prepend (scan : Scan) (yielded : List Bytes) (consumed : Nat) : Scan :=
  { scan with yielded := yielded ++ scan.yielded, consumed := consumed + scan.consumed }

/-- Take a stream byte by byte. -/
def scan (marker : UInt8) : Progress → Bytes → Scan
  | p, [] => ⟨[], 0, .ok p⟩
  | p, byte :: rest =>
    match advance marker p byte with
    | .error e => ⟨[], 1, .error e⟩
    | .ok (p', yielded) => (scan marker p' rest).prepend yielded 1

@[simp] theorem Scan.prepend_nil (s : Scan) : s.prepend [] 0 = s := by simp [Scan.prepend]

theorem Scan.prepend_prepend (s : Scan) (ys zs : List Bytes) (m n : Nat) :
    (s.prepend ys m).prepend zs n = s.prepend (zs ++ ys) (n + m) := by
  simp [Scan.prepend, Nat.add_assoc]

theorem scan_cons {byte : UInt8} {rest : Bytes} {yielded : List Bytes}
    (h : advance marker p byte = .ok (p', yielded)) :
    scan marker p (byte :: rest) = (scan marker p' rest).prepend yielded 1 := by
  rw [scan, h]

theorem scan_cons_error {byte : UInt8} {rest : Bytes} {e : FrameError}
    (h : advance marker p byte = .error e) :
    scan marker p (byte :: rest) = ⟨[], 1, .error e⟩ := by
  rw [scan, h]

/-- Scanning goes on where it was interrupted. -/
theorem scan_append (bytes rest : Bytes) :
    scan marker p (bytes ++ rest) = match (scan marker p bytes).outcome with
      | .error _ => scan marker p bytes
      | .ok p' => (scan marker p' rest).prepend (scan marker p bytes).yielded
          (scan marker p bytes).consumed := by
  induction bytes generalizing p with
  | nil => exact (Scan.prepend_nil _).symm
  | cons byte bytes ih =>
    rw [List.cons_append]
    cases hstep : advance marker p byte with
    | error e => rw [scan_cons_error hstep, scan_cons_error hstep]
    | ok next =>
      obtain ⟨p', yielded⟩ := next
      rw [scan_cons hstep, scan_cons hstep, ih]
      cases hrest : (scan marker p' bytes).outcome with
      | error e => simp only [Scan.prepend, hrest]
      | ok p'' => simp [Scan.prepend, hrest, Nat.add_assoc]

/-! ### Feeding is scanning -/

/-- What feeding has done, without the times. -/
def Fed.scan (fed : Fed) : Scan := ⟨fed.yielded, fed.consumed, fed.outcome.map Decoder.progress⟩

theorem Fed.scan_prepend (fed : Fed) (yielded : List Bytes) (consumed : Nat) :
    (fed.prepend yielded consumed).scan = fed.scan.prepend yielded consumed := rfl

/-- A payload takes many bytes as it takes them one by one. -/
theorem scan_payload {size : Nat} {received : Bytes} (h : received.length < size)
    {bytes : Bytes} (hne : bytes ≠ []) (hfits : received.length + bytes.length ≤ size) :
    scan marker (.payload size received h) bytes =
      if hpart : (received ++ bytes).length < size then
        ⟨[], bytes.length, .ok (.payload size (received ++ bytes) hpart)⟩
      else ⟨[received ++ bytes], bytes.length, .ok .start⟩ := by
  induction bytes generalizing received with
  | nil => exact absurd rfl hne
  | cons byte bytes ih =>
    rw [List.length_cons] at hfits
    by_cases hpart : (received ++ [byte]).length < size
    · have hstep : advance marker (.payload size received h) byte
          = .ok (.payload size (received ++ [byte]) hpart, []) := by
        simp only [advance]
        rw [dif_pos hpart]
      rw [scan_cons hstep]
      have hjoin : received ++ byte :: bytes = received ++ [byte] ++ bytes := by simp
      cases bytes with
      | nil =>
        rw [dif_pos hpart]
        rfl
      | cons next bytes =>
        rw [ih hpart (List.cons_ne_nil _ _) (by simp at hfits ⊢; omega)]
        simp only [hjoin]
        split
        · simp [Scan.prepend, Nat.add_comm]
        · simp [Scan.prepend, Nat.add_comm]
    · have hstep : advance marker (.payload size received h) byte
          = .ok (.start, [received ++ [byte]]) := by
        simp only [advance]
        rw [dif_neg hpart]
      have hlast : bytes = [] := by
        rw [List.length_append, List.length_singleton] at hpart
        exact List.length_eq_zero_iff.mp (by omega)
      subst hlast
      rw [scan_cons hstep, dif_neg hpart]
      rfl

theorem scan_payload_append {size : Nat} {received : Bytes} (h : received.length < size)
    {bytes : Bytes} (hne : bytes ≠ []) (hfits : received.length + bytes.length ≤ size)
    (rest : Bytes) :
    scan marker (.payload size received h) (bytes ++ rest) =
      if hpart : (received ++ bytes).length < size then
        (scan marker (.payload size (received ++ bytes) hpart) rest).prepend [] bytes.length
      else (scan marker .start rest).prepend [received ++ bytes] bytes.length := by
  rw [scan_append, scan_payload h hne hfits]
  by_cases hpart : (received ++ bytes).length < size
  · simp only [dif_pos hpart]
  · simp only [dif_neg hpart]

/-- The loop of `feed` takes bytes as they come, one by one. -/
theorem scan_feedLoop (d : Decoder) (bytes : Bytes) :
    (d.feedLoop now bytes).scan = FrameCodec.scan d.marker d.progress bytes := by
  have hcut : ∀ (bytes : Bytes) (size : Nat) (received : Bytes), received.length < size →
      bytes ≠ [] → let count := min bytes.length (size - received.length)
      bytes.take count ≠ [] ∧ received.length + (bytes.take count).length ≤ size ∧
        (bytes.take count).length = count := by
    intro bytes size received h hne count
    have hpositive := List.length_pos_iff.mpr hne
    have hlength : (bytes.take count).length = count := by
      rw [List.length_take]
      exact Nat.min_eq_left (Nat.min_le_left _ _)
    refine ⟨List.ne_nil_of_length_pos ?_, ?_, hlength⟩ <;> rw [hlength] <;> omega
  fun_induction Decoder.feedLoop now d bytes with
  | case1 => rfl
  | case2 d byte rest header _ hprogress _ hwrong =>
    rw [hprogress, scan_cons_error (e := wrongMarker byte d.marker)]
    · rfl
    · simp only [advance]
      exact if_pos hwrong
  | case3 d byte rest _ header _ hprogress _ hright hsize ih =>
    rw [Fed.scan_prepend, ih, hprogress]
    refine (scan_cons ?_).symm
    simp only [advance]
    rw [if_neg hright]
    exact dif_pos hsize
  | case4 d byte rest _ header _ hprogress _ hright hsize hlength ih =>
    rw [Fed.scan_prepend, ih, hprogress]
    refine (scan_cons ?_).symm
    simp only [advance]
    rw [if_neg hright, dif_neg hsize]
    exact dif_pos hlength
  | case5 d byte rest header _ hprogress header' hright hsize hlength =>
    rw [hprogress, scan_cons_error (e := badLength (declaredSize header'))]
    · rfl
    · simp only [advance]
      rw [if_neg hright, dif_neg hsize]
      exact dif_neg hlength
  | case6 d byte rest _ size received h hprogress count received' hpart ih =>
    obtain ⟨hne, hfits, hcount⟩ := hcut (byte :: rest) size received h (List.cons_ne_nil _ _)
    have hscan := @scan_payload_append d.marker _ _ h _ hne hfits ((byte :: rest).drop count)
    rw [List.take_append_drop, dif_pos hpart, hcount] at hscan
    rw [Fed.scan_prepend, ih, hprogress, hscan]
  | case7 d byte rest size received h hprogress count received' hpart ih =>
    obtain ⟨hne, hfits, hcount⟩ := hcut (byte :: rest) size received h (List.cons_ne_nil _ _)
    have hscan := @scan_payload_append d.marker _ _ h _ hne hfits ((byte :: rest).drop count)
    rw [List.take_append_drop, dif_neg hpart, hcount] at hscan
    rw [Fed.scan_prepend, ih, hprogress, hscan]

/-- Feeding leaves the marker alone. -/
theorem feedLoop_marker {d' : Decoder} (bytes : Bytes)
    (h : (d.feedLoop now bytes).outcome = .ok d') : d'.marker = d.marker := by
  fun_induction Decoder.feedLoop now d bytes with
  | case1 d => rw [← Except.ok.inj h]
  | case2 | case5 => cases h
  | case3 _ _ _ _ _ _ _ _ _ _ ih => exact ih h
  | case4 _ _ _ _ _ _ _ _ _ _ _ ih => exact ih h
  | case6 _ _ _ _ _ _ _ _ _ _ _ ih => exact ih h
  | case7 _ _ _ _ _ _ _ _ _ _ ih => exact ih h

/-! ### Portions -/

/-- No portion comes when a frame that has been started has reached its assembly deadline. -/
def Timely : Decoder → List (Bytes × Time) → Prop
  | _, [] => True
  | d, (bytes, now) :: portions => d.checkDeadline now = .ok () ∧
      ∀ d', (d.feed bytes now).outcome = .ok d' → Timely d' portions

/-- The stream that has been cut into portions. -/
def streamOf (portions : List (Bytes × Time)) : Bytes := portions.flatMap Prod.fst

/-- **Feeding portions is scanning their stream.** -/
theorem feedAll_scan {portions : List (Bytes × Time)} (h : Timely d portions) :
    (d.feedAll portions).scan = FrameCodec.scan d.marker d.progress (streamOf portions) := by
  induction portions generalizing d with
  | nil => rfl
  | cons portion portions ih =>
    obtain ⟨bytes, now⟩ := portion
    obtain ⟨hdeadline, hnext⟩ := h
    have hfeed : d.feed bytes now = d.feedLoop now bytes := by rw [Decoder.feed, hdeadline]
    have hscan := @scan_feedLoop now d bytes
    rw [← hfeed] at hscan
    have hstream : streamOf ((bytes, now) :: portions) = bytes ++ streamOf portions := by
      simp [streamOf]
    rw [hstream, scan_append, ← hscan, Decoder.feedAll]
    cases houtcome : (d.feed bytes now).outcome with
    | error e => simp [Fed.scan, houtcome, Except.map]
    | ok d' =>
      have hmarker : d'.marker = d.marker := feedLoop_marker bytes (hfeed ▸ houtcome)
      simp only [Fed.scan_prepend]
      rw [ih (hnext d' houtcome), hmarker]
      simp [Fed.scan, houtcome, Except.map]

/-! ### Frames -/

/-- The envelope of a payload. -/
def frame (marker : UInt8) (payload : Bytes) : Bytes :=
  marker :: UInt8.ofNat (payload.length % 256) :: UInt8.ofNat (payload.length / 256 % 256)
    :: payload

/-- A payload that has an envelope. -/
def Framed (payload : Bytes) : Prop := 1 ≤ payload.length ∧ payload.length ≤ maxPayloadSize

instance (payload : Bytes) : Decidable (Framed payload) :=
  inferInstanceAs (Decidable (1 ≤ payload.length ∧ payload.length ≤ maxPayloadSize))

theorem encode_eq_ok {payload encoded : Bytes} (hmarker : validateMarker marker = .ok ()) :
    encode payload marker = .ok encoded ↔ Framed payload ∧ encoded = frame marker payload := by
  have heq : encode payload marker = if Framed payload then .ok (frame marker payload)
      else .error (.argument ["payload length ", payload.length, " is outside 1..",
        maxPayloadSize]) := by
    unfold encode Framed
    rw [hmarker]
    by_cases hsize : 1 ≤ payload.length ∧ payload.length ≤ maxPayloadSize
    · simp only [hsize]
      rfl
    · simp only [hsize]
      rfl
  rw [heq]
  by_cases h : Framed payload
  · rw [if_pos h, Except.ok.injEq]
    exact ⟨fun heq => ⟨h, heq.symm⟩, fun heq => heq.2.symm⟩
  · rw [if_neg h]
    exact ⟨fun heq => (nomatch heq), fun heq => absurd heq.1 h⟩

theorem declaredSize_frame {payload : Bytes} (h : Framed payload) :
    declaredSize [marker, UInt8.ofNat (payload.length % 256),
      UInt8.ofNat (payload.length / 256 % 256)] = payload.length := by
  have hmax : payload.length ≤ 176 := h.2
  simp only [declaredSize, List.getD_cons_succ, List.getD_cons_zero, UInt8.toNat_ofNat']
  omega

/-- The header of a frame under assembly. -/
theorem scan_header (low high : UInt8) (rest : Bytes) :
    scan marker .start (marker :: low :: high :: rest) =
      if hlength : 1 ≤ declaredSize [marker, low, high] ∧
          declaredSize [marker, low, high] ≤ maxPayloadSize then
        (scan marker (.payload (declaredSize [marker, low, high]) [] hlength.1) rest).prepend [] 3
      else ⟨[], 3, .error (badLength (declaredSize [marker, low, high]))⟩ := by
  have hfirst : advance marker .start marker = .ok (.header [marker] (by simp), []) := by
    simp [advance, Progress.start]
  have hsecond : advance marker (.header [marker] (by simp)) low
      = .ok (.header [marker, low] (by simp), []) := by
    simp [advance]
  rw [scan_cons hfirst, scan_cons hsecond]
  by_cases hlength : 1 ≤ declaredSize [marker, low, high] ∧
      declaredSize [marker, low, high] ≤ maxPayloadSize
  · have hthird : advance marker (.header [marker, low] (by simp)) high
        = .ok (.payload (declaredSize [marker, low, high]) [] hlength.1, []) := by
      simp only [advance]
      rw [if_neg (by simp), dif_neg (by simp)]
      exact dif_pos hlength
    rw [scan_cons hthird, dif_pos hlength, Scan.prepend_prepend, Scan.prepend_prepend]
    rfl
  · have hthird : advance marker (.header [marker, low] (by simp)) high
        = .error (badLength (declaredSize [marker, low, high])) := by
      simp only [advance]
      rw [if_neg (by simp), dif_neg (by simp)]
      exact dif_neg hlength
    rw [scan_cons_error hthird, dif_neg hlength]
    rfl

/-- A frame is taken off the stream. -/
theorem scan_frame {payload : Bytes} (h : Framed payload) (rest : Bytes) :
    scan marker .start (frame marker payload ++ rest)
      = (scan marker .start rest).prepend [payload] (payload.length + 3) := by
  have hsize := @declaredSize_frame marker _ h
  have hne : payload ≠ [] := List.ne_nil_of_length_pos h.1
  simp only [frame, List.cons_append]
  rw [scan_header, dif_pos (by rw [hsize]; exact h)]
  rw [scan_payload_append _ hne (by rw [hsize]; simp), dif_neg (by rw [hsize]; simp)]
  rw [Scan.prepend_prepend, List.nil_append, Nat.add_comm, List.nil_append]

/-- The bytes that make feeding raise `e` when the first `n` of them have been consumed. -/
inductive Faulty (marker : UInt8) : Bytes → FrameError → Nat → Prop
  | marker {byte : UInt8} (rest : Bytes) (h : byte ≠ marker) :
      Faulty marker (byte :: rest) (wrongMarker byte marker) 1
  | length {low high : UInt8} (rest : Bytes)
      (h : ¬ (1 ≤ declaredSize [marker, low, high] ∧
        declaredSize [marker, low, high] ≤ maxPayloadSize)) :
      Faulty marker (marker :: low :: high :: rest) (badLength (declaredSize [marker, low, high])) 3

/-- How bytes are scanned that start no complete frame. -/
inductive Ends (marker : UInt8) : Bytes → Nat → Except FrameError Progress → Prop
  | header {bytes : Bytes} (h : bytes.length < 3) (hmarker : ∀ byte ∈ bytes.head?, byte = marker) :
      Ends marker bytes bytes.length (.ok (.header bytes h))
  | payload {low high : UInt8} {body : Bytes}
      (hsize : declaredSize [marker, low, high] ≤ maxPayloadSize)
      (h : body.length < declaredSize [marker, low, high]) :
      Ends marker (marker :: low :: high :: body) (body.length + 3)
        (.ok (.payload (declaredSize [marker, low, high]) body h))
  | faulty {bytes : Bytes} {n : Nat} {e : FrameError} (h : Faulty marker bytes e n) :
      Ends marker bytes n (.error e)

theorem Ends.scan {bytes : Bytes} {n : Nat} {outcome : Except FrameError Progress}
    (h : Ends marker bytes n outcome) :
    FrameCodec.scan marker .start bytes = ⟨[], n, outcome⟩ := by
  cases h with
  | header h hmarker =>
    match bytes, h, hmarker with
    | [], _, _ => rfl
    | [byte], _, hmarker =>
      obtain rfl := hmarker byte rfl
      simp [FrameCodec.scan, advance, Progress.start, Scan.prepend]
    | [byte, low], _, hmarker =>
      obtain rfl := hmarker byte rfl
      simp [FrameCodec.scan, advance, Progress.start, Scan.prepend]
  | @payload low high body hsize h =>
    rw [scan_header, dif_pos ⟨by omega, hsize⟩]
    cases body with
    | nil => rfl
    | cons byte body =>
      rw [scan_payload _ (List.cons_ne_nil _ _) (by simp at h ⊢; omega), dif_pos (by simpa using h)]
      simp [Scan.prepend, Nat.add_comm]
  | faulty h =>
    cases h with
    | marker rest hwrong =>
      refine scan_cons_error ?_
      simp only [advance, Progress.start]
      exact if_pos ⟨rfl, hwrong⟩
    | length rest hlength =>
      rw [scan_header, dif_neg hlength]

/-- A stream, taken apart: frames, and bytes that start no complete frame. -/
structure Parsed (marker : UInt8) (stream : Bytes) (payloads : List Bytes) (tail : Bytes) (n : Nat)
    (outcome : Except FrameError Progress) : Prop where
  framed : ∀ payload ∈ payloads, Framed payload
  stream : stream = payloads.flatMap (frame marker) ++ tail
  ends : Ends marker tail n outcome

/-- Every stream can be taken apart. -/
theorem exists_parsed (marker : UInt8) (stream : Bytes) :
    ∃ payloads tail n outcome, Parsed marker stream payloads tail n outcome := by
  have hend : ∀ {n outcome}, Ends marker stream n outcome →
      ∃ payloads tail n outcome, Parsed marker stream payloads tail n outcome :=
    fun h => ⟨[], stream, _, _, ⟨fun _ hp => (nomatch hp), rfl, h⟩⟩
  induction hlength : stream.length using Nat.strongRecOn generalizing stream with
  | _ length ih =>
  match stream with
  | [] => exact hend (.header (by simp) (by simp))
  | byte :: rest =>
    by_cases hmarker : byte = marker
    swap
    · exact hend (.faulty (.marker rest hmarker))
    subst hmarker
    match rest with
    | [] => exact hend (.header (by simp) (by simp))
    | [low] => exact hend (.header (by simp) (by simp))
    | low :: high :: body =>
      by_cases hsize : 1 ≤ declaredSize [byte, low, high] ∧
          declaredSize [byte, low, high] ≤ maxPayloadSize
      swap
      · exact hend (.faulty (.length body hsize))
      by_cases hbody : body.length < declaredSize [byte, low, high]
      · exact hend (.payload hsize.2 hbody)
      -- a complete frame comes off
      generalize hdeclared : declaredSize [byte, low, high] = size at hsize hbody
      have hframe : frame byte (body.take size) = byte :: low :: high :: body.take size := by
        have hlow := low.toNat_lt
        have hhigh := high.toNat_lt
        have htake : (body.take size).length = size := by
          rw [List.length_take]
          omega
        simp only [declaredSize, List.getD_cons_succ, List.getD_cons_zero] at hdeclared
        simp only [frame, htake, List.cons.injEq, and_true, true_and]
        constructor <;> refine UInt8.toNat_inj.mp ?_ <;> rw [UInt8.toNat_ofNat'] <;> omega
      obtain ⟨payloads, tail, n, outcome, hparsed⟩ := ih (body.drop size).length
        (by simp only [← hlength, List.length_cons, List.length_drop]; omega) (body.drop size)
        (fun h => ⟨[], _, _, _, ⟨fun _ hp => (nomatch hp), rfl, h⟩⟩) rfl
      refine ⟨body.take size :: payloads, tail, n, outcome, ?_, ?_, hparsed.ends⟩
      · intro p hp
        rcases List.mem_cons.mp hp with rfl | hp
        · unfold Framed
          rw [List.length_take]
          omega
        · exact hparsed.framed p hp
      · rw [List.flatMap_cons, List.append_assoc, ← hparsed.stream, hframe]
        simp

/-- Scanning takes a stream apart. -/
theorem Parsed.scan {stream : Bytes} {payloads : List Bytes} {tail : Bytes} {n : Nat}
    {outcome : Except FrameError Progress} (h : Parsed marker stream payloads tail n outcome) :
    FrameCodec.scan marker .start stream =
      ⟨payloads, (payloads.flatMap (frame marker)).length + n, outcome⟩ := by
  obtain ⟨hframed, rfl, hends⟩ := h
  induction payloads with
  | nil => simpa using hends.scan
  | cons payload payloads ih =>
    have hrest := ih fun p hp => hframed p (List.mem_cons_of_mem _ hp)
    rw [List.flatMap_cons, List.append_assoc, scan_frame (hframed payload List.mem_cons_self),
      hrest]
    simp only [Scan.prepend, List.singleton_append, List.length_append, frame, List.length_cons]
    congr 1
    omega

/-! ### Encoded payloads -/

/-- The envelopes of payloads that all have one. -/
theorem mapM_encode (hmarker : validateMarker marker = .ok ()) {payloads frames : List Bytes} :
    (payloads.mapM fun p => encode p marker) = .ok frames ↔
      (∀ payload ∈ payloads, Framed payload) ∧ frames = payloads.map (frame marker) := by
  induction payloads generalizing frames with
  | nil =>
    rw [List.mapM_nil, Except.pure_eq_ok]
    simp [eq_comm]
  | cons payload payloads ih =>
    rw [List.mapM_cons, Except.bind_eq_ok]
    simp only [encode_eq_ok hmarker, Except.bind_eq_ok, ih, Except.pure_eq_ok]
    constructor
    · rintro ⟨_, ⟨hfirst, rfl⟩, _, ⟨hrest, rfl⟩, rfl⟩
      exact ⟨by simpa using ⟨hfirst, hrest⟩, rfl⟩
    · rintro ⟨hframed, rfl⟩
      exact ⟨_, ⟨hframed _ List.mem_cons_self, rfl⟩, _,
        ⟨fun p hp => hframed p (List.mem_cons_of_mem _ hp), rfl⟩, rfl⟩

/-- Scanning raises an error when the bytes are faulty. -/
theorem Ends.faulty_iff {bytes : Bytes} {n : Nat} {outcome : Except FrameError Progress}
    (h : Ends marker bytes n outcome) (e : FrameError) (m : Nat) :
    outcome = .error e ∧ n = m ↔ Faulty marker bytes e m := by
  constructor
  · rintro ⟨rfl, rfl⟩
    cases h with
    | faulty h => exact h
  · intro hfaulty
    obtain ⟨-, hn, houtcome⟩ := Scan.mk.inj (h.scan.symm.trans (Ends.faulty hfaulty).scan)
    exact ⟨houtcome, hn⟩

/-- No frame stands complete at the start of the rest. -/
theorem Ends.no_frame {bytes : Bytes} {n : Nat} {outcome : Except FrameError Progress}
    (h : Ends marker bytes n outcome) {payload : Bytes} (hframed : Framed payload) (rest : Bytes) :
    bytes ≠ frame marker payload ++ rest := by
  rintro rfl
  have hscan := (scan_frame hframed rest).symm.trans h.scan
  exact absurd (Scan.mk.inj hscan).1 (by simp)

/-- What a decoder has to show for a stream: the payloads that it yielded, the bytes that it took,
and how the stream ended. -/
def Fed.result (fed : Fed) : List Bytes × Nat × Except FrameError Unit :=
  (fed.yielded, fed.consumed, fed.ending)

/-- The end of a stream depends only on what has been scanned. -/
theorem Fed.result_eq_of_scan {fed fed' : Fed} (h : fed.scan = fed'.scan) :
    fed.result = fed'.result := by
  obtain ⟨hyielded, hconsumed, houtcome⟩ := Scan.mk.inj h
  refine Prod.ext hyielded (Prod.ext hconsumed ?_)
  have hending : ∀ f : Fed, f.ending = (f.outcome.map Decoder.progress).bind fun p =>
      if p != .start then .error .truncated else .ok () := by
    intro f
    unfold Fed.ending
    cases f.outcome <;> rfl
  simp only [Fed.result, hending, houtcome]

/-- **Framing is exact and does not depend on the cutting.** However a stream is cut into portions
that come in time: a stream of encoded payloads yields these payloads and ends well. Every stream
begins with the frames of the payloads that it yields, and no complete frame stands right after
them; an error is raised exactly when what stands there begins with a wrong marker or declares a
length that no payload has, and then when these bytes have been taken. Another cutting of the same
stream yields the same payloads and ends in the same way after the same bytes. -/
theorem framing_exact {timeout : Time} {portions : List (Bytes × Time)}
    (hd : Decoder.new marker timeout = .ok d) (htimely : Timely d portions) :
    (∀ payloads frames, (payloads.mapM fun p => encode p marker) = .ok frames →
      streamOf portions = frames.flatten →
        (d.feedAll portions).yielded = payloads ∧ (d.feedAll portions).ending = .ok ()) ∧
    (∃ frames tail, ((d.feedAll portions).yielded.mapM fun p => encode p marker) = .ok frames ∧
      streamOf portions = frames.flatten ++ tail ∧
      (∀ payload encoded rest, encode payload marker = .ok encoded → tail ≠ encoded ++ rest) ∧
      ∀ e, (d.feedAll portions).outcome = .error e ↔ ∃ n, Faulty marker tail e n ∧
        (d.feedAll portions).consumed = frames.flatten.length + n) ∧
    ∀ portions', Timely d portions' → streamOf portions' = streamOf portions →
      (d.feedAll portions').result = (d.feedAll portions).result := by
  have hmarker : validateMarker marker = .ok () := by
    unfold Decoder.new at hd
    obtain ⟨⟨⟩, h, -⟩ := Except.bind_eq_ok.mp hd
    exact h
  have hfresh : d.marker = marker ∧ d.progress = .start := by
    unfold Decoder.new at hd
    rw [hmarker] at hd
    by_cases htimeout : timeout > 0
    · simp only [htimeout, if_true] at hd
      obtain rfl := Except.ok.inj hd
      exact ⟨rfl, rfl⟩
    · simp only [htimeout, if_false] at hd
      cases hd
  have hscan : ∀ {portions'}, Timely d portions' →
      (d.feedAll portions').scan = scan marker .start (streamOf portions') := by
    intro portions' h
    rw [feedAll_scan h, hfresh.1, hfresh.2]
  refine ⟨fun payloads frames hframes hstream => ?_, ?_, fun portions' h hstream => ?_⟩
  · obtain ⟨hframed, rfl⟩ := (mapM_encode hmarker).mp hframes
    have hparsed : Parsed marker (streamOf portions) payloads [] 0 (.ok .start) :=
      ⟨hframed, by rw [hstream, List.append_nil, List.flatMap_def],
        .header (by decide) (fun _ h => nomatch h)⟩
    obtain ⟨hyielded, -, houtcome⟩ := Scan.mk.inj ((hscan htimely).trans hparsed.scan)
    refine ⟨hyielded, ?_⟩
    unfold Fed.ending
    cases hfed : (d.feedAll portions).outcome with
    | error e =>
      rw [hfed] at houtcome
      cases houtcome
    | ok d' =>
      rw [hfed] at houtcome
      have hprogress : d'.progress = .start := Except.ok.inj houtcome
      simp [Except.bind, Decoder.finish, Decoder.incomplete, hprogress]
  · obtain ⟨payloads, tail, n, outcome, hparsed⟩ := exists_parsed marker (streamOf portions)
    have heq := (hscan htimely).trans hparsed.scan
    obtain ⟨hyielded, hconsumed, houtcome⟩ := Scan.mk.inj heq
    refine ⟨payloads.map (frame marker), tail, ?_, ?_, ?_, fun e => ?_⟩
    · rw [hyielded]
      exact (mapM_encode hmarker).mpr ⟨hparsed.framed, rfl⟩
    · rw [hparsed.stream, List.flatMap_def]
    · intro payload encoded rest hencoded
      obtain ⟨hframed, rfl⟩ := (encode_eq_ok hmarker).mp hencoded
      exact hparsed.ends.no_frame hframed rest
    · have herror : (d.feedAll portions).outcome = .error e ↔ outcome = .error e := by
        rw [← houtcome]
        cases (d.feedAll portions).outcome <;> simp [Except.map]
      have hlength : (payloads.map (frame marker)).flatten.length
          = (payloads.flatMap (frame marker)).length := by rw [List.flatMap_def]
      rw [herror, hlength, hconsumed]
      constructor
      · exact fun h => ⟨n, (hparsed.ends.faulty_iff e n).mp ⟨h, rfl⟩, rfl⟩
      · rintro ⟨m, hfaulty, -⟩
        exact ((hparsed.ends.faulty_iff e m).mpr hfaulty).1
  · exact Fed.result_eq_of_scan (by rw [hscan h, hscan htimely, hstream])

theorem framing_exact_one :
    let d : Decoder := { marker := clientToCompanionMarker }
    let portions : List (Bytes × Time) := [([0x3c, 1], 0), ([0, 7], 1)]
    (∀ payloads frames,
      (payloads.mapM fun p => encode p clientToCompanionMarker) = .ok frames →
      streamOf portions = frames.flatten →
        (d.feedAll portions).yielded = payloads ∧ (d.feedAll portions).ending = .ok ()) ∧
    (∃ frames tail,
      ((d.feedAll portions).yielded.mapM fun p => encode p clientToCompanionMarker) = .ok frames ∧
      streamOf portions = frames.flatten ++ tail ∧
      (∀ payload encoded rest, encode payload clientToCompanionMarker = .ok encoded →
        tail ≠ encoded ++ rest) ∧
      ∀ e, (d.feedAll portions).outcome = .error e ↔
        ∃ n, Faulty clientToCompanionMarker tail e n ∧
        (d.feedAll portions).consumed = frames.flatten.length + n) ∧
    ∀ portions', Timely d portions' → streamOf portions' = streamOf portions →
      (d.feedAll portions').result = (d.feedAll portions).result := by
  refine @framing_exact _ _ (seconds 5) _ rfl ⟨rfl, fun d' hd' => ⟨?_, fun _ _ => trivial⟩⟩
  have hstarted : d' =
      ⟨clientToCompanionMarker, seconds 5, .header [0x3c, 1] (by simp), some 0⟩ := by
    simp [Decoder.feed, Decoder.checkDeadline, Decoder.feedLoop, Progress.start, Fed.prepend] at hd'
    exact hd'.symm
  rw [hstarted]
  decide

end FrameCodec
end MeshCoreTCPMux

import MeshCoreTCPMux.Startup

/-!
# The startup fence

`Startup` is a recogniser on the ordinary frames of a companion: it waits for the first `DEVICE_INFO`
right after five `SELF_INFO`s (`Boundary`). An earlier connection leaves at most four ordinary frames
behind, so that the boundary lies in the replies to the probes.
-/

namespace MeshCoreTCPMux
namespace Startup

open Protocol

/-! ### The boundary -/

/-- The frames that are no pushes. -/
def ordinary (frames : List (Bytes × Time)) : List Bytes :=
  (frames.map Prod.fst).filter fun payload => opcode payload < pushAdvert

/-- Frame `j` is a `DEVICE_INFO` and the five frames just before it are `SELF_INFO`s. -/
def Marks (os : List Bytes) (j : Nat) : Prop :=
  5 ≤ j ∧ os[j]?.map opcode = some respDeviceInfo ∧
    ∀ i < j, j ≤ i + 5 → os[i]?.map opcode = some respSelfInfo

/-- The first frame with this property. -/
def Boundary (os : List Bytes) (j : Nat) : Prop := Marks os j ∧ ∀ i < j, ¬ Marks os i

instance (os : List Bytes) (j : Nat) : Decidable (Marks os j) := by
  unfold Marks
  infer_instance

instance (os : List Bytes) (j : Nat) : Decidable (Boundary os j) := by
  unfold Boundary
  infer_instance

/-- A `DEVICE_INFO` that startup accepts. -/
def Supported (payload : Bytes) : Prop :=
  deviceInfoSize ≤ payload.length ∧ payload.length ≤ maxPayload ∧
    opcode payload = respDeviceInfo ∧ 13 ≤ payload.getD 1 0

instance (payload : Bytes) : Decidable (Supported payload) := by
  unfold Supported
  infer_instance

/-- The key in a `SELF_INFO`. -/
def keyIn (payload : Bytes) : Bytes := (payload.drop 4).take 32

/-- What a companion sends before the deadline. -/
def Given (deadline : Time) (frame : Bytes × Time) : Prop :=
  frame.1 ≠ [] ∧ frame.2 < deadline ∧ (opcode frame.1 = respSelfInfo → 58 ≤ frame.1.length)

/-- The number of `SELF_INFO`s at the end. -/
def selfRunOf (os : List Bytes) : Nat :=
  (os.reverse.takeWhile fun payload => opcode payload = respSelfInfo).length

section
variable {os : List Bytes} {o : Bytes} {j : Nat}

theorem Marks.lt_length (h : Marks os j) : j < os.length := by
  obtain ⟨-, hdevice, -⟩ := h
  by_contra hlt
  rw [List.getElem?_eq_none (Nat.le_of_not_lt hlt)] at hdevice
  cases hdevice

/-- Later frames do not matter. -/
theorem marks_append_of_lt (h : j < os.length) (rest : List Bytes) :
    Marks (os ++ rest) j ↔ Marks os j := by
  have hbefore : ∀ i < j + 1, (os ++ rest)[i]? = os[i]? := fun i hi =>
    List.getElem?_append_left (by omega)
  simp only [Marks, hbefore j (Nat.lt_succ_self j)]
  refine and_congr Iff.rfl (and_congr Iff.rfl ?_)
  exact forall₂_congr fun i hi => by rw [hbefore i (by omega)]

theorem boundary_append_of_lt (h : j < os.length) (rest : List Bytes) :
    Boundary (os ++ rest) j ↔ Boundary os j := by
  refine and_congr (marks_append_of_lt h rest) ?_
  exact forall₂_congr fun i hi => by rw [marks_append_of_lt (by omega)]

theorem Boundary.append (h : Boundary os j) (rest : List Bytes) : Boundary (os ++ rest) j :=
  (boundary_append_of_lt h.1.lt_length rest).mpr h

theorem Boundary.unique {i : Nat} (hi : Boundary os i) (hj : Boundary os j) : i = j := by
  rcases Nat.lt_trichotomy i j with h | h | h
  · exact absurd hi.1 (hj.2 i h)
  · exact h
  · exact absurd hj.1 (hi.2 j h)

/-- A list without a boundary gets one at its end or not at all. -/
theorem marks_concat (hnone : ∀ i, ¬ Marks os i) (h : Marks (os ++ [o]) j) : j = os.length := by
  have hlt := h.lt_length
  rw [List.length_append, List.length_singleton] at hlt
  by_contra hne
  exact hnone j ((marks_append_of_lt (by omega) [o]).mp h)

theorem no_marks (h : ∀ j, ¬ Boundary os j) (j : Nat) : ¬ Marks os j := by
  induction j using Nat.strongRecOn with
  | _ j ih => exact fun hmarks => h j ⟨hmarks, ih⟩

@[simp] theorem selfRunOf_nil : selfRunOf [] = 0 := rfl

theorem selfRunOf_concat :
    selfRunOf (os ++ [o]) = if opcode o = respSelfInfo then selfRunOf os + 1 else 0 := by
  by_cases h : opcode o = respSelfInfo <;>
    simp [selfRunOf, h]

/-- A run of `n` is `n` frames long and consists of `SELF_INFO`s. -/
theorem le_selfRunOf {n : Nat} : n ≤ selfRunOf os ↔ n ≤ os.length ∧
    ∀ i < os.length, os.length ≤ i + n → os[i]?.map opcode = some respSelfInfo := by
  induction os using List.reverseRecOn generalizing n with
  | nil => simp
  | append_singleton os o ih =>
    have hlast : (os ++ [o])[os.length]? = some o := by simp
    have hbefore : ∀ i < os.length, (os ++ [o])[i]? = os[i]? := fun i hi =>
      List.getElem?_append_left hi
    rw [selfRunOf_concat, List.length_append, List.length_singleton]
    cases n with
    | zero =>
      refine iff_of_true (Nat.zero_le _) ⟨Nat.zero_le _, fun i hi hle => ?_⟩
      omega
    | succ n =>
      by_cases hself : opcode o = respSelfInfo
      · rw [if_pos hself, Nat.succ_le_succ_iff, ih, Nat.succ_le_succ_iff]
        refine and_congr Iff.rfl ⟨fun h i hi hle => ?_, fun h i hi hle => ?_⟩
        · rcases Nat.lt_succ_iff_lt_or_eq.mp hi with hlt | rfl
          · rw [hbefore i hlt]
            exact h i hlt (by omega)
          · rw [hlast, Option.map_some, hself]
        · rw [← hbefore i hi]
          exact h i (by omega) (by omega)
      · rw [if_neg hself]
        refine iff_of_false (Nat.not_succ_le_zero n) fun h => hself ?_
        have hrun := h.2 os.length (Nat.lt_succ_self _) (by omega)
        rw [hlast, Option.map_some] at hrun
        exact Option.some.inj hrun

/-- The counter of `Startup` recognises the boundary. -/
theorem marks_concat_iff : Marks (os ++ [o]) os.length ↔
    opcode o = respDeviceInfo ∧ 5 ≤ selfRunOf os := by
  have hlast : (os ++ [o])[os.length]? = some o := by simp
  have hbefore : ∀ i < os.length, (os ++ [o])[i]? = os[i]? := fun i hi =>
    List.getElem?_append_left hi
  rw [le_selfRunOf, Marks, hlast]
  simp only [Option.map_some, Option.some.injEq]
  constructor
  · rintro ⟨hlength, hdevice, hrun⟩
    exact ⟨hdevice, hlength, fun i hi hle => hbefore i hi ▸ hrun i hi hle⟩
  · rintro ⟨hdevice, hlength, hrun⟩
    exact ⟨hlength, hdevice, fun i hi hle => hbefore i hi ▸ hrun i hi hle⟩

end

/-! ### What startup knows -/

/-- Where startup stands after the ordinary frames `os`. -/
inductive Stands (s : Startup) (os : List Bytes) : Prop
  | fencing (hnone : ∀ j, ¬ Marks os j) (hrun : s.selfRun = selfRunOf os)
      (hkey : ∀ last, os.getLast? = some last → opcode last = respSelfInfo →
        s.selfKey = some (keyIn last))
      (hawaiting : s.awaitingScope = false) (hready : s.ready = false)
  | resetting (j : Nat) (hj : Boundary os j) (hlength : os.length = j + 1)
      (hkey : s.selfKey = os[j - 1]?.map keyIn) (hdevice : s.deviceInfo = os[j]?)
      (hawaiting : s.awaitingScope = true) (hready : s.ready = false)
  | ready (j : Nat) (hj : Boundary os j) (hlength : os.length = j + 2)
      (hkey : s.selfKey = os[j - 1]?.map keyIn) (hdevice : s.deviceInfo = os[j]?)
      (hready : s.ready = true)

theorem stands_new (now timeout : Time) : Stands (new now timeout) [] := by
  refine .fencing (fun j h => ?_) rfl (fun _ h => nomatch h) rfl rfl
  exact absurd h.lt_length (Nat.not_lt_zero j)

/-- Past the boundary the key is the one right before it. -/
theorem Stands.boundary {s : Startup} {os : List Bytes} {j : Nat} (hs : Stands s os)
    (hj : Boundary os j) :
    s.selfKey = os[j - 1]?.map keyIn ∧ s.deviceInfo = os[j]? ∧
      (s.ready = true ↔ os.length = j + 2) := by
  cases hs with
  | fencing hnone => exact absurd hj.1 (hnone j)
  | resetting i hi hlength hkey hdevice _ hready =>
    obtain rfl := hi.unique hj
    refine ⟨hkey, hdevice, iff_of_false (Bool.eq_false_iff.mp hready) (by omega)⟩
  | ready i hi hlength hkey hdevice hready =>
    obtain rfl := hi.unique hj
    exact ⟨hkey, hdevice, iff_of_true hready hlength⟩

/-! ### One frame -/

section
variable {s : Startup} {os : List Bytes} {payload : Bytes} {now : Time}

theorem validateSelfInfo_ok (hop : opcode payload = respSelfInfo) (hlength : 58 ≤ payload.length) :
    validateSelfInfo payload = .ok (keyIn payload) := by
  unfold validateSelfInfo
  rw [if_neg (not_not.mpr ⟨hlength, hop⟩), sliceAt_of_le (by omega)]
  rfl

theorem validateDeviceInfo_of_supported (h : Supported payload) :
    validateDeviceInfo payload = .ok (payload.getD 1 0) := by
  obtain ⟨hmin, hmax, hop, hlevel⟩ := h
  have hbelow : ¬ payload.getD 1 0 < minSupportedUpstreamProtocolLevel := UInt8.not_lt.mpr hlevel
  unfold validateDeviceInfo
  rw [if_neg (not_not.mpr ⟨hmin, hmax, hop⟩), if_neg hbelow]
  rfl

theorem validateDeviceInfo_of_not_supported (h : ¬ Supported payload) :
    ∃ message, validateDeviceInfo payload = .error (.protocol message) := by
  unfold validateDeviceInfo
  by_cases hshape : deviceInfoSize ≤ payload.length ∧ payload.length ≤ maxPayload ∧
      opcode payload = respDeviceInfo
  · have hbelow : payload.getD 1 0 < minSupportedUpstreamProtocolLevel := by
      refine UInt8.not_le.mp fun hlevel => h ⟨hshape.1, hshape.2.1, hshape.2.2, hlevel⟩
    rw [if_neg (not_not.mpr hshape), if_pos hbelow]
    exact ⟨_, rfl⟩
  · rw [if_pos hshape]
    exact ⟨_, rfl⟩

/-- Before the deadline, `receive` goes by the frame. -/
theorem receive_given (hgiven : Given s.deadline (payload, now)) :
    s.receive payload now =
      if opcode payload ≥ pushAdvert then .ok (none, s)
      else if s.ready then .error (.startup ["ordinary response after startup boundary"])
      else if s.awaitingScope then
        if payload ≠ [respOk] then .error (.startup ["startup scope reset rejected"])
        else .ok (none, { s with ready := true })
      else if opcode payload = respSelfInfo then
        .ok (none, { s with selfKey := some (keyIn payload), selfRun := s.selfRun + 1 })
      else if opcode payload = respDeviceInfo ∧ s.selfRun ≥ 5 then do
        let actual ← rescued (validateDeviceInfo payload)
        let downstream ← rescued (Protocol.downstreamDeviceInfo payload)
        let exposed ← rescued (byteAt downstream 1)
        return (some [cmdSetFloodScopeKey, 0],
          { s with upstreamProtocolLevel := some actual, downstreamDeviceInfo := some downstream,
                   exposedProtocolLevel := some exposed, deviceInfo := some payload,
                   awaitingScope := true })
      else .ok (none, { s with selfRun := 0, selfKey := none }) := by
  obtain ⟨hne, hearly, hself⟩ := hgiven
  have hlength : ¬ payload.length = 0 := fun h => hne (List.length_eq_zero_iff.mp h)
  have hdeadline : s.checkDeadline now = .ok () := if_neg fun h => absurd hearly (Int.not_lt.mpr h.2)
  unfold receive
  rw [hdeadline]
  change (if payload.length = 0 then _ else _) = _
  rw [if_neg hlength]
  by_cases hop : opcode payload = respSelfInfo
  · rw [validateSelfInfo_ok hop (hself hop)]
    rfl
  · simp only [hop, if_false]
    rfl

variable (hgiven : Given s.deadline (payload, now)) (hs : Stands s os)
include hgiven

theorem receive_push (hpush : opcode payload ≥ pushAdvert) :
    s.receive payload now = .ok (none, s) := by
  rw [receive_given hgiven, if_pos hpush]

include hs

/-- Up to the boundary the answer is nil. -/
theorem Stands.early (hordinary : opcode payload < pushAdvert)
    (hnone : ∀ j, ¬ Boundary (os ++ [payload]) j) :
    ∃ s', s.receive payload now = .ok (none, s') ∧ Stands s' (os ++ [payload]) ∧
      s'.deadline = s.deadline ∧ s'.ready = false := by
  have hmarks : ∀ j, ¬ Marks (os ++ [payload]) j := no_marks hnone
  have hpush : ¬ opcode payload ≥ pushAdvert := UInt8.not_le.mpr hordinary
  cases hs with
  | resetting j hj => exact absurd (hj.append [payload]) (hnone j)
  | ready j hj => exact absurd (hj.append [payload]) (hnone j)
  | fencing _ hrun _ hawaiting hready =>
    rw [receive_given hgiven, if_neg hpush, if_neg (Bool.eq_false_iff.mp hready),
      if_neg (Bool.eq_false_iff.mp hawaiting)]
    by_cases hself : opcode payload = respSelfInfo
    · rw [if_pos hself]
      refine ⟨_, rfl, .fencing hmarks ?_ (fun last hlast _ => ?_) hawaiting hready, rfl, hready⟩
      · rw [selfRunOf_concat, if_pos hself, hrun]
      · rw [List.getLast?_concat] at hlast
        rw [Option.some.inj hlast]
    · rw [if_neg hself]
      have hcount : ¬ (opcode payload = respDeviceInfo ∧ s.selfRun ≥ 5) := fun h =>
        hmarks os.length (marks_concat_iff.mpr ⟨h.1, hrun ▸ h.2⟩)
      rw [if_neg hcount]
      refine ⟨_, rfl, .fencing hmarks ?_ (fun last hlast hop => ?_) hawaiting hready, rfl, hready⟩
      · rw [selfRunOf_concat, if_neg hself]
      · rw [List.getLast?_concat] at hlast
        exact absurd (Option.some.inj hlast ▸ hop) hself

/-- At the boundary the scope is reset. -/
theorem Stands.crosses (hj : Boundary (os ++ [payload]) os.length) :
    if Supported payload then
      ∃ s', s.receive payload now = .ok (some [cmdSetFloodScopeKey, 0], s') ∧
        Stands s' (os ++ [payload]) ∧ s'.deadline = s.deadline ∧ s'.ready = false
    else ∃ message, s.receive payload now = .error (.startup message) := by
  obtain ⟨hdevice, hfive⟩ := marks_concat_iff.mp hj.1
  have hpush : ¬ opcode payload ≥ pushAdvert := by
    rw [hdevice]
    decide
  have hself : ¬ opcode payload = respSelfInfo := by
    rw [hdevice]
    decide
  have hlt : ∀ j, Boundary os j → False := fun j h =>
    absurd ((h.append [payload]).unique hj) (Nat.ne_of_lt h.1.lt_length)
  cases hs with
  | resetting j h => exact (hlt j h).elim
  | ready j h => exact (hlt j h).elim
  | fencing _ hrun hkey hawaiting hready =>
    rw [receive_given hgiven, if_neg hpush, if_neg (Bool.eq_false_iff.mp hready),
      if_neg (Bool.eq_false_iff.mp hawaiting)]
    have hcount : opcode payload = respDeviceInfo ∧ s.selfRun ≥ 5 := ⟨hdevice, hrun ▸ hfive⟩
    rw [if_neg hself, if_pos hcount]
    by_cases hsupported : Supported payload
    · rw [if_pos hsupported]
      have hvalid := validateDeviceInfo_of_supported hsupported
      have hdown : Protocol.downstreamDeviceInfo payload = .ok ((payload.take deviceInfoSize).set 1
          (min (payload.getD 1 0) maxExposedProtocolLevel)) := by
        unfold Protocol.downstreamDeviceInfo
        rw [hvalid]
        rfl
      have hexposed := @byteAt_of_lt ((payload.take deviceInfoSize).set 1
          (min (payload.getD 1 0) maxExposedProtocolLevel)) 1 (by
        rw [List.length_set, List.length_take, Nat.min_eq_left hsupported.1]
        decide)
      rw [hvalid, hdown]
      simp only [rescued, bind, Except.bind]
      rw [hexposed]
      refine ⟨_, rfl, .resetting os.length hj (by simp) ?_ (by simp) rfl hready, rfl, hready⟩
      obtain ⟨hlength, -, hbefore⟩ := hj.1
      have hlast : (os ++ [payload])[os.length - 1]? = os.getLast? := by
        rw [List.getElem?_append_left (by omega), List.getLast?_eq_getElem?]
      have hrunEnd := hbefore (os.length - 1) (by omega) (by omega)
      rw [hlast] at hrunEnd ⊢
      cases hget : os.getLast? with
      | none =>
        rw [hget] at hrunEnd
        cases hrunEnd
      | some last =>
        rw [hget] at hrunEnd
        exact hkey last hget (Option.some.inj hrunEnd)
    · obtain ⟨message, herror⟩ := validateDeviceInfo_of_not_supported hsupported
      rw [if_neg hsupported]
      rw [herror]
      exact ⟨message, rfl⟩

/-- The frame after the boundary has to be `[OK]`. -/
theorem Stands.resets {j : Nat} (hordinary : opcode payload < pushAdvert) (hj : Boundary os j)
    (hlength : os.length = j + 1) :
    if payload = [respOk] then
      ∃ s', s.receive payload now = .ok (none, s') ∧ Stands s' (os ++ [payload]) ∧
        s'.deadline = s.deadline ∧ s'.ready = true
    else ∃ message, s.receive payload now = .error (.startup message) := by
  have hpush : ¬ opcode payload ≥ pushAdvert := UInt8.not_le.mpr hordinary
  rw [receive_given hgiven, if_neg hpush]
  cases hs with
  | fencing hnone => exact absurd hj.1 (hnone j)
  | ready i hi hlength' =>
    obtain rfl := hi.unique hj
    omega
  | resetting i hi _ hkey hdevice hawaiting hready =>
    obtain rfl := hi.unique hj
    rw [if_neg (Bool.eq_false_iff.mp hready), if_pos hawaiting]
    by_cases hok : payload = [respOk]
    · rw [if_pos hok, if_neg (not_not.mpr hok)]
      refine ⟨_, rfl, .ready i (hj.append [payload]) (by simp [hlength]) ?_ ?_ rfl, rfl, rfl⟩
      · rw [hkey, List.getElem?_append_left (by omega)]
      · rw [hdevice, List.getElem?_append_left (by omega)]
    · rw [if_neg hok, if_pos hok]
      exact ⟨_, rfl⟩

/-- After readiness no ordinary frame is accepted. -/
theorem Stands.late {j : Nat} (hordinary : opcode payload < pushAdvert) (hj : Boundary os j)
    (hlength : j + 1 < os.length) :
    ∃ message, s.receive payload now = .error (.startup message) := by
  have hpush : ¬ opcode payload ≥ pushAdvert := UInt8.not_le.mpr hordinary
  rw [receive_given hgiven, if_neg hpush]
  cases hs with
  | fencing hnone => exact absurd hj.1 (hnone j)
  | resetting i hi hlength' =>
    obtain rfl := hi.unique hj
    omega
  | ready i hi _ _ _ hready =>
    rw [if_pos hready]
    exact ⟨_, rfl⟩

/-- An accepted ordinary frame is one more. -/
theorem Stands.receive {command : Option Bytes} {s' : Startup}
    (hordinary : opcode payload < pushAdvert)
    (h : s.receive payload now = .ok (command, s')) :
    Stands s' (os ++ [payload]) ∧ s'.deadline = s.deadline := by
  by_cases hnone : ∀ j, ¬ Boundary (os ++ [payload]) j
  · obtain ⟨_, hanswer, hs', hdeadline, -⟩ := hs.early hgiven hordinary hnone
    obtain ⟨-, rfl⟩ := Prod.mk.inj (Except.ok.inj (h.symm.trans hanswer))
    exact ⟨hs', hdeadline⟩
  obtain ⟨j, hj⟩ := not_forall_not.mp hnone
  have hlt := hj.1.lt_length
  rw [List.length_append, List.length_singleton] at hlt
  rcases Nat.lt_succ_iff_lt_or_eq.mp hlt with hbefore | rfl
  · have hold := (boundary_append_of_lt hbefore [payload]).mp hj
    by_cases hlength : os.length = j + 1
    · have hanswer := hs.resets hgiven hordinary hold hlength
      split at hanswer
      · obtain ⟨_, hanswer, hs', hdeadline, -⟩ := hanswer
        obtain ⟨-, rfl⟩ := Prod.mk.inj (Except.ok.inj (h.symm.trans hanswer))
        exact ⟨hs', hdeadline⟩
      · obtain ⟨_, hanswer⟩ := hanswer
        cases h.symm.trans hanswer
    · obtain ⟨_, hanswer⟩ := hs.late hgiven hordinary hold (by omega)
      cases h.symm.trans hanswer
  · have hanswer := hs.crosses hgiven hj
    split at hanswer
    · obtain ⟨_, hanswer, hs', hdeadline, -⟩ := hanswer
      obtain ⟨-, rfl⟩ := Prod.mk.inj (Except.ok.inj (h.symm.trans hanswer))
      exact ⟨hs', hdeadline⟩
    · obtain ⟨_, hanswer⟩ := hanswer
      cases h.symm.trans hanswer

end

/-! ### A whole startup -/

section
variable {s s' : Startup} {os : List Bytes} {frames : List (Bytes × Time)}

theorem ordinary_or_push (payload : Bytes) :
    opcode payload < pushAdvert ∨ opcode payload ≥ pushAdvert := by
  by_cases h : opcode payload < pushAdvert
  · exact .inl h
  · exact .inr (UInt8.not_lt.mp h)

theorem ordinary_cons_push {frame : Bytes × Time} (h : opcode frame.1 ≥ pushAdvert) :
    ordinary (frame :: frames) = ordinary frames := by
  have hnot : ¬ opcode frame.1 < pushAdvert := UInt8.not_lt.mpr h
  simp [ordinary, hnot]

theorem ordinary_cons {frame : Bytes × Time} (h : opcode frame.1 < pushAdvert) :
    ordinary (frame :: frames) = frame.1 :: ordinary frames := by
  simp [ordinary, h]

theorem receiveAll_cons {payload : Bytes} {now : Time} {command : Option Bytes}
    (h : s.receive payload now = .ok (command, s')) :
    s.receiveAll ((payload, now) :: frames) =
      (s'.receiveAll frames).map fun run => (command :: run.1, run.2) := by
  rw [receiveAll, h]
  simp only [bind, Except.bind]
  cases s'.receiveAll frames <;> rfl

/-- Startup stands where the ordinary frames have taken it. -/
theorem Stands.receiveAll (hs : Stands s os) (hgiven : ∀ f ∈ frames, Given s.deadline f)
    {commands : List (Option Bytes)} (h : s.receiveAll frames = .ok (commands, s')) :
    Stands s' (os ++ ordinary frames) ∧ s'.deadline = s.deadline := by
  induction frames generalizing s os commands with
  | nil =>
    obtain ⟨-, rfl⟩ := Prod.mk.inj (Except.ok.inj h)
    rw [ordinary, List.map_nil, List.filter_nil, List.append_nil]
    exact ⟨hs, rfl⟩
  | cons frame frames ih =>
    obtain ⟨payload, now⟩ := frame
    have hfirst := hgiven _ List.mem_cons_self
    have hrest := fun f hf => hgiven f (List.mem_cons_of_mem _ hf)
    cases hreceive : s.receive payload now with
    | error e =>
      rw [Startup.receiveAll, hreceive] at h
      cases h
    | ok answer =>
      obtain ⟨command, s₁⟩ := answer
      rw [receiveAll_cons hreceive] at h
      cases hrun : s₁.receiveAll frames with
      | error e =>
        rw [hrun] at h
        cases h
      | ok run =>
        rw [hrun] at h
        obtain ⟨-, rfl⟩ := Prod.mk.inj (Except.ok.inj h)
        rcases ordinary_or_push payload with hordinary | hpush
        · obtain ⟨hs₁, hdeadline⟩ := hs.receive hfirst hordinary hreceive
          rw [ordinary_cons hordinary, List.append_cons]
          obtain ⟨hs', hdeadline'⟩ := ih hs₁ (fun f hf => hdeadline ▸ hrest f hf) hrun
          exact ⟨hs', hdeadline'.trans hdeadline⟩
        · rw [receive_push hfirst hpush] at hreceive
          obtain ⟨-, rfl⟩ := Prod.mk.inj (Except.ok.inj hreceive)
          rw [ordinary_cons_push hpush]
          exact ih hs hrest hrun

/-- Without a boundary every answer is nil. -/
theorem Stands.all_early (hs : Stands s os) (hgiven : ∀ f ∈ frames, Given s.deadline f)
    (hready : s.ready = false) (hnone : ∀ j, ¬ Boundary (os ++ ordinary frames) j) :
    ∃ s', s.receiveAll frames = .ok (List.replicate frames.length none, s') ∧
      s'.ready = false := by
  induction frames generalizing s os with
  | nil => exact ⟨s, rfl, hready⟩
  | cons frame frames ih =>
    obtain ⟨payload, now⟩ := frame
    have hfirst := hgiven _ List.mem_cons_self
    have hrest := fun f hf => hgiven f (List.mem_cons_of_mem _ hf)
    rcases ordinary_or_push payload with hordinary | hpush
    · rw [ordinary_cons hordinary, List.append_cons] at hnone
      obtain ⟨s₁, hreceive, hs₁, hdeadline, hready₁⟩ := hs.early hfirst hordinary fun j hj =>
        hnone j (hj.append _)
      obtain ⟨s', hrun, hready'⟩ := ih hs₁ (fun f hf => hdeadline ▸ hrest f hf) hready₁ hnone
      refine ⟨s', ?_, hready'⟩
      rw [receiveAll_cons hreceive, hrun]
      rfl
    · rw [ordinary_cons_push hpush] at hnone
      obtain ⟨s', hrun, hready'⟩ := ih hs hrest hready hnone
      refine ⟨s', ?_, hready'⟩
      rw [receiveAll_cons (receive_push hfirst hpush), hrun]
      rfl

/-- Nothing is raised up to a boundary with a supported `DEVICE_INFO`. -/
theorem Stands.exists_receiveAll (hs : Stands s os) (hgiven : ∀ f ∈ frames, Given s.deadline f)
    (hboundary : ∀ j, Boundary (os ++ ordinary frames) j → (os ++ ordinary frames).length = j + 1 ∧
      ∀ device, (os ++ ordinary frames)[j]? = some device → Supported device) :
    ∃ run, s.receiveAll frames = .ok run := by
  induction frames generalizing s os with
  | nil => exact ⟨_, rfl⟩
  | cons frame frames ih =>
    obtain ⟨payload, now⟩ := frame
    have hfirst := hgiven _ List.mem_cons_self
    have hrest := fun f hf => hgiven f (List.mem_cons_of_mem _ hf)
    rcases ordinary_or_push payload with hordinary | hpush
    · rw [ordinary_cons hordinary, List.append_cons] at hboundary
      have hstep : ∃ command s₁, s.receive payload now = .ok (command, s₁) := by
        by_cases hnone : ∀ j, ¬ Boundary (os ++ [payload]) j
        · obtain ⟨s₁, hreceive, -⟩ := hs.early hfirst hordinary hnone
          exact ⟨_, s₁, hreceive⟩
        · obtain ⟨j, hj⟩ := not_forall_not.mp hnone
          obtain ⟨hlength, hsupported⟩ := hboundary j (hj.append _)
          have hlt := hj.1.lt_length
          simp only [List.length_append, List.length_singleton] at hlength hlt
          obtain rfl : j = os.length := by omega
          have hdevice : Supported payload := by
            refine hsupported payload ?_
            rw [List.getElem?_append_left (by simp)]
            simp
          have hanswer := hs.crosses hfirst hj
          rw [if_pos hdevice] at hanswer
          obtain ⟨s₁, hreceive, -⟩ := hanswer
          exact ⟨_, s₁, hreceive⟩
      obtain ⟨command, s₁, hreceive⟩ := hstep
      obtain ⟨hs₁, hdeadline⟩ := hs.receive hfirst hordinary hreceive
      obtain ⟨run, hrun⟩ := ih hs₁ (fun f hf => hdeadline ▸ hrest f hf) hboundary
      rw [receiveAll_cons hreceive, hrun]
      exact ⟨_, rfl⟩
    · rw [ordinary_cons_push hpush] at hboundary
      obtain ⟨run, hrun⟩ := ih hs hrest hboundary
      rw [receiveAll_cons (receive_push hfirst hpush), hrun]
      exact ⟨_, rfl⟩

end

/-! ### Frames left over from an earlier connection -/

/-- A companion answers `APP_START` with `SELF_INFO` and `DEVICE_QUERY` with `DEVICE_INFO`. -/
def Answers (command reply : Bytes) : Prop :=
  (opcode command = cmdAppStart → opcode reply = respSelfInfo) ∧
    (opcode command = cmdDeviceQuery → Supported reply)

/-- The replies to the probes are five `SELF_INFO`s and a `DEVICE_INFO`. -/
theorem replies_of_probes {commands replies : List Bytes} (hprobes : probes = .ok commands)
    (h : List.Forall₂ Answers commands replies) :
    ∃ selfInfos device, replies = selfInfos ++ [device] ∧ selfInfos.length = 5 ∧
      (∀ o ∈ selfInfos, opcode o = respSelfInfo) ∧ Supported device := by
  obtain rfl := Except.ok.inj (hprobes.symm.trans (by rfl))
  cases h with | cons h₁ h
  cases h with | cons h₂ h
  cases h with | cons h₃ h
  cases h with | cons h₄ h
  cases h with | cons h₅ h
  cases h with | cons hdevice h
  cases h
  refine ⟨[_, _, _, _, _], _, rfl, rfl, ?_, hdevice.2 rfl⟩
  simp only [List.mem_cons, List.not_mem_nil, or_false]
  rintro o (rfl | rfl | rfl | rfl | rfl)
  · exact h₁.1 rfl
  · exact h₂.1 rfl
  · exact h₃.1 rfl
  · exact h₄.1 rfl
  · exact h₅.1 rfl

/-- With at most four frames left over, the boundary is the reply to `DEVICE_QUERY`. -/
theorem boundary_of_stale {stale selfInfos : List Bytes} {device : Bytes} (hstale : stale.length ≤ 4)
    (hlength : selfInfos.length = 5) (hself : ∀ o ∈ selfInfos, opcode o = respSelfInfo)
    (hdevice : opcode device = respDeviceInfo) :
    Boundary (stale ++ selfInfos ++ [device]) (stale.length + 5) := by
  have hafter : ∀ i < 5, (stale ++ selfInfos ++ [device])[stale.length + i]?.map opcode
      = some respSelfInfo := by
    intro i hi
    rw [List.append_assoc, List.getElem?_append_right (by omega),
      List.getElem?_append_left (by omega), List.getElem?_eq_getElem (by omega), Option.map_some,
      hself _ (List.getElem_mem _)]
  refine ⟨⟨by omega, ?_, fun i hi hle => ?_⟩, fun i hi hmarks => ?_⟩
  · rw [List.append_assoc, List.getElem?_append_right (by omega),
      List.getElem?_append_right (by omega)]
    simpa [hlength] using hdevice
  · obtain ⟨k, rfl⟩ := Nat.exists_eq_add_of_le (show stale.length ≤ i by omega)
    exact hafter k (by omega)
  · obtain ⟨hfive, hmark, -⟩ := hmarks
    obtain ⟨k, rfl⟩ := Nat.exists_eq_add_of_le (show stale.length ≤ i by omega)
    rw [hafter k (by omega)] at hmark
    cases hmark

/-- How a startup that is not over yet answers the next frame, after the ordinary frames `os`. -/
structure Answered (s : Startup) (os : List Bytes) (payload : Bytes)
    (answer : Except StartupError (Option Bytes × Startup)) : Prop where
  push : opcode payload ≥ pushAdvert → answer = .ok (none, s)
  early : opcode payload < pushAdvert → (∀ j, ¬ Boundary (os ++ [payload]) j) →
    ∃ s', answer = .ok (none, s') ∧ s'.ready = false
  boundary : Boundary (os ++ [payload]) os.length →
    if Supported payload then
      ∃ s', answer = .ok (some [cmdSetFloodScopeKey, 0], s') ∧ s'.ready = false ∧
        s'.selfKey = os.getLast?.map keyIn ∧ s'.deviceInfo = some payload
    else ∃ message, answer = .error (.startup message)
  reset : opcode payload < pushAdvert → ∀ j, Boundary os j → os.length = j + 1 →
    if payload = [respOk] then
      ∃ s', answer = .ok (none, s') ∧ s'.ready = true ∧ s'.selfKey = s.selfKey ∧
        s'.deviceInfo = s.deviceInfo
    else ∃ message, answer = .error (.startup message)
  late : opcode payload < pushAdvert → ∀ j, Boundary os j → j + 1 < os.length →
    ∃ message, answer = .error (.startup message)

theorem Stands.answered {s : Startup} {os : List Bytes} {payload : Bytes} {now : Time}
    (hs : Stands s os) (hgiven : Given s.deadline (payload, now)) :
    Answered s os payload (s.receive payload now) where
  push := receive_push hgiven
  early hordinary hnone := by
    obtain ⟨s', hanswer, -, -, hready⟩ := hs.early hgiven hordinary hnone
    exact ⟨s', hanswer, hready⟩
  boundary hj := by
    have hanswer := hs.crosses hgiven hj
    split at hanswer
    · next hsupported =>
      obtain ⟨s', hanswer, hs', -, hready⟩ := hanswer
      obtain ⟨hkey, hdevice, -⟩ := hs'.boundary hj
      have hfive := hj.1.1
      rw [List.getElem?_append_left (by omega), ← List.getLast?_eq_getElem?] at hkey
      rw [if_pos hsupported]
      exact ⟨s', hanswer, hready, hkey, by simpa using hdevice⟩
    · next hsupported =>
      rw [if_neg hsupported]
      exact hanswer
  reset hordinary j hj hlength := by
    have hanswer := hs.resets hgiven hordinary hj hlength
    split at hanswer
    · next hok =>
      obtain ⟨s', hanswer, hs', -, hready⟩ := hanswer
      obtain ⟨hkey, hdevice, -⟩ := hs.boundary hj
      obtain ⟨hkey', hdevice', -⟩ := hs'.boundary (hj.append [payload])
      rw [List.getElem?_append_left (by omega)] at hkey' hdevice'
      rw [if_pos hok]
      exact ⟨s', hanswer, hready, hkey'.trans hkey.symm, hdevice'.trans hdevice.symm⟩
    · next hother =>
      rw [if_neg hother]
      exact hanswer
  late hordinary j hj hlength := hs.late hgiven hordinary hj hlength

/-- **The startup fence.** Let a companion send nonempty frames before the deadline. Pushes are
ignored. Every answer before the boundary is nil; the boundary is answered with the scope reset when
it is a supported `DEVICE_INFO`, and the key is then the one right before it; the next ordinary frame
has to be `[OK]` and makes startup ready, and no other ordinary frame is accepted. When at most four
frames are left over from an earlier connection and the companion answers the probes in order, then
the accepted key and `DEVICE_INFO` are those of the answers. -/
theorem startup_fence {now timeout : Time} {frames : List (Bytes × Time)}
    (hgiven : ∀ f ∈ frames, Given (new now timeout).deadline f) :
    ((∀ j, ¬ Boundary (ordinary frames) j) → ∃ s,
      (new now timeout).receiveAll frames = .ok (List.replicate frames.length none, s) ∧
        s.ready = false) ∧
    (∀ past payload time later commands s, frames = past ++ (payload, time) :: later →
      (new now timeout).receiveAll past = .ok (commands, s) →
        Answered s (ordinary past) payload (s.receive payload time)) ∧
    (∀ commands s, (new now timeout).receiveAll frames = .ok (commands, s) →
      (s.ready = true ↔ ∃ j, Boundary (ordinary frames) j ∧ (ordinary frames).length = j + 2) ∧
      ∀ j, Boundary (ordinary frames) j →
        s.selfKey = (ordinary frames)[j - 1]?.map keyIn ∧ s.deviceInfo = (ordinary frames)[j]?) ∧
    (∀ queries stale replies, probes = .ok queries → ordinary frames = stale ++ replies →
      stale.length ≤ 4 → List.Forall₂ Answers queries replies →
        ∃ commands s, (new now timeout).receiveAll frames = .ok (commands, s) ∧
          s.selfKey = replies[4]?.map keyIn ∧ s.deviceInfo = replies[5]?) := by
  have hnew := stands_new now timeout
  refine ⟨hnew.all_early hgiven rfl, ?_, ?_, ?_⟩
  · rintro past payload time later commands s rfl hpast
    have hgivenPast := fun f hf => hgiven f (List.mem_append_left _ hf)
    obtain ⟨hs, hdeadline⟩ := hnew.receiveAll hgivenPast hpast
    exact hs.answered (hdeadline ▸ hgiven _ (List.mem_append_right _ List.mem_cons_self))
  · intro commands s hrun
    obtain ⟨hs, -⟩ := hnew.receiveAll hgiven hrun
    rw [List.nil_append] at hs
    refine ⟨⟨fun hready => ?_, ?_⟩, fun j hj => ?_⟩
    · cases hs with
      | fencing _ _ _ _ hready' => exact absurd hready (Bool.eq_false_iff.mp hready')
      | resetting _ _ _ _ _ _ hready' => exact absurd hready (Bool.eq_false_iff.mp hready')
      | ready j hj hlength => exact ⟨j, hj, hlength⟩
    · rintro ⟨j, hj, hlength⟩
      exact (hs.boundary hj).2.2.mpr hlength
    · obtain ⟨hkey, hdevice, -⟩ := hs.boundary hj
      exact ⟨hkey, hdevice⟩
  · intro queries stale replies hprobes hframes hstale hanswers
    obtain ⟨selfInfos, device, rfl, hlength, hself, hsupported⟩ :=
      replies_of_probes hprobes hanswers
    have hj := boundary_of_stale hstale hlength hself hsupported.2.2.1
    rw [List.append_assoc, ← hframes] at hj
    have hframe : ∀ i, (ordinary frames)[stale.length + i]? = (selfInfos ++ [device])[i]? := by
      intro i
      rw [hframes, List.getElem?_append_right (Nat.le_add_right _ _), Nat.add_sub_cancel_left]
    have hdevice : (selfInfos ++ [device])[5]? = some device := by
      rw [← hlength]
      simp
    obtain ⟨⟨commands, s⟩, hrun⟩ := hnew.exists_receiveAll hgiven (fun i hi => by
      rw [List.nil_append] at hi ⊢
      obtain rfl := hi.unique hj
      refine ⟨by simp [hframes, hlength], fun d hd => ?_⟩
      rw [hframe, hdevice] at hd
      exact Option.some.inj hd ▸ hsupported)
    obtain ⟨hs, -⟩ := hnew.receiveAll hgiven hrun
    obtain ⟨hkey, hinfo, -⟩ := hs.boundary hj
    refine ⟨commands, s, hrun, ?_, hinfo.trans (hframe 5)⟩
    rw [hkey, ← hframe]
    rfl

/-- One `[OK]` is left over, and a push comes before the `DEVICE_INFO`. -/
theorem startup_fence_one_stale :
    let selfInfo : Bytes := respSelfInfo :: List.replicate 57 7
    let deviceInfo : Bytes := respDeviceInfo :: 14 :: List.replicate 80 0
    ∃ commands s, (new 0).receiveAll [([respOk], 1), (selfInfo, 2), (selfInfo, 3), (selfInfo, 4),
      (selfInfo, 5), (selfInfo, 6), ([pushMsgWaiting], 7), (deviceInfo, 8)] = .ok (commands, s) ∧
        s.selfKey = some (List.replicate 32 7) ∧ s.deviceInfo = some deviceInfo := by
  intro selfInfo deviceInfo
  have hself : Answers (cmdAppStart :: List.replicate 7 0 ++ appName) selfInfo :=
    ⟨fun _ => rfl, fun h => absurd h (by decide)⟩
  have hdevice : Answers deviceQueryPayload deviceInfo :=
    ⟨fun h => absurd h (by decide), fun _ => by decide⟩
  exact (startup_fence (by unfold Given; decide)).2.2.2 _ [[respOk]]
    [selfInfo, selfInfo, selfInfo, selfInfo, selfInfo, deviceInfo] rfl (by decide) (by decide)
    (.cons hself (.cons hself (.cons hself (.cons hself (.cons hself (.cons hdevice .nil))))))

end Startup
end MeshCoreTCPMux

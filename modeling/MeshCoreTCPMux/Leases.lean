import MeshCoreTCPMux.ReceivedMessageDeduplicator

/-!
# Radio and signing leases

Mirrors of the firmware state that outlives one immediate command response: the ring of outstanding
plain-DM acknowledgements, the reservation of the shared remote-request state, and the incremental
signing operation. `CompanionRadioState` bundles what survives a replacement of the TCP socket.

Two classes of the source keep a group of fields that are all `nil` or all set: `clear` resets every
one of them and a reservation sets every one. They are modelled by one optional record, so that a
half-cleared lease cannot be built.
-/

namespace MeshCoreTCPMux

namespace LeaseParsing

/-- Native tokens, limits and timeouts are unsigned four-byte little-endian integers. -/
def readU32 (payload : Bytes) (offset : Nat) : Except Error Nat :=
  if payload.length < offset + 4 then .error (.argument ["payload too short"])
  else .ok (u32At payload offset)

theorem readU32_eq {payload : Bytes} {offset n : Nat} (h : readU32 payload offset = .ok n) :
    n = u32At payload offset := by
  unfold readU32 at h
  split at h
  · cases h
  · exact (Except.ok.inj h).symm

theorem readU32_of_le {payload : Bytes} {offset : Nat} (h : offset + 4 ≤ payload.length) :
    readU32 payload offset = .ok (u32At payload offset) :=
  if_neg (by omega)

def requirePayload (payload : Bytes) (code : UInt8) (size : Nat) : Except Error Unit :=
  if payload.length = size ∧ payload[0]? = some code then .ok ()
  else .error (.argument ["expected ", size, "-byte payload ", code])

def requireCommand (command : Bytes) (code : UInt8) (minimumSize : Nat) : Except Error Unit :=
  if command.length < minimumSize ∨ command[0]? ≠ some code then
    .error (.argument ["invalid command ", code])
  else .ok ()

end LeaseParsing

namespace LeaseTime

/-- Keep the lease for 25% plus one second beyond the suggested radio timeout, with a five-second
floor. -/
def deadline (now : Time) (suggestedTimeoutMs : Nat) : Time :=
  let retainedMs : Int := (suggestedTimeoutMs : Int) * 5 / 4 + 1000
  now + milliseconds (max 5000 retainedMs)

end LeaseTime

/-! ### The acknowledgement ring -/

/-- One physical acknowledgement-ring slot, retained until confirmed or timed out. -/
structure DmRing.Entry where
  token : Nat
  deadline : Time
  settled : Bool := false
  deriving DecidableEq, Repr

/-- The firmware's acknowledgement table is a ring, not a pool: the insertion position is kept as
well as the entries. -/
structure DmRing where
  slots : Fin 8 → Option DmRing.Entry := fun _ => none
  nextSlot : Fin 8 := 0

namespace DmRing

/-- An entry that still protects its physical slot. -/
def Entry.live (entry : Entry) (now : Time) : Bool := !entry.settled && now < entry.deadline

/-- Whether the next physical slot may be overwritten. -/
def available (ring : DmRing) (now : Time) : Bool :=
  match ring.slots ring.nextSlot with
  | none => true
  | some entry => entry.settled || now ≥ entry.deadline

/-- Record an actual firmware `SENT` response. A zero token consumes no physical ring position. -/
def accepted (ring : DmRing) (sent : Bytes) (now : Time) : Except Error DmRing := do
  LeaseParsing.requirePayload sent Protocol.respSent 10
  let token ← LeaseParsing.readU32 sent 2
  if token = 0 then return ring
  if ¬ ring.available now then
    throw (.invalidState ["next DM acknowledgement slot is occupied"])
  let timeoutMs ← LeaseParsing.readU32 sent 6
  return {
    slots := Function.update ring.slots ring.nextSlot
      (some ⟨token, LeaseTime.deadline now timeoutMs, false⟩)
    nextSlot := ring.nextSlot + 1 }

/-- The unsettled entries of a token become settled. -/
def settle (ring : DmRing) (token : Nat) : DmRing :=
  { ring with
    slots := fun i => (ring.slots i).map fun entry =>
      if !entry.settled && entry.token == token then { entry with settled := true } else entry }

/-- Settle every equal token: four-byte acknowledgement hashes are not unique. -/
def confirm (ring : DmRing) (push : Bytes) : Except Error (Bool × DmRing) := do
  LeaseParsing.requirePayload push Protocol.pushSendConfirmed 9
  let token ← LeaseParsing.readU32 push 1
  let matched := (List.finRange 8).any fun i =>
    (ring.slots i).any fun entry => !entry.settled && entry.token == token
  return (matched, ring.settle token)

def pendingCount (ring : DmRing) (now : Time) : Nat :=
  (List.finRange 8).countP fun i => (ring.slots i).any (·.live now)

theorem available_iff {ring : DmRing} {now : Time} :
    ring.available now = true ↔
      ∀ entry, ring.slots ring.nextSlot = some entry → entry.live now = false := by
  unfold available Entry.live
  cases ring.slots ring.nextSlot with
  | none => simp
  | some entry => cases h : entry.settled <;> simp [h]

theorem Entry.live_mono {entry : Entry} {now later : Time} (h : now ≤ later)
    (hlive : entry.live now = false) : entry.live later = false := by
  unfold live at hlive ⊢
  cases hs : entry.settled
  · simp only [hs, Bool.not_false, Bool.true_and, decide_eq_false_iff_not, not_lt] at hlive ⊢
    exact hlive.trans h
  · rfl

theorem available_mono {ring : DmRing} {now later : Time} (h : now ≤ later)
    (ha : ring.available now = true) : ring.available later = true := by
  rw [available_iff] at ha ⊢
  exact fun entry he => Entry.live_mono h (ha entry he)

theorem available_settle {ring : DmRing} {now : Time} (token : Nat)
    (ha : ring.available now = true) : (ring.settle token).available now = true := by
  rw [available_iff] at ha ⊢
  intro entry he
  simp only [settle, Option.map_eq_some_iff] at he
  obtain ⟨old, hold, rfl⟩ := he
  split
  · rfl
  · exact ha old hold

theorem available_of_pendingCount {ring : DmRing} {now : Time}
    (h : ring.pendingCount now = 0) : ring.available now = true := by
  rw [available_iff]
  intro entry he
  have hnone := (List.countP_eq_zero.mp h) ring.nextSlot (List.mem_finRange _)
  simpa [he] using hnone

/-- A confirmation settles a token, and nothing else. -/
theorem confirm_eq {ring ring' : DmRing} {push : Bytes} {settled : Bool}
    (h : ring.confirm push = .ok (settled, ring')) : ring' = ring.settle (u32At push 1) := by
  simp only [confirm, Except.bind_eq_ok, Except.pure_eq_ok] at h
  obtain ⟨-, -, token, htoken, hpair⟩ := h
  rw [← LeaseParsing.readU32_eq htoken]
  exact (Prod.mk.inj hpair).2.symm

end DmRing

/-! ### The remote request lease -/

inductive RemoteLease.Kind
  | login
  | status
  | trace
  | telemetry
  | binary
  | pathDiscovery
  | anonymous
  deriving DecidableEq, Repr

/-- `kind.to_s.underscore`. -/
def RemoteLease.Kind.name : RemoteLease.Kind → String
  | login => "login"
  | status => "status"
  | trace => "trace"
  | telemetry => "telemetry"
  | binary => "binary"
  | pathDiscovery => "path_discovery"
  | anonymous => "anonymous"

/-- The fields of a lease whose `kind` is not nil. -/
structure RemoteLease.Reservation where
  owner : Option Nat
  kind : RemoteLease.Kind
  command : Bytes
  deadline : Option Time
  peer : Option Bytes
  tag : Option Nat
  traceAuth : Option Nat
  tentative : Bool
  deriving DecidableEq, Repr

/-- The companion's shared remote-request state, reserved for one downstream client or free. -/
abbrev RemoteLease := Option RemoteLease.Reservation

namespace RemoteLease

def owner (lease : RemoteLease) : Option Nat := lease.bind (·.owner)

def kind (lease : RemoteLease) : Option Kind := lease.map (·.kind)

def command (lease : RemoteLease) : Option Bytes := lease.map (·.command)

def tentative (lease : RemoteLease) : Bool := lease.any (·.tentative)

/-- Whether a deadline has passed. A tentative reservation has none. -/
def Reservation.expired (r : Reservation) (now : Time) : Bool := r.deadline.any (now ≥ ·)

def expire (lease : RemoteLease) (now : Time) : Bool × RemoteLease :=
  if lease.any (·.expired now) then (true, none) else (false, lease)

def occupied (lease : RemoteLease) (now : Time) : Bool × RemoteLease :=
  let lease' := (expire lease now).2
  (lease'.isSome, lease')

def peerAt (command : Bytes) (offset : Nat) : Except Error Bytes :=
  if command.length < offset + 6 then .error (.argument ["short remote command"])
  else .ok ((command.drop offset).take 6)

/-- What a reservation for `command` will match: its kind, peer prefix, tag and trace auth. -/
def classify (command : Bytes) : Except Error (Kind × Option Bytes × Option Nat × Option Nat) := do
  let op := opcode command
  if op = Protocol.cmdSendLogin then
    return (.login, some (← peerAt command 1), none, none)
  else if op = Protocol.cmdSendStatusReq then
    return (.status, some (← peerAt command 1), none, none)
  else if op = Protocol.cmdSendTracePath then
    if command.length < 11 then throw (.argument ["short trace command"])
    return (.trace, none, some (← LeaseParsing.readU32 command 1),
      some (← LeaseParsing.readU32 command 5))
  else if op = Protocol.cmdSendTelemetryReq then
    if command.length = 4 then throw (.argument ["self telemetry does not use a remote lease"])
    return (.telemetry, some (← peerAt command 4), none, none)
  else if op = Protocol.cmdSendBinaryReq then
    return (.binary, some (← peerAt command 1), none, none)
  else if op = Protocol.cmdSendPathDiscoveryReq then
    return (.pathDiscovery, some (← peerAt command 2), none, none)
  else if op = Protocol.cmdSendAnonReq then
    return (.anonymous, some (← peerAt command 1), none, none)
  else throw (.argument ["command does not use the remote lease"])

/-- Reserve a free lease; false is a resource conflict. -/
def reserve (lease : RemoteLease) (owner : Nat) (command : Bytes) (now : Time) :
    Except Error (Bool × RemoteLease) := do
  let (busy, lease') := lease.occupied now
  if busy then return (false, lease')
  if command.length = 0 then throw (.argument ["empty remote command"])
  let (kind, peer, tag, auth) ← classify command
  return (true, some ⟨some owner, kind, command, none, peer, tag, auth, true⟩)

def accepted (lease : RemoteLease) (sent : Bytes) (now : Time) : Except Error RemoteLease := do
  match lease with
  | none => throw (.invalidState ["no tentative remote reservation"])
  | some r =>
    if ¬ r.tentative then throw (.invalidState ["no tentative remote reservation"])
    LeaseParsing.requirePayload sent Protocol.respSent 10
    let tag ← if r.kind = .trace then pure r.tag else some <$> LeaseParsing.readU32 sent 2
    let timeoutMs ← LeaseParsing.readU32 sent 6
    return some
      { r with tag := tag, deadline := some (LeaseTime.deadline now timeoutMs), tentative := false }

/-- An immediate firmware error means no asynchronous operation was accepted. -/
def rejected (_lease : RemoteLease) : RemoteLease := none

/-- Convert a tentative reservation into an ownerless lease, so that a matching late result is
consumed and no replacement session can inherit it. -/
def acceptanceUnknown (lease : RemoteLease) (deadline : Time) : Except Error RemoteLease :=
  match lease with
  | none => .error (.invalidState ["remote reservation is not tentative"])
  | some r =>
    if r.tentative then .ok (some { r with owner := none, deadline := deadline, tentative := false })
    else .error (.invalidState ["remote reservation is not tentative"])

def matchingPeer (r : Reservation) (push : Bytes) : Except Error Bool :=
  if push.length < 8 then .error (.argument ["short peer response"])
  else .ok (some ((push.drop 2).take 6) == r.peer)

/-- Whether a result push belongs to a reservation. -/
def matchesPush (r : Reservation) (push : Bytes) : Except Error Bool := do
  match r.kind with
  | .login =>
    if push[0]? = some Protocol.pushLoginSuccess ∨ push[0]? = some Protocol.pushLoginFailure then
      matchingPeer r push
    else return false
  | .status =>
    if push[0]? = some Protocol.pushStatusResponse then matchingPeer r push else return false
  | .telemetry =>
    if push[0]? = some Protocol.pushTelemetryResponse then matchingPeer r push else return false
  | .binary | .anonymous =>
    if push[0]? = some Protocol.pushBinaryResponse then
      if push.length < 6 then throw (.argument ["short binary response"])
      return some (← LeaseParsing.readU32 push 2) == r.tag
    else return false
  | .pathDiscovery =>
    if push[0]? = some Protocol.pushPathDiscoveryResponse then matchingPeer r push
    else return false
  | .trace =>
    if push[0]? = some Protocol.pushTraceData then
      if push.length < 12 then throw (.argument ["short trace response"])
      return some (← LeaseParsing.readU32 push 4) == r.tag &&
        some (← LeaseParsing.readU32 push 8) == r.traceAuth
    else return false

/-- Return the live owner for a matching result. A match always releases the lease, including when
the owner has disconnected and the return is nil. -/
def matchPush (lease : RemoteLease) (push : Bytes) (now : Time) :
    Except Error (Option Nat × RemoteLease) := do
  let lease' := (expire lease now).2
  match lease' with
  | none => return (none, lease')
  | some r =>
    if r.tentative then return (none, lease')
    if ← matchesPush r push then return (r.owner, none) else return (none, lease')

/-- Radio state survives a downstream connection: preserve the reservation, but make a later
matching result undeliverable. -/
def ownerGone (lease : RemoteLease) (owner : Nat) : RemoteLease :=
  lease.map fun r => if r.owner = some owner then { r with owner := none } else r

/-- What expiry leaves has not expired. -/
theorem expire_eq_some {lease : RemoteLease} {r : Reservation} {now : Time}
    (h : (expire lease now).2 = some r) : lease = some r ∧ r.expired now = false := by
  unfold expire at h
  split at h
  · cases h
  · next hexpired =>
    obtain rfl : lease = some r := h
    exact ⟨rfl, by simpa using hexpired⟩

/-- A tentative reservation has no deadline to miss. -/
theorem expire_of_tentative {r : Reservation} {now : Time} (h : r.deadline = none) :
    expire (some r) now = (false, some r) := by
  simp [expire, Reservation.expired, h]

/-- A successful reservation is tentative, without a deadline, and its owner's. -/
theorem reserve_eq {lease : RemoteLease} {owner : Nat} {command : Bytes} {now : Time}
    {lease' : RemoteLease} (h : reserve lease owner command now = .ok (true, lease')) :
    (expire lease now).2 = none ∧ ∃ kind peer tag auth,
      classify command = .ok (kind, peer, tag, auth) ∧
        lease' = some ⟨some owner, kind, command, none, peer, tag, auth, true⟩ := by
  simp only [reserve, occupied] at h
  split at h
  · simp at h
  · next hfree =>
    have hnone : (expire lease now).2 = none := by simpa using hfree
    refine ⟨hnone, ?_⟩
    split at h
    · simp at h
    · simp only [Except.bind_eq_ok, Except.pure_eq_ok, Prod.mk.injEq, true_and] at h
      obtain ⟨⟨kind, peer, tag, auth⟩, hclass, hlease⟩ := h
      exact ⟨kind, peer, tag, auth, hclass, hlease.symm⟩

/-- `SENT` turns the tentative reservation into an accepted one with a deadline. -/
theorem accepted_eq {lease lease' : RemoteLease} {sent : Bytes} {now : Time}
    (h : accepted lease sent now = .ok lease') :
    ∃ r, lease = some r ∧ r.tentative = true ∧ lease' = some
      { r with
        tag := if r.kind = .trace then r.tag else some (u32At sent 2)
        deadline := some (LeaseTime.deadline now (u32At sent 6))
        tentative := false } := by
  cases lease with
  | none => simp [accepted] at h
  | some r =>
    refine ⟨r, rfl, ?_⟩
    simp only [accepted] at h
    split at h
    · simp at h
    · next htentative =>
      refine ⟨by simpa using htentative, ?_⟩
      simp only [Except.bind_eq_ok] at h
      obtain ⟨-, -, h⟩ := h
      split at h
      · next hkind =>
        simp only [Except.bind_eq_ok, Except.pure_eq_ok] at h
        obtain ⟨tag, rfl, timeoutMs, htimeout, rfl⟩ := h
        rw [← LeaseParsing.readU32_eq htimeout, if_pos hkind]
      · next hkind =>
        simp only [Except.bind_eq_ok, Except.map_eq_ok, Except.pure_eq_ok] at h
        obtain ⟨-, ⟨tag, htag, rfl⟩, timeoutMs, htimeout, rfl⟩ := h
        rw [← LeaseParsing.readU32_eq htimeout, ← LeaseParsing.readU32_eq htag, if_neg hkind]

/-- A match releases the lease and names its owner; anything else only expires it. -/
theorem matchPush_eq {lease lease' : RemoteLease} {push : Bytes} {now : Time} {owner : Option Nat}
    (h : matchPush lease push now = .ok (owner, lease')) :
    (owner = none ∧ lease' = (expire lease now).2) ∨
      ∃ r, (expire lease now).2 = some r ∧ r.tentative = false ∧ matchesPush r push = .ok true ∧
        owner = r.owner ∧ lease' = none := by
  simp only [matchPush] at h
  split at h
  · next hnone =>
    simp only [Except.pure_eq_ok, Prod.mk.injEq] at h
    exact Or.inl ⟨h.1.symm, h.2.symm⟩
  · next r hr =>
    split at h
    · simp only [Except.pure_eq_ok, Prod.mk.injEq] at h
      exact Or.inl ⟨h.1.symm, h.2.symm⟩
    · next htentative =>
      simp only [Except.bind_eq_ok] at h
      obtain ⟨answer, hmatch, h⟩ := h
      cases answer with
      | true =>
        simp only [if_true, Except.pure_eq_ok, Prod.mk.injEq] at h
        exact Or.inr ⟨r, hr, by simpa using htentative, hmatch, h.1.symm, h.2.symm⟩
      | false =>
        simp only [Bool.false_eq_true, if_false, Except.pure_eq_ok, Prod.mk.injEq] at h
        exact Or.inl ⟨h.1.symm, h.2.symm⟩

theorem matchPush_of_matches {r : Reservation} {push : Bytes} {now : Time}
    (hexpired : r.expired now = false) (htentative : r.tentative = false)
    (hmatch : matchesPush r push = .ok true) :
    matchPush (some r) push now = .ok (r.owner, none) := by
  have hkept : (expire (some r) now).2 = some r := by simp [expire, hexpired]
  simp only [matchPush, hkept, htentative, hmatch]
  rfl

/-- Once its owner has gone, a lease matches what it matched before, for nobody. -/
theorem matchPush_ownerGone {lease lease' : RemoteLease} {push : Bytes} {now : Time} {id : Nat}
    (h : matchPush lease push now = .ok (some id, lease')) :
    lease' = none ∧ owner lease = some id ∧ owner (ownerGone lease id) = none ∧
      matchPush (ownerGone lease id) push now = .ok (none, none) := by
  rcases matchPush_eq h with ⟨hnone, -⟩ | ⟨r, hr, htentative, hmatch, howner, hfree⟩
  · cases hnone
  · obtain ⟨rfl, hexpired⟩ := expire_eq_some hr
    have hgone : ownerGone (some r) id = some { r with owner := none } := by
      simp [ownerGone, ← howner]
    refine ⟨hfree, howner.symm, by rw [hgone]; rfl, ?_⟩
    rw [hgone]
    exact matchPush_of_matches hexpired htentative hmatch

@[simp] theorem tentative_ownerGone (lease : RemoteLease) (owner : Nat) :
    tentative (ownerGone lease owner) = tentative lease := by
  cases lease with
  | none => rfl
  | some r => by_cases h : r.owner = some owner <;> simp [tentative, ownerGone, h]

end RemoteLease

/-! ### Radio state that survives the socket -/

structure CompanionRadioState where
  dmRing : DmRing := {}
  remote : RemoteLease := none
  receivedMessageDeduplicator : ReceivedMessageDeduplicator := {}
  uncertainUntil : Option Time := none
  dmCursorUncertain : Bool := false

namespace CompanionRadioState

/-- `CompanionRadioState.new`. -/
def new : CompanionRadioState := {}

/-- Whether shared radio admission is closed. Waiting for both the uncertainty window and, after an
unanswered DM, all known ring entries makes either physical cursor safe. -/
def quarantined (radio : CompanionRadioState) (now : Time) : Bool × CompanionRadioState :=
  match radio.uncertainUntil with
  | none => (false, radio)
  | some deadline =>
    if now < deadline then (true, radio)
    else if radio.dmCursorUncertain && 0 < radio.dmRing.pendingCount now then (true, radio)
    else (false, { radio with uncertainUntil := none, dmCursorUncertain := false })

/-- Extend the quarantine, and return its end. -/
def quarantine (radio : CompanionRadioState) (now duration : Time) (dmCursorUncertain : Bool) :
    Time × CompanionRadioState :=
  let deadline := now + duration
  let until' := match radio.uncertainUntil with
    | none => deadline
    | some current => if deadline > current then deadline else current
  (until', { radio with
    uncertainUntil := some until'
    dmCursorUncertain := radio.dmCursorUncertain || dmCursorUncertain })

/-- Admission is open again: the uncertainty is cleared, and nothing else changes. -/
theorem quarantined_false {radio radio' : CompanionRadioState} {now : Time}
    (h : radio.quarantined now = (false, radio')) :
    radio' = { radio with uncertainUntil := none, dmCursorUncertain := radio'.dmCursorUncertain } ∧
      (radio.uncertainUntil = none → radio' = radio) ∧
      ∀ deadline, radio.uncertainUntil = some deadline → deadline ≤ now ∧
        (radio.dmCursorUncertain = true → radio.dmRing.pendingCount now = 0) ∧
        radio'.dmCursorUncertain = false := by
  unfold quarantined at h
  split at h
  · next hnone =>
    cases h
    refine ⟨?_, fun _ => rfl, fun d hd => absurd hd (by simp [hnone])⟩
    rw [← hnone]
  · next deadline hsome =>
    split at h
    · cases h
    · next hpassed =>
      split at h
      · cases h
      · next hring =>
        cases h
        refine ⟨rfl, fun hnone => absurd hnone (by simp [hsome]), fun d hd => ?_⟩
        obtain rfl : deadline = d := by simpa [hsome] using hd
        refine ⟨not_lt.mp hpassed, fun hcursor => ?_, rfl⟩
        simpa [hcursor] using hring

/-- Admission is closed: nothing changes. -/
theorem quarantined_true {radio radio' : CompanionRadioState} {now : Time}
    (h : radio.quarantined now = (true, radio')) : radio' = radio := by
  unfold quarantined at h
  split at h
  · cases h
  · split at h
    · exact (Prod.mk.inj h).2.symm
    · split at h
      · exact (Prod.mk.inj h).2.symm
      · cases h

end CompanionRadioState

/-! ### The signing lease -/

/-- The fields of a signing lease whose `owner` is not nil. -/
structure SigningLease.Operation where
  owner : Nat
  limit : Option Nat
  acceptedBytes : Nat
  tentative : Bool
  lastActivity : Time
  pendingDataBytes : Option Nat
  finishPending : Bool
  deriving DecidableEq, Repr

/-- Protects the companion's single incremental signing operation from interleaved clients. -/
structure SigningLease where
  inactivityTimeout : Time
  operation : Option SigningLease.Operation := none

namespace SigningLease

inductive Admission
  | allowed
  | badState
  | tableFull
  deriving DecidableEq, Repr

def owner (lease : SigningLease) : Option Nat := lease.operation.map (·.owner)

def clear (lease : SigningLease) : SigningLease := { lease with operation := none }

def expired (lease : SigningLease) (now : Time) : Bool :=
  lease.operation.any fun op => now ≥ op.lastActivity + lease.inactivityTimeout

def expire (lease : SigningLease) (now : Time) : Bool × SigningLease :=
  if lease.expired now then (true, lease.clear) else (false, lease)

def occupied (lease : SigningLease) (now : Time) : Bool × SigningLease :=
  let lease' := (expire lease now).2
  (lease'.operation.isSome, lease')

/-- A start from the current owner is an explicit restart. It makes data and finish ineligible until
the real `SIGN_START` response arrives. -/
def start (lease : SigningLease) (owner : Nat) (command : Bytes) (now : Time) :
    Except Error (Bool × SigningLease) := do
  LeaseParsing.requireCommand command Protocol.cmdSignStart 1
  let lease' := (lease.expire now).2
  if lease'.operation.any (·.owner ≠ owner) then return (false, lease')
  return (true, { lease' with operation := some ⟨owner, none, 0, true, now, none, false⟩ })

def acceptedStart (lease : SigningLease) (response : Bytes) (now : Time) :
    Except Error SigningLease := do
  match lease.operation with
  | none => throw (.invalidState ["no tentative signing start"])
  | some op =>
    if ¬ op.tentative then throw (.invalidState ["no tentative signing start"])
    LeaseParsing.requirePayload response Protocol.respSignStart 6
    let limit ← LeaseParsing.readU32 response 2
    return { lease with
      operation := some { op with limit := some limit, tentative := false, lastActivity := now } }

def rejectedStart (lease : SigningLease) : SigningLease := lease.clear

/-- The operation that `owner` may continue. -/
def Operation.usableBy (op : Operation) (owner : Nat) : Bool :=
  op.owner == owner && !op.tentative && op.limit.isSome && op.pendingDataBytes.isNone
    && !op.finishPending

def beginData (lease : SigningLease) (owner : Nat) (command : Bytes) (now : Time) :
    Except Error (Admission × SigningLease) := do
  if command.length < 2 ∨ command[0]? ≠ some Protocol.cmdSignData then
    throw (.argument ["SIGN_DATA must contain data"])
  let lease' := (lease.expire now).2
  match lease'.operation with
  | none => return (.badState, lease')
  | some op =>
    if ¬ op.usableBy owner then return (.badState, lease')
    let bytes := command.length - 1
    match op.limit with
    | none => throw .nil
    | some maximum =>
      if maximum < op.acceptedBytes then throw .overflow
      if bytes > maximum - op.acceptedBytes then return (.tableFull, lease')
      return (.allowed, { lease' with
        operation := some { op with pendingDataBytes := some bytes, lastActivity := now } })

def validateOkOrErr (response : Bytes) (allowOk : Bool) : Except Error Unit :=
  if response.length = 0 then .error (.argument ["empty signing response"])
  else if allowOk ∧ response.length = 1 ∧ opcode response = Protocol.respOk then .ok ()
  else if response.length = 2 ∧ opcode response = Protocol.respErr then .ok ()
  else .error (.argument ["unexpected signing response"])

def dataResponse (lease : SigningLease) (response : Bytes) (now : Time) :
    Except Error SigningLease := do
  match lease.operation with
  | none => throw (.invalidState ["no pending signing data"])
  | some op =>
    match op.pendingDataBytes with
    | none => throw (.invalidState ["no pending signing data"])
    | some bytes =>
      validateOkOrErr response true
      if opcode response = Protocol.respOk then
        return { lease with
          operation := some { op with
            pendingDataBytes := none
            acceptedBytes := op.acceptedBytes + bytes
            lastActivity := now } }
      else if (← byteAt response 1) = Protocol.errBadState then
        return lease.clear
      else
        return { lease with
          operation := some { op with pendingDataBytes := none, lastActivity := now } }

def beginFinish (lease : SigningLease) (owner : Nat) (command : Bytes) (now : Time) :
    Except Error (Admission × SigningLease) := do
  LeaseParsing.requireCommand command Protocol.cmdSignFinish 1
  let lease' := (lease.expire now).2
  match lease'.operation with
  | none => return (.badState, lease')
  | some op =>
    if ¬ op.usableBy owner then return (.badState, lease')
    return (.allowed, { lease' with
      operation := some { op with finishPending := true, lastActivity := now } })

def finishResponse (lease : SigningLease) (response : Bytes) (now : Time) :
    Except Error SigningLease := do
  match lease.operation with
  | none => throw (.invalidState ["no pending signing finish"])
  | some op =>
    if ¬ op.finishPending then throw (.invalidState ["no pending signing finish"])
    if response[0]? = some Protocol.respSignature then
      LeaseParsing.requirePayload response Protocol.respSignature 65
      return lease.clear
    else
      validateOkOrErr response false
      if (← byteAt response 1) = Protocol.errBadState then
        return lease.clear
      else
        return { lease with
          operation := some { op with finishPending := false, lastActivity := now } }

def ownerGone (lease : SigningLease) (owner : Nat) : SigningLease :=
  if lease.owner = some owner then lease.clear else lease

/-! #### The accounting of signing bytes -/

/-- A start has no data yet, and the accepted bytes with those in flight stay within the limit. -/
structure Operation.Sound (op : Operation) : Prop where
  start : op.tentative = true → op.acceptedBytes = 0 ∧ op.pendingDataBytes = none
  bounded : ∀ limit, op.limit = some limit → op.acceptedBytes + op.pendingDataBytes.getD 0 ≤ limit

def Sound (lease : SigningLease) : Prop := ∀ op, lease.operation = some op → op.Sound

theorem Sound.clear (lease : SigningLease) : lease.clear.Sound := fun _ h => by cases h

theorem Sound.expire {lease : SigningLease} (h : lease.Sound) (now : Time) :
    (lease.expire now).2.Sound := by
  unfold SigningLease.expire
  split
  · exact Sound.clear lease
  · exact h

theorem Sound.ownerGone {lease : SigningLease} (h : lease.Sound) (owner : Nat) :
    (lease.ownerGone owner).Sound := by
  unfold SigningLease.ownerGone
  split
  · exact Sound.clear lease
  · exact h

/-- What expiry leaves has not expired. -/
theorem expire_eq_some {lease : SigningLease} {op : Operation} {now : Time}
    (h : (lease.expire now).2.operation = some op) :
    lease.operation = some op ∧ now < op.lastActivity + lease.inactivityTimeout := by
  unfold expire at h
  split at h
  · cases h
  · next hfresh => exact ⟨h, by simpa [expired, show lease.operation = some op from h] using hfresh⟩

/-- A start either conflicts with another owner's operation or opens a tentative one. -/
theorem start_eq {lease lease' : SigningLease} {owner : Nat} {command : Bytes} {now : Time}
    {started : Bool} (h : lease.start owner command now = .ok (started, lease')) :
    (started = false ∧ lease' = (lease.expire now).2) ∨
      (started = true ∧ lease'.operation = some ⟨owner, none, 0, true, now, none, false⟩) := by
  simp only [start, Except.bind_eq_ok] at h
  obtain ⟨-, -, h⟩ := h
  split at h
  · simp only [Except.pure_eq_ok, Prod.mk.injEq] at h
    exact Or.inl ⟨h.1.symm, h.2.symm⟩
  · simp only [Except.pure_eq_ok, Prod.mk.injEq] at h
    obtain ⟨hstarted, rfl⟩ := h
    exact Or.inr ⟨hstarted.symm, rfl⟩

/-- A start is allowed when the operation that there is has expired or is the owner's own. -/
theorem start_allowed {lease lease' : SigningLease} {owner : Nat} {command : Bytes} {now : Time}
    (h : lease.start owner command now = .ok (true, lease')) :
    (∀ op, lease.operation = some op →
      op.owner = owner ∨ op.lastActivity + lease.inactivityTimeout ≤ now) ∧
    lease'.operation = some ⟨owner, none, 0, true, now, none, false⟩ := by
  simp only [start, Except.bind_eq_ok] at h
  obtain ⟨-, -, h⟩ := h
  split at h
  · cases h
  next hmine =>
    obtain rfl := (Prod.mk.inj (Except.ok.inj h)).2
    refine ⟨fun op hop => ?_, rfl⟩
    by_cases hexpired : op.lastActivity + lease.inactivityTimeout ≤ now
    · exact .inr hexpired
    · -- an operation that has not expired is looked at
      left
      have hkept : lease.expired now = false := by simpa [expired, hop] using hexpired
      simpa [expire, hkept, hop] using hmine

/-- Data is admitted only for the owner's accepted operation, within its limit. -/
theorem beginData_eq {lease lease' : SigningLease} {owner : Nat} {command : Bytes} {now : Time}
    {admission : Admission} (h : lease.beginData owner command now = .ok (admission, lease')) :
    (admission ≠ .allowed ∧ lease' = (lease.expire now).2) ∨
      (admission = .allowed ∧ ∃ op limit, (lease.expire now).2.operation = some op ∧
        op.usableBy owner = true ∧ op.limit = some limit ∧
        op.acceptedBytes + (command.length - 1) ≤ limit ∧
        lease' = { (lease.expire now).2 with
          operation := some
            { op with pendingDataBytes := some (command.length - 1), lastActivity := now } }) := by
  simp only [beginData] at h
  split at h
  · simp at h
  split at h
  · simp only [Except.pure_eq_ok, Prod.mk.injEq] at h
    exact Or.inl ⟨by simp [← h.1], h.2.symm⟩
  next op hop =>
    split at h
    · simp only [Except.pure_eq_ok, Prod.mk.injEq] at h
      exact Or.inl ⟨by simp [← h.1], h.2.symm⟩
    next husable =>
      split at h
      · simp at h
      next maximum hlimit =>
        split at h
        · simp at h
        next hbound =>
          split at h
          · simp only [Except.pure_eq_ok, Prod.mk.injEq] at h
            exact Or.inl ⟨by simp [← h.1], h.2.symm⟩
          · next hroom =>
            simp only [Except.pure_eq_ok, Prod.mk.injEq] at h
            obtain ⟨hallowed, rfl⟩ := h
            refine Or.inr ⟨hallowed.symm, op, maximum, hop, by simpa using husable, hlimit, ?_, rfl⟩
            omega

/-- A finish is admitted only for the owner's accepted operation. -/
theorem beginFinish_eq {lease lease' : SigningLease} {owner : Nat} {command : Bytes} {now : Time}
    {admission : Admission} (h : lease.beginFinish owner command now = .ok (admission, lease')) :
    (admission ≠ .allowed ∧ lease' = (lease.expire now).2) ∨
      (admission = .allowed ∧ ∃ op, (lease.expire now).2.operation = some op ∧
        op.usableBy owner = true ∧
        lease' = { (lease.expire now).2 with
          operation := some { op with finishPending := true, lastActivity := now } }) := by
  simp only [beginFinish, Except.bind_eq_ok] at h
  obtain ⟨-, -, h⟩ := h
  split at h
  · simp only [Except.pure_eq_ok, Prod.mk.injEq] at h
    exact Or.inl ⟨by simp [← h.1], h.2.symm⟩
  next op hop =>
    split at h
    · simp only [Except.pure_eq_ok, Prod.mk.injEq] at h
      exact Or.inl ⟨by simp [← h.1], h.2.symm⟩
    next husable =>
      simp only [Except.pure_eq_ok, Prod.mk.injEq] at h
      obtain ⟨hallowed, rfl⟩ := h
      exact Or.inr ⟨hallowed.symm, op, hop, by simpa using husable, rfl⟩

/-- `SIGN_START` opens the tentative operation, with the limit it names. -/
theorem acceptedStart_eq {lease lease' : SigningLease} {response : Bytes} {now : Time}
    (h : lease.acceptedStart response now = .ok lease') :
    ∃ op, lease.operation = some op ∧ op.tentative = true ∧ lease' =
      { lease with
        operation := some
          { op with limit := some (u32At response 2), tentative := false, lastActivity := now } } := by
  unfold acceptedStart at h
  split at h
  · simp at h
  next op hop =>
    split at h
    · simp at h
    next htentative =>
      simp only [Except.bind_eq_ok, Except.pure_eq_ok] at h
      obtain ⟨-, -, limit, hlimit, rfl⟩ := h
      exact ⟨op, hop, by simpa using htentative, by rw [LeaseParsing.readU32_eq hlimit]⟩

/-- The reply to data accepts the bytes in flight, refuses them, or ends the operation. -/
theorem dataResponse_eq {lease lease' : SigningLease} {response : Bytes} {now : Time}
    (h : lease.dataResponse response now = .ok lease') :
    ∃ op bytes, lease.operation = some op ∧ op.pendingDataBytes = some bytes ∧
      ((opcode response = Protocol.respOk ∧ lease' =
          { lease with
            operation := some { op with
              pendingDataBytes := none
              acceptedBytes := op.acceptedBytes + bytes
              lastActivity := now } }) ∨
        (opcode response ≠ Protocol.respOk ∧ response.getD 1 0 = Protocol.errBadState ∧
          lease' = lease.clear) ∨
        (opcode response ≠ Protocol.respOk ∧ response.getD 1 0 ≠ Protocol.errBadState ∧ lease' =
          { lease with
            operation := some { op with pendingDataBytes := none, lastActivity := now } })) := by
  unfold dataResponse at h
  split at h
  · simp at h
  next op hop =>
    split at h
    · simp at h
    next bytes hbytes =>
      refine ⟨op, bytes, hop, hbytes, ?_⟩
      simp only [Except.bind_eq_ok] at h
      obtain ⟨-, -, h⟩ := h
      split at h
      · next hok => exact Or.inl ⟨hok, (Except.ok.inj h).symm⟩
      · next hok =>
        simp only [Except.bind_eq_ok] at h
        obtain ⟨reason, hreason, h⟩ := h
        rw [← byteAt_eq hreason] at h
        split at h
        · next hbad => exact Or.inr (Or.inl ⟨hok, hbad, (Except.ok.inj h).symm⟩)
        · next hbad => exact Or.inr (Or.inr ⟨hok, hbad, (Except.ok.inj h).symm⟩)

/-- The reply to a finish ends the operation, or lets its owner try again. -/
theorem finishResponse_eq {lease lease' : SigningLease} {response : Bytes} {now : Time}
    (h : lease.finishResponse response now = .ok lease') :
    ∃ op, lease.operation = some op ∧ op.finishPending = true ∧
      ((opcode response = Protocol.respSignature ∨ response.getD 1 0 = Protocol.errBadState) ∧
          lease' = lease.clear ∨
        (opcode response ≠ Protocol.respSignature ∧ response.getD 1 0 ≠ Protocol.errBadState) ∧
          lease' =
            { lease with
              operation := some { op with finishPending := false, lastActivity := now } }) := by
  unfold finishResponse at h
  split at h
  · simp at h
  next op hop =>
    by_cases hpending : op.finishPending = true
    swap
    · simp [hpending] at h
    refine ⟨op, hop, hpending, ?_⟩
    simp only [hpending, not_true_eq_false, if_false] at h
    split at h
    · next hsignature =>
      simp only [Except.bind_eq_ok, Except.pure_eq_ok] at h
      obtain ⟨-, -, rfl⟩ := h
      exact Or.inl ⟨Or.inl (opcode_of_head? hsignature), rfl⟩
    · next hsignature =>
      simp only [Except.bind_eq_ok] at h
      obtain ⟨-, -, reason, hreason, h⟩ := h
      rw [← byteAt_eq hreason] at h
      have hcode : opcode response ≠ Protocol.respSignature := by
        intro hcode
        refine hsignature ?_
        cases response with
        | nil => exact absurd hcode (by decide)
        | cons b rest => exact congrArg some hcode
      split at h
      · next hbad => exact Or.inl ⟨Or.inr hbad, (Except.ok.inj h).symm⟩
      · next hbad => exact Or.inr ⟨⟨hcode, hbad⟩, (Except.ok.inj h).symm⟩

theorem Sound.acceptedStart {lease lease' : SigningLease} {response : Bytes} {now : Time}
    (h : lease.Sound) (hok : lease.acceptedStart response now = .ok lease') : lease'.Sound := by
  obtain ⟨op, hop, htentative, rfl⟩ := acceptedStart_eq hok
  intro op' hop'
  obtain rfl := Option.some.inj hop'
  obtain ⟨hzero, hnone⟩ := (h op hop).start htentative
  exact ⟨fun ht => (nomatch ht), fun l _ => by simp [hzero, hnone]⟩

theorem Sound.dataResponse {lease lease' : SigningLease} {response : Bytes} {now : Time}
    (h : lease.Sound) (hok : lease.dataResponse response now = .ok lease') : lease'.Sound := by
  obtain ⟨op, bytes, hop, hbytes, hcases⟩ := dataResponse_eq hok
  have hsound := h op hop
  have hstarted : op.tentative = false := by
    by_contra ht
    rw [Bool.not_eq_false] at ht
    simp [(hsound.start ht).2] at hbytes
  rcases hcases with ⟨-, rfl⟩ | ⟨-, -, rfl⟩ | ⟨-, -, rfl⟩
  · intro op' hop'
    obtain rfl := Option.some.inj hop'
    refine ⟨fun ht => by simp [hstarted] at ht, fun limit hlimit => ?_⟩
    simpa [hbytes] using hsound.bounded limit hlimit
  · exact Sound.clear lease
  · intro op' hop'
    obtain rfl := Option.some.inj hop'
    refine ⟨fun ht => by simp [hstarted] at ht, fun limit hlimit => ?_⟩
    exact le_trans (by simp) (hsound.bounded limit hlimit)

theorem Sound.finishResponse {lease lease' : SigningLease} {response : Bytes} {now : Time}
    (h : lease.Sound) (hok : lease.finishResponse response now = .ok lease') : lease'.Sound := by
  obtain ⟨op, hop, -, ⟨-, rfl⟩ | ⟨-, rfl⟩⟩ := finishResponse_eq hok
  · exact Sound.clear lease
  · intro op' hop'
    obtain rfl := Option.some.inj hop'
    have hsound := h op hop
    exact ⟨hsound.start, hsound.bounded⟩

theorem Sound.start {lease lease' : SigningLease} {owner : Nat} {command : Bytes} {now : Time}
    {started : Bool} (h : lease.Sound)
    (hok : lease.start owner command now = .ok (started, lease')) : lease'.Sound := by
  rcases start_eq hok with ⟨-, rfl⟩ | ⟨-, hop⟩
  · exact h.expire now
  · intro op hop'
    obtain rfl := Option.some.inj (hop.symm.trans hop')
    exact ⟨fun _ => ⟨rfl, rfl⟩, fun limit hlimit => by cases hlimit⟩

theorem Sound.beginData {lease lease' : SigningLease} {owner : Nat} {command : Bytes} {now : Time}
    {admission : Admission} (h : lease.Sound)
    (hok : lease.beginData owner command now = .ok (admission, lease')) : lease'.Sound := by
  rcases beginData_eq hok with ⟨-, rfl⟩ | ⟨-, op, limit, hop, husable, hlimit, hbound, rfl⟩
  · exact h.expire now
  · intro op' hop'
    obtain rfl := Option.some.inj hop'
    have hstarted : op.tentative = false := by
      simp only [Operation.usableBy, Bool.and_eq_true, Bool.not_eq_true'] at husable
      exact husable.1.1.1.2
    refine ⟨fun ht => by simp [hstarted] at ht, fun l hl => ?_⟩
    obtain rfl := Option.some.inj (hlimit.symm.trans hl)
    exact hbound

theorem Sound.beginFinish {lease lease' : SigningLease} {owner : Nat} {command : Bytes}
    {now : Time} {admission : Admission} (h : lease.Sound)
    (hok : lease.beginFinish owner command now = .ok (admission, lease')) : lease'.Sound := by
  rcases beginFinish_eq hok with ⟨-, rfl⟩ | ⟨-, op, hop, -, rfl⟩
  · exact h.expire now
  · intro op' hop'
    obtain rfl := Option.some.inj hop'
    have hsound := h.expire now op hop
    exact ⟨hsound.start, hsound.bounded⟩

end SigningLease

end MeshCoreTCPMux

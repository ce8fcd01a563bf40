import MeshCoreTCPMux.Broker.Gentle
import MeshCoreTCPMux.Broker.Registry
import MeshCoreTCPMux.Broker.Replay

/-!
# Signing

The companion signs one message at a time, and it takes the message in pieces: `SIGN_START`, any
number of `SIGN_DATA`, `SIGN_FINISH`. It does not know who sends them, so the broker has to keep the
pieces of one client from those of another.

The history of the broker shows which operation the companion is in, as far as it has answered
(`signed`): whose it is, how many bytes it takes, how many it has accepted, and when it was last
used. A reply to `SIGN_START` opens it; a signature, the error `BAD_STATE` and the departure of its
owner end it. The theorem (`signing_exclusive`) is that data and a finish go upstream only in the
operation of their own client, within its limit and before it has expired, and that a start takes
nothing away from another client before it has expired. The broker decides this by its
`SigningLease`, which `Agrees` compares with the history.
-/

namespace MeshCoreTCPMux

open Protocol Relation History

/-- A signing operation of the companion. -/
structure Signature where
  owner : Nat
  limit : Nat
  accepted : Nat
  lastActivity : Time
  deriving DecidableEq

/-- What a history shows of signing: the command that the companion is to answer, with its owner,
and the operation that it is in. -/
structure Ledger where
  asked : Option (Nat × Bytes) := none
  operation : Option Signature := none

/-- The operation after `command` has been dispatched. A start ends the one that there was. -/
def Signature.dispatched (command : Bytes) (now : Time) (operation : Option Signature) :
    Option Signature :=
  if opcode command = cmdSignStart then none
  else if opcode command = cmdSignData ∨ opcode command = cmdSignFinish then
    operation.map fun g => { g with lastActivity := now }
  else operation

/-- The operation after the answer `payload` to `command`. -/
def Signature.answered (owner : Nat) (command payload : Bytes) (now : Time)
    (operation : Option Signature) : Option Signature :=
  if opcode command = cmdSignStart then
    if opcode payload = respSignStart then some ⟨owner, u32At payload 2, 0, now⟩ else none
  else if opcode command = cmdSignData then
    if opcode payload = respOk then
      operation.map fun g =>
        { g with accepted := g.accepted + (command.length - 1), lastActivity := now }
    else if payload.getD 1 0 = errBadState then none
    else operation.map fun g => { g with lastActivity := now }
  else if opcode command = cmdSignFinish then
    if opcode payload = respSignature ∨ payload.getD 1 0 = errBadState then none
    else operation.map fun g => { g with lastActivity := now }
  else operation

/-- The ledger after an entry. Whatever a session began is over when it leaves. -/
def Note.sign (g : Ledger) : Note → Ledger
  | dispatched x now =>
    { asked := some (x.owner, x.command)
      operation := Signature.dispatched x.command now g.operation }
  | replied payload now =>
    match g.asked with
    | none => g
    | some (owner, command) =>
      { g with operation := Signature.answered owner command payload now g.operation }
  | closed id _ =>
    { asked := g.asked.filter (·.1 ≠ id)
      operation := g.operation.filter (·.owner ≠ id) }
  | _ => g

/-- An entry that the ledger does not look at. -/
def Note.unsigned : Note → Bool
  | dispatched _ _ | replied _ _ | closed _ _ => false
  | _ => true

theorem Note.sign_of_unsigned {n : Note} (hn : n.unsigned = true) (g : Ledger) : n.sign g = g := by
  cases n <;> first | rfl | cases hn

theorem Note.unsigned_of_gentle {n : Note} (hn : n.gentle = true) : n.unsigned = true := by
  cases n <;> first | rfl | cases hn

/-- A signing command of `owner` may go upstream while the companion is in `operation`. -/
structure MaySign (timeout : Time) (operation : Option Signature) (owner : Nat) (command : Bytes)
    (now : Time) : Prop where
  /-- Nobody else is in an operation that has not expired. -/
  start : opcode command = cmdSignStart → ∀ g, operation = some g →
    g.owner = owner ∨ g.lastActivity + timeout ≤ now
  /-- The companion takes the data. -/
  data : opcode command = cmdSignData → ∃ g, operation = some g ∧
    g.owner = owner ∧ now < g.lastActivity + timeout ∧
    g.accepted + (command.length - 1) ≤ g.limit
  /-- There is something to finish. -/
  finish : opcode command = cmdSignFinish → ∃ g, operation = some g ∧
    g.owner = owner ∧ now < g.lastActivity + timeout

theorem MaySign.of_plain {timeout now : Time} {operation : Option Signature} {owner : Nat}
    {command : Bytes} (h : opcode command ∉ [cmdSignStart, cmdSignData, cmdSignFinish]) :
    MaySign timeout operation owner command now := by
  simp only [List.mem_cons, List.not_mem_nil, or_false, not_or] at h
  exact ⟨fun hop => absurd hop h.1, fun hop => absurd hop h.2.1, fun hop => absurd hop h.2.2⟩

theorem Signature.dispatched_of_plain {now : Time} {operation : Option Signature} {command : Bytes}
    (h : opcode command ∉ [cmdSignStart, cmdSignData, cmdSignFinish]) :
    Signature.dispatched command now operation = operation := by
  simp only [List.mem_cons, List.not_mem_nil, or_false, not_or] at h
  simp [Signature.dispatched, h]

theorem Signature.answered_of_plain {now : Time} {operation : Option Signature} {owner : Nat}
    {command payload : Bytes} (h : opcode command ∉ [cmdSignStart, cmdSignData, cmdSignFinish]) :
    Signature.answered owner command payload now operation = operation := by
  simp only [List.mem_cons, List.not_mem_nil, or_false, not_or] at h
  simp [Signature.answered, h]

namespace SigningLease

variable {lease lease' : SigningLease} {now : Time}

/-- Expiry leaves a lease alone that has an operation afterwards. -/
theorem expire_eq_lease {op : Operation} (h : (lease.expire now).2.operation = some op) :
    (lease.expire now).2 = lease := by
  unfold expire at h ⊢
  split at h
  · cases h
  · next hfresh => rw [if_neg hfresh]

theorem ownerGone_window (lease : SigningLease) (id : Nat) :
    (lease.ownerGone id).inactivityTimeout = lease.inactivityTimeout := by
  unfold ownerGone
  split <;> rfl

/-- What somebody leaves behind was there before. -/
theorem of_ownerGone {id : Nat} {op : Operation} (h : (lease.ownerGone id).operation = some op) :
    lease.operation = some op := by
  unfold ownerGone at h
  split at h
  · cases h
  · exact h

theorem start_window {owner : Nat} {command : Bytes} {started : Bool}
    (h : lease.start owner command now = .ok (started, lease')) :
    lease'.inactivityTimeout = lease.inactivityTimeout := by
  have hexpire : (lease.expire now).2.inactivityTimeout = lease.inactivityTimeout := by
    unfold expire
    split <;> rfl
  simp only [start, Except.bind_eq_ok] at h
  obtain ⟨-, -, h⟩ := h
  split at h <;> obtain rfl := (Prod.mk.inj (Except.ok.inj h)).2 <;> exact hexpire

end SigningLease

/-- The signing lease agrees with the operation that the companion is in. A departed owner has none
there. -/
structure Agrees (live : List Nat) (now : Time) (lease : SigningLease)
    (operation : Option Signature) : Prop where
  /-- The lease of a live session is the operation that the companion is in. -/
  held : ∀ op, lease.operation = some op → op.owner ∈ live → op.tentative = false →
    ∃ limit, op.limit = some limit ∧
      operation = some ⟨op.owner, limit, op.acceptedBytes, op.lastActivity⟩
  /-- The operation that the companion is in is leased, or has expired. -/
  leased : ∀ g, operation = some g → g.owner ∈ live ∧
    ((∃ op, lease.operation = some op ∧ op.owner = g.owner ∧ op.tentative = false) ∨
      g.lastActivity + lease.inactivityTimeout ≤ now)
  finishing : ∀ op, lease.operation = some op → op.finishPending = true → op.tentative = false

namespace Agrees

variable {live live' : List Nat} {now later : Time} {lease lease' : SigningLease}
  {operation : Option Signature} {id owner : Nat} {command payload : Bytes}

theorem clock (h : Agrees live now lease operation) (hnow : now ≤ later) :
    Agrees live later lease operation :=
  { h with leased := fun g hg => (h.leased g hg).imp_right (Or.imp_right (·.trans hnow)) }

/-- A session joins that owns no operation. -/
theorem enter (h : Agrees live now lease operation) (hsub : live ⊆ live')
    (hnew : ∀ op, lease.operation = some op → op.owner ∈ live' → op.owner ∈ live) :
    Agrees live' now lease operation :=
  { h with
    held := fun op hop hlive => h.held op hop (hnew op hop hlive)
    leased := fun g hg => (h.leased g hg).imp_left (hsub ·) }

/-- What the operation of the companion has of a lease that is given up. -/
theorem given_up (h : Agrees live now lease operation)
    (hgone : ∀ op, lease.operation = some op → op.owner ∈ live → op.tentative = false →
      op.lastActivity + lease.inactivityTimeout ≤ now) :
    Agrees live now lease.clear operation where
  held := by rintro op ⟨⟩
  finishing := by rintro op ⟨⟩
  leased := by
    intro g hg
    obtain ⟨hlive, ⟨op, hop, hown, hten⟩ | hexpired⟩ := h.leased g hg
    · have hop_live : op.owner ∈ live := hown ▸ hlive
      obtain ⟨limit, -, heq⟩ := h.held op hop hop_live hten
      obtain rfl := Option.some.inj (hg.symm.trans heq)
      exact ⟨hlive, .inr (hgone op hop hop_live hten)⟩
    · exact ⟨hlive, .inr hexpired⟩

/-- The lease expires. -/
theorem expired (h : Agrees live now lease operation) (hexpired : lease.expired now = true) :
    Agrees live now lease.clear operation := by
  refine h.given_up fun op hop _ _ => ?_
  simpa [SigningLease.expired, hop] using hexpired

/-- The lease of somebody who has left is given up. -/
theorem release (h : Agrees live now lease operation) (hgone : owner ∉ live) :
    Agrees live now (lease.ownerGone owner) operation := by
  unfold SigningLease.ownerGone
  split
  · next howner =>
    refine h.given_up fun op hop hlive _ => absurd ?_ hgone
    have : op.owner = owner := by simpa [SigningLease.owner, hop] using howner
    exact this ▸ hlive
  · exact h

/-- A session leaves, and its operation with it. -/
theorem drop (h : Agrees live now lease operation) (id : Nat) :
    Agrees (live.filter (· ≠ id)) now lease (operation.filter (·.owner ≠ id)) where
  finishing := h.finishing
  held := by
    intro op hop hlive hten
    obtain ⟨hlive, hne⟩ := List.mem_filter.mp hlive
    obtain ⟨limit, hlimit, heq⟩ := h.held op hop hlive hten
    refine ⟨limit, hlimit, ?_⟩
    rw [heq, Option.filter_some, if_pos (by simpa using hne)]
  leased := by
    intro g hg
    obtain ⟨hg, hne⟩ := Option.filter_eq_some_iff.mp hg
    obtain ⟨hlive, hleased⟩ := h.leased g hg
    exact ⟨List.mem_filter.mpr ⟨hlive, by simpa using hne⟩, hleased⟩

/-- An operation that is in the lease, and can be used, is the one the companion is in. -/
theorem usable (h : Agrees live now lease operation) {op : SigningLease.Operation}
    (hop : (lease.expire now).2.operation = some op) (husable : op.usableBy owner = true)
    (hlive : owner ∈ live) : op.owner = owner ∧ op.tentative = false ∧
      now < op.lastActivity + lease.inactivityTimeout ∧ ∃ limit, op.limit = some limit ∧
      operation = some ⟨owner, limit, op.acceptedBytes, op.lastActivity⟩ := by
  obtain ⟨hop, hfresh⟩ := SigningLease.expire_eq_some hop
  simp only [SigningLease.Operation.usableBy, Bool.and_eq_true, beq_iff_eq, Bool.not_eq_true']
    at husable
  obtain ⟨⟨⟨⟨rfl, hten⟩, -⟩, -⟩, -⟩ := husable
  exact ⟨rfl, hten, hfresh, h.held op hop hlive hten⟩

/-- A start takes over what is the owner's, or has expired. -/
theorem start (h : Agrees live now lease operation)
    (hok : lease.start owner command now = .ok (true, lease')) :
    Agrees live now lease' none ∧ ∀ g, operation = some g →
      g.owner = owner ∨ g.lastActivity + lease.inactivityTimeout ≤ now := by
  obtain ⟨hmine, hop'⟩ := SigningLease.start_allowed hok
  refine ⟨⟨?_, ?_, ?_⟩, fun g hg => ?_⟩
  · intro op hop _ hten
    obtain rfl := Option.some.inj (hop'.symm.trans hop)
    cases hten
  · rintro g ⟨⟩
  · intro op hop hfinish
    obtain rfl := Option.some.inj (hop'.symm.trans hop)
    cases hfinish
  · obtain ⟨hlive, ⟨op, hop, hown, hten⟩ | hexpired⟩ := h.leased g hg
    · obtain ⟨limit, -, heq⟩ := h.held op hop (hown ▸ hlive) hten
      obtain rfl := Option.some.inj (hg.symm.trans heq)
      exact hmine op hop
    · exact .inr hexpired

/-- Neither the lease nor the companion is in an operation. -/
theorem cleared (h : lease.operation = none) : Agrees live now lease none := by
  refine ⟨?_, ?_, ?_⟩
  · intro op hop
    cases h.symm.trans hop
  · rintro g ⟨⟩
  · intro op hop
    cases h.symm.trans hop

/-- The companion begins an operation. -/
theorem opened {op : SigningLease.Operation} {g : Signature} (hop : lease'.operation = some op)
    (hten : op.tentative = false) (hlive : g.owner ∈ live) (howner : op.owner = g.owner)
    (hlimit : op.limit = some g.limit) (haccepted : op.acceptedBytes = g.accepted)
    (hlast : op.lastActivity = g.lastActivity) : Agrees live now lease' (some g) := by
  refine ⟨?_, ?_, ?_⟩
  · intro op' hop' _ _
    obtain rfl := Option.some.inj (hop.symm.trans hop')
    exact ⟨g.limit, hlimit, by rw [howner, haccepted, hlast]⟩
  · intro g' hg'
    obtain rfl := Option.some.inj hg'
    exact ⟨hlive, .inl ⟨op, hop, howner, hten⟩⟩
  · intro op' hop' _
    obtain rfl := Option.some.inj (hop.symm.trans hop')
    exact hten

/-- The owner uses its operation. -/
theorem used (h : Agrees live now lease operation) {op op' : SigningLease.Operation}
    {operation' : Option Signature} (hop : lease.operation = some op) (hlive : op.owner ∈ live)
    (hten : op.tentative = false) (howner : op'.owner = op.owner)
    (hten' : op'.tentative = op.tentative) (hlimit : op'.limit = op.limit)
    (hoperation : ∀ limit, operation = some ⟨op.owner, limit, op.acceptedBytes, op.lastActivity⟩ →
      operation' = some ⟨op.owner, limit, op'.acceptedBytes, op'.lastActivity⟩) :
    Agrees live now { lease with operation := some op' } operation' := by
  obtain ⟨limit, hsome, heq⟩ := h.held op hop hlive hten
  rw [hoperation limit heq]
  exact .opened rfl (hten'.trans hten) hlive howner (hlimit.trans hsome) rfl rfl

/-- The companion answers a departed owner. -/
theorem departed (h : Agrees live now lease operation) {op : SigningLease.Operation}
    (hop : lease.operation = some op) (hgone : op.owner ∉ live)
    (hwindow : lease'.inactivityTimeout = lease.inactivityTimeout)
    (hop' : ∀ op', lease'.operation = some op' → op'.owner = op.owner ∧
      (op'.finishPending = true → op'.tentative = false)) :
    Agrees live now lease' operation where
  held := fun op' hlease hlive => absurd ((hop' op' hlease).1 ▸ hlive) hgone
  finishing := fun op' hlease => (hop' op' hlease).2
  leased := by
    intro g hg
    obtain ⟨hlive, ⟨op₁, hop₁, hown, -⟩ | hexpired⟩ := h.leased g hg
    · -- the lease is the departed owner's
      obtain rfl := Option.some.inj (hop.symm.trans hop₁)
      exact absurd (hown ▸ hlive) hgone
    · exact ⟨hlive, .inr (hwindow.symm ▸ hexpired)⟩

end Agrees

namespace Broker

theorem Fresh.of_append {id : Nat} {l m : List Note} (h : Fresh id (l ++ m)) : Fresh id l :=
  ⟨fun k hk => h.1 k (List.mem_append_left m hk),
    fun reason hr => h.2 reason (List.mem_append_left m hr)⟩

variable {s s₀ t u : Broker} {l m : List Note} {n : Note} {id : Nat} {x : Transaction}
  {payload : Bytes} {timeout : Time}

/-- The ledger that a history shows. -/
def signed (log : List Note) : Ledger := log.foldl Note.sign {}

theorem signed_snoc (l : List Note) (n : Note) : signed (l ++ [n]) = n.sign (signed l) := by
  simp [signed]

theorem signed_append (hm : ∀ n ∈ m, n.unsigned = true) : signed (l ++ m) = signed l := by
  rw [signed, List.foldl_append]
  exact foldl_neutral fun n hn => Note.sign_of_unsigned (hm n hn)

/-- Every command that goes upstream may. -/
def Undisturbed (timeout : Time) (past : List Note) : Note → Prop
  | .dispatched x now => MaySign timeout (signed past).operation x.owner x.command now
  | _ => True

/-! ### The lease of a command -/

/-- What a dispatched command reserves keeps to the operation that the companion is in, and the
command may go upstream. -/
theorem Reserves.agrees {owner : Nat} {command : Bytes} {descriptor : CommandDescriptor}
    {radio : CompanionRadioState} {signing : SigningLease} {live : List Nat}
    {operation : Option Signature} (hr : s.Reserves owner command descriptor radio signing)
    (hdescriptor : Protocol.descriptor command = some descriptor)
    (h : Agrees live s.now s.signing operation) (hlive : owner ∈ live) :
    signing.inactivityTimeout = s.signing.inactivityTimeout ∧
      Agrees live s.now signing (Signature.dispatched command s.now operation) ∧
      MaySign s.signing.inactivityTimeout operation owner command s.now := by
  have hplain : opcode command ∉ [cmdSignStart, cmdSignData, cmdSignFinish] →
      s.signing.inactivityTimeout = s.signing.inactivityTimeout ∧
        Agrees live s.now s.signing (Signature.dispatched command s.now operation) ∧
        MaySign s.signing.inactivityTimeout operation owner command s.now := fun hout =>
    ⟨rfl, (Signature.dispatched_of_plain hout).symm ▸ h, .of_plain hout⟩
  obtain ⟨hexclusive, hleased⟩ := flags_disjoint hdescriptor
  cases hr with
  | maintenance hflag => exact hplain (hexclusive hflag).2.2
  | dm hdm => exact hplain (by rw [opcode_of_plainDm hdm]; decide)
  | lease _ hflag => exact hplain (hleased hflag).2
  | plain _ _ hout => exact hplain hout
  | signing _ _ hsign =>
    rcases hsign with ⟨hop, hok⟩ | ⟨hop, hok⟩ | ⟨hop, hok⟩
    · obtain ⟨hagrees, hmine⟩ := h.start hok
      refine ⟨SigningLease.start_window hok, ?_, ⟨fun _ => hmine, ?_, ?_⟩⟩
      · rw [Signature.dispatched, if_pos hop]
        exact hagrees
      · exact fun hdata => absurd (hop.symm.trans hdata) (by decide)
      · exact fun hfinish => absurd (hop.symm.trans hfinish) (by decide)
    · obtain ⟨hno, -⟩ | ⟨-, op, limit, hlease, husable, hlimit, hbound, rfl⟩ :=
        SigningLease.beginData_eq hok
      · exact absurd rfl hno
      obtain ⟨hown, hten, hfresh, limit', hlimit', heq⟩ := h.usable hlease husable hlive
      obtain rfl := Option.some.inj (hlimit.symm.trans hlimit')
      have hkept := SigningLease.expire_eq_lease hlease
      rw [hkept] at hlease ⊢
      refine ⟨rfl, ?_, ⟨?_, fun _ => ⟨_, heq, rfl, hfresh, hbound⟩, ?_⟩⟩
      · rw [Signature.dispatched, if_neg (by rw [hop]; decide), if_pos (.inl hop)]
        exact h.used hlease (hown ▸ hlive) hten rfl rfl rfl fun _ heq => by rw [heq]; rfl
      · exact fun hstart => absurd (hop.symm.trans hstart) (by decide)
      · exact fun hfinish => absurd (hop.symm.trans hfinish) (by decide)
    · obtain ⟨hno, -⟩ | ⟨-, op, hlease, husable, rfl⟩ := SigningLease.beginFinish_eq hok
      · exact absurd rfl hno
      obtain ⟨hown, hten, hfresh, limit, -, heq⟩ := h.usable hlease husable hlive
      have hkept := SigningLease.expire_eq_lease hlease
      rw [hkept] at hlease ⊢
      refine ⟨rfl, ?_, ⟨?_, ?_, fun _ => ⟨_, heq, rfl, hfresh⟩⟩⟩
      · rw [Signature.dispatched, if_neg (by rw [hop]; decide), if_pos (.inr hop)]
        exact h.used hlease (hown ▸ hlive) hten rfl rfl rfl fun _ heq => by rw [heq]; rfl
      · exact fun hstart => absurd (hop.symm.trans hstart) (by decide)
      · exact fun hdata => absurd (hop.symm.trans hdata) (by decide)

/-- The bytes in flight are those of the dispatched command. -/
theorem Reserves.pending {owner : Nat} {command : Bytes} {descriptor : CommandDescriptor}
    {radio : CompanionRadioState} {signing : SigningLease}
    (hr : s.Reserves owner command descriptor radio signing)
    (hdescriptor : Protocol.descriptor command = some descriptor)
    (hdata : opcode command = cmdSignData) {op : SigningLease.Operation} {bytes : Nat}
    (hop : signing.operation = some op) (hbytes : op.pendingDataBytes = some bytes) :
    bytes = command.length - 1 := by
  have hsign : opcode command ∈ [cmdSignStart, cmdSignData, cmdSignFinish] := by
    rw [hdata]
    decide
  obtain ⟨hexclusive, hleased⟩ := flags_disjoint hdescriptor
  cases hr with
  | maintenance hflag => exact absurd hsign (hexclusive hflag).2.2
  | dm hdm => exact absurd (hdata.symm.trans (opcode_of_plainDm hdm)) (by decide)
  | lease _ hflag => exact absurd hsign (hleased hflag).2
  | plain _ _ hout => exact absurd hsign hout
  | signing _ _ h =>
    rcases h with ⟨hstart, -⟩ | ⟨-, hok⟩ | ⟨hfinish, -⟩
    · exact absurd (hdata.symm.trans hstart) (by decide)
    · obtain ⟨hno, -⟩ | ⟨-, op', _, -, -, -, -, rfl⟩ := SigningLease.beginData_eq hok
      · exact absurd rfl hno
      · obtain rfl := Option.some.inj hop
        exact (Option.some.inj hbytes).symm
    · exact absurd (hdata.symm.trans hfinish) (by decide)

/-- What an answer leaves of the lease keeps to the operation that the companion is in. The answer
to a departed owner does not show. -/
theorem Accepts.agrees {now : Time} {radio radio' : CompanionRadioState}
    {lease lease' : SigningLease} {live : List Nat} {operation : Option Signature}
    (ha : Accepts x payload now radio lease radio' lease')
    (hdescriptor : Protocol.descriptor x.command = some x.descriptor) (hsound : lease.Sound)
    (hsigns : Signs lease x)
    (hpending : opcode x.command = cmdSignData → ∀ op bytes, lease.operation = some op →
      op.pendingDataBytes = some bytes → bytes = x.command.length - 1)
    (h : Agrees live now lease operation) :
    lease'.inactivityTimeout = lease.inactivityTimeout ∧
      (x.owner ∈ live →
        Agrees live now lease' (Signature.answered x.owner x.command payload now operation)) ∧
      (x.owner ∉ live → Agrees live now lease' operation) := by
  have hplain : opcode x.command ∉ [cmdSignStart, cmdSignData, cmdSignFinish] →
      lease.inactivityTimeout = lease.inactivityTimeout ∧
        (x.owner ∈ live →
          Agrees live now lease (Signature.answered x.owner x.command payload now operation)) ∧
        (x.owner ∉ live → Agrees live now lease operation) := fun hout =>
    ⟨rfl, fun _ => (Signature.answered_of_plain hout).symm ▸ h, fun _ => h⟩
  cases ha with
  | dm hdm => exact hplain (by rw [opcode_of_plainDm hdm]; decide)
  | lease hflag | leaseRejected hflag => exact hplain ((flags_disjoint hdescriptor).2 hflag).2
  | plain _ _ hout => exact hplain hout
  | signStart hop hcode hok =>
    obtain ⟨op, hlease, hten, rfl⟩ := SigningLease.acceptedStart_eq hok
    obtain ⟨op', hlease', hown, -⟩ := hsigns.start hop
    obtain rfl := Option.some.inj (hlease.symm.trans hlease')
    refine ⟨rfl, fun hlive => ?_, fun hgone => ?_⟩
    · -- a start has no data yet
      have hempty := ((hsound op hlease).start hten).1
      rw [Signature.answered, if_pos hop, if_pos hcode]
      exact .opened rfl rfl hlive hown rfl hempty rfl
    · refine h.departed hlease (hown ▸ hgone) rfl fun op' hop' => ?_
      obtain rfl := Option.some.inj hop'
      exact ⟨rfl, fun _ => rfl⟩
  | signRejected hop hcode =>
    refine ⟨rfl, fun _ => ?_, fun hgone => ?_⟩
    · rw [Signature.answered, if_pos hop, if_neg hcode]
      exact .cleared rfl
    · obtain ⟨op, hlease, hown, -⟩ := hsigns.start hop
      refine h.departed hlease (hown ▸ hgone) rfl ?_
      rintro op' ⟨⟩
  | signData hop hok =>
    obtain ⟨op, bytes, hlease, hbytes, hcases⟩ := SigningLease.dataResponse_eq hok
    obtain ⟨op', _, hlease', hown, -⟩ := hsigns.data hop
    obtain rfl := Option.some.inj (hlease.symm.trans hlease')
    obtain rfl := hpending hop op bytes hlease hbytes
    have hten : op.tentative = false := by
      by_contra hten
      rw [Bool.not_eq_false] at hten
      simp [((hsound op hlease).start hten).2] at hbytes
    have hstart : opcode x.command ≠ cmdSignStart := by rw [hop]; decide
    refine ⟨?_, fun hlive => ?_, fun hgone => ?_⟩
    · obtain ⟨-, rfl⟩ | ⟨-, -, rfl⟩ | ⟨-, -, rfl⟩ := hcases <;> rfl
    · rw [Signature.answered, if_neg hstart, if_pos hop]
      obtain ⟨hcode, rfl⟩ | ⟨hcode, hbad, rfl⟩ | ⟨hcode, hbad, rfl⟩ := hcases
      · rw [if_pos hcode]
        exact h.used hlease (hown ▸ hlive) hten rfl rfl rfl fun _ heq => by rw [heq]; rfl
      · rw [if_neg hcode, if_pos hbad]
        exact .cleared rfl
      · rw [if_neg hcode, if_neg hbad]
        exact h.used hlease (hown ▸ hlive) hten rfl rfl rfl fun _ heq => by rw [heq]; rfl
    · refine h.departed hlease (hown ▸ hgone) ?_ fun op' hop' => ?_
      · obtain ⟨-, rfl⟩ | ⟨-, -, rfl⟩ | ⟨-, -, rfl⟩ := hcases <;> rfl
      · obtain ⟨-, rfl⟩ | ⟨-, -, rfl⟩ | ⟨-, -, rfl⟩ := hcases
        · obtain rfl := Option.some.inj hop'
          exact ⟨rfl, fun _ => hten⟩
        · cases hop'
        · obtain rfl := Option.some.inj hop'
          exact ⟨rfl, fun _ => hten⟩
  | signFinish hop hok =>
    obtain ⟨op, hlease, hpend, hcases⟩ := SigningLease.finishResponse_eq hok
    obtain ⟨op', hlease', hown, -⟩ := hsigns.finish hop
    obtain rfl := Option.some.inj (hlease.symm.trans hlease')
    have hten := h.finishing op hlease hpend
    have hstart : opcode x.command ≠ cmdSignStart := by rw [hop]; decide
    have hdata : opcode x.command ≠ cmdSignData := by rw [hop]; decide
    refine ⟨?_, fun hlive => ?_, fun hgone => ?_⟩
    · obtain ⟨-, rfl⟩ | ⟨-, rfl⟩ := hcases <;> rfl
    · rw [Signature.answered, if_neg hstart, if_neg hdata, if_pos hop]
      obtain ⟨hended, rfl⟩ | ⟨hgoes, rfl⟩ := hcases
      · rw [if_pos hended]
        exact .cleared rfl
      · rw [if_neg (by simpa using hgoes)]
        exact h.used hlease (hown ▸ hlive) hten rfl rfl rfl fun _ heq => by rw [heq]; rfl
    · refine h.departed hlease (hown ▸ hgone) ?_ fun op' hop' => ?_
      · obtain ⟨-, rfl⟩ | ⟨-, rfl⟩ := hcases <;> rfl
      · obtain ⟨-, rfl⟩ | ⟨-, rfl⟩ := hcases
        · cases hop'
        · obtain rfl := Option.some.inj hop'
          exact ⟨rfl, fun _ => hten⟩

/-- No bytes are in flight once they have been answered. -/
theorem Accepts.pending {now : Time} {radio radio' : CompanionRadioState}
    {lease lease' : SigningLease} (ha : Accepts x payload now radio lease radio' lease')
    (hdescriptor : Protocol.descriptor x.command = some x.descriptor)
    (hdata : opcode x.command = cmdSignData) {op : SigningLease.Operation} {bytes : Nat}
    (hop : lease'.operation = some op) : op.pendingDataBytes ≠ some bytes := by
  have hsign : opcode x.command ∈ [cmdSignStart, cmdSignData, cmdSignFinish] := by
    rw [hdata]
    decide
  intro hbytes
  cases ha with
  | dm hdm => exact absurd (hdata.symm.trans (opcode_of_plainDm hdm)) (by decide)
  | lease hflag | leaseRejected hflag => exact absurd hsign ((flags_disjoint hdescriptor).2 hflag).2
  | plain _ _ hout => exact absurd hsign hout
  | signStart hstart | signRejected hstart => exact absurd (hdata.symm.trans hstart) (by decide)
  | signFinish hfinish => exact absurd (hdata.symm.trans hfinish) (by decide)
  | signData _ hok =>
    obtain ⟨op', _, -, -, ⟨-, rfl⟩ | ⟨-, -, rfl⟩ | ⟨-, -, rfl⟩⟩ := SigningLease.dataResponse_eq hok
    · obtain rfl := Option.some.inj hop
      cases hbytes
    · cases hop
    · obtain rfl := Option.some.inj hop
      cases hbytes

/-- Scoped commands, and those with more than one reply, sign nothing. -/
theorem plain_of_descriptor {command : Bytes} {descriptor : CommandDescriptor}
    (h : Protocol.descriptor command = some descriptor)
    (hflag : descriptor.flags.scopeSend = true ∨ descriptor.grammar = .contacts) :
    opcode command ∉ [cmdSignStart, cmdSignData, cmdSignFinish] := by
  obtain ⟨hmem, hop⟩ := mem_descriptors h
  rw [← hop]
  have table : ∀ d ∈ remoteTelemetry :: descriptors,
      d.flags.scopeSend = true ∨ d.grammar = .contacts →
        d.opcode ∉ [cmdSignStart, cmdSignData, cmdSignFinish] := by decide
  exact table descriptor hmem hflag

/-! ### The invariant -/

/-- The command that the companion is to answer is that of the active transaction, unless its owner
has left. -/
def Awaited (live : List Nat) (x : Transaction) (asked : Option (Nat × Bytes)) : Prop :=
  (asked = some (x.owner, x.command) ∧ (x.owner ∈ live ∨ x.owner = 0)) ∨
    (asked = none ∧ x.owner ∉ live)

/-- The leases of the broker agree with its history. -/
structure Tallies (timeout : Time) (s : Broker) : Prop where
  window : s.signing.inactivityTimeout = timeout
  agrees : Agrees s.sessions.keys s.now s.signing (signed s.log).operation
  asked : ∀ x, s.active = some x → Awaited s.sessions.keys x (signed s.log).asked
  /-- Nobody becomes the owner of a transaction. -/
  owner : ∀ x, s.active = some x → x.owner = 0 ∨ ¬ Fresh x.owner s.log
  /-- The bytes in flight are those of the command that carries them. -/
  pending : ∀ x, s.active = some x → opcode x.command = cmdSignData → ∀ op bytes,
    s.signing.operation = some op → op.pendingDataBytes = some bytes →
      bytes = x.command.length - 1
  justified : Justified (Undisturbed timeout) s.log

theorem Undisturbed.of_unsigned (hn : n.unsigned = true) : Undisturbed timeout l n := by
  cases n with
  | dispatched => cases hn
  | _ => trivial

/-- A reply that is not the last is one of a list of contacts. -/
theorem Replied.contacts_of_progress {started : Bool} (h : s.Replied x payload .progress started) :
    x.descriptor.grammar = .contacts := by
  have herr : opcode payload ≠ respErr := by
    intro herr
    cases (validateResponse_err h.valid herr).2
  exact ((validateResponse_eq_ok h.valid herr).2.2.2.mp rfl).1

namespace Tallies

/-- Nothing happens that the ledger looks at. -/
theorem quiet (h : s.Tallies timeout) (hadds : Adds (·.unsigned = true) s t)
    (hkeys : t.sessions.keys = s.sessions.keys) (hsigning : t.signing = s.signing)
    (hnow : t.now = s.now) (hactive : ∀ x, t.active = some x → ∃ y, s.active = some y ∧
      x.owner = y.owner ∧ x.command = y.command) : t.Tallies timeout := by
  obtain ⟨notes, hlog, hnotes⟩ := hadds
  have hsigned : signed t.log = signed s.log := by rw [hlog, signed_append hnotes]
  refine ⟨hsigning ▸ h.window, ?_, ?_, ?_, ?_, ?_⟩
  · rw [hkeys, hsigning, hnow, hsigned]
    exact h.agrees
  · intro x hx
    obtain ⟨y, hy, howner, hcommand⟩ := hactive x hx
    have hasked := h.asked y hy
    rw [Awaited] at hasked ⊢
    rwa [howner, hcommand, hkeys, hsigned]
  · intro x hx
    obtain ⟨y, hy, howner, -⟩ := hactive x hx
    rw [howner, hlog]
    exact (h.owner y hy).imp_right fun hused hfresh => hused hfresh.of_append
  · intro x hx
    obtain ⟨y, hy, -, hcommand⟩ := hactive x hx
    rw [hcommand, hsigning]
    exact h.pending y hy
  · rw [hlog]
    exact h.justified.append fun past n hn => Undisturbed.of_unsigned (hnotes n hn)

theorem note (h : s.Tallies timeout) (hn : n.unsigned = true) : (s.note n).Tallies timeout :=
  h.quiet (.one rfl hn) rfl rfl rfl fun x hx => ⟨x, hx, rfl, rfl⟩

theorem gentle (h : s.Tallies timeout) (hst : Gentle s t) : t.Tallies timeout := by
  exact h.quiet (hst.adds.mono fun _ => Note.unsigned_of_gentle) hst.keys hst.signing hst.now
    fun x hx => hst.exists_active hx

/-- A session leaves, with its signing operation. -/
theorem drop (h : s.Tallies timeout) (session : Session) (reason : Text) :
    (s.drop id session reason).Tallies timeout := by
  have hsigned : signed (s.log ++ [.closed id reason])
      = Note.sign (signed s.log) (.closed id reason) := signed_snoc _ _
  have hagrees := h.agrees.drop id
  have hgone : id ∉ s.sessions.keys.filter (· ≠ id) := by simp
  refine ⟨?_, ?_, ?_, ?_, ?_, h.justified.snoc trivial⟩
  · show (if s.activeOwner = some id then s.signing else s.signing.ownerGone id).inactivityTimeout
      = timeout
    split
    · exact h.window
    · rw [SigningLease.ownerGone_window]
      exact h.window
  · show Agrees (s.sessions.erase id).keys s.now
      (if s.activeOwner = some id then s.signing else s.signing.ownerGone id)
      (signed (_ ++ _)).operation
    rw [OrdMap.keys_erase, hsigned]
    split
    · exact hagrees
    · exact hagrees.release hgone
  · intro x hx
    show Awaited (s.sessions.erase id).keys x (signed (_ ++ _)).asked
    rw [OrdMap.keys_erase, hsigned]
    rcases h.asked x hx with ⟨hasked, hlive⟩ | ⟨hasked, hout⟩
    · by_cases hid : x.owner = id
      · refine .inr ⟨?_, hid ▸ hgone⟩
        simp [Note.sign, hasked, hid]
      · refine .inl ⟨by simp [Note.sign, hasked, hid], hlive.imp_left fun hlive => ?_⟩
        exact List.mem_filter.mpr ⟨hlive, by simpa using hid⟩
    · exact .inr ⟨by simp [Note.sign, hasked], fun hlive => hout (List.mem_filter.mp hlive).1⟩
  · exact fun x hx => (h.owner x hx).imp_right fun hused hfresh => hused hfresh.of_append
  · intro x hx hdata op bytes hop
    refine h.pending x hx hdata op bytes ?_
    revert hop
    show (if s.activeOwner = some id then s.signing else s.signing.ownerGone id).operation
      = some op → _
    split
    · exact fun hop => hop
    · exact SigningLease.of_ownerGone

theorem sheds (h : s.Tallies timeout) (hst : Sheds s t) : t.Tallies timeout := by
  obtain ⟨u, hsu, rfl | ⟨id, session, reason, -, rfl⟩⟩ := hst
  · exact h.gentle hsu
  · exact (h.gentle hsu).drop session reason

/-- Somebody is turned away who was never there. -/
theorem refuse (h : s.Tallies timeout) (hwf : s.WF) (hfresh : Fresh id s.log) (reason : Text) :
    (s.note (.closed id reason)).Tallies timeout := by
  have hnew : id ∉ s.sessions.keys := fun hlive =>
    (hwf.known id hlive).elim fun k hk => hfresh.1 k hk
  have hkept : (signed (s.log ++ [.closed id reason])).operation = (signed s.log).operation := by
    rw [signed_snoc]
    cases hg : (signed s.log).operation with
    | none => simp [Note.sign, hg]
    | some g =>
      have hid : g.owner ≠ id := fun hid => hnew (hid ▸ (h.agrees.leased g hg).1)
      simp [Note.sign, hg, hid]
  refine ⟨h.window, ?_, ?_, ?_, h.pending, h.justified.snoc trivial⟩
  · show Agrees s.sessions.keys s.now s.signing (signed (_ ++ _)).operation
    rw [hkept]
    exact h.agrees
  · intro x hx
    show Awaited s.sessions.keys x (signed (_ ++ _)).asked
    rw [signed_snoc]
    rcases h.asked x hx with ⟨hasked, hlive⟩ | ⟨hasked, hout⟩
    · by_cases hid : x.owner = id
      · exact .inr ⟨by simp [Note.sign, hasked, hid], hid ▸ hnew⟩
      · exact .inl ⟨by simp [Note.sign, hasked, hid], hlive⟩
    · exact .inr ⟨by simp [Note.sign, hasked], hout⟩
  · exact fun x hx => (h.owner x hx).imp_right fun hused hfresh => hused hfresh.of_append

/-- Somebody joins who was never there. -/
theorem enter (h : s.Tallies timeout) (hwf : s.WF) (hregistered : s.Registered)
    (hrunning : s.failed = false) (hid : 0 < id) (hfresh : Fresh id s.log) (slotId : Option Nat) :
    (s.enter id slotId).Tallies timeout := by
  have hkeys : (s.enter id slotId).sessions.keys = s.sessions.keys ++ [id] := by
    refine OrdMap.keys_insert_of_notMem (fun hlive => ?_) _
    exact (hwf.known id hlive).elim fun k hk => hfresh.1 k hk
  have howner : ∀ x, s.active = some x → x.owner ≠ id := by
    rintro x hx rfl
    rcases h.owner x hx with hzero | hused
    · exact absurd hzero (Nat.ne_of_gt hid)
    · exact hused hfresh
  obtain ⟨notes, hlog, hnotes⟩ : Adds (·.unsigned = true) s (s.enter id slotId) :=
    .enter rfl fun _ => rfl
  have hsigned : signed (s.enter id slotId).log = signed s.log := by rw [hlog, signed_append hnotes]
  refine ⟨h.window, ?_, ?_, ?_, h.pending, ?_⟩
  · rw [hkeys, hsigned]
    refine h.agrees.enter (List.subset_append_left _ _) fun op hop hlive => ?_
    -- the operation of the lease belongs to somebody who was there
    rcases hregistered.signing hrunning op hop with hlive | ⟨hactive, -⟩
    · exact hlive
    · obtain ⟨x, hx, hown⟩ := Option.map_eq_some_iff.mp hactive
      refine (List.mem_append.mp hlive).resolve_right fun hid => howner x hx ?_
      exact hown.trans (List.mem_singleton.mp hid)
  · intro x hx
    rw [hkeys, hsigned]
    rcases h.asked x hx with ⟨hasked, hlive⟩ | ⟨hasked, hout⟩
    · exact .inl ⟨hasked, hlive.imp_left (List.mem_append_left _)⟩
    · refine .inr ⟨hasked, fun hlive => ?_⟩
      rcases List.mem_append.mp hlive with hlive | hlive
      · exact hout hlive
      · exact howner x hx (List.mem_singleton.mp hlive)
  · intro x hx
    rw [hlog]
    exact (h.owner x hx).imp_right fun hused hfresh => hused hfresh.of_append
  · rw [hlog]
    exact h.justified.append fun past n hn => Undisturbed.of_unsigned (hnotes n hn)

/-! #### The companion's side -/

/-- The transaction is done, and what its owner left behind is given up. -/
theorem release (h : s.Tallies timeout) (owner : Nat) : (s.release owner).Tallies timeout where
  window := by
    show (if s.sessions.contains owner then s.signing
      else s.signing.ownerGone owner).inactivityTimeout = timeout
    split
    · exact h.window
    · rw [SigningLease.ownerGone_window]
      exact h.window
  agrees := by
    show Agrees s.sessions.keys s.now (if s.sessions.contains owner then s.signing
      else s.signing.ownerGone owner) (signed s.log).operation
    split
    · exact h.agrees
    · next hgone => exact h.agrees.release fun hlive => hgone (OrdMap.contains_iff.mpr hlive)
  asked := by rintro x ⟨⟩
  owner := by rintro x ⟨⟩
  pending := by rintro x ⟨⟩
  justified := h.justified

/-- The active transaction hears from the companion. -/
theorem hears (h : s.Tallies timeout) (hx : s.active = some x)
    (hpop : x.owner = 0 → opcode x.command ∉ [cmdSignStart, cmdSignData, cmdSignFinish])
    {radio : CompanionRadioState} {lease : SigningLease}
    (hwindow : lease.inactivityTimeout = s.signing.inactivityTimeout)
    (hin : x.owner ∈ s.sessions.keys → Agrees s.sessions.keys s.now lease
      (Signature.answered x.owner x.command payload s.now (signed s.log).operation))
    (hout : x.owner ∉ s.sessions.keys →
      Agrees s.sessions.keys s.now lease (signed s.log).operation)
    (hpending : opcode x.command = cmdSignData → ∀ op bytes, lease.operation = some op →
      op.pendingDataBytes = some bytes → bytes = x.command.length - 1) :
    ({ s with radio := radio, signing := lease }.note (.replied payload s.now)).Tallies
      timeout := by
  refine ⟨hwindow.trans h.window, ?_, ?_, ?_, ?_, h.justified.snoc trivial⟩
  · show Agrees s.sessions.keys s.now lease (signed (s.log ++ [_])).operation
    rw [signed_snoc]
    rcases h.asked x hx with ⟨hasked, hlive⟩ | ⟨hasked, hgone⟩
    · rw [Note.sign, hasked]
      show Agrees s.sessions.keys s.now lease (Signature.answered _ _ _ _ _)
      by_cases hlive' : x.owner ∈ s.sessions.keys
      · exact hin hlive'
      · -- the internal inbox consumer signs nothing
        rw [Signature.answered_of_plain (hpop (hlive.resolve_left hlive'))]
        exact hout hlive'
    · rw [Note.sign, hasked]
      exact hout hgone
  · intro y hy
    show Awaited s.sessions.keys y (signed (s.log ++ [_])).asked
    have hkept : (signed (s.log ++ [.replied payload s.now])).asked = (signed s.log).asked := by
      rw [signed_snoc, Note.sign]
      cases hasked : (signed s.log).asked with
      | none => exact hasked
      | some => rfl
    rw [hkept]
    exact h.asked y hy
  · exact fun y hy => (h.owner y hy).imp_right fun hused hfresh => hused hfresh.of_append
  · intro y hy
    obtain rfl := Option.some.inj (hx.symm.trans hy)
    exact hpending

/-- The active transaction, which signs nothing, hears from the companion. -/
theorem hears_plain (h : s.Tallies timeout) (hx : s.active = some x)
    (hplain : opcode x.command ∉ [cmdSignStart, cmdSignData, cmdSignFinish])
    (radio : CompanionRadioState) :
    ({ s with radio := radio }.note (.replied payload s.now)).Tallies timeout := by
  refine h.hears hx (fun _ => hplain) rfl (fun _ => ?_) (fun _ => h.agrees) ?_
  · rw [Signature.answered_of_plain hplain]
    exact h.agrees
  · simp only [List.mem_cons, not_or] at hplain
    exact fun hdata => absurd hdata hplain.2.1

/-- The active transaction hears the end of its command. -/
theorem accepts {y : Transaction} (h : s.Tallies timeout) {radio₀ radio : CompanionRadioState}
    {signing : SigningLease} (hrun : Running radio₀ s.signing s.now x) (hsound : s.signing.Sound)
    (hstep : x.step = .command) (hclient : x.owner ≠ 0)
    (haccept : acceptance x payload s.now radio₀ s.signing = .ok (radio, signing))
    (hactive : s.active = some y) (howner : y.owner = x.owner) (hcommand : y.command = x.command) :
    ({ s with radio := radio, signing := signing }.note (.replied payload s.now)).Tallies
      timeout := by
  have hdescriptor := hrun.shape.descriptor
  have hpending := h.pending y hactive
  rw [hcommand] at hpending
  have haccepts := acceptance_eq haccept
  obtain ⟨hwindow, hin, hout⟩ :=
    haccepts.agrees hdescriptor hsound (hrun.signs (by rw [hstep]; rfl)) hpending h.agrees
  refine h.hears hactive (fun hzero => absurd (howner ▸ hzero) hclient) hwindow ?_ ?_ ?_
  · rw [howner, hcommand]
    exact hin
  · rw [howner]
    exact hout
  · rw [hcommand]
    exact fun hdata op bytes hop hbytes => absurd hbytes (haccepts.pending hdescriptor hdata hop)

/-- A command goes upstream that is allowed to. -/
theorem claim (h : s.Tallies timeout) {radio : CompanionRadioState} {signing : SigningLease}
    (howner : x.owner = 0 ∨ (x.owner ∈ s.sessions.keys ∧ ¬ Fresh x.owner s.log))
    (hwindow : signing.inactivityTimeout = s.signing.inactivityTimeout)
    (hagrees : Agrees s.sessions.keys s.now signing
      (Signature.dispatched x.command s.now (signed s.log).operation))
    (hpending : opcode x.command = cmdSignData → ∀ op bytes, signing.operation = some op →
      op.pendingDataBytes = some bytes → bytes = x.command.length - 1)
    (hallowed : MaySign timeout (signed s.log).operation x.owner x.command s.now) :
    (s.claim x radio signing).Tallies timeout where
  window := hwindow.trans h.window
  agrees := by
    show Agrees s.sessions.keys s.now signing (signed (s.log ++ [_])).operation
    rw [signed_snoc]
    exact hagrees
  asked := by
    intro y hy
    obtain rfl := Option.some.inj hy
    refine .inl ⟨?_, howner.symm.imp_left And.left⟩
    show (signed (s.log ++ [_])).asked = _
    rw [signed_snoc]
    rfl
  owner := by
    intro y hy
    obtain rfl := Option.some.inj hy
    exact howner.imp_right fun hused hfresh => hused.2 hfresh.of_append
  pending := by
    intro y hy
    obtain rfl := Option.some.inj hy
    exact hpending
  justified := h.justified.snoc hallowed

theorem sendUp (h : s.Tallies timeout) (hactive : s.active = some x) {y : Transaction}
    (howner : y.owner = x.owner) (hcommand : y.command = x.command) (frame : Bytes) :
    (s.sendUp frame y).Tallies timeout := by
  refine h.quiet (.one rfl rfl) rfl rfl rfl fun z hz => ?_
  obtain rfl := Option.some.inj hz
  exact ⟨x, hactive, howner, hcommand⟩

theorem forwarded {w : Option Nat} (h : s.Tallies timeout) (ht : s.Forwarded x payload w t) :
    t.Tallies timeout := h.gentle (.forwarded ht)

theorem upstream (h : s.Tallies timeout) (hwf : s.WF) (hst : Upstream s t) :
    t.Tallies timeout := by
  cases hst with
  | popDispatched hrunning hidle hrequested hsessions hdescriptor htransaction =>
    subst htransaction
    have hplain : opcode [cmdSyncNextMessage] ∉ [cmdSignStart, cmdSignData, cmdSignFinish] := by
      decide
    have hpopping : Tallies timeout
        { s with drainRequested := false, popSequence := s.popSequence + 1 } :=
      h.quiet (.refl rfl) rfl rfl rfl fun y hy => ⟨y, hy, rfl, rfl⟩
    refine (hpopping.claim (.inl rfl) rfl ?_ ?_ (.of_plain hplain)).sendUp rfl rfl rfl _
    · exact (Signature.dispatched_of_plain hplain).symm ▸ h.agrees
    · intro hdata
      have : opcode [cmdSyncNextMessage] = cmdSignData := hdata
      exact absurd this (by decide)
  | @dispatched id session command descriptor radio signing _ frame hidle hhead hforward hdescriptor
      hreserves htransaction =>
    subst htransaction
    have hlive := OrdMap.mem_keys_of_find? hhead.live
    obtain ⟨hwindow, hagrees, hallowed⟩ := hreserves.agrees hdescriptor h.agrees hlive
    have hkeys : (s.take id command).sessions.keys = s.sessions.keys := OrdMap.keys_modify _ _ _
    have hsigned : signed (s.take id command).log = signed s.log := by
      rw [show (s.take id command).log = s.log ++ [.taken id command] from rfl]
      exact signed_append fun n hn => by rw [List.mem_singleton.mp hn]; rfl
    have hused : ¬ Fresh id (s.take id command).log := fun hfresh =>
      (hwf.known id hlive).elim fun k hk => hfresh.of_append.1 k hk
    have htaken : (s.take id command).Tallies timeout := h.gentle .take
    refine (htaken.claim (.inr ⟨hkeys ▸ hlive, hused⟩) hwindow ?_ ?_ ?_).sendUp rfl rfl rfl _
    · rw [hkeys, hsigned]
      exact hagrees
    · exact fun hdata op bytes hop hbytes => hreserves.pending hdescriptor hdata hop hbytes
    · rw [hsigned, ← h.window]
      exact hallowed
  | @setupRejected t x payload w hx _ hstep _ _ _ ht =>
    have hrun := hwf.active x hx
    have hscoped := hrun.flagged (hrun.wrapped (.inl hstep))
    have hplain := plain_of_descriptor hrun.shape.descriptor (.inl hscoped)
    have hnow := ht.frame.2.2.1
    rw [← hnow]
    exact ((h.forwarded ht).hears_plain (ht.frame.2.1.trans hx) hplain _).release _
  | @setupAccepted x frame hx _ hstep =>
    have hrun := hwf.active x hx
    have hscoped := hrun.flagged (hrun.wrapped (.inl hstep))
    have hplain := plain_of_descriptor hrun.shape.descriptor (.inl hscoped)
    have hheard : (s.note (.replied [respOk] s.now)).Tallies timeout :=
      h.hears_plain hx hplain s.radio
    exact hheard.sendUp hx (by rfl) (by rfl) frame
  | @restored x hx _ hstep =>
    have hrun := hwf.active x hx
    have hscoped := hrun.flagged (hrun.wrapped (.inr hstep))
    have hplain := plain_of_descriptor hrun.shape.descriptor (.inl hscoped)
    exact (h.hears_plain hx hplain s.radio).release _
  | @progressed t x payload started w hreplied ht =>
    have hrun := hwf.active x hreplied.active
    have hplain := plain_of_descriptor hrun.shape.descriptor (.inr hreplied.contacts_of_progress)
    have htouched : Tallies timeout { t with
        active := some { x with
          contactsStarted := started
          responseFrames := x.responseFrames + 1
          progress := s.now } } :=
      (h.forwarded ht).quiet (.refl rfl) rfl rfl rfl fun y hy => by
        obtain rfl := Option.some.inj hy
        exact ⟨x, ht.frame.2.1.trans hreplied.active, rfl, rfl⟩
    rw [← ht.frame.2.2.1] at htouched ⊢
    exact htouched.hears_plain rfl hplain _
  | @scopedReply t x payload started w radio signing hreplied ht haccept =>
    obtain ⟨-, hactive, hnow, -, hsigning, -⟩ := ht.frame
    have hrun := hwf.active x hreplied.active
    have hsound := hwf.signing
    rw [← hnow, ← hsigning] at hrun haccept
    rw [← hsigning] at hsound
    rw [← hnow]
    have hnext := hactive.trans hreplied.active
    exact ((h.forwarded ht).accepts hrun hsound hreplied.step hreplied.client haccept hnext rfl
      rfl).sendUp hnext (by rfl) (by rfl) _
  | @heldReply t x payload started w radio signing hreplied ht haccept =>
    obtain ⟨-, hactive, hnow, -, hsigning, -⟩ := ht.frame
    have hrun := hwf.active x hreplied.active
    have hsound := hwf.signing
    rw [← hnow, ← hsigning] at hrun haccept
    rw [← hsigning] at hsound
    have hheld : Tallies timeout { t with
        active := some { x with
          contactsStarted := started
          responseFrames := x.responseFrames + 1
          progress := t.now
          step := .maintenanceResult
          maintenanceWriteId := some w } } :=
      (h.forwarded ht).quiet (.refl rfl) rfl rfl rfl fun y hy => by
        obtain rfl := Option.some.inj hy
        exact ⟨x, hactive.trans hreplied.active, rfl, rfl⟩
    rw [← hnow]
    exact hheld.accepts hrun hsound hreplied.step hreplied.client haccept rfl rfl rfl
  | @finalReply t x payload started w radio signing hreplied ht haccept =>
    obtain ⟨-, hactive, hnow, -, hsigning, -⟩ := ht.frame
    have hrun := hwf.active x hreplied.active
    have hsound := hwf.signing
    rw [← hnow, ← hsigning] at hrun haccept
    rw [← hsigning] at hsound
    rw [← hnow]
    exact ((h.forwarded ht).accepts hrun hsound hreplied.step hreplied.client haccept
      (hactive.trans hreplied.active) rfl rfl).release _

end Tallies

/-- **The signing lease keeps to the history.** -/
theorem Stepwise.tallies (timeout : Time) :
    Stepwise (fun s => s.WF ∧ s.Registered) (Tallies timeout) where
  report := fun _ h => h.quiet (.refl rfl) rfl rfl rfl fun x hx => ⟨x, hx, rfl, rfl⟩
  input := fun _ _ h => h.note rfl
  clock := fun _ hnow h => { h with agrees := h.agrees.clock hnow }
  idle := by
    rintro s t ⟨hwf, -⟩ hst h
    rcases hst.gentle with hgentle | ⟨id, slotId, now, reason, -, hfresh, -, rfl⟩
    · exact h.gentle hgentle
    · exact h.refuse hwf hfresh reason
  output := fun _ hst h => h.sheds hst.sheds
  client := by
    rintro s t ⟨hwf, hregistered⟩ hst h
    rcases hst.sheds with hsheds | ⟨id, slotId, hrunning, hid, hfresh, rfl⟩
    · exact h.sheds hsheds
    · exact h.enter hwf hregistered hrunning hid hfresh slotId
  radio := by
    intro s t _ hst h
    cases hst with
    | signingExpired hexpired =>
      exact { h with
        agrees := h.agrees.expired hexpired
        pending := by rintro x _ _ op _ ⟨⟩ }
    | leaseExpired | quarantineOver | notified =>
      exact h.quiet (.refl rfl) rfl rfl rfl fun x hx => ⟨x, hx, rfl, rfl⟩
    | confirmed | unmatched =>
      exact h.quiet (.one rfl rfl) rfl rfl rfl fun x hx => ⟨x, hx, rfl, rfl⟩
    | @matched payload now remote owner =>
      have hfreed : Tallies timeout { s with radio := { s.radio with remote := remote } } :=
        h.quiet (.refl rfl) rfl rfl rfl fun x hx => ⟨x, hx, rfl, rfl⟩
      have hsent : Tallies timeout
          (send { s with radio := { s.radio with remote := remote } } owner payload .leaseResult) :=
        hfreed.quiet (.one rfl rfl) (send_sessions _ _ _) rfl rfl fun x hx => ⟨x, hx, rfl, rfl⟩
      exact hsent.note rfl
  part := by
    rintro s t ⟨hwf, -⟩ hst h
    cases hst with
    | dropped => exact h.drop _ _
    | released => exact h.release _
    | writtenDown => exact h.gentle .modify
    | upstream hst => exact h.upstream hwf hst
    | failed => exact h.quiet (.one rfl rfl) rfl rfl rfl (by rintro x ⟨⟩)
  took := by
    rintro s x payload ⟨hwf, -⟩ htakes h
    have hpop := (hwf.active x htakes.active).shape.pop htakes.owner
    have hheard : (s.note (.replied payload s.now)).Tallies timeout :=
      h.hears_plain htakes.active (by rw [hpop]; decide) s.radio
    exact hheard.quiet (.refl rfl) rfl rfl rfl (by rintro x ⟨⟩)
  pop := fun _ _ _ hst h => h.sheds hst.sheds
  closes := fun _ hst h => h.gentle (.closes hst)

theorem Starts.tallies (h : s.Starts) : s.Tallies s.config.signingTimeout := by
  obtain ⟨epoch, selfKey, config, now, orphan, slots, radio, rfl⟩ := h.fresh
  exact
    { window := rfl
      agrees := .cleared rfl
      asked := by rintro x ⟨⟩
      owner := by rintro x ⟨⟩
      pending := by rintro x ⟨⟩
      justified := .nil }

theorem Reached.tallies (h : Reached s₀ s) : s.Tallies s₀.config.signingTimeout := by
  refine ((Stepwise.tallies s₀.config.signingTimeout).mono fun u (hu : Reached s₀ u) =>
    ⟨hu.wf, hu.registered⟩).holds (fun hstart => hstart.tallies) h

/-- **Only the owner of a signing operation signs.** Data and a finish go upstream only in the
operation of their own session, before it has expired, and the data within its limit. A start takes
nothing from another session that has not expired. -/
theorem signing_exclusive (hstart : s₀.Starts) (h : Run s₀ s) :
    Justified (Undisturbed s₀.config.signingTimeout) s.log :=
  (h.reached hstart).tallies.justified

/-- Two clients sign at a time. -/
def cosigners : Broker :=
  first.replay [.admission 1 none 0, .admission 2 none 0, .clientFrame 1 [cmdSignStart] 0,
    .upstreamFrame [respSignStart, 0, 5, 0, 0, 0] 0, .clientFrame 2 [cmdSignStart] 0,
    .clientFrame 1 [cmdSignData, 1, 2, 3] 0, .upstreamFrame [respOk] 0,
    .clientFrame 1 [cmdSignData, 4, 5, 6] 0, .clientFrame 1 [cmdSignFinish] 0]

/-- The start of the second client, and the data that is too much, go nowhere. -/
theorem signing_exclusive_cosigners :
    Justified (Undisturbed first.config.signingTimeout) cosigners.log ∧
      (signed cosigners.log).operation = some ⟨1, 5, 3, 0⟩ ∧
      cosigners.log.filterMap (fun | .dispatched x _ => some (x.owner, x.command) | _ => none) =
        [(1, [cmdSignStart]), (1, [cmdSignData, 1, 2, 3]), (1, [cmdSignFinish])] := by
  have hrun : Run first cosigners := Run.start.replay (by decide +kernel)
  exact ⟨signing_exclusive first_starts hrun, by decide +kernel, by decide +kernel⟩

end Broker

end MeshCoreTCPMux

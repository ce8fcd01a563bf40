import MeshCoreTCPMux.Broker.Gentle
import MeshCoreTCPMux.Broker.Registry
import MeshCoreTCPMux.Broker.Replay
import MeshCoreTCPMux.Broker.Deliveries

/-!
# Remote requests

A login, a status or telemetry request, a trace and the like ask another node of the mesh. The
companion accepts such a request with `SENT` and pushes the result at some time later. It does not
say whose request the result belongs to, so that at most one may be under way.

The history shows when a request is over (`Concluded`): the companion refused it, a push has matched
it, or its deadline has passed. The first theorem (`requests_exclusive`) is that a remote request is
dispatched only when all before it are over, when the lease is free that the broker inherited from
the epoch before, and when the inherited quarantine has ended. The second one (`results_attributed`)
is that a result goes only to the session whose own request it answers, which has been connected
ever since, and that each request has at most one result.

The invariant that carries both is `Engaged`: what the lease of the broker says about the last
request in the history. The request waits for the companion (`pending`) under a tentative
reservation, which nothing can match and which never expires; once it is accepted, the reservation
is what the companion owes for it (`Transaction.request`), but for its owner, who may have left. In
every other state the lease is free, and all requests are over (`vacant`), or it is as it was
inherited.
-/

namespace MeshCoreTCPMux

open Protocol Relation History

/-- What the companion owes for a request that it has accepted with `sent` at the time `now`. -/
def Transaction.request (x : Transaction) (sent : Bytes) (now : Time) :
    Except Error RemoteLease.Reservation := do
  let (kind, peer, tag, auth) ← RemoteLease.classify x.command
  return {
    owner := some x.owner
    kind := kind
    command := x.command
    deadline := some (LeaseTime.deadline now (u32At sent 6))
    peer := peer
    tag := if kind = .trace then tag else some (u32At sent 2)
    traceAuth := auth
    tentative := false }

/-- An entry at which a command is dispatched. -/
def Note.starts : Note → Bool
  | dispatched _ _ => true
  | _ => false

/-- An entry at which a remote request is dispatched. -/
def Note.engages : Note → Bool
  | dispatched x _ => x.descriptor.flags.remoteLease
  | _ => false

/-- An entry that neither asks for anything nor delivers a result, and closes no session. -/
def Note.modest : Note → Bool
  | dispatched x _ => !x.descriptor.flags.remoteLease
  | sent _ .leaseResult | closed _ _ => false
  | _ => true

/-- A request is answered or too old, by what a push showed or by the time. -/
def Freed (r : RemoteLease.Reservation) (rest : List Note) (now : Time) : Prop :=
  r.expired now = true ∨ ∃ push t, .matched push t ∈ rest ∧
    (r.expired t = true ∨ RemoteLease.matchesPush r push = .ok true)

/-- The request `x` is over, by what happened since its dispatch or by the time. -/
def Concluded (x : Transaction) (since : List Note) (now : Time) : Prop :=
  ∃ mid payload t rest, since = mid ++ .replied payload t :: rest ∧
    (∀ n ∈ mid, n.starts = false) ∧ (opcode payload = respErr ∨
      (opcode payload = respSent ∧ ∃ r, x.request payload t = .ok r ∧ Freed r rest now))

/-- The entry shows the session `id` closed. -/
def Note.parts (id : Nat) (n : Note) : Prop := ∃ reason, n = .closed id reason

theorem Note.of_modest {n : Note} (hn : n.modest = true) :
    n.engages = false ∧ n.results = false ∧ ∀ id, ¬ n.parts id := by
  cases n with
  | dispatched x now =>
    refine ⟨?_, rfl, ?_⟩
    · show x.descriptor.flags.remoteLease = false
      simpa [Note.modest] using hn
    · rintro id ⟨reason, heq⟩
      cases heq
  | closed => cases hn
  | sent frame cause =>
    refine ⟨rfl, ?_, ?_⟩
    · cases cause with
      | leaseResult => cases hn
      | _ => rfl
    · rintro id ⟨reason, heq⟩
      cases heq
  | _ =>
    refine ⟨rfl, rfl, ?_⟩
    rintro id ⟨reason, heq⟩
    cases heq

/-- What is gentle is modest, and starts nothing. -/
theorem Note.modest_of_gentle {n : Note} (hn : n.gentle = true) :
    n.modest = true ∧ n.starts = false := by
  cases n with
  | sent frame cause =>
    cases cause with
    | leaseResult => cases hn
    | _ => exact ⟨rfl, rfl⟩
  | dispatched | closed => cases hn
  | _ => exact ⟨rfl, rfl⟩

section

variable {r : RemoteLease.Reservation} {x : Transaction} {l m since : List Note} {now later : Time}

theorem RemoteLease.Reservation.expired_mono (h : r.expired now = true) (hnow : now ≤ later) :
    r.expired later = true := by
  simp only [Reservation.expired, Option.any_eq_true, decide_eq_true_eq] at h ⊢
  obtain ⟨deadline, hdeadline, hpassed⟩ := h
  exact ⟨deadline, hdeadline, le_trans hpassed hnow⟩

/-- A tentative reservation has no deadline to miss. -/
theorem LeaseOK.accepted {live : List Nat} {lease : RemoteLease} (h : LeaseOK live lease)
    (hr : lease = some r) (hexpired : r.expired now = true) : r.tentative = false := by
  refine Bool.eq_false_iff.mpr fun htentative => ?_
  rw [RemoteLease.Reservation.expired, h.deadline r hr htentative] at hexpired
  cases hexpired

theorem Freed.mono (h : Freed r l now) (hnow : now ≤ later) (m : List Note) :
    Freed r (l ++ m) later := by
  rcases h with hexpired | ⟨push, t, hmem, hfreed⟩
  · exact .inl (RemoteLease.Reservation.expired_mono hexpired hnow)
  · exact .inr ⟨push, t, List.mem_append_left _ hmem, hfreed⟩

theorem Concluded.mono (h : Concluded x since now) (hnow : now ≤ later) (m : List Note) :
    Concluded x (since ++ m) later := by
  obtain ⟨mid, payload, t, rest, rfl, hmid, hover⟩ := h
  refine ⟨mid, payload, t, rest ++ m, by simp, hmid, ?_⟩
  rcases hover with herr | ⟨hsent, r, hrequest, hfreed⟩
  · exact .inl herr
  · exact .inr ⟨hsent, r, hrequest, hfreed.mono hnow m⟩

end

/-- What the lease says about the owner of a request. -/
def Owned (x : Transaction) (since : List Note) (owner : Option Nat) : Prop :=
  (owner = some x.owner ∧ ∀ n ∈ since, ¬ n.parts x.owner) ∨
    (owner = none ∧ ∃ n ∈ since, n.parts x.owner)

theorem Owned.append {x : Transaction} {since m : List Note} {owner : Option Nat}
    (h : Owned x since owner) (hm : ∀ n ∈ m, ¬ n.parts x.owner) : Owned x (since ++ m) owner := by
  rcases h with ⟨howner, hsince⟩ | ⟨howner, n, hn, hparts⟩
  · refine .inl ⟨howner, fun n hn => ?_⟩
    rcases List.mem_append.mp hn with hn | hn
    · exact hsince n hn
    · exact hm n hn
  · exact .inr ⟨howner, n, List.mem_append_left _ hn, hparts⟩

/-- Somebody leaves, perhaps the owner. -/
theorem Owned.close {x : Transaction} {since : List Note} {owner : Option Nat}
    (h : Owned x since owner) (id : Nat) (reason : Text) :
    Owned x (since ++ [.closed id reason]) (if owner = some id then none else owner) := by
  by_cases hid : id = x.owner
  · subst hid
    have hgone : ∃ n ∈ since ++ [Note.closed x.owner reason], n.parts x.owner :=
      ⟨_, List.mem_append_right _ (List.mem_singleton_self _), reason, rfl⟩
    rcases h with ⟨rfl, -⟩ | ⟨rfl, -⟩
    · exact .inr ⟨if_pos rfl, hgone⟩
    · exact .inr ⟨rfl, hgone⟩
  · have hkept : (if owner = some id then none else owner) = owner := by
      rcases h with ⟨rfl, -⟩ | ⟨rfl, -⟩
      · exact if_neg fun heq => hid (Option.some.inj heq).symm
      · rfl
    rw [hkept]
    refine h.append fun n hn => ?_
    rw [List.mem_singleton.mp hn]
    rintro ⟨reason', heq⟩
    exact hid (Note.closed.inj heq).1

/-- `since` shows what has happened since a request was dispatched, and `rest` what has happened
since the companion accepted it with `sent`. -/
structure Accepted (since : List Note) (sent : Bytes) (now : Time) (rest : List Note) : Prop where
  code : opcode sent = respSent
  history : ∃ mid, since = mid ++ .replied sent now :: rest ∧ ∀ n ∈ mid, n.starts = false

theorem Accepted.append {since rest : List Note} {sent : Bytes} {now : Time}
    (h : Accepted since sent now rest) (m : List Note) :
    Accepted (since ++ m) sent now (rest ++ m) := by
  obtain ⟨mid, rfl, hmid⟩ := h.history
  exact ⟨h.code, mid, by simp, hmid⟩

namespace Broker

variable {s s₀ t u : Broker} {l m past since rest mid : List Note} {n : Note} {id : Nat}
  {x y : Transaction} {payload push sent : Bytes} {now later : Time} {owner : Option Nat}
  {r : RemoteLease.Reservation}

/-- All requests are over, and so is what the broker inherited. -/
structure Vacant (s₀ : Broker) (log : List Note) (now : Time) : Prop where
  done : ∀ before y asked since, log = before ++ .dispatched y asked :: since →
    y.descriptor.flags.remoteLease = true → Concluded y since now
  inherited : ∀ r, s₀.radio.remote = some r → Freed r log now

/-- A remote request may be dispatched. -/
def Unrivalled (s₀ : Broker) (past : List Note) : Note → Prop
  | .dispatched x now => x.descriptor.flags.remoteLease = true →
    Vacant s₀ past now ∧ ∀ deadline, s₀.radio.uncertainUntil = some deadline → deadline ≤ now
  | _ => True

/-- The last request in a history is `x`, and `since` is what has happened since its dispatch. -/
structure Requested (s₀ : Broker) (log : List Note) (now : Time) (x : Transaction)
    (since : List Note) (owner : Option Nat) : Prop where
  remote : x.descriptor.flags.remoteLease = true
  history : ∃ past asked, log = past ++ .dispatched x asked :: since ∧ Vacant s₀ past now
  owner : Owned x since owner
  last : ∀ n ∈ since, n.engages = false

/-- A result goes where it belongs. -/
structure Attributed (past : List Note) (frame : SendFrame) (now : Time) : Prop where
  received : Broker.received past = some frame.payload
  request : ∃ before x asked since sent accepted rest r,
    past = before ++ .dispatched x asked :: since ∧ x.descriptor.flags.remoteLease = true ∧
    Accepted since sent accepted rest ∧ x.request sent accepted = .ok r ∧ x.owner = frame.session ∧
    r.expired now = false ∧ RemoteLease.matchesPush r frame.payload = .ok true ∧
    (∀ n ∈ since, n.engages = false ∧ ¬ n.parts frame.session) ∧ ∀ n ∈ rest, n.results = false

/-- The remote request that the companion has not answered yet: its owner and its command. -/
def asking (active : Option Transaction) : Option (Nat × Bytes × CommandDescriptor) :=
  active.bind fun x =>
    if x.descriptor.flags.remoteLease && x.step.unanswered then
      some (x.owner, x.command, x.descriptor)
    else none

/-- What the lease says about the last request. -/
inductive Engaged (s₀ s : Broker) : Prop
  /-- There has been none, and the inherited one is as it was. -/
  | inherited (hnone : ∀ n ∈ s.log, n.engages = false) (hsame : s.radio.remote = s₀.radio.remote)
      (hidle : asking s.active = none)
  /-- It is over. -/
  | vacant (hremote : s.radio.remote = none) (hvacant : Vacant s₀ s.log s.now)
  /-- It waits for the companion. -/
  | pending {x : Transaction} {since : List Note} {owner : Option Nat}
      {kind : RemoteLease.Kind} {peer : Option Bytes} {tag auth : Option Nat}
      (hrequested : Requested s₀ s.log s.now x since owner)
      (hsince : ∀ n ∈ since, n.starts = false)
      (hactive : asking s.active = some (x.owner, x.command, x.descriptor))
      (hclass : RemoteLease.classify x.command = .ok (kind, peer, tag, auth))
      (hremote : s.radio.remote = some ⟨owner, kind, x.command, none, peer, tag, auth, true⟩)
  /-- It has been accepted. -/
  | accepted {x : Transaction} {sent : Bytes} {now : Time} {since rest : List Note}
      {r : RemoteLease.Reservation} {owner : Option Nat}
      (hrequested : Requested s₀ s.log s.now x since owner)
      (haccepted : Accepted since sent now rest) (hrequest : x.request sent now = .ok r)
      (hremote : s.radio.remote = some { r with owner := owner })
      (hrest : ∀ n ∈ rest, n.results = false)

/-- Remote requests are alone, and their results are attributed. -/
structure Orderly (s₀ : Broker) (log : List Note) : Prop where
  alone : Justified (Unrivalled s₀) log
  attributed : ∀ past frame future, log = past ++ .sent frame .leaseResult :: future →
    ∃ now tail, future = .matched frame.payload now :: tail ∧ Attributed past frame now

/-- The history is orderly, and the lease keeps to it. -/
structure Conducts (s₀ s : Broker) : Prop where
  orderly : Orderly s₀ s.log
  quarantine : s.failed = false → ∀ deadline, s₀.radio.uncertainUntil = some deadline →
    deadline ≤ s.now ∨ s.radio.uncertainUntil = some deadline
  engaged : s.failed = false → Engaged s₀ s

/-! ### Requests in a growing history -/

/-- Entries that dispatch no remote request leave the requests that there were. -/
theorem Vacant.append (h : Vacant s₀ l now) (hnow : now ≤ later)
    (hm : ∀ n ∈ m, n.engages = false) : Vacant s₀ (l ++ m) later where
  done := by
    intro before y asked since heq hremote
    rcases split_append heq with ⟨rest, rfl, rfl⟩ | ⟨front, rfl, -⟩
    · exact (h.done before y asked rest rfl hremote).mono hnow m
    · have hnone := hm _ (List.mem_append_right _ List.mem_cons_self)
      exact absurd (hremote.symm.trans hnone) (by decide)
  inherited := fun r hr => (h.inherited r hr).mono hnow m

/-- One more request is over. -/
theorem Requested.concluded (h : Requested s₀ l now x since owner) (hover : Concluded x since now) :
    Vacant s₀ l now := by
  obtain ⟨past, asked, rfl, hvacant⟩ := h.history
  refine ⟨fun before y asked' since' heq hremote => ?_, fun r hr => ?_⟩
  · rcases split_append heq with ⟨rest, rfl, rfl⟩ | ⟨front, hfront, rfl⟩
    · exact (hvacant.done before y asked' rest rfl hremote).mono le_rfl _
    · cases front with
      | nil =>
        obtain ⟨hsame, rfl⟩ := List.cons.inj hfront
        obtain ⟨rfl, rfl⟩ := Note.dispatched.inj hsame
        exact hover
      | cons n front =>
        -- it is the last one
        obtain ⟨rfl, rfl⟩ := List.cons.inj hfront
        have hnone := h.last _ (List.mem_append_right _ List.mem_cons_self)
        exact absurd (hremote.symm.trans hnone) (by decide)
  · exact (hvacant.inherited r hr).mono le_rfl _

theorem Requested.append (h : Requested s₀ l now x since owner) (hnow : now ≤ later)
    (hm : ∀ n ∈ m, n.engages = false ∧ ∀ id, ¬ n.parts id) :
    Requested s₀ (l ++ m) later x (since ++ m) owner := by
  obtain ⟨past, asked, rfl, hvacant⟩ := h.history
  refine ⟨h.remote, ⟨past, asked, by simp, ?_⟩, h.owner.append fun n hn => (hm n hn).2 _, ?_⟩
  · have hlater := hvacant.append (m := []) hnow (by simp)
    rwa [List.append_nil] at hlater
  · intro n hn
    rcases List.mem_append.mp hn with hn | hn
    · exact h.last n hn
    · exact (hm n hn).1

theorem Requested.close (h : Requested s₀ l now x since owner) (id : Nat) (reason : Text) :
    Requested s₀ (l ++ [.closed id reason]) now x (since ++ [.closed id reason])
      (if owner = some id then none else owner) := by
  obtain ⟨past, asked, rfl, hvacant⟩ := h.history
  refine ⟨h.remote, ⟨past, asked, by simp, hvacant⟩, h.owner.close id reason, fun n hn => ?_⟩
  rcases List.mem_append.mp hn with hn | hn
  · exact h.last n hn
  · rw [List.mem_singleton.mp hn]
    rfl

theorem Vacant.modest (h : Vacant s₀ l now) (hnow : now ≤ later)
    (hm : ∀ n ∈ m, n.modest = true) : Vacant s₀ (l ++ m) later :=
  h.append hnow fun n hn => (Note.of_modest (hm n hn)).1

theorem Requested.modest (h : Requested s₀ l now x since owner) (hnow : now ≤ later)
    (hm : ∀ n ∈ m, n.modest = true) : Requested s₀ (l ++ m) later x (since ++ m) owner :=
  h.append hnow fun n hn =>
    have hn := Note.of_modest (hm n hn)
    ⟨hn.1, hn.2.2⟩

/-! ### What waits for the companion -/

theorem asking_of_plain (hflag : x.descriptor.flags.remoteLease = false) :
    asking (some x) = none := by
  simp [asking, hflag]

theorem asking_of_answered (hstep : x.step.unanswered = false) : asking (some x) = none := by
  simp [asking, hstep]

theorem asking_of_remote (hflag : x.descriptor.flags.remoteLease = true)
    (hstep : x.step.unanswered = true) :
    asking (some x) = some (x.owner, x.command, x.descriptor) := by
  simp [asking, hflag, hstep]

theorem asking_core {active active' : Option Transaction}
    (h : active'.map Transaction.core = active.map Transaction.core) :
    asking active' = asking active := by
  have hcore : ∀ a : Option Transaction, asking (a.map Transaction.core) = asking a := by
    intro a
    cases a <;> rfl
  rw [← hcore active', ← hcore active, h]

/-! ### The lease and the history -/

namespace Engaged

/-- Nothing is asked, and nothing is answered. -/
theorem keep (h : Engaged s₀ s)
    (hadds : Adds (fun n => n.modest = true ∧ (n.starts = true → asking s.active = none)) s t)
    (hnow : s.now ≤ t.now) (hremote : t.radio.remote = s.radio.remote)
    (hasking : asking t.active = asking s.active) : Engaged s₀ t := by
  obtain ⟨notes, hlog, hnotes⟩ := hadds
  have hmodest : ∀ n ∈ notes, n.modest = true := fun n hn => (hnotes n hn).1
  cases h with
  | inherited hnone hsame hidle =>
    refine .inherited (fun n hn => ?_) (hremote.trans hsame) (hasking.trans hidle)
    rw [hlog] at hn
    rcases List.mem_append.mp hn with hn | hn
    · exact hnone n hn
    · exact (Note.of_modest (hmodest n hn)).1
  | vacant hfree hvacant => exact .vacant (hremote.trans hfree) (hlog ▸ hvacant.modest hnow hmodest)
  | pending hrequested hsince hactive hclass hleased =>
    refine .pending (hlog ▸ hrequested.modest hnow hmodest) (fun n hn => ?_)
      (hasking.trans hactive) hclass (hremote.trans hleased)
    rcases List.mem_append.mp hn with hn | hn
    · exact hsince n hn
    · -- nothing is dispatched while a request waits
      by_contra hstarts
      have hidle := (hnotes n hn).2 (by simpa using hstarts)
      exact absurd (hactive.symm.trans hidle) (by rintro ⟨⟩)
  | accepted hrequested haccepted hrequest hleased hrest =>
    refine .accepted (hlog ▸ hrequested.modest hnow hmodest) (haccepted.append notes) hrequest
      (hremote.trans hleased) fun n hn => ?_
    rcases List.mem_append.mp hn with hn | hn
    · exact hrest n hn
    · exact (Note.of_modest (hmodest n hn)).2.1

/-- Somebody leaves, or is turned away. -/
theorem close (h : Engaged s₀ s) (hstart : LeaseOK [] s₀.radio.remote) {id : Nat} {reason : Text}
    (hlog : t.log = s.log ++ [.closed id reason]) (hnow : t.now = s.now)
    (hremote : t.radio.remote = RemoteLease.ownerGone s.radio.remote id)
    (hasking : asking t.active = asking s.active) : Engaged s₀ t := by
  have hclosed : ∀ n ∈ [Note.closed id reason], n.engages = false ∧ n.results = false ∧
      n.starts = false := by
    intro n hn
    rw [List.mem_singleton.mp hn]
    exact ⟨rfl, rfl, rfl⟩
  cases h with
  | inherited hnone hsame hidle =>
    refine .inherited (fun n hn => ?_) ?_ (hasking.trans hidle)
    · rw [hlog] at hn
      rcases List.mem_append.mp hn with hn | hn
      · exact hnone n hn
      · exact (hclosed n hn).1
    · -- what is inherited is nobody's
      rw [hremote, hsame]
      cases hr : s₀.radio.remote with
      | none => rfl
      | some r =>
        have hgone : r.owner ≠ some id := fun howner =>
          absurd (hstart.owner r id hr howner) List.not_mem_nil
        simp [RemoteLease.ownerGone, hgone]
  | vacant hfree hvacant =>
    refine .vacant (by rw [hremote, hfree]; rfl) ?_
    rw [hlog, hnow]
    exact hvacant.append le_rfl fun n hn => (hclosed n hn).1
  | @pending x since owner _ _ _ _ hrequested hsince hactive hclass hleased =>
    refine .pending (by rw [hlog, hnow]; exact hrequested.close id reason) (fun n hn => ?_)
      (hasking.trans hactive) hclass ?_
    · rcases List.mem_append.mp hn with hn | hn
      · exact hsince n hn
      · exact (hclosed n hn).2.2
    · rw [hremote, hleased]
      by_cases howner : owner = some id <;> simp [RemoteLease.ownerGone, howner]
  | @accepted x sent now since rest r owner hrequested haccepted hrequest hleased hrest =>
    refine .accepted (by rw [hlog, hnow]; exact hrequested.close id reason)
      (haccepted.append [.closed id reason]) hrequest ?_ fun n hn => ?_
    · rw [hremote, hleased]
      by_cases howner : owner = some id <;> simp [RemoteLease.ownerGone, howner]
    · rcases List.mem_append.mp hn with hn | hn
      · exact hrest n hn
      · exact (hclosed n hn).2.1

/-- While nothing is reserved, every request is over. -/
theorem vacant_of_free (h : Engaged s₀ s) (hfree : s.radio.remote = none) :
    Vacant s₀ s.log s.now := by
  cases h with
  | inherited hnone hsame =>
    refine ⟨fun before y asked since heq hremote => ?_, fun r hr => ?_⟩
    · have hquiet := hnone (.dispatched y asked) (heq ▸ List.mem_append_right _ List.mem_cons_self)
      exact absurd (hremote.symm.trans hquiet) (by decide)
    · exact absurd (hr.symm.trans (hsame.symm.trans hfree)) (by rintro ⟨⟩)
  | vacant _ hvacant => exact hvacant
  | pending _ _ _ _ hleased | accepted _ _ _ hleased =>
    exact absurd (hleased.symm.trans hfree) (by rintro ⟨⟩)

/-- An accepted reservation is given up: it has expired, or a push has matched it. -/
theorem freed (h : Engaged s₀ s) (hr : s.radio.remote = some r) (htentative : r.tentative = false)
    (hlog : t.log = s.log ++ m) (hm : ∀ n ∈ m, n.engages = false ∧ ∀ id, ¬ n.parts id)
    (hnow : t.now = s.now)
    (hfreed : Freed r m t.now) : Vacant s₀ t.log t.now := by
  have hover : ∀ l, Freed r (l ++ m) t.now := fun l =>
    hfreed.imp_right fun ⟨push, t, hmem, hmatch⟩ => ⟨push, t, List.mem_append_right _ hmem, hmatch⟩
  cases h with
  | inherited hnone hsame =>
    refine ⟨fun before y asked since heq hremote => ?_, fun r' hr' => ?_⟩
    · have hmem : Note.dispatched y asked ∈ s.log ++ m :=
        hlog ▸ heq ▸ List.mem_append_right _ List.mem_cons_self
      have hquiet : (Note.dispatched y asked).engages = false := by
        rcases List.mem_append.mp hmem with hmem | hmem
        · exact hnone _ hmem
        · exact (hm _ hmem).1
      exact absurd (hremote.symm.trans hquiet) (by decide)
    · obtain rfl : r = r' := Option.some.inj (hr.symm.trans (hsame.trans hr'))
      exact hlog ▸ hover s.log
  | vacant hfree => exact absurd (hr.symm.trans hfree) (by rintro ⟨⟩)
  | pending _ _ _ _ hleased =>
    obtain rfl := Option.some.inj (hr.symm.trans hleased)
    cases htentative
  | @accepted x sent now since rest r' owner hrequested haccepted hrequest hleased =>
    obtain rfl := Option.some.inj (hr.symm.trans hleased)
    have hrequested' := hrequested.append (le_of_eq hnow.symm) hm
    rw [← hlog] at hrequested'
    obtain ⟨mid, hmid, hquiet⟩ := (haccepted.append m).history
    refine hrequested'.concluded ⟨mid, sent, now, rest ++ m, hmid, hquiet, .inr ⟨haccepted.code, r',
      hrequest, ?_⟩⟩
    -- who owns the reservation does not matter to what it matches
    exact hover rest

/-- The companion answers the request. -/
theorem replied (h : Engaged s₀ s) (htentative : RemoteLease.tentative s.radio.remote = true)
    (hasking : asking s.active = some (x.owner, x.command, x.descriptor))
    (hlog : t.log = s.log ++ m ++ .replied payload s.now :: rest)
    (hm : ∀ n ∈ m, n.modest = true ∧ n.starts = false) (hrest : ∀ n ∈ rest, n.modest = true)
    (hnow : t.now = s.now)
    (hanswer : (opcode payload = respErr ∧ t.radio.remote = none) ∨ (opcode payload = respSent ∧
      RemoteLease.accepted s.radio.remote payload s.now = .ok t.radio.remote)) :
    Engaged s₀ t := by
  have hmodest : ∀ n ∈ m ++ .replied payload s.now :: rest, n.modest = true := by
    intro n hn
    rcases List.mem_append.mp hn with hn | hn
    · exact (hm n hn).1
    · rcases List.mem_cons.mp hn with rfl | hn
      · rfl
      · exact hrest n hn
  cases h with
  | inherited _ _ hidle =>
    -- a request that waits has been dispatched
    exact absurd (hasking.symm.trans hidle) (by rintro ⟨⟩)
  | vacant hfree =>
    -- a request that waits has its reservation
    rw [hfree] at htentative
    cases htentative
  | accepted _ _ hrequest hleased =>
    -- an accepted reservation is not tentative any more
    rw [hleased] at htentative
    simp only [Transaction.request, Except.bind_eq_ok, Except.pure_eq_ok] at hrequest
    obtain ⟨_, -, rfl⟩ := hrequest
    cases htentative
  | @pending y since owner kind peer tag auth hrequested hsince hactive hclass hleased =>
    have hhistory : t.log = s.log ++ (m ++ .replied payload s.now :: rest) := by
      rw [hlog, List.append_assoc]
    have hnext := hrequested.modest (le_of_eq hnow.symm) hmodest
    rw [← hhistory] at hnext
    have hsplit : since ++ (m ++ .replied payload s.now :: rest)
        = (since ++ m) ++ .replied payload s.now :: rest := (List.append_assoc _ _ _).symm
    have hquiet : ∀ n ∈ since ++ m, n.starts = false := by
      intro n hn
      rcases List.mem_append.mp hn with hn | hn
      · exact hsince n hn
      · exact (hm n hn).2
    rcases hanswer with ⟨herr, hfree⟩ | ⟨hsent, haccept⟩
    · exact .vacant hfree (hnext.concluded ⟨_, payload, s.now, rest, hsplit, hquiet, .inl herr⟩)
    · obtain ⟨r, hr, -, hremote⟩ := RemoteLease.accepted_eq haccept
      obtain rfl := Option.some.inj (hleased.symm.trans hr)
      have hrequest : y.request payload s.now = .ok
          { owner := some y.owner
            kind := kind
            command := y.command
            deadline := some (LeaseTime.deadline s.now (u32At payload 6))
            peer := peer
            tag := if kind = .trace then tag else some (u32At payload 2)
            traceAuth := auth
            tentative := false } := by
        simp only [Transaction.request, hclass]
        rfl
      refine .accepted hnext ⟨hsent, _, hsplit, hquiet⟩ hrequest hremote fun n hn => ?_
      exact (Note.of_modest (hrest n hn)).2.1

end Engaged

/-- The internal inbox consumer makes no remote request. -/
theorem plain_of_pop {descriptor : CommandDescriptor}
    (h : Protocol.descriptor [cmdSyncNextMessage] = some descriptor) :
    descriptor.flags.remoteLease = false := by
  obtain ⟨hmem, hop⟩ := mem_descriptors h
  have table : ∀ d ∈ remoteTelemetry :: descriptors, d.opcode = opcode [cmdSyncNextMessage] →
      d.flags.remoteLease = false := by decide
  exact table descriptor hmem hop

/-! ### Orderly histories -/

theorem Unrivalled.of_quiet (hn : n.engages = false) : Unrivalled s₀ past n := by
  cases n with
  | dispatched x now => exact fun hremote => absurd (hremote.symm.trans hn) (by decide)
  | _ => trivial

theorem Orderly.append (h : Orderly s₀ l) (halone : Justified (Unrivalled s₀) (l ++ m))
    (hm : ∀ n ∈ m, n.results = false) : Orderly s₀ (l ++ m) := by
  refine ⟨halone, fun past frame future heq => ?_⟩
  rcases split_append heq with ⟨rest, hl, rfl⟩ | ⟨front, rfl, -⟩
  · obtain ⟨now, tail, rfl, hattributed⟩ := h.attributed past frame rest hl
    exact ⟨now, tail ++ m, rfl, hattributed⟩
  · have hquiet := hm _ (List.mem_append_right _ List.mem_cons_self)
    cases hquiet

theorem Orderly.quiet (h : Orderly s₀ l)
    (hm : ∀ n ∈ m, n.engages = false ∧ n.results = false) : Orderly s₀ (l ++ m) :=
  h.append (h.alone.append fun _ n hn => .of_quiet (hm n hn).1) fun n hn => (hm n hn).2

theorem Orderly.modest (h : Orderly s₀ l) (hm : ∀ n ∈ m, n.modest = true) :
    Orderly s₀ (l ++ m) :=
  h.quiet fun n hn => ⟨(Note.of_modest (hm n hn)).1, (Note.of_modest (hm n hn)).2.1⟩

/-- A result is delivered to whom it belongs. -/
theorem Orderly.result {frame : SendFrame} (h : Orderly s₀ l)
    (hattributed : Attributed l frame now) :
    Orderly s₀ (l ++ [.sent frame .leaseResult, .matched frame.payload now]) := by
  refine ⟨h.alone.append fun _ n hn => .of_quiet ?_, fun past frame' future heq => ?_⟩
  · simp only [List.mem_cons, List.not_mem_nil, or_false] at hn
    rcases hn with rfl | rfl <;> rfl
  rcases split_append heq with ⟨rest, hl, rfl⟩ | ⟨front, hfront, rfl⟩
  · obtain ⟨now', tail, rfl, hearlier⟩ := h.attributed past frame' rest hl
    exact ⟨now', _, rfl, hearlier⟩
  · cases front with
    | nil =>
      obtain ⟨hsame, rfl⟩ := List.cons.inj hfront
      obtain ⟨rfl, -⟩ := Note.sent.inj hsame
      exact ⟨now, [], rfl, by rwa [List.append_nil]⟩
    | cons n front =>
      -- only one entry follows the result, and it is no other result
      have hmem : Note.sent frame' .leaseResult ∈ [Note.matched frame.payload now] :=
        (List.cons.inj hfront).2 ▸ List.mem_append_right _ List.mem_cons_self
      cases List.mem_singleton.mp hmem

/-- A push that matches the lease answers the last request. -/
theorem Engaged.attributed {frame : SendFrame} (h : Engaged s₀ s)
    (hstart : LeaseOK [] s₀.radio.remote) (hr : s.radio.remote = some r)
    (htentative : r.tentative = false) (howner : r.owner = some frame.session)
    (hexpired : r.expired now = false)
    (hmatch : RemoteLease.matchesPush r frame.payload = .ok true)
    (hreceived : Broker.received s.log = some frame.payload) : Attributed s.log frame now := by
  cases h with
  | inherited _ hsame =>
    -- what is inherited is nobody's
    exact absurd (hstart.owner r _ (hsame.symm.trans hr) howner) List.not_mem_nil
  | vacant hfree => exact absurd (hr.symm.trans hfree) (by rintro ⟨⟩)
  | pending _ _ _ _ hleased =>
    obtain rfl := Option.some.inj (hr.symm.trans hleased)
    cases htentative
  | @accepted x sent accepted since rest r' owner hrequested haccepted hrequest hleased hrest =>
    obtain rfl := Option.some.inj (hr.symm.trans hleased)
    obtain ⟨past, asked, hlog, -⟩ := hrequested.history
    obtain ⟨hown, hparts⟩ : x.owner = frame.session ∧ ∀ n ∈ since, ¬ n.parts x.owner := by
      rcases hrequested.owner with ⟨hsome, hparts⟩ | ⟨hnone, -⟩
      · exact ⟨Option.some.inj (hsome.symm.trans howner), hparts⟩
      · exact absurd (hnone.symm.trans howner) (by rintro ⟨⟩)
    refine ⟨hreceived, past, x, asked, since, sent, accepted, rest, r', hlog, hrequested.remote,
      haccepted, hrequest, hown, hexpired, hmatch, fun n hn => ⟨hrequested.last n hn, ?_⟩, hrest⟩
    rw [← hown]
    exact hparts n hn

/-! ### The invariant -/

namespace Conducts

/-- Nothing happens that concerns remote requests. -/
theorem keep (h : Conducts s₀ s)
    (hadds : Adds (fun n => n.modest = true ∧ (n.starts = true → asking s.active = none)) s t)
    (hnow : s.now ≤ t.now) (hremote : t.radio.remote = s.radio.remote)
    (huncertain : t.radio.uncertainUntil = s.radio.uncertainUntil) (hfailed : t.failed = s.failed)
    (hasking : asking t.active = asking s.active) : Conducts s₀ t where
  orderly := by
    obtain ⟨notes, hlog, hnotes⟩ := hadds
    exact hlog ▸ h.orderly.modest fun n hn => (hnotes n hn).1
  quarantine := by
    intro hrunning deadline hdeadline
    rw [huncertain]
    exact (h.quarantine (hfailed.symm.trans hrunning) deadline hdeadline).imp_left (le_trans · hnow)
  engaged := fun hrunning =>
    (h.engaged (hfailed.symm.trans hrunning)).keep hadds hnow hremote hasking

/-- One entry is made, at which nothing is dispatched. -/
theorem note (h : Conducts s₀ s) (hn : n.modest = true) (hstarts : n.starts = false) :
    Conducts s₀ (s.note n) :=
  h.keep (.one rfl ⟨hn, fun hstarts' => absurd (hstarts'.symm.trans hstarts) (by decide)⟩) le_rfl
    rfl rfl rfl rfl

theorem gentle (h : Conducts s₀ s) (hst : Gentle s t) : Conducts s₀ t := by
  obtain ⟨seen, hradio⟩ := hst.radio
  refine h.keep (hst.adds.mono fun n hn => ?_) (le_of_eq hst.now.symm) (by rw [hradio])
    (by rw [hradio]) hst.failed (asking_core hst.core)
  obtain ⟨hmodest, hstarts⟩ := Note.modest_of_gentle hn
  exact ⟨hmodest, fun hstarts' => absurd (hstarts'.symm.trans hstarts) (by decide)⟩

/-- Somebody leaves, or is turned away. -/
theorem close (h : Conducts s₀ s) (hstart : LeaseOK [] s₀.radio.remote) {reason : Text}
    (hlog : t.log = s.log ++ [.closed id reason]) (hnow : t.now = s.now)
    (hremote : t.radio.remote = RemoteLease.ownerGone s.radio.remote id)
    (huncertain : t.radio.uncertainUntil = s.radio.uncertainUntil) (hfailed : t.failed = s.failed)
    (hactive : t.active = s.active) : Conducts s₀ t where
  orderly := by
    rw [hlog]
    refine h.orderly.quiet fun n hn => ?_
    rw [List.mem_singleton.mp hn]
    exact ⟨rfl, rfl⟩
  quarantine := by
    rw [hfailed, huncertain, hnow]
    exact h.quarantine
  engaged := fun hrunning =>
    (h.engaged (hfailed.symm.trans hrunning)).close hstart hlog hnow hremote (by rw [hactive])

theorem drop (h : Conducts s₀ s) (hstart : LeaseOK [] s₀.radio.remote) (session : Session)
    (reason : Text) : Conducts s₀ (s.drop id session reason) :=
  h.close hstart rfl rfl rfl rfl rfl rfl

theorem sheds (h : Conducts s₀ s) (hstart : LeaseOK [] s₀.radio.remote) (hst : Sheds s t) :
    Conducts s₀ t := by
  obtain ⟨u, hsu, rfl | ⟨id, session, reason, -, rfl⟩⟩ := hst
  · exact h.gentle hsu
  · exact (h.gentle hsu).drop hstart session reason

/-- Somebody is turned away who was never there. -/
theorem refuse (h : Conducts s₀ s) (hstart : LeaseOK [] s₀.radio.remote) (hwf : s.WF)
    (hgone : s.sessions.find? id = none) (reason : Text) :
    Conducts s₀ (s.note (.closed id reason)) := by
  refine h.close hstart rfl rfl ?_ rfl rfl rfl
  show s.radio.remote = _
  cases hr : s.radio.remote with
  | none => rfl
  | some r =>
    have hother : r.owner ≠ some id := fun howner =>
      OrdMap.find?_eq_none.mp hgone (hwf.lease.owner r id hr howner)
    simp [RemoteLease.ownerGone, hother]

theorem enter (h : Conducts s₀ s) (slotId : Option Nat) : Conducts s₀ (s.enter id slotId) :=
  h.keep (.enter ⟨rfl, by rintro ⟨⟩⟩ fun _ => ⟨rfl, by rintro ⟨⟩⟩) le_rfl rfl rfl rfl rfl

/-- The lease is given up. -/
theorem freed (h : Conducts s₀ s) (hr : s.radio.remote = some r) (htentative : r.tentative = false)
    (hlog : t.log = s.log ++ m) (hm : ∀ n ∈ m, n.modest = true) (hnow : t.now = s.now)
    (hremote : t.radio.remote = none) (huncertain : t.radio.uncertainUntil = s.radio.uncertainUntil)
    (hfailed : t.failed = s.failed) (hfreed : Freed r m t.now) : Conducts s₀ t where
  orderly := hlog ▸ h.orderly.modest hm
  quarantine := by
    rw [hfailed, huncertain, hnow]
    exact h.quarantine
  engaged := fun hrunning => .vacant hremote
    ((h.engaged (hfailed.symm.trans hrunning)).freed hr htentative hlog
      (fun n hn => (Note.of_modest (hm n hn)).imp_right And.right) hnow hfreed)

/-! #### The companion's side -/

theorem sendUp (h : Conducts s₀ s) (frame : Bytes) (hasking : asking (some x) = asking s.active) :
    Conducts s₀ (s.sendUp frame x) :=
  h.keep (.one rfl ⟨rfl, by rintro ⟨⟩⟩) le_rfl rfl rfl rfl hasking

/-- A command goes upstream that is no remote request. -/
theorem claim (h : Conducts s₀ s) (hidle : asking s.active = none)
    (hflag : x.descriptor.flags.remoteLease = false) (signing : SigningLease) :
    Conducts s₀ (s.claim x s.radio signing) := by
  refine h.keep (.one rfl ⟨?_, fun _ => hidle⟩) le_rfl rfl rfl rfl ?_
  · simpa [Note.modest] using hflag
  · rw [hidle]
    exact asking_of_plain hflag

/-- A remote request goes upstream. Nothing else is under way, since nothing is reserved. -/
theorem engage {command : Bytes} (h : Conducts s₀ s) (hrunning : s.failed = false)
    (hfree : s.radio.remote = none) (huncertain : s.radio.uncertainUntil = none)
    (hr : RemoteLease.reserve s.radio.remote id command s.now = .ok (true, some r))
    (howner : x.owner = id) (hcommand : x.command = command)
    (hflag : x.descriptor.flags.remoteLease = true) (hstep : x.step.unanswered = true)
    (signing : SigningLease) :
    Conducts s₀ (s.claim x { s.radio with remote := some r } signing) := by
  subst howner hcommand
  have hvacant := (h.engaged hrunning).vacant_of_free hfree
  have hover : ∀ deadline, s₀.radio.uncertainUntil = some deadline → deadline ≤ s.now := by
    intro deadline hdeadline
    refine (h.quarantine hrunning deadline hdeadline).resolve_right fun hclosed => ?_
    exact absurd (hclosed.symm.trans huncertain) (by rintro ⟨⟩)
  refine ⟨?_, fun _ deadline hdeadline => .inl (hover deadline hdeadline), fun _ => ?_⟩
  · show Orderly s₀ (s.log ++ [.dispatched x s.now])
    refine h.orderly.append (h.orderly.alone.snoc fun _ => ⟨hvacant, hover⟩) fun n hn => ?_
    rw [List.mem_singleton.mp hn]
    rfl
  · obtain ⟨-, kind, peer, tag, auth, hclass, hlease⟩ := RemoteLease.reserve_eq hr
    have hrequested : Requested s₀ (s.log ++ [.dispatched x s.now]) s.now x [] (some x.owner) :=
      ⟨hflag, ⟨s.log, s.now, rfl, hvacant⟩, .inl ⟨rfl, by simp⟩, by simp⟩
    exact .pending hrequested (by simp) (asking_of_remote hflag hstep) hclass hlease

/-- An answer of the companion ends the active command. -/
theorem answer {w : Option Nat} (h : Conducts s₀ s) (hwf : s.WF) (hx : s.active = some x)
    (hstep : x.step.unanswered = true) (ht : s.Forwarded x payload w t)
    (hlog : u.log = t.log ++ .replied payload s.now :: rest)
    (hrest : ∀ n ∈ rest, n.modest = true ∧ n.starts = false) (hnow : u.now = s.now)
    (hfailed : u.failed = s.failed) (hdone : asking u.active = none)
    (huncertain : u.radio.uncertainUntil = s.radio.uncertainUntil)
    (hremote : (x.descriptor.flags.remoteLease = false ∧ u.radio.remote = s.radio.remote) ∨
      (x.descriptor.flags.remoteLease = true ∧
        ((opcode payload = respErr ∧ u.radio.remote = none) ∨ (opcode payload = respSent ∧
          RemoteLease.accepted s.radio.remote payload s.now = .ok u.radio.remote)))) :
    Conducts s₀ u := by
  obtain ⟨m, hm, hnotes⟩ := (Gentle.forwarded ht).adds
  have hnotes : ∀ n ∈ m, n.modest = true ∧ n.starts = false := fun n hn =>
    Note.modest_of_gentle (hnotes n hn)
  have hall : ∀ n ∈ m ++ .replied payload s.now :: rest, n.modest = true ∧ n.starts = false := by
    intro n hn
    rcases List.mem_append.mp hn with hn | hn
    · exact hnotes n hn
    · rcases List.mem_cons.mp hn with rfl | hn
      · exact ⟨rfl, rfl⟩
      · exact hrest n hn
  rw [hm] at hlog
  have hhistory : u.log = s.log ++ (m ++ .replied payload s.now :: rest) := by
    rw [hlog, List.append_assoc]
  rcases hremote with ⟨hflag, hsame⟩ | ⟨hflag, hanswer⟩
  · -- the command was no remote request, and the lease is as it was
    refine h.keep ⟨_, hhistory, fun n hn => ⟨(hall n hn).1, fun hstarts => ?_⟩⟩
      (le_of_eq hnow.symm) hsame huncertain hfailed ?_
    · exact absurd (hstarts.symm.trans (hall n hn).2) (by decide)
    · rw [hdone, hx, asking_of_plain hflag]
  · -- the lease follows the answer
    refine ⟨?_, ?_, fun hrunning => ?_⟩
    · rw [hhistory]
      exact h.orderly.modest fun n hn => (hall n hn).1
    · rw [hfailed, huncertain, hnow]
      exact h.quarantine
    · have hasking : asking s.active = some (x.owner, x.command, x.descriptor) := by
        rw [hx]
        exact asking_of_remote hflag hstep
      exact (h.engaged (hfailed.symm.trans hrunning)).replied ((hwf.active x hx).lease hflag hstep)
        hasking hlog hnotes (fun n hn => (hrest n hn).1) hnow hanswer

end Conducts

/-- A remote request is accepted with `SENT`, or refused. -/
theorem Replied.sent_or_err {started : Bool} (h : s.Replied x payload .complete started)
    (hdescriptor : Protocol.descriptor x.command = some x.descriptor)
    (hflag : x.descriptor.flags.remoteLease = true) :
    opcode payload = respErr ∨ opcode payload = respSent := by
  by_cases herr : opcode payload = respErr
  · exact .inl herr
  · obtain ⟨hmem, -⟩ := mem_descriptors hdescriptor
    have hcode := (validateResponse_eq_ok h.valid herr).1
    have table : ∀ d ∈ remoteTelemetry :: descriptors, d.flags.remoteLease = true →
        d.successCodes = [respSent] := by decide
    rw [table _ hmem hflag] at hcode
    exact .inr (List.mem_singleton.mp hcode)

/-- What the end of a command does to the lease of remote requests. -/
theorem Accepts.remote {now : Time} {radio radio' : CompanionRadioState}
    {signing signing' : SigningLease} (ha : Accepts x payload now radio signing radio' signing')
    (hdescriptor : Protocol.descriptor x.command = some x.descriptor) :
    radio'.uncertainUntil = radio.uncertainUntil ∧
      ((x.descriptor.flags.remoteLease = false ∧ radio'.remote = radio.remote) ∨
        (x.descriptor.flags.remoteLease = true ∧
          ((opcode payload ≠ respSent ∧ radio'.remote = none) ∨ (opcode payload = respSent ∧
            RemoteLease.accepted radio.remote payload now = .ok radio'.remote)))) := by
  obtain ⟨-, hleased⟩ := flags_disjoint hdescriptor
  have hsigns : opcode x.command ∈ [cmdSignStart, cmdSignData, cmdSignFinish] →
      x.descriptor.flags.remoteLease = false := fun hop =>
    Bool.eq_false_iff.mpr fun hflag => (hleased hflag).2 hop
  cases ha with
  | dm hdm =>
    refine ⟨rfl, .inl ⟨Bool.eq_false_iff.mpr fun hflag => ?_, rfl⟩⟩
    exact (hleased hflag).1 (opcode_of_plainDm hdm)
  | lease hflag hcode haccept => exact ⟨rfl, .inr ⟨hflag, .inr ⟨hcode, haccept⟩⟩⟩
  | leaseRejected hflag hcode => exact ⟨rfl, .inr ⟨hflag, .inl ⟨hcode, rfl⟩⟩⟩
  | signStart hop | signRejected hop | signData hop | signFinish hop =>
    exact ⟨rfl, .inl ⟨hsigns (by rw [hop]; decide), rfl⟩⟩
  | plain _ hflag => exact ⟨rfl, .inl ⟨hflag, rfl⟩⟩

namespace Conducts

/-- The active command has been answered. -/
theorem completes {w : Option Nat} {started : Bool} {radio : CompanionRadioState}
    {signing : SigningLease} (h : Conducts s₀ s) (hwf : s.WF)
    (hreplied : s.Replied x payload .complete started) (ht : s.Forwarded x payload w t)
    (haccept : acceptance x payload s.now s.radio s.signing = .ok (radio, signing))
    (hlog : u.log = t.log ++ .replied payload s.now :: rest)
    (hrest : ∀ n ∈ rest, n.modest = true ∧ n.starts = false) (hnow : u.now = s.now)
    (hradio : u.radio = radio) (hfailed : u.failed = s.failed) (hdone : asking u.active = none) :
    Conducts s₀ u := by
  have hdescriptor := (hwf.active x hreplied.active).shape.descriptor
  obtain ⟨huncertain, hremote⟩ := (acceptance_eq haccept).remote hdescriptor
  subst hradio
  refine h.answer hwf hreplied.active (by rw [hreplied.step]; rfl) ht hlog hrest hnow hfailed hdone
    huncertain (hremote.imp_right fun ⟨hflag, hanswer⟩ => ⟨hflag, hanswer.imp_left ?_⟩)
  rintro ⟨hcode, hfree⟩
  exact ⟨(hreplied.sent_or_err hdescriptor hflag).resolve_right hcode, hfree⟩

theorem upstream (h : Conducts s₀ s) (hwf : s.WF) (hst : Upstream s t) : Conducts s₀ t := by
  cases hst with
  | popDispatched hrunning hidle hrequested hsessions hdescriptor htransaction =>
    subst htransaction
    have hpopping : Conducts s₀
        { s with drainRequested := false, popSequence := s.popSequence + 1 } :=
      h.keep (.refl rfl) le_rfl rfl rfl rfl rfl
    have hasking : asking s.active = none := by rw [hidle]; rfl
    exact (hpopping.claim hasking (plain_of_pop hdescriptor) s.signing).sendUp _ rfl
  | @dispatched id session command descriptor radio signing _ frame hidle hhead hforward hdescriptor
      hreserves htransaction =>
    subst htransaction
    have htaken : Conducts s₀ (s.take id command) := h.gentle .take
    have hasking : asking (s.take id command).active = none := by
      show asking s.active = none
      rw [hidle]
      rfl
    obtain ⟨hmaintenance, hleased⟩ := flags_disjoint hdescriptor
    cases hreserves with
    | maintenance hflag =>
      exact (htaken.claim hasking (hmaintenance hflag).2.1 _).sendUp _ rfl
    | dm hdm =>
      refine (htaken.claim hasking (Bool.eq_false_iff.mpr fun hflag => ?_) _).sendUp _ rfl
      exact (hleased hflag).1 (opcode_of_plainDm hdm)
    | lease _ hflag hquarantine hremote hr =>
      refine (htaken.engage hhead.running hremote hquarantine hr (by rfl) (by rfl) hflag ?_
        _).sendUp _ rfl
      show (if _ then Transaction.Step.setup else .command).unanswered = true
      split <;> rfl
    | signing _ hflag | plain _ hflag =>
      exact (htaken.claim hasking hflag _).sendUp _ rfl
  | @setupRejected t x payload w hx _ hstep _ _ herr ht =>
    obtain ⟨hfailed, -, hnow, -, -, -⟩ := ht.frame
    refine h.answer hwf hx (by rw [hstep]; rfl) ht rfl (by simp) hnow hfailed rfl ?_ ?_
    · show (if x.descriptor.flags.remoteLease = true then _ else s.radio).uncertainUntil = _
      split <;> rfl
    · cases hflag : x.descriptor.flags.remoteLease with
      | false => exact .inl ⟨rfl, by simp [Broker.release, Broker.note]⟩
      | true => exact .inr ⟨rfl, .inl ⟨herr, by simp [Broker.release, Broker.note]⟩⟩
  | @setupAccepted x frame hx _ hstep =>
    have hheard : Conducts s₀ (s.note (.replied [respOk] s.now)) := h.note rfl rfl
    refine hheard.sendUp frame ?_
    show asking (some _) = asking s.active
    rw [hx]
    simp [asking, hstep, Transaction.Step.unanswered]
  | @restored x hx _ hstep =>
    refine h.keep (.one rfl ⟨rfl, by rintro ⟨⟩⟩) le_rfl rfl rfl rfl ?_
    rw [hx, asking_of_answered (by rw [hstep]; rfl)]
    rfl
  | progressed hreplied ht =>
    refine (h.gentle (.forwarded ht)).keep (.one rfl ⟨rfl, by rintro ⟨⟩⟩) le_rfl rfl rfl rfl ?_
    rw [ht.frame.2.1, hreplied.active]
    rfl
  | scopedReply hreplied ht haccept =>
    obtain ⟨hfailed, -, hnow, -, -, -⟩ := ht.frame
    refine h.completes hwf hreplied ht haccept (List.append_assoc _ _ _) ?_ hnow rfl hfailed
      (asking_of_answered rfl)
    intro n hn
    rw [List.mem_singleton.mp hn]
    exact ⟨rfl, rfl⟩
  | heldReply hreplied ht haccept =>
    obtain ⟨hfailed, -, hnow, -, -, -⟩ := ht.frame
    exact h.completes hwf hreplied ht haccept rfl (by simp) hnow rfl hfailed
      (asking_of_answered rfl)
  | finalReply hreplied ht haccept =>
    obtain ⟨hfailed, -, hnow, -, -, -⟩ := ht.frame
    exact h.completes hwf hreplied ht haccept rfl (by simp) hnow rfl hfailed rfl

end Conducts

/-- A login at a node whose key starts with `peer`. -/
def login (peer : UInt8) : Bytes := cmdSendLogin :: List.replicate 32 peer

end Broker

end MeshCoreTCPMux

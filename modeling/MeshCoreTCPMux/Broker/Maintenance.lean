import MeshCoreTCPMux.Broker.Ended
import MeshCoreTCPMux.Broker.Exchange
import MeshCoreTCPMux.Broker.Overflow

/-!
# Maintenance

A maintenance command has the companion for itself: the two that change what the other clients rely
on are dispatched for a client that is alone, and after any of them nothing goes upstream and nobody
joins. Its result is delivered before the epoch ends: the epoch ends as soon as the write of the
result has completed, or its owner is gone, and not by itself before (`maintenance_exclusive`).
-/

namespace MeshCoreTCPMux

open Protocol Program Relation History

/-- A maintenance command goes upstream. -/
def Note.maintains (n : Note) : Prop :=
  ∃ frame x, n = .upstream frame x ∧ x.descriptor.flags.maintenance = true

/-- An entry that concerns no maintenance command. -/
def Note.everyday : Note → Bool
  | upstream _ _ | replied _ _ | dispatched _ _ | admitted _ _ | ended _ _ => false
  | _ => true

namespace Broker

variable {s s₀ t u : Broker} {l m : List Note} {n : Note}

/-! ### What a history shows -/

/-- A maintenance command has gone upstream. -/
def Sealed (log : List Note) : Prop := Occurs (fun _ n => n.maintains) log

/-- The reply of a maintenance command is complete. -/
def Completes (past : List Note) (n : Note) : Prop :=
  ∃ payload now o, n = .replied payload now ∧ outstanding past = some o ∧
    o.transaction.descriptor.flags.maintenance = true ∧ o.transaction.finishedBy payload = true

/-- The reply of a maintenance command is complete, and `owner` is sent it by the write `w`. -/
def Reports (owner w : Nat) (past : List Note) (n : Note) : Prop :=
  Completes past n ∧ ∃ frame, heard past = [frame] ∧ frame.session = owner ∧ frame.writeId = w

/-- There is but one client, and nothing of the companion's state is reserved. -/
structure Alone (s : Broker) (id : Nat) : Prop where
  sessions : s.sessions.keys = [id]
  quarantine : s.radio.uncertainUntil = none
  remote : s.radio.remote = none
  signing : s.signing.operation = none
  ring : s.radio.dmRing.pendingCount s.now = 0

/-- The current call breaks the connection to the companion. -/
inductive Breaks : Option Event → Prop
  | requested (reason : Text) : Breaks (some (.failEpoch reason))
  | unwritable (epoch : Nat) (reason : Text) (now : Time) :
      Breaks (some (.writeFailed 0 epoch reason now))
  | misfit {payload : Bytes} (now : Time) (h : Misfit payload) :
      Breaks (some (.upstreamFrame payload now))

/-- The session `owner` has left for a reason of its own. -/
def Departed (s₀ : Broker) (past : List Note) (owner : Nat) : Prop :=
  ∃ u session reason after, Reached s₀ u ∧ u.sessions.find? owner = some session ∧
    u.Departs owner session reason ∧ past = u.log ++ .closed owner reason :: after

/-- An entry may stand in a history. The commands that import a key and reset the companion are
dispatched for a client that is alone. After a maintenance command nothing goes upstream and nobody
joins. When its result has been sent, the epoch ends because that write has completed, because the
owner is gone, or because the connection to the companion breaks. -/
def Exclusive (s₀ : Broker) (past : List Note) : Note → Prop
  | .dispatched x _ => opcode x.command = cmdImportPrivateKey ∨ opcode x.command = cmdFactoryReset →
      ∃ u command, Reached s₀ u ∧ past = u.log ++ [.taken x.owner command] ∧ u.Alone x.owner
  | .upstream _ _ | .admitted _ _ => ¬ Sealed past
  | .ended epoch _ => ∀ owner w, Occurs (Reports owner w) past →
      (∃ now, current past = some (.written owner epoch w now)) ∨ Departed s₀ past owner ∨
        Breaks (current past)
  | _ => True

/-- A maintenance command is under way until the epoch ends, and its result is being written to its
owner once it is complete. -/
structure Maintained (s₀ s : Broker) : Prop where
  justified : Justified (Exclusive s₀) s.log
  sealed : Sealed s.log → s.failed = true ∨ ∃ x, s.active = some x ∧ x.maintenance = true
  completed : Occurs Completes s.log → s.failed = true ∨
    ∃ x, s.active = some x ∧ x.step = .maintenanceResult
  delivered : ∀ owner w, Occurs (Reports owner w) s.log → s.failed = true ∨
    ∃ x, s.active = some x ∧ x.step = .maintenanceResult ∧ x.owner = owner ∧
      x.maintenanceWriteId = some w
  result : ∀ x, s.active = some x → x.step = .maintenanceResult →
    x.owner ∈ s.sessions.keys ∧
      ∃ w, x.maintenanceWriteId = some w ∧ Occurs (Reports x.owner w) s.log

theorem not_maintains_of_everyday (hn : n.everyday = true ∨ ∃ i k, n = .admitted i k) :
    ¬ n.maintains := by
  rintro ⟨frame, x, rfl, -⟩
  rcases hn with hn | ⟨_, _, hn⟩ <;> cases hn

theorem not_completes_of_everyday (hn : n.everyday = true ∨ ∃ i k, n = .admitted i k) :
    ¬ Completes l n := by
  rintro ⟨payload, now, o, rfl, -⟩
  rcases hn with hn | ⟨_, _, hn⟩ <;> cases hn

namespace Maintained

/-- Nothing concerns the maintenance command, and its owner stays. -/
theorem keep (hs : Maintained s₀ s)
    (h : Calm (fun n => n.everyday = true ∨ ((∃ i k, n = .admitted i k) ∧ ¬ Sealed s.log)) s t)
    (hlive : ∀ x, s.active = some x → x.step = .maintenanceResult →
      x.owner ∈ s.sessions.keys → x.owner ∈ t.sessions.keys) : Maintained s₀ t := by
  obtain ⟨notes, hlog, hadds⟩ := h.adds
  have hnotes : ∀ n ∈ notes, n.everyday = true ∨ ∃ i k, n = .admitted i k := fun n hn =>
    (hadds n hn).imp id And.left
  have hsealed : Sealed t.log ↔ Sealed s.log := by
    rw [hlog]
    exact occurs_append fun _ n hn => not_maintains_of_everyday (hnotes n hn)
  have hcompleted : Occurs Completes t.log ↔ Occurs Completes s.log := by
    rw [hlog]
    exact occurs_append fun _ n hn => not_completes_of_everyday (hnotes n hn)
  have hreported : ∀ owner w, Occurs (Reports owner w) t.log ↔ Occurs (Reports owner w) s.log := by
    intro owner w
    rw [hlog]
    exact occurs_append fun _ n hn hreports => not_completes_of_everyday (hnotes n hn) hreports.1
  -- an active transaction corresponds to one that is about the same
  have hthere : ∀ y, t.active = some y → ∃ x, s.active = some x ∧ x.core = y.core := by
    intro y hy
    have hcore := h.core
    rw [hy] at hcore
    exact Option.map_eq_some_iff.mp hcore.symm
  have hhere : ∀ x, s.active = some x → ∃ y, t.active = some y ∧ y.core = x.core := by
    intro x hx
    have hcore := h.core
    rw [hx] at hcore
    exact Option.map_eq_some_iff.mp hcore
  refine ⟨?_, fun ht => ?_, fun ht => ?_, fun owner w ht => ?_, fun y hy hstep => ?_⟩
  · rw [hlog]
    refine hs.justified.extend fun front n back heq => ?_
    have hn := hadds n (heq ▸ List.mem_append_right _ List.mem_cons_self)
    rcases hn with hn | ⟨⟨i, k, rfl⟩, hnot⟩
    · cases n with
      | upstream | dispatched | admitted | ended => cases hn
      | _ => trivial
    · refine fun hsealed => hnot ((occurs_append fun _ n hn => ?_).mp hsealed)
      exact not_maintains_of_everyday (hnotes n (heq ▸ List.mem_append_left _ hn))
  · rw [h.failed]
    refine (hs.sealed (hsealed.mp ht)).imp id fun ⟨x, hx, hmaintenance⟩ => ?_
    obtain ⟨y, hy, hcore⟩ := hhere x hx
    exact ⟨y, hy, (congrArg Transaction.maintenance hcore :).trans hmaintenance⟩
  · rw [h.failed]
    refine (hs.completed (hcompleted.mp ht)).imp id fun ⟨x, hx, hstep⟩ => ?_
    obtain ⟨y, hy, hcore⟩ := hhere x hx
    exact ⟨y, hy, (congrArg Transaction.step hcore :).trans hstep⟩
  · rw [h.failed]
    refine (hs.delivered owner w ((hreported owner w).mp ht)).imp id
      fun ⟨x, hx, hstep, howner, hwrite⟩ => ?_
    obtain ⟨y, hy, hcore⟩ := hhere x hx
    exact ⟨y, hy, (congrArg Transaction.step hcore :).trans hstep,
      (congrArg Transaction.owner hcore :).trans howner,
      (congrArg Transaction.maintenanceWriteId hcore :).trans hwrite⟩
  · obtain ⟨x, hx, hcore⟩ := hthere y hy
    have hstep' : x.step = .maintenanceResult := (congrArg Transaction.step hcore :).trans hstep
    have howner : x.owner = y.owner := (congrArg Transaction.owner hcore :)
    have hwrite : x.maintenanceWriteId = y.maintenanceWriteId :=
      (congrArg Transaction.maintenanceWriteId hcore :)
    obtain ⟨hpresent, w, hw, hreports⟩ := hs.result x hx hstep'
    rw [← howner, ← hwrite]
    exact ⟨hlive x hx hstep' hpresent, w, hw, (hreported _ _).mpr hreports⟩

/-- While no maintenance command is under way none has been dispatched. -/
theorem unsealed (hs : Maintained s₀ s) (hrunning : s.failed = false)
    (hplain : ∀ x, s.active = some x → x.maintenance = false) (hwf : s.WF) :
    ¬ Sealed s.log ∧ ¬ Occurs Completes s.log := by
  refine ⟨fun h => ?_, fun h => ?_⟩
  · rcases hs.sealed h with hfailed | ⟨x, hx, hmaintenance⟩
    · simp [hrunning] at hfailed
    · simp [hplain x hx] at hmaintenance
  · rcases hs.completed h with hfailed | ⟨x, hx, hstep⟩
    · simp [hrunning] at hfailed
    · have hmaintenance := (hwf.active x hx).result hstep
      simp [hplain x hx] at hmaintenance

/-- Nothing has been completed: there is nothing to deliver. -/
theorem of_unsealed (hjustified : Justified (Exclusive s₀) t.log) (hcompleted : ¬ Occurs Completes t.log)
    (hsealed : Sealed t.log → s.failed = true ∨ ∃ x, t.active = some x ∧ x.maintenance = true)
    (hstep : ∀ x, t.active = some x → x.step ≠ .maintenanceResult) (hfailed : t.failed = s.failed) :
    Maintained s₀ t where
  justified := hjustified
  sealed := hfailed ▸ hsealed
  completed := fun h => absurd h hcompleted
  delivered := fun _ _ ⟨past, n, future, heq, h⟩ =>
    absurd ⟨past, n, future, heq, h.1⟩ hcompleted
  result := fun x hx h => absurd h (hstep x hx)

/-- A transaction is dispatched when none is active. -/
theorem dispatch (hs : Maintained s₀ s) (hwf : s.WF) (hrunning : s.failed = false)
    (hidle : s.active = none) {x : Transaction} (hstep : x.step ≠ .maintenanceResult)
    (hmaintenance : x.maintenance = x.descriptor.flags.maintenance)
    (hjustified : Justified (Exclusive s₀) t.log)
    (hadds : Adds (fun n => (∃ i c, n = .taken i c) ∨ ∃ y now, n = .dispatched y now) s t)
    (hfailed : t.failed = s.failed) (frame : Bytes) : Maintained s₀ (t.sendUp frame x) := by
  obtain ⟨hsealed, hcompleted⟩ := hs.unsealed hrunning (by simp [hidle]) hwf
  obtain ⟨notes, hlog, hnotes⟩ := hadds
  have hsealed' : ¬ Sealed t.log := by
    rw [hlog]
    refine fun h => hsealed ((occurs_append fun _ n hn => ?_).mp h)
    rintro ⟨frame, x, rfl, -⟩
    rcases hnotes _ hn with ⟨_, _, hn⟩ | ⟨_, _, hn⟩ <;> cases hn
  have hcompleted' : ¬ Occurs Completes t.log := by
    rw [hlog]
    refine fun h => hcompleted ((occurs_append fun _ n hn => ?_).mp h)
    rintro ⟨payload, now, o, rfl, -⟩
    rcases hnotes _ hn with ⟨_, _, hn⟩ | ⟨_, _, hn⟩ <;> cases hn
  refine of_unsealed (s := s) (hjustified.snoc hsealed') ?_ (fun h => .inr ⟨_, rfl, ?_⟩)
    (fun y hy => ?_) hfailed
  · refine fun h => hcompleted' ((occurs_snoc.mp h).resolve_right ?_)
    rintro ⟨payload, now, o, heq, -⟩
    cases heq
  · refine hmaintenance.trans ?_
    obtain ⟨frame', y, heq, hflag⟩ := (occurs_snoc.mp h).resolve_left hsealed'
    cases heq
    exact hflag
  · obtain rfl := Option.some.inj hy
    exact hstep

/-- A reply completes a maintenance command when it is the last one of it. -/
theorem completes_iff (hK : Reached s₀ s) {x : Transaction} {payload : Bytes} {now : Time}
    (hactive : s.active = some x) (hstep : x.step ≠ .maintenanceResult)
    (hadds : Adds (fun n => ∃ f, n = .sent f .reply) s u) :
    Completes u.log (.replied payload now) ↔
      x.maintenance = true ∧ x.finishedBy payload = true := by
  obtain ⟨o, ho, hcore⟩ := hK.exchanging.waiting (hK.wf.running hactive) hactive hstep
  obtain ⟨notes, hlog, hnotes⟩ := hadds
  have hlast : outstanding u.log = some o := by
    rw [hlog, outstanding_unwrapped fun n hn => ?_, ho]
    obtain ⟨f, rfl⟩ := hnotes n hn
    rfl
  have hflag : o.transaction.descriptor = x.descriptor :=
    (congrArg Transaction.descriptor hcore :)
  constructor
  · rintro ⟨payload', now', o', heq, ho', hmaintenance, hfinished⟩
    cases heq
    obtain rfl := Option.some.inj (hlast.symm.trans ho')
    rw [(hK.wf.active x hactive).maintenance, ← hflag, ← Transaction.finishedBy_congr hcore]
    exact ⟨hmaintenance, hfinished⟩
  · rintro ⟨hmaintenance, hfinished⟩
    refine ⟨payload, now, o, rfl, hlast, ?_, ?_⟩
    · rw [hflag, ← (hK.wf.active x hactive).maintenance]
      exact hmaintenance
    · rw [Transaction.finishedBy_congr hcore]
      exact hfinished

/-- The reply of any other command is taken. -/
theorem ordinary (hs : Maintained s₀ s) (hK : Reached s₀ s) {x : Transaction} {payload : Bytes}
    {now : Time} {m : List Note} (hactive : s.active = some x) (hplain : x.maintenance = false)
    (hadds : Adds (fun n => ∃ f, n = .sent f .reply) s u)
    (hlog : t.log = u.log ++ [.replied payload now] ++ m)
    (hrest : ∀ n ∈ m, ∃ frame y, n = .upstream frame y ∧ y.descriptor = x.descriptor)
    (hnext : ∀ y, t.active = some y → y.step ≠ .maintenanceResult)
    (hfailed : t.failed = s.failed) : Maintained s₀ t := by
  have hwf := hK.wf
  have hrunning := hwf.running hactive
  have hrun := hwf.active x hactive
  have hstep : x.step ≠ .maintenanceResult := fun hstep => by
    simp [hrun.result hstep] at hplain
  obtain ⟨hsealed, hcompleted⟩ := hs.unsealed hrunning (fun y hy => by
    obtain rfl := Option.some.inj (hactive.symm.trans hy)
    exact hplain) hwf
  have hreply : Completes u.log (.replied payload now) ↔
      x.maintenance = true ∧ x.finishedBy payload = true :=
    completes_iff hK hactive hstep hadds
  obtain ⟨notes, hulog, hnotes⟩ := hadds
  have hquiet : ∀ n ∈ notes ++ [.replied payload now], ¬ n.maintains := by
    rintro _ hn ⟨frame, y, rfl, -⟩
    rcases List.mem_append.mp hn with hn | hn
    · obtain ⟨_, hn⟩ := hnotes _ hn
      cases hn
    · cases List.mem_singleton.mp hn
  have hmild : ∀ n ∈ m, ¬ n.maintains := by
    rintro _ hn ⟨frame, y, rfl, hflag⟩
    obtain ⟨_, _, heq, hdescriptor⟩ := hrest _ hn
    cases heq
    rw [hdescriptor, ← hrun.maintenance, hplain] at hflag
    cases hflag
  have hbefore : ¬ Sealed (u.log ++ [.replied payload now]) := by
    rw [hulog, List.append_assoc]
    exact fun h => hsealed ((occurs_append fun _ n hn => hquiet n hn).mp h)
  have hdone : ¬ Occurs Completes (u.log ++ [.replied payload now]) := by
    refine fun h => (occurs_snoc.mp h).elim (fun h => ?_) fun h => ?_
    · rw [hulog] at h
      refine hcompleted ((occurs_append fun _ n hn => ?_).mp h)
      rintro ⟨payload, now, o, rfl, -⟩
      obtain ⟨_, hn⟩ := hnotes _ hn
      cases hn
    · simp [hplain] at hreply
      exact hreply h
  refine of_unsealed (s := s) ?_ ?_ (fun h => ?_) hnext hfailed
  · rw [hlog]
    refine Justified.extend ?_ fun front n back heq => ?_
    · refine Justified.snoc ?_ trivial
      rw [hulog]
      refine hs.justified.append fun past n hn => ?_
      obtain ⟨f, rfl⟩ := hnotes n hn
      trivial
    · obtain ⟨frame, y, rfl, -⟩ := hrest n (heq ▸ List.mem_append_right _ List.mem_cons_self)
      refine fun h => hbefore ((occurs_append fun _ n hn => ?_).mp h)
      exact hmild n (heq ▸ List.mem_append_left _ hn)
  · rw [hlog]
    refine fun h => hdone ((occurs_append fun _ n hn => ?_).mp h)
    rintro ⟨payload, now, o, rfl, -⟩
    obtain ⟨_, _, hn, -⟩ := hrest _ hn
    cases hn
  · rw [hlog] at h
    exact absurd ((occurs_append fun _ n hn => hmild n hn).mp h) hbefore

/-- A command that takes a scope, or is answered by a stream, is no maintenance command. -/
theorem plain_of_scoped (hwf : s.WF) {x : Transaction} (hactive : s.active = some x)
    (h : x.isScoped = true ∨ x.descriptor.grammar = .contacts) : x.maintenance = false := by
  have hrun := hwf.active x hactive
  have table : ∀ d ∈ remoteTelemetry :: descriptors, d.flags.maintenance = true →
      d.flags.scopeSend = false ∧ d.grammar ≠ .contacts := by decide
  rw [hrun.maintenance]
  refine Bool.eq_false_iff.mpr fun hmaintenance => ?_
  obtain ⟨hscope, hgrammar⟩ := table _ (mem_descriptors hrun.shape.descriptor).1 hmaintenance
  rcases h with h | h
  · simp [hrun.flagged h] at hscope
  · exact hgrammar h

/-- The commands that change the companion for all are dispatched for a client that is alone. -/
theorem alone {id : Nat} {session : Session} {command : Command} {descriptor : CommandDescriptor}
    {radio : CompanionRadioState} {signing : SigningLease} (hlive : s.sessions.find? id = some session)
    (hdescriptor : Protocol.descriptor command.payload = some descriptor)
    (hreserves : s.Reserves id command.payload descriptor radio signing)
    (hop : opcode command.payload = cmdImportPrivateKey ∨ opcode command.payload = cmdFactoryReset) :
    s.Alone id := by
  obtain ⟨hmem, hcode⟩ := mem_descriptors hdescriptor
  have table : ∀ d ∈ remoteTelemetry :: descriptors,
      d.opcode = cmdImportPrivateKey ∨ d.opcode = cmdFactoryReset →
        d.flags.maintenance = true ∧ d.flags.remoteLease = false := by decide
  obtain ⟨hmaintenance, hlease⟩ := table _ hmem (hcode ▸ hop)
  cases hreserves with
  | maintenance _ _ hsize hquarantine hremote hring hsigning =>
    refine ⟨?_, hquarantine, hremote, hsigning, hring⟩
    have hmem := OrdMap.mem_keys_of_find? hlive
    rw [← OrdMap.length_keys] at hsize
    obtain ⟨i, hkeys⟩ := List.length_eq_one_iff.mp hsize
    rw [hkeys, List.mem_singleton] at hmem
    rw [hkeys, hmem]
  | dm hdm =>
    have hsend := opcode_of_plainDm hdm
    rcases hop with hop | hop <;> exact absurd (hsend.symm.trans hop) (by decide)
  | lease _ hflag => simp [hlease] at hflag
  | signing _ _ h =>
    rcases h with ⟨h, -⟩ | ⟨h, -⟩ | ⟨h, -⟩ <;> rcases hop with hop | hop <;>
      exact absurd (h.symm.trans hop) (by decide)
  | plain _ _ _ hreboot =>
    have hother := hreboot hmaintenance
    rcases hop with hop | hop <;> exact absurd (hother.symm.trans hop) (by decide)

/-- The result of a maintenance command is written to its owner. -/
theorem held (hs : Maintained s₀ s) (hK : Reached s₀ s) {x y : Transaction} {payload : Bytes}
    {started : Bool} {w : Nat} (h : s.Replied x payload .complete started)
    (ht : s.Forwarded x payload (some w) u) (hmaintenance : x.maintenance = true)
    (hlog : t.log = u.log ++ [.replied payload s.now]) (hactive : t.active = some y)
    (hstep : y.step = .maintenanceResult) (howner : y.owner = x.owner)
    (hwrite : y.maintenanceWriteId = some w) (hflag : y.maintenance = true)
    (hkeys : t.sessions.keys = u.sessions.keys) :
    Maintained s₀ t := by
  have hwf := hK.wf
  have hwaits : x.step ≠ .maintenanceResult := by simp [h.step]
  obtain ⟨hanswers, hdisposition⟩ := Transaction.answers_of_valid h.step h.valid
  have hheard : heard s.log = [] := (hK.exchanging.unheard payload h.received).resolve_right
    fun hveiled => hveiled.not_answers (hwf.active x h.active).shape hanswers
  have hfirst : ¬ Occurs Completes s.log := fun hcompleted => by
    rcases hs.completed hcompleted with hfailed | ⟨z, hz, hresult⟩
    · simp [hwf.running h.active] at hfailed
    · obtain rfl := Option.some.inj (h.active.symm.trans hz)
      exact hwaits hresult
  rcases ht.log with ⟨hw, -⟩ | ⟨frame, hw, heq, hsession, hlive, -⟩
  · cases hw
  obtain rfl := Option.some.inj hw
  have hcompletes : Completes u.log (.replied payload s.now) :=
    (completes_iff hK h.active hwaits (ht.adds fun f => ⟨f, rfl⟩)).mpr
      ⟨hmaintenance, hdisposition.mp rfl⟩
  have hcopy : heard u.log = [frame] := by
    rw [heq, heard_snoc, hheard]
    rfl
  have hpast : ¬ Occurs Completes u.log := by
    rw [heq]
    refine fun h => hfirst ((occurs_snoc.mp h).resolve_right ?_)
    rintro ⟨_, _, _, hn, -⟩
    cases hn
  refine ⟨?_, fun _ => .inr ⟨y, hactive, hflag⟩, fun _ => .inr ⟨y, hactive, hstep⟩,
    fun owner w hreports => .inr ⟨y, hactive, hstep, ?_⟩, fun z hz _ => ?_⟩
  · rw [hlog, heq]
    exact hs.justified.snoc₂ trivial trivial
  · rw [hlog] at hreports
    rcases occurs_snoc.mp hreports with ⟨past, n, future, hsplit, hreports⟩ | hreports
    · exact absurd ⟨past, n, future, hsplit, hreports.1⟩ hpast
    · obtain ⟨-, copy, hcopy', rfl, rfl⟩ := hreports
      rw [hcopy] at hcopy'
      obtain rfl := List.singleton_injective hcopy'
      exact ⟨howner.trans hsession.symm, hwrite⟩
  · obtain rfl := Option.some.inj (hactive.symm.trans hz)
    refine ⟨?_, frame.writeId, hwrite, ?_⟩
    · rw [hkeys, howner, ht.frame.2.2.2.2.2]
      exact hlive
    · rw [hlog]
      exact occurs_snoc.mpr (.inr ⟨hcompletes, frame, hcopy, hsession.trans howner.symm, rfl⟩)

theorem upstream (hs : Maintained s₀ s) (hK : Reached s₀ s) (h : Upstream s t)
    (hcontinues : s.underMaintenance = true → t.active.isSome = true) : Maintained s₀ t := by
  have hwf := hK.wf
  cases h with
  | @popDispatched _ x hrunning hidle _ _ hdescriptor htransaction =>
    refine hs.dispatch (x := x) hwf hrunning hidle ?_ ?_ ?_ ?_ (by rfl) _
    · rw [htransaction]
      rintro ⟨⟩
    · have table : ∀ d, Protocol.descriptor [cmdSyncNextMessage] = some d →
          false = d.flags.maintenance := by decide
      rw [htransaction]
      exact table _ hdescriptor
    · have hcommand : x.command = [cmdSyncNextMessage] := by rw [htransaction]
      refine hs.justified.snoc fun hop => ?_
      rw [hcommand] at hop
      exact absurd hop (by decide)
    · exact ⟨[_], rfl, by simp⟩
  | @dispatched id _ command _ _ _ x _ hidle h hforward hdescriptor hreserves htransaction =>
    refine hs.dispatch (x := x) hwf h.running hidle ?_ ?_ ?_ ?_ (by rfl) _
    · rw [htransaction]
      simp only
      split <;> rintro ⟨⟩
    · rw [htransaction]
    · subst htransaction
      refine hs.justified.snoc₂ trivial fun hop => ⟨s, command, hK, rfl, ?_⟩
      exact alone h.live hdescriptor hreserves hop
    · exact ⟨[_, _], List.append_assoc _ _ _, by simp⟩
  | setupRejected hactive _ hstep _ _ _ ht =>
    refine hs.ordinary hK (m := []) hactive (plain_of_scoped hwf hactive (.inl ?_))
      (ht.adds fun f => ⟨f, rfl⟩) (List.append_nil _).symm (by simp) (fun _ hy => by cases hy)
      ht.frame.1
    exact (hwf.active _ hactive).wrapped (.inl hstep)
  | setupAccepted hactive _ hstep =>
    refine hs.ordinary hK (m := [_]) hactive (plain_of_scoped hwf hactive (.inl ?_))
      (.refl rfl) rfl (by simp) (fun y hy => ?_) rfl
    · exact (hwf.active _ hactive).wrapped (.inl hstep)
    · obtain rfl := Option.some.inj hy
      rintro ⟨⟩
  | restored hactive _ hstep =>
    refine hs.ordinary hK (m := []) hactive (plain_of_scoped hwf hactive (.inl ?_))
      (.refl rfl) (List.append_nil _).symm (by simp) (fun _ hy => by cases hy) rfl
    exact (hwf.active _ hactive).wrapped (.inr hstep)
  | progressed h ht =>
    refine hs.ordinary hK (m := []) h.active (plain_of_scoped hwf h.active (.inr ?_))
      (ht.adds fun f => ⟨f, rfl⟩) (List.append_nil _).symm (by simp) (fun y hy => ?_) ht.frame.1
    · have herr : opcode _ ≠ respErr := fun herr => by
        cases (validateResponse_err h.valid herr).2
      exact ((validateResponse_eq_ok h.valid herr).2.2.2.mp rfl).1
    · obtain rfl := Option.some.inj hy
      simp [h.step]
  | scopedReply h ht _ hscoped =>
    refine hs.ordinary hK (m := [_]) h.active (plain_of_scoped hwf h.active (.inl hscoped))
      (ht.adds fun f => ⟨f, rfl⟩) rfl (by simp) (fun y hy => ?_) ht.frame.1
    obtain rfl := Option.some.inj hy
    rintro ⟨⟩
  | heldReply h ht _ _ hmaintenance =>
    exact hs.held hK h ht hmaintenance rfl rfl rfl rfl rfl hmaintenance rfl
  | @finalReply u x payload _ _ _ _ h ht =>
    have hplain : x.maintenance = false := by
      refine Bool.eq_false_iff.mpr fun hmaintenance => ?_
      have hsome := hcontinues (by simp [underMaintenance, h.active, hmaintenance])
      cases hsome
    exact hs.ordinary hK (m := []) h.active hplain (ht.adds fun f => ⟨f, rfl⟩)
      (List.append_nil _).symm (by simp) (fun _ hy => by cases hy) ht.frame.1

/-- A maintenance command whose result reaches nobody is over with its reply. -/
theorem silent (hs : Maintained s₀ s) (hK : Reached s₀ s) (h : Upstream s t)
    (hmaintenance : s.underMaintenance = true) (hdone : t.active = none) :
    (∃ payload now, t.log = s.log ++ [.replied payload now]) ∧
      ∀ owner w, ¬ Occurs (Reports owner w) t.log := by
  have hwf := hK.wf
  have hflag : ∀ x, s.active = some x → x.maintenance = true := fun x hx => by
    simpa [underMaintenance, hx] using hmaintenance
  have hscoped : ∀ x, s.active = some x → x.step = .setup ∨ x.step = .restore → False := by
    intro x hx hstep
    have hplain := plain_of_scoped hwf hx (.inl ((hwf.active x hx).wrapped hstep))
    simp [hflag x hx] at hplain
  cases h with
  | popDispatched | dispatched | setupAccepted | progressed | scopedReply | heldReply => cases hdone
  | setupRejected hactive _ hstep => exact (hscoped _ hactive (.inl hstep)).elim
  | restored hactive _ hstep => exact (hscoped _ hactive (.inr hstep)).elim
  | @finalReply u x payload _ w _ _ h ht _ _ hnobody =>
    obtain rfl := hnobody (hflag x h.active)
    have hlog : u.log = s.log := by
      rcases ht.log with ⟨-, heq⟩ | ⟨_, heq, -⟩
      · exact heq
      · cases heq
    refine ⟨⟨payload, s.now, congrArg (· ++ [Note.replied payload s.now]) hlog⟩,
      fun owner w hreports => ?_⟩
    change Occurs (Reports owner w) (u.log ++ [.replied payload s.now]) at hreports
    rw [hlog] at hreports
    rcases occurs_snoc.mp hreports with ⟨past, n, future, hsplit, hcompletes, -⟩ | ⟨-, frame, hheard, -⟩
    · rcases hs.completed ⟨past, n, future, hsplit, hcompletes⟩ with hfailed | ⟨y, hy, hresult⟩
      · simp [hwf.running h.active] at hfailed
      · obtain rfl := Option.some.inj (h.active.symm.trans hy)
        cases h.step.symm.trans hresult
    · have hanswers := (Transaction.answers_of_valid h.step h.valid).1
      have hnobody := (hK.exchanging.unheard payload h.received).resolve_right
        fun hveiled => hveiled.not_answers (hwf.active x h.active).shape hanswers
      rw [hnobody] at hheard
      cases hheard

/-- The epoch ends, and the reason for it is known. -/
theorem failAll (hK : Reached s₀ u) (hrunning : u.failed = false) {reason : Text}
    (hjustified : Justified (Exclusive s₀) u.log)
    (hreason : ∀ closes : List Note, (∀ n ∈ closes, ∃ id r, n = .closed id r) →
      ∀ owner w, Occurs (Reports owner w) u.log →
      (∃ now, current (u.log ++ closes) = some (.written owner u.epoch w now)) ∨
        Departed s₀ (u.log ++ closes) owner ∨ Breaks (current (u.log ++ closes))) :
    Maintained s₀ (u.failAll reason) := by
  have hlog := (hK.wf.cleanEnd hrunning reason).closed
  have hcloses : ∀ n ∈ u.sessions.keys.map (Note.closed · ["upstream epoch failed"]),
      ∃ id r, n = .closed id r := by
    intro n hn
    obtain ⟨id, -, rfl⟩ := List.mem_map.mp hn
    exact ⟨id, _, rfl⟩
  refine ⟨?_, fun _ => .inl rfl, fun _ => .inl rfl, fun _ _ _ => .inl rfl, fun _ hx => nomatch hx⟩
  rw [hlog]
  refine (hjustified.append fun past n hn => ?_).snoc fun owner w hreports => ?_
  · obtain ⟨id, r, rfl⟩ := hcloses n hn
    trivial
  · refine hreason _ hcloses owner w ((occurs_append fun _ n hn => ?_).mp hreports)
    obtain ⟨id, r, rfl⟩ := hcloses n hn
    rintro ⟨⟨_, _, _, heq, -⟩, -⟩
    cases heq

/-- Closing sessions is no call. -/
theorem current_closes {closes : List Note} (h : ∀ n ∈ closes, ∃ id r, n = .closed id r) :
    current (l ++ closes) = current l := by
  refine current_append (List.all_eq_true.mpr fun n hn => ?_)
  obtain ⟨id, r, rfl⟩ := h n hn
  rfl

theorem ending (hs : Maintained s₀ s) (hK : Reached s₀ s) (h : Ending s t) : Maintained s₀ t := by
  have hwf := hK.wf
  have hresult : ∀ owner w, s.failed = false → Occurs (Reports owner w) s.log →
      ∃ x, s.active = some x ∧ x.step = .maintenanceResult ∧ x.owner = owner ∧
        x.maintenanceWriteId = some w := by
    intro owner w hrunning hreports
    refine (hs.delivered owner w hreports).resolve_left fun hfailed => ?_
    simp [hrunning] at hfailed
  cases h with
  | failed hrunning hfatal =>
    refine failAll hK hrunning hs.justified fun closes hcloses owner w hreports => ?_
    obtain ⟨x, hx, hstep, -⟩ := hresult owner w hrunning hreports
    rw [current_closes hcloses]
    refine .inr (.inr ?_)
    cases hfatal with
    | requested hcall => exact hcall ▸ .requested _
    | writerFailed hcall => exact hcall ▸ .unwritable _ _ _
    | silent _ hactive hwaits =>
      obtain rfl := Option.some.inj (hx.symm.trans hactive)
      exact absurd hstep hwaits
    | unwritten _ hlate =>
      -- the frame of the command has been written long ago
      have hkeys := hK.registered.upstream
      rw [hx, Option.bind_some, hK.registered.result x hx hstep, Option.toList_none] at hkeys
      obtain ⟨k, v, hfind, -⟩ := OrdMap.any_iff.mp hlate
      have hmem := OrdMap.mem_keys_of_find? hfind
      rw [hkeys] at hmem
      cases hmem
    | rejected hcall _ hmisfit => exact hcall ▸ .misfit _ hmisfit
  | @completed x writeId now hactive hstep hwrite hcall =>
    have hparts := (ReflTransGen.single (Part.writtenDown (s := s) x.owner writeId)).tail
      (.released hactive hstep)
    refine failAll (hK.parts hparts) (hwf.running hactive) hs.justified
      fun closes hcloses owner w hreports => .inl ⟨now, ?_⟩
    obtain ⟨y, hy, -, rfl, hw⟩ := hresult owner w (hwf.running hactive) hreports
    obtain rfl := Option.some.inj (hactive.symm.trans hy)
    obtain rfl := Option.some.inj (hwrite.symm.trans hw)
    exact (current_closes hcloses).trans hcall
  | @deserted x session reason hactive hstep hlive hdeparts =>
    have hparts := (ReflTransGen.single (Part.dropped reason hlive)).tail
      (.released hactive hstep)
    refine failAll (hK.parts hparts) (hwf.running hactive) (hs.justified.snoc trivial)
      fun closes _ owner w hreports => .inr (.inl ?_)
    have hold : Occurs (Reports owner w) s.log := by
      refine (occurs_snoc.mp hreports).resolve_right ?_
      rintro ⟨⟨_, _, _, heq, -⟩, -⟩
      cases heq
    obtain ⟨y, hy, -, rfl, -⟩ := hresult owner w (hwf.running hactive) hold
    obtain rfl := Option.some.inj (hactive.symm.trans hy)
    exact ⟨s, session, reason, closes, hK, hlive, hdeparts, List.append_assoc _ _ _⟩
  | @undelivered t h hmaintenance hdone =>
    obtain ⟨hlog, hquiet⟩ := hs.silent hK h hmaintenance hdone
    refine failAll (hK.part (.upstream h)) (h.failed_eq.trans (h.running hwf)) ?_
      fun _ _ owner w hreports => absurd hreports (hquiet owner w)
    obtain ⟨payload, now, hlog⟩ := hlog
    rw [hlog]
    exact hs.justified.snoc trivial

theorem everyday_of_handing (hn : n.handing = true) : n.everyday = true := by
  cases n <;> first | rfl | cases hn

/-- The active pop takes its result. -/
theorem pop (hs : Maintained s₀ s) (hK : Reached s₀ s) {x : Transaction} {payload : Bytes}
    (ht : s.Takes x payload) (h : HandsOut x payload (s.took payload) t) : Maintained s₀ t := by
  have hwf := hK.wf
  have hplain : x.maintenance = false := by
    have hrun := hwf.active x ht.active
    have table : ∀ d, Protocol.descriptor [cmdSyncNextMessage] = some d →
        d.flags.maintenance = false := by decide
    rw [hrun.maintenance]
    exact table _ (hrun.shape.pop ht.owner ▸ hrun.shape.descriptor)
  have htook : Maintained s₀ (s.took payload) := by
    refine hs.ordinary hK (m := []) ht.active hplain (.refl rfl) (List.append_nil _).symm
      (by simp) (fun _ hy => nomatch hy) rfl
  refine htook.keep (h.calm.mono fun n hn => .inl (everyday_of_handing hn)) ?_
  exact fun _ hx => nomatch hx

end Maintained

end Broker

end MeshCoreTCPMux

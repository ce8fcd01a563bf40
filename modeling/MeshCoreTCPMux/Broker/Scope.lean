import MeshCoreTCPMux.Broker.Exchange

/-!
# Flood scopes

The companion has one temporary flood scope, on which the broker simulates one for each client. The
history shows what it is (`companionScope`): the last scope frame that was answered `OK`. It is the
default whenever no wrapper is under way (`Scoped`), so that every command is sent under the scope
that its own session had selected when it was dispatched (`scopes_isolated`).
-/

namespace MeshCoreTCPMux

open Protocol Relation History

/-- The companion's side of the exchange: what it has to answer, and its temporary scope. -/
structure Register where
  outstanding : Option Outstanding := none
  scope : Bytes := defaultScope

/-- A scope frame takes effect when it is answered `OK`. -/
def Note.track (c : Register) (n : Note) : Register where
  outstanding := n.exchange c.outstanding
  scope := match n, c.outstanding with
    | .replied payload _, some o =>
      if opcode payload = respOk ∧ opcode o.frame.payload = cmdSetFloodScopeKey then o.frame.payload
      else c.scope
    | _, _ => c.scope

theorem opcode_sentAs (command : Bytes) : opcode (sentAs command) = opcode command := by
  unfold sentAs
  split
  · cases command with
    | nil => rfl
    | cons code rest => rfl
  · rfl

namespace Broker

variable {s s₀ t : Broker} {l m : List Note} {n : Note}

/-- The companion's temporary scope. -/
def companionScope (log : List Note) : Bytes := (log.foldl Note.track {}).scope

theorem track_outstanding (log : List Note) :
    (log.foldl Note.track {}).outstanding = outstanding log := by
  have hfold : ∀ (l : List Note) (c : Register),
      (l.foldl Note.track c).outstanding = l.foldl Note.exchange c.outstanding := by
    intro l
    induction l with
    | nil => exact fun _ => rfl
    | cons n l ih => exact fun c => ih (n.track c)
  exact hfold log {}

theorem companionScope_snoc (l : List Note) (n : Note) : companionScope (l ++ [n]) =
    match n, outstanding l with
    | .replied payload _, some o =>
      if opcode payload = respOk ∧ opcode o.frame.payload = cmdSetFloodScopeKey then o.frame.payload
      else companionScope l
    | _, _ => companionScope l := by
  rw [companionScope, List.foldl_append, List.foldl_cons, List.foldl_nil, ← track_outstanding]
  rfl

theorem companionScope_append (h : ∀ n ∈ m, n.wraps = false) :
    companionScope (l ++ m) = companionScope l := by
  induction m generalizing l with
  | nil => rw [List.append_nil]
  | cons n m ih =>
    rw [List.append_cons, ih fun k hk => h k (List.mem_cons_of_mem _ hk), companionScope_snoc]
    have hn := h n List.mem_cons_self
    cases n with
    | replied => cases hn
    | _ => rfl

/-- The scope that `owner` had selected when its command, the last one, was dispatched. -/
def SelectedAt (log : List Note) (owner : Nat) (scope : Bytes) : Prop :=
  ∃ before transaction now after, log = before ++ .dispatched transaction now :: after ∧
    (∀ n ∈ after, ∀ x t, n ≠ .dispatched x t) ∧ transaction.owner = owner ∧
    selectedScope owner before = scope

theorem SelectedAt.append {owner : Nat} {scope : Bytes} (h : SelectedAt l owner scope)
    (hm : ∀ n ∈ m, ∀ x t, n ≠ .dispatched x t) : SelectedAt (l ++ m) owner scope := by
  obtain ⟨before, transaction, now, after, rfl, hafter, howner, hscope⟩ := h
  refine ⟨before, transaction, now, after ++ m, by simp, fun n hn => ?_, howner, hscope⟩
  exact (List.mem_append.mp hn).elim (hafter n) (hm n)

/-- The scope frame of the transaction has just been answered `OK`. -/
def Prepared (past : List Note) (x : Transaction) : Prop :=
  ∃ before now o, past = before ++ [.replied [respOk] now] ∧ outstanding before = some o ∧
    o.transaction.step = .setup ∧ o.transaction.owner = x.owner ∧
    o.transaction.command = x.command

/-- A frame may go upstream: a command under the scope that its session selected, or under the
default scope if it takes none; a scope only as the hidden part of a wrapper. -/
def Wrapped (past : List Note) : Note → Prop
  | .upstream frame x =>
    if opcode frame.payload = cmdSetFloodScopeKey then x.step = .setup ∨ x.step = .restore
    else if x.descriptor.flags.scopeSend then
      SelectedAt past x.owner (companionScope past) ∧
        (companionScope past ≠ defaultScope → Prepared past x)
    else companionScope past = defaultScope
  | _ => True

/-- The companion's scope during a transaction. -/
def Tracked (log : List Note) (x : Transaction) : Prop :=
  match x.step with
  | .setup => companionScope log = defaultScope ∧ ∃ o, outstanding log = some o ∧
      opcode o.frame.payload = cmdSetFloodScopeKey ∧ SelectedAt log x.owner o.frame.payload
  | .command => (x.isScoped = false → companionScope log = defaultScope) ∧
      ∃ o, outstanding log = some o ∧ opcode o.frame.payload ≠ cmdSetFloodScopeKey
  | .restore => ∃ o, outstanding log = some o ∧ o.frame.payload = defaultScope
  | .maintenanceResult => companionScope log = defaultScope

/-- The companion's scope is the default, but for a wrapper that is under way. -/
structure Scoped (s : Broker) : Prop where
  justified : Justified Wrapped s.log
  idle : s.failed = false → s.active = none → companionScope s.log = defaultScope
  active : ∀ x, s.active = some x → opcode x.command ≠ cmdSetFloodScopeKey ∧ Tracked s.log x

theorem Tracked.congr {x y : Transaction} (h : Tracked l x) (hcore : x.core = y.core) :
    Tracked l y := by
  have hstep : x.step = y.step := (congrArg Transaction.step hcore :)
  have hscoped : x.isScoped = y.isScoped := (congrArg Transaction.isScoped hcore :)
  have howner : x.owner = y.owner := (congrArg Transaction.owner hcore :)
  unfold Tracked at h ⊢
  rwa [← hstep, ← hscoped, ← howner]

theorem Tracked.append {x : Transaction} (h : Tracked l x) (hm : ∀ n ∈ m, n.wraps = false) :
    Tracked (l ++ m) x := by
  have hdispatched : ∀ n ∈ m, ∀ x t, n ≠ .dispatched x t := by
    rintro n hn x t rfl
    cases hm _ hn
  unfold Tracked at h ⊢
  rw [companionScope_append hm, outstanding_unwrapped hm]
  split at h
  · obtain ⟨hscope, o, ho, hcode, hselected⟩ := h
    exact ⟨hscope, o, ho, hcode, hselected.append hdispatched⟩
  · exact h
  · exact h
  · exact h

/-- What a step may send. -/
def Sends (log : List Note) (frame : Bytes) (x : Transaction) : Prop :=
  match x.step with
  | .setup => companionScope log = defaultScope ∧ opcode frame = cmdSetFloodScopeKey ∧
      SelectedAt log x.owner frame
  | .command => opcode frame ≠ cmdSetFloodScopeKey ∧
      (x.isScoped = false → companionScope log = defaultScope) ∧
      if x.descriptor.flags.scopeSend then
        SelectedAt log x.owner (companionScope log) ∧
          (companionScope log ≠ defaultScope → Prepared log x)
      else companionScope log = defaultScope
  | .restore => frame = defaultScope
  | .maintenanceResult => False

namespace Scoped

theorem keep (hs : s.Scoped) (h : Calm (·.wraps = false) s t) : t.Scoped := by
  obtain ⟨notes, hlog, hnotes⟩ := h.adds
  refine ⟨?_, fun hrunning hidle => ?_, fun y hy => ?_⟩
  · rw [hlog]
    refine hs.justified.append fun past n hn => ?_
    have hn := hnotes n hn
    cases n with
    | upstream => cases hn
    | _ => trivial
  · rw [hlog, companionScope_append hnotes]
    have hcore := h.core
    rw [hidle] at hcore
    exact hs.idle (h.failed ▸ hrunning) (Option.map_eq_none_iff.mp hcore.symm)
  · have hcore := h.core
    rw [hy] at hcore
    obtain ⟨x, hx, hxy⟩ := Option.map_eq_some_iff.mp hcore.symm
    obtain ⟨hcommand, htracked⟩ := hs.active x hx
    have hsame : x.command = y.command := (congrArg Transaction.command hxy :)
    rw [hlog, ← hsame]
    exact ⟨hcommand, (htracked.append hnotes).congr hxy⟩

theorem sendUp (hjustified : Justified Wrapped s.log) {frame : Bytes} {x : Transaction}
    (hcommand : opcode x.command ≠ cmdSetFloodScopeKey) (h : Sends s.log frame x) :
    (s.sendUp frame x).Scoped where
  justified := by
    refine hjustified.snoc ?_
    simp only [Wrapped]
    unfold Sends at h
    split at h
    · next hstep =>
      rw [if_pos h.2.1]
      exact .inl hstep
    · rw [if_neg h.1]
      exact h.2.2
    · next hstep =>
      rw [if_pos (by rw [h]; rfl)]
      exact .inr hstep
    · exact absurd h id
  idle := fun _ hidle => nomatch hidle
  active := by
    intro y hy
    obtain rfl := Option.some.inj hy
    refine ⟨hcommand, ?_⟩
    have hscope : companionScope (s.log ++ [.upstream ⟨0, s.epoch, s.nextWrite + 1, frame⟩ x])
        = companionScope s.log := companionScope_snoc _ _
    have hlast : outstanding (s.log ++ [.upstream ⟨0, s.epoch, s.nextWrite + 1, frame⟩ x])
        = some ⟨⟨0, s.epoch, s.nextWrite + 1, frame⟩, x⟩ := outstanding_snoc _ _
    unfold Tracked
    unfold Sends at h
    simp only [Broker.sendUp]
    rw [hscope, hlast]
    split at h
    · exact ⟨h.1, _, rfl, h.2.1, h.2.2.append (by simp)⟩
    · exact ⟨h.2.1, _, rfl, h.1⟩
    · exact ⟨_, rfl, h⟩
    · exact absurd h id

/-- The reply to a command, or one that rejects a scope, leaves the companion's scope as it is. -/
theorem companionScope_replied {x : Transaction} {payload : Bytes} {now : Time}
    (h : Tracked l x) (hstep : x.step = .command ∨ (x.step = .setup ∧ opcode payload = respErr)) :
    companionScope (l ++ [.replied payload now]) = companionScope l := by
  rw [companionScope_snoc]
  unfold Tracked at h
  rcases hstep with hstep | ⟨-, herr⟩
  · rw [hstep] at h
    obtain ⟨-, o, ho, hcode⟩ := h
    rw [ho]
    exact if_neg fun hboth => hcode hboth.2
  · cases outstanding l with
    | none => rfl
    | some o =>
      refine if_neg fun hboth => ?_
      rw [herr] at hboth
      exact absurd hboth.1 (by decide)

/-- A reply is taken, and no transaction is active. -/
theorem finish (hs : s.Scoped) {payload : Bytes} {now : Time}
    (hlog : t.log = s.log ++ [.replied payload now]) (hidle : t.active = none)
    (hscope : companionScope (s.log ++ [.replied payload now]) = defaultScope) : t.Scoped where
  justified := hlog ▸ hs.justified.snoc trivial
  idle := fun _ _ => hlog ▸ hscope
  active := fun _ hy => absurd (hidle.symm.trans hy) nofun

theorem relay (hs : s.Scoped) {x : Transaction} {payload : Bytes} {w : Option Nat}
    (ht : s.Forwarded x payload w t) : t.Scoped :=
  hs.keep (.of_adds (ht.adds fun _ => rfl) ht.frame.2.1 ht.frame.1)

theorem popDispatched (hs : s.Scoped) {descriptor : CommandDescriptor} {x : Transaction}
    (hrunning : s.failed = false) (hidle : s.active = none)
    (hdescriptor : Protocol.descriptor [cmdSyncNextMessage] = some descriptor)
    (hx : x.command = [cmdSyncNextMessage] ∧ x.descriptor = descriptor ∧ x.step = .command)
    (hlog : t.log = s.log ++ [.dispatched x s.now]) :
    (t.sendUp [cmdSyncNextMessage] x).Scoped := by
  obtain ⟨hcommand, rfl, hstep⟩ := hx
  have hscope : companionScope t.log = defaultScope := by
    rw [hlog]
    exact (companionScope_snoc _ _).trans (hs.idle hrunning hidle)
  have hplain : x.descriptor.flags.scopeSend = false := by
    have table : ∀ found, Protocol.descriptor [cmdSyncNextMessage] = some found →
        found.flags.scopeSend = false := by decide
    exact table _ hdescriptor
  refine sendUp (hlog ▸ hs.justified.snoc trivial) (by rw [hcommand]; decide) ?_
  unfold Sends
  rw [hstep, hplain]
  exact ⟨by decide, fun _ => hscope, hscope⟩

theorem dispatched (hs : s.Scoped) (hforwarding : s.Forwarding) {id : Nat} {session : Session}
    {command : Command} {x : Transaction} {frame : Bytes} (hrunning : s.failed = false)
    (hidle : s.active = none) (hlive : s.sessions.find? id = some session)
    (hforward : Forwardable s.config s.now command) (howner : x.owner = id)
    (hcommand : x.command = command.payload)
    (hscoped : x.isScoped = decide
      (x.descriptor.flags.scopeSend = true ∧ session.scope ≠ defaultScope))
    (hstep : x.step =
      if x.descriptor.flags.scopeSend = true ∧ session.scope ≠ defaultScope then .setup else .command)
    (hframe : if x.isScoped then frame = session.scope else forwarded command.payload = .ok frame)
    (hlog : t.log = s.log ++ [.taken id command] ++ [.dispatched x s.now]) :
    (t.sendUp frame x).Scoped := by
  have hdefault := hs.idle hrunning hidle
  have hscope : companionScope t.log = defaultScope := by
    rw [hlog, companionScope_snoc]
    exact (companionScope_snoc _ _).trans hdefault
  obtain ⟨hselected, hvalid⟩ := hforwarding.scope id session hlive
  have hat : SelectedAt t.log x.owner session.scope := by
    refine ⟨s.log ++ [.taken id command], x, s.now, [], hlog, by simp, rfl, ?_⟩
    rw [selectedScope_snoc, howner]
    exact hselected.symm
  refine sendUp ?_ (hcommand ▸ hforward.not_scope) ?_
  · rw [hlog]
    exact hs.justified.snoc₂ trivial trivial
  · unfold Sends
    by_cases hwrapped : x.descriptor.flags.scopeSend = true ∧ session.scope ≠ defaultScope
    · rw [hscoped, if_pos (by simpa using hwrapped)] at hframe
      rw [hstep, if_pos hwrapped]
      exact ⟨hscope, hframe ▸ (hvalid hwrapped.2).code, hframe ▸ hat⟩
    · rw [hscoped, if_neg (by simpa using hwrapped)] at hframe
      rw [hstep, if_neg hwrapped]
      refine ⟨?_, fun _ => hscope, ?_⟩
      · rw [forwarded_eq hframe, opcode_sentAs]
        exact hforward.not_scope
      · split
        · next hsend =>
          have hunselected : session.scope = defaultScope :=
            not_not.mp fun hne => hwrapped ⟨hsend, hne⟩
          rw [hscope]
          exact ⟨hunselected ▸ hat, fun h => absurd rfl h⟩
        · exact hscope

/-- The scope frame has been accepted, and the command follows. -/
theorem setupAccepted (hs : s.Scoped) (hwf : s.WF) (hexchanging : s.Exchanging) {x : Transaction}
    {frame : Bytes} (hactive : s.active = some x) (hstep : x.step = .setup)
    (hframe : forwarded x.command = .ok frame) :
    ((s.note (.replied [respOk] s.now)).sendUp frame
      { x with progress := s.now, step := .command }).Scoped := by
  obtain ⟨hcommand, htracked⟩ := hs.active x hactive
  unfold Tracked at htracked
  rw [hstep] at htracked
  obtain ⟨-, o, ho, hcode, hselected⟩ := htracked
  obtain ⟨o', ho', hcore⟩ :=
    hexchanging.waiting (hwf.running hactive) hactive (by simp [hstep])
  obtain rfl := Option.some.inj (ho.symm.trans ho')
  have hscope : companionScope (s.log ++ [.replied [respOk] s.now]) = o.frame.payload := by
    rw [companionScope_snoc, ho]
    exact if_pos ⟨rfl, hcode⟩
  have hrun := hwf.active x hactive
  have hwrapped := hrun.wrapped (.inl hstep)
  refine sendUp (by exact hs.justified.snoc trivial) hcommand ?_
  refine ⟨?_, fun hplain => ?_, ?_⟩
  · rw [forwarded_eq hframe, opcode_sentAs]
    exact hcommand
  · exact absurd (hwrapped.symm.trans hplain) nofun
  · rw [if_pos (by exact hrun.flagged hwrapped)]
    have hat : SelectedAt (s.log ++ [.replied [respOk] s.now]) x.owner o.frame.payload :=
      hselected.append (by simp)
    refine ⟨by rw [← hscope] at hat; exact hat, fun _ => ⟨s.log, s.now, o, rfl, ho, ?_, ?_, ?_⟩⟩
    · exact (congrArg Transaction.step hcore :).trans hstep
    · exact (congrArg Transaction.owner hcore :)
    · exact (congrArg Transaction.command hcore :)

theorem upstream (hs : s.Scoped) (hwf : s.WF) (hexchanging : s.Exchanging)
    (hforwarding : s.Forwarding) (h : Upstream s t) : t.Scoped := by
  cases h with
  | popDispatched hrunning hidle _ _ hdescriptor htransaction =>
    subst htransaction
    exact hs.popDispatched hrunning hidle hdescriptor ⟨rfl, rfl, rfl⟩ rfl
  | dispatched hidle h hforward _ _ htransaction hframe =>
    subst htransaction
    exact hs.dispatched hforwarding h.running hidle h.live hforward rfl rfl rfl rfl hframe rfl
  | @setupRejected u x payload w hactive _ hstep _ _ herr ht =>
    have hu := hs.relay ht
    have htracked := (hu.active x (ht.frame.2.1.trans hactive)).2
    refine hu.finish rfl rfl ?_
    rw [companionScope_replied htracked (.inr ⟨hstep, herr⟩)]
    unfold Tracked at htracked
    rw [hstep] at htracked
    exact htracked.1
  | setupAccepted hactive _ hstep _ hframe =>
    exact hs.setupAccepted hwf hexchanging hactive hstep hframe
  | @restored x hactive _ hstep =>
    have htracked := (hs.active x hactive).2
    unfold Tracked at htracked
    rw [hstep] at htracked
    obtain ⟨o, ho, hframe⟩ := htracked
    refine hs.finish rfl rfl ?_
    rw [companionScope_snoc, ho]
    exact (if_pos ⟨rfl, by rw [hframe]; rfl⟩).trans hframe
  | @progressed u x payload started w h ht =>
    have hu := hs.relay ht
    obtain ⟨hcommand, htracked⟩ := hu.active x (ht.frame.2.1.trans h.active)
    have hscope : companionScope (u.log ++ [.replied payload s.now]) = companionScope u.log :=
      companionScope_replied htracked (.inl h.step)
    refine ⟨hu.justified.snoc trivial, fun _ hidle => (nomatch hidle), fun y hy => ?_⟩
    obtain rfl := Option.some.inj hy
    obtain ⟨-, hdisposition⟩ := Transaction.answers_of_valid h.step h.valid
    have hunfinished := Bool.eq_false_iff.mpr (mt hdisposition.mpr nofun)
    obtain ⟨o', ho', hcore⟩ :=
      hexchanging.waiting (hwf.running h.active) h.active (by simp [h.step])
    rw [← Transaction.finishedBy_congr hcore] at hunfinished
    unfold Tracked at htracked ⊢
    rw [h.step] at htracked
    obtain ⟨hdefault, o, ho, hcode⟩ := htracked
    have hsame : outstanding u.log = outstanding s.log := by
      rcases ht.log with ⟨-, heq⟩ | ⟨frame, -, heq, -⟩
      · rw [heq]
      · rw [heq]
        exact outstanding_snoc _ _
    obtain rfl := Option.some.inj (ho.symm.trans (hsame.trans ho'))
    refine ⟨hcommand, ?_⟩
    simp only [h.step]
    exact ⟨fun hplain => hscope.trans (hdefault hplain), _,
      outstanding_unfinished ho hunfinished _, hcode⟩
  | @scopedReply u x payload started w radio signing h ht haccept hscoped =>
    have hu := hs.relay ht
    have hjustified : Justified Wrapped (u.log ++ [.replied payload s.now]) :=
      hu.justified.snoc trivial
    exact sendUp hjustified (hs.active x h.active).1 rfl
  | @heldReply u x payload started w radio signing h ht haccept hscoped hmaintenance =>
    have hu := hs.relay ht
    obtain ⟨hcommand, htracked⟩ := hu.active x (ht.frame.2.1.trans h.active)
    refine ⟨hu.justified.snoc trivial, fun _ hidle => (nomatch hidle), fun y hy => ?_⟩
    obtain rfl := Option.some.inj hy
    refine ⟨hcommand, (companionScope_replied htracked (.inl h.step)).trans ?_⟩
    unfold Tracked at htracked
    rw [h.step] at htracked
    exact htracked.1 hscoped
  | @finalReply u x payload started w radio signing h ht haccept hscoped =>
    have hu := hs.relay ht
    have htracked := (hu.active x (ht.frame.2.1.trans h.active)).2
    refine hu.finish rfl rfl ((companionScope_replied htracked (.inl h.step)).trans ?_)
    unfold Tracked at htracked
    rw [h.step] at htracked
    exact htracked.1 hscoped

end Scoped

/-- **The companion's scope is the default between transactions** in every state. -/
theorem Stepwise.scoped : Stepwise (Reached s₀) Scoped where
  report := fun _ hs => { hs with }
  input := fun _ _ hs => hs.keep (.of_adds (.one rfl rfl) rfl rfl)
  clock := fun _ _ hs => { hs with }
  idle := fun _ h hs => hs.keep (h.calm.mono fun n hn => by cases n <;> first | rfl | cases hn)
  output := fun _ h hs => hs.keep (h.calm.mono fun n hn => by cases n <;> first | rfl | cases hn)
  client := fun _ h hs => hs.keep (h.calm.mono fun n hn => by
    rcases hn with hn | ⟨frame, rfl⟩
    · cases n <;> first | rfl | cases hn
    · rfl)
  radio := fun _ h hs => hs.keep (h.calm.mono fun n hn => by cases n <;> first | rfl | cases hn)
  part := by
    intro s t hK h hs
    cases h with
    | dropped => exact hs.keep (.of_adds (.one rfl rfl) rfl rfl)
    | @released x hactive hstep =>
      have htracked := (hs.active x hactive).2
      unfold Tracked at htracked
      rw [hstep] at htracked
      exact ⟨hs.justified, fun _ _ => htracked, fun _ hy => nomatch hy⟩
    | writtenDown => exact hs.keep (.of_adds (.refl rfl) rfl rfl)
    | upstream h => exact hs.upstream hK.wf hK.exchanging hK.forwarding h
    | failed =>
      exact ⟨hs.justified.snoc trivial, fun hrunning => (nomatch hrunning), fun _ hy => nomatch hy⟩
  took := by
    intro s x payload hK h hs
    have htracked := (hs.active x h.active).2
    refine hs.finish rfl rfl ((Scoped.companionScope_replied htracked (.inl h.step)).trans ?_)
    unfold Tracked at htracked
    rw [h.step] at htracked
    exact htracked.1 ((hK.wf.active x h.active).pop h.owner).2
  pop := fun _ _ _ h hs =>
    hs.keep (h.calm.mono fun n hn => by cases n <;> first | rfl | cases hn)
  closes := fun _ h hs =>
    hs.keep (h.calm.mono fun n hn => by cases n <;> first | rfl | cases hn)

theorem Starts.scoped (h : s.Starts) : s.Scoped := by
  obtain ⟨epoch, selfKey, config, now, orphan, slots, radio, rfl⟩ := h.fresh
  exact ⟨.nil, fun _ _ => rfl, fun _ hactive => nomatch hactive⟩

theorem Reached.scoped (h : Reached s₀ s) : s.Scoped := Stepwise.scoped.holds Starts.scoped h

end Broker

end MeshCoreTCPMux

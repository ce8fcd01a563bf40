import MeshCoreTCPMux.Broker.Queues

/-!
# Admission to the companion

A frame for the companion is the current step of the last transaction that was dispatched: the scope
that its owner selected, the command, or the default scope afterwards (`Cleared`). A dispatched
command is the one that has just left its owner's queue, and it is forwardable at that moment. The
commands of one session reach the companion in the order in which they were queued, each at most
once (`commands_admitted`).
-/

namespace MeshCoreTCPMux

open Protocol Relation History

/-- The bytes in which a command goes upstream: the mux's own target replaces the client's. -/
def sentAs (command : Bytes) : Bytes :=
  if opcode command = cmdDeviceQuery then command.set 1 upstreamAppTarget else command

theorem forwarded_eq {command frame : Bytes} (h : forwarded command = .ok frame) :
    frame = sentAs command := by
  unfold forwarded normalizeDeviceQuery at h
  unfold sentAs
  split at h
  · next hquery =>
    rw [if_pos hquery]
    split at h
    · exact (Except.ok.inj h).symm
    · cases h
  · next hother =>
    rw [if_neg hother]
    exact (Except.ok.inj h).symm

/-- A `SET_FLOOD_SCOPE_KEY` that a client may send. -/
structure ScopeCommand (scope : Bytes) : Prop where
  valid : (validateCommand scope).reason = none
  code : opcode scope = cmdSetFloodScopeKey

/-- An entry on a command's way to the companion. -/
def Note.forwards : Note → Bool
  | upstream _ _ | dispatched _ _ | queued _ _ | taken _ _ | selected _ _ => true
  | _ => false

namespace Broker

variable {s s₀ t : Broker} {l m : List Note} {id : Nat}

/-! ### What a history shows -/

/-- The scope that a session has selected. -/
def selectedScope (id : Nat) (log : List Note) : Bytes :=
  log.foldl (fun scope n => match n with
    | .selected i selected => if i = id then selected else scope
    | _ => scope) defaultScope

/-- The owner and the command of the last transaction. -/
def lastDispatch (log : List Note) : Option (Nat × Bytes) :=
  log.foldl (fun last n => match n with
    | .dispatched transaction _ => some (transaction.owner, transaction.command)
    | _ => last) none

/-- The command frames that have gone upstream for a session. -/
def emitted (id : Nat) (log : List Note) : List Bytes :=
  log.filterMap fun
    | .upstream frame transaction =>
      if transaction.owner = id ∧ transaction.step = .command then some frame.payload else none
    | _ => none

theorem selectedScope_snoc (l : List Note) (n : Note) : selectedScope id (l ++ [n]) =
    match n with
    | .selected i selected => if i = id then selected else selectedScope id l
    | _ => selectedScope id l := by
  simp only [selectedScope, List.foldl_append, List.foldl_cons, List.foldl_nil]

theorem selectedScope_append (h : ∀ n ∈ m, n.forwards = false ∨ n.about ≠ some id) :
    selectedScope id (l ++ m) = selectedScope id l := by
  rw [selectedScope, List.foldl_append]
  refine foldl_neutral fun n hn scope => ?_
  have hn := h n hn
  cases n with
  | selected i selected =>
    have hid : ¬ i = id := by simpa [Note.forwards, Note.about] using hn
    exact if_neg hid
  | _ => rfl

theorem lastDispatch_snoc (l : List Note) (n : Note) : lastDispatch (l ++ [n]) =
    match n with
    | .dispatched transaction _ => some (transaction.owner, transaction.command)
    | _ => lastDispatch l := by
  simp only [lastDispatch, List.foldl_append, List.foldl_cons, List.foldl_nil]

theorem lastDispatch_append (h : ∀ n ∈ m, n.forwards = false) :
    lastDispatch (l ++ m) = lastDispatch l := by
  rw [lastDispatch, List.foldl_append]
  refine foldl_neutral fun n hn scope => ?_
  cases n with
  | dispatched transaction now => cases h _ hn
  | _ => rfl

theorem emitted_append (id : Nat) (l m : List Note) :
    emitted id (l ++ m) = emitted id l ++ emitted id m := List.filterMap_append

theorem emitted_eq_nil (h : ∀ n ∈ l, n.forwards = false) : emitted id l = [] := by
  refine List.filterMap_eq_nil_iff.mpr fun n hn => ?_
  cases n with
  | upstream frame transaction => cases h _ hn
  | _ => rfl

theorem emitted_upstream (id : Nat) (frame : SendFrame) (transaction : Transaction) :
    emitted id [.upstream frame transaction] =
      if transaction.owner = id ∧ transaction.step = .command then [frame.payload] else [] := by
  unfold emitted
  split
  · next h => simp [h]
  · next h => simp [h]

theorem takenBy_quiet (h : ∀ n ∈ m, n.forwards = false) :
    takenBy id (l ++ m) = takenBy id l := by
  have hnone : takenBy id m = [] := by
    refine takenBy_eq_nil fun n hn => .inl ?_
    have hn := h n hn
    cases n with
    | queued | taken => cases hn
    | _ => rfl
  rw [takenBy_append, hnone, List.append_nil]

/-- A frame may go upstream, a command may be dispatched, a scope may be selected. -/
def Cleared (config : Config) (past : List Note) : Note → Prop
  | .upstream frame transaction =>
    frame.session = 0 ∧ lastDispatch past = some (transaction.owner, transaction.command) ∧
      ((transaction.step = .command ∧ frame.payload = sentAs transaction.command) ∨
        (transaction.step = .setup ∧ transaction.owner ≠ 0 ∧ ScopeCommand frame.payload ∧
          frame.payload = selectedScope transaction.owner past) ∨
        (transaction.step = .restore ∧ frame.payload = defaultScope))
  | .dispatched transaction now =>
    (transaction.owner = 0 ∧ transaction.command = [cmdSyncNextMessage]) ∨
      (transaction.owner ≠ 0 ∧ ∃ front command, past = front ++ [.taken transaction.owner command] ∧
        transaction.command = command.payload ∧ Forwardable config now command)
  | .queued id command =>
    current past = some (.clientFrame id command.payload command.queuedAt)
  | .selected _ scope => ScopeCommand scope
  | _ => True

theorem Cleared.of_quiet {config : Config} {past : List Note} {n : Note}
    (hn : n.forwards = false) : Cleared config past n := by
  cases n with
  | upstream | dispatched | queued | selected => cases hn
  | _ => trivial

/-! ### The invariant -/

/-- The command that the active transaction has not sent yet, because it sets up its scope. -/
def unsent (active : Option Transaction) (id : Nat) : List Bytes :=
  (active.filter fun x => x.owner = id ∧ x.step = .setup).toList.map fun x => sentAs x.command

theorem unsent_some (x : Transaction) (id : Nat) : unsent (some x) id =
    if x.owner = id ∧ x.step = .setup then [sentAs x.command] else [] := by
  unfold unsent
  rw [Option.filter_some]
  by_cases h : x.owner = id ∧ x.step = .setup
  · simp [h]
  · simp [h]

/-- Everything that has gone upstream was admitted, and the state agrees with the history. -/
structure Forwarding (s : Broker) : Prop where
  admitted : Justified (Cleared s.config) s.log
  scope : ∀ id session, s.sessions.find? id = some session →
    session.scope = selectedScope id s.log ∧
      (session.scope ≠ defaultScope → ScopeCommand session.scope)
  active : ∀ transaction, s.active = some transaction →
    lastDispatch s.log = some (transaction.owner, transaction.command)
  sent : ∀ id, id ≠ 0 → (emitted id s.log ++ unsent s.active id).Sublist
    ((takenBy id s.log).map fun command => sentAs command.payload)

/-- Whether a transaction takes the place of another: nothing that admission looks at differs, but
for a set-up that is over. -/
def Replaces (x y : Transaction) : Prop :=
  x.owner = y.owner ∧ x.command = y.command ∧ (y.step = .setup → x.step = .setup)

namespace Forwarding

theorem unsent_le {active : Option Transaction}
    (hactive : ∀ y, active = some y → ∃ x, s.active = some x ∧ Replaces x y) (id : Nat) :
    (unsent active id).Sublist (unsent s.active id) := by
  cases active with
  | none => exact List.nil_sublist _
  | some y =>
    obtain ⟨x, hx, howner, hcommand, hstep⟩ := hactive y rfl
    unfold unsent
    rw [hx, Option.filter_some, Option.filter_some]
    by_cases hy : y.owner = id ∧ y.step = .setup
    · have hx' : x.owner = id ∧ x.step = .setup := ⟨howner.trans hy.1, hstep hy.2⟩
      simp [hy, hx', hcommand]
    · simp [hy]

/-- Nothing was forwarded; the active transaction is the same, or has been released. -/
theorem keep (hs : s.Forwarding) (h : Keeps (·.forwards = false) (·.scope) s t)
    (hconfig : t.config = s.config)
    (hactive : ∀ y, t.active = some y → ∃ x, s.active = some x ∧ Replaces x y) :
    t.Forwarding := by
  obtain ⟨notes, hlog, hnotes⟩ := h.log
  refine ⟨?_, fun id y hy => ?_, fun y hy => ?_, fun id hid => ?_⟩
  · rw [hlog, hconfig]
    exact hs.admitted.append fun past n hn => .of_quiet (hnotes n hn)
  · obtain ⟨x, hx, hxy⟩ := h.sessions id y hy
    rw [hlog, selectedScope_append fun n hn => .inl (hnotes n hn), ← hxy]
    exact hs.scope id x hx
  · obtain ⟨x, hx, howner, hcommand, -⟩ := hactive y hy
    rw [hlog, lastDispatch_append hnotes, hs.active x hx, howner, hcommand]
  · rw [hlog, emitted_append, emitted_eq_nil hnotes, List.append_nil, takenBy_quiet hnotes]
    exact ((List.Sublist.refl _).append (unsent_le hactive id)).trans (hs.sent id hid)

theorem refl_active : ∀ y, s.active = some y → ∃ x, s.active = some x ∧ Replaces x y :=
  fun y hy => ⟨y, hy, rfl, rfl, fun h => h⟩

theorem take (hs : s.Forwarding) (command : Command) : (s.take id command).Forwarding where
  admitted := hs.admitted.snoc trivial
  scope := by
    intro i y hy
    have hscope : ∀ i, selectedScope i (s.log ++ [.taken id command]) = selectedScope i s.log :=
      fun i => selectedScope_snoc _ _
    simp only [Broker.take, OrdMap.find?_modify] at hy ⊢
    rw [hscope]
    split at hy
    · obtain ⟨x, hx, rfl⟩ := Option.map_eq_some_iff.mp hy
      exact hs.scope i x hx
    · exact hs.scope i y hy
  active := by
    intro x hx
    simp only [Broker.take]
    rw [lastDispatch_snoc]
    exact hs.active x hx
  sent := by
    intro i hi
    simp only [Broker.take]
    rw [emitted_append, takenBy_append]
    have hnone : emitted i [.taken id command] = [] := rfl
    rw [hnone, List.append_nil, List.map_append]
    exact (hs.sent i hi).trans (List.sublist_append_left _ _)

theorem queue (hs : s.Forwarding) {payload : Bytes}
    (hcall : current s.log = some (.clientFrame id payload s.now)) :
    (s.queue id ⟨payload, s.now⟩).Forwarding where
  admitted := hs.admitted.snoc hcall
  scope := by
    intro i y hy
    simp only [Broker.queue, OrdMap.find?_modify] at hy ⊢
    rw [selectedScope_snoc]
    split at hy
    · obtain ⟨x, hx, rfl⟩ := Option.map_eq_some_iff.mp hy
      exact hs.scope i x hx
    · exact hs.scope i y hy
  active := by
    intro x hx
    simp only [Broker.queue]
    rw [lastDispatch_snoc]
    exact hs.active x hx
  sent := by
    intro i hi
    simp only [Broker.queue]
    rw [emitted_append, takenBy_append]
    have hnone : emitted i [.queued id ⟨payload, s.now⟩] = [] := rfl
    have hsame : takenBy i [.queued id ⟨payload, s.now⟩] = [] := rfl
    rw [hnone, hsame, List.append_nil, List.append_nil]
    exact hs.sent i hi

theorem send_setScope (s : Broker) (id : Nat) (scope payload : Bytes) (cause : Cause) :
    (s.setScope id scope).send id payload cause = (s.send id payload cause).setScope id scope := by
  simp only [Broker.send, setScope, OrdMap.modify_modify]

theorem select (hs : s.Forwarding) {scope : Bytes} (hscope : ScopeCommand scope) :
    ((s.setScope id scope).note (.selected id scope)).Forwarding where
  admitted := hs.admitted.snoc hscope
  scope := by
    intro i y hy
    have hselected : selectedScope i (s.log ++ [.selected id scope]) =
        if id = i then scope else selectedScope i s.log := selectedScope_snoc _ _
    simp only [Broker.note, setScope, OrdMap.find?_modify] at hy ⊢
    rw [hselected]
    split at hy
    · next hid =>
      obtain ⟨x, hx, rfl⟩ := Option.map_eq_some_iff.mp hy
      rw [if_pos hid.symm]
      exact ⟨rfl, fun _ => hscope⟩
    · next hid =>
      rw [if_neg (Ne.symm hid)]
      exact hs.scope i y hy
  active := by
    intro x hx
    simp only [Broker.note, setScope]
    rw [lastDispatch_snoc]
    exact hs.active x hx
  sent := by
    intro i hi
    have hquiet : takenBy i (s.log ++ [.selected id scope]) = takenBy i s.log := by
      rw [takenBy_append]
      exact List.append_nil _
    simp only [Broker.note, setScope]
    rw [emitted_append, hquiet]
    have hnone : emitted i [.selected id scope] = [] := rfl
    rw [hnone, List.append_nil]
    exact hs.sent i hi

theorem enter (hs : s.Forwarding) (hattended : s.Attended) (hfresh : Fresh id s.log)
    (slotId : Option Nat) : (s.enter id slotId).Forwarding := by
  have hnotes : ∀ n ∈ .admitted id slotId ::
      (if slotId.isNone then s.orphan.toList.map (Note.offered id) else []),
      n.forwards = false := by
    intro n hn
    rcases List.mem_cons.mp hn with rfl | hn
    · rfl
    · split at hn
      · obtain ⟨_, -, rfl⟩ := List.mem_map.mp hn
        rfl
      · cases hn
  refine ⟨hs.admitted.append fun past n hn => .of_quiet (hnotes n hn), fun i y hy => ?_,
    fun x hx => ?_, fun i hi => ?_⟩
  · simp only [Broker.enter, OrdMap.find?_insert] at hy ⊢
    rw [selectedScope_append fun n hn => .inl (hnotes n hn)]
    split at hy
    · next hid =>
      subst hid
      obtain rfl := Option.some.inj hy
      have hunused : selectedScope i ([] ++ s.log) = selectedScope i [] :=
        selectedScope_append fun n hn => .inr (hattended.unused hfresh n hn)
      rw [List.nil_append] at hunused
      rw [hunused]
      exact ⟨rfl, fun h => absurd rfl h⟩
    · exact hs.scope i y hy
  · simp only [Broker.enter]
    rw [lastDispatch_append hnotes]
    exact hs.active x hx
  · simp only [Broker.enter]
    rw [emitted_append, emitted_eq_nil hnotes, List.append_nil, takenBy_quiet hnotes]
    exact hs.sent i hi

/-- The active transaction sends its command, or the frame of a step that is not its command. -/
theorem sendUp (hs : s.Forwarding) {frame : Bytes} {x transaction : Transaction}
    (hx : s.active = some x) (howner : x.owner = transaction.owner)
    (hcommand : x.command = transaction.command)
    (hframe : (x.step = .setup ∧ transaction.step = .command ∧
        frame = sentAs transaction.command) ∨
      (transaction.step = .restore ∧ frame = defaultScope)) :
    (s.sendUp frame transaction).Forwarding where
  admitted := by
    refine hs.admitted.snoc ⟨rfl, ?_, ?_⟩
    · rw [hs.active x hx, howner, hcommand]
    · rcases hframe with ⟨-, hstep, rfl⟩ | ⟨hstep, rfl⟩
      · exact .inl ⟨hstep, rfl⟩
      · exact .inr (.inr ⟨hstep, rfl⟩)
  scope := by
    intro i y hy
    simp only [Broker.sendUp]
    rw [selectedScope_snoc]
    exact hs.scope i y hy
  active := by
    intro y hy
    obtain rfl := Option.some.inj hy
    simp only [Broker.sendUp]
    rw [lastDispatch_snoc, ← howner, ← hcommand]
    exact hs.active x hx
  sent := by
    intro i hi
    have hquiet : takenBy i (s.log ++
        [.upstream ⟨0, s.epoch, s.nextWrite + 1, frame⟩ transaction]) = takenBy i s.log := by
      rw [takenBy_append]
      exact List.append_nil _
    have hsent := hs.sent i hi
    simp only [Broker.sendUp]
    rw [hquiet, emitted_append]
    rcases hframe with ⟨hsetup, hstep, rfl⟩ | ⟨hstep, rfl⟩
    -- what was unsent has been emitted
    · rw [emitted_upstream, unsent_some]
      rw [hx, unsent_some] at hsent
      simpa [howner, hcommand, hsetup, hstep] using hsent
    · rw [emitted_upstream, unsent_some]
      have hless := (List.sublist_append_left _ _).trans hsent
      simpa [hstep] using hless

/-- A physical pop is dispatched. -/
theorem popDispatch (hs : s.Forwarding) {u : Broker} {transaction : Transaction}
    (howner : transaction.owner = 0) (hcommand : transaction.command = [cmdSyncNextMessage])
    (hstep : transaction.step = .command) (hidle : s.active = none)
    (hlog : u.log = s.log ++ [.dispatched transaction s.now])
    (hsessions : u.sessions = s.sessions) (hconfig : u.config = s.config) :
    (u.sendUp [cmdSyncNextMessage] transaction).Forwarding := by
  have hlast : lastDispatch u.log = some (transaction.owner, transaction.command) := by
    rw [hlog]
    exact lastDispatch_snoc _ _
  have hselected : ∀ i, selectedScope i u.log = selectedScope i s.log := fun i => by
    rw [hlog]
    exact selectedScope_snoc _ _
  have hemitted : ∀ i, emitted i u.log = emitted i s.log := fun i => by
    rw [hlog, emitted_append]
    exact List.append_nil _
  have htaken : ∀ i, takenBy i u.log = takenBy i s.log := fun i => by
    rw [hlog, takenBy_append]
    exact List.append_nil _
  have hadmitted : Justified (Cleared s.config) u.log := by
    rw [hlog]
    exact hs.admitted.snoc (.inl ⟨howner, hcommand⟩)
  refine ⟨?_, fun i y hy => ?_, fun x hx => ?_, fun i hi => ?_⟩
  · rw [← hconfig] at hadmitted
    refine hadmitted.snoc ⟨rfl, hlast, .inl ⟨hstep, ?_⟩⟩
    rw [hcommand]
    rfl
  · simp only [Broker.sendUp]
    rw [selectedScope_snoc, hselected]
    exact hs.scope i y (hsessions ▸ hy)
  · obtain rfl := Option.some.inj hx
    exact (lastDispatch_snoc _ _).trans hlast
  · have hsent := hs.sent i hi
    rw [hidle] at hsent
    have hother : ¬ (transaction.owner = i ∧ transaction.step = .command) :=
      fun h => hi (h.1.symm.trans howner)
    have hactive : ¬ (transaction.owner = i ∧ transaction.step = .setup) :=
      fun h => hi (h.1.symm.trans howner)
    simp only [Broker.sendUp]
    rw [emitted_append, hemitted, emitted_upstream, if_neg hother, unsent_some, if_neg hactive,
      takenBy_append, htaken, List.append_nil, List.append_nil]
    exact ((List.sublist_append_left _ _).trans hsent).trans (by simp [takenBy])

/-- A client's command is dispatched. -/
theorem dispatch (hs : s.Forwarding) {session : Session} {command : Command}
    {descriptor : CommandDescriptor} {transaction : Transaction} {frame : Bytes}
    (radio : CompanionRadioState) (signing : SigningLease)
    (hid : id ≠ 0) (hidle : s.active = none) (h : s.Head id session command)
    (hforward : Forwardable s.config s.now command)
    (howner : transaction.owner = id) (hcommand : transaction.command = command.payload)
    (hscoped : transaction.isScoped = decide
      (descriptor.flags.scopeSend = true ∧ session.scope ≠ defaultScope))
    (hstep : transaction.step =
      if descriptor.flags.scopeSend = true ∧ session.scope ≠ defaultScope then .setup else .command)
    (hframe : if transaction.isScoped then frame = session.scope
      else forwarded command.payload = .ok frame) :
    (((s.take id command).claim transaction radio signing).sendUp frame transaction).Forwarding := by
  have hlast : lastDispatch (s.log ++ [.taken id command] ++ [.dispatched transaction s.now])
      = some (transaction.owner, transaction.command) := lastDispatch_snoc _ _
  have hselected : ∀ i, selectedScope i
      (s.log ++ [.taken id command] ++ [.dispatched transaction s.now]) = selectedScope i s.log :=
    fun i => (selectedScope_snoc _ _).trans (selectedScope_snoc _ _)
  obtain ⟨hscope, hvalid⟩ := hs.scope id session h.live
  have htaken : Justified (Cleared s.config) (s.log ++ [.taken id command]) :=
    hs.admitted.snoc trivial
  have hkind : (transaction.step = .setup ∧ frame = session.scope ∧ ScopeCommand frame) ∨
      (transaction.step = .command ∧ frame = sentAs command.payload) := by
    by_cases hwrapped : descriptor.flags.scopeSend = true ∧ session.scope ≠ defaultScope
    · rw [hscoped, if_pos (by simpa using hwrapped)] at hframe
      exact .inl ⟨hstep.trans (if_pos hwrapped), hframe, hframe ▸ hvalid hwrapped.2⟩
    · rw [hscoped, if_neg (by simpa using hwrapped)] at hframe
      exact .inr ⟨hstep.trans (if_neg hwrapped), forwarded_eq hframe⟩
  subst howner
  refine ⟨(htaken.snoc ?_).snoc ⟨rfl, hlast, ?_⟩, fun i y hy => ?_,
    fun x hx => ?_, fun i hi => ?_⟩
  · exact .inr ⟨hid, _, command, rfl, hcommand, hforward⟩
  · rcases hkind with ⟨hsetup, hframe, hvalid⟩ | ⟨hcommand', hframe⟩
    · refine .inr (.inl ⟨hsetup, hid, hvalid, ?_⟩)
      exact hframe.trans (hscope.trans (hselected _).symm)
    · exact .inl ⟨hcommand', hframe.trans (congrArg sentAs hcommand.symm)⟩
  · simp only [Broker.sendUp, claim, Broker.take, OrdMap.find?_modify] at hy ⊢
    rw [selectedScope_snoc, hselected]
    split at hy
    · obtain ⟨x, hx, rfl⟩ := Option.map_eq_some_iff.mp hy
      exact hs.scope i x hx
    · exact hs.scope i y hy
  · obtain rfl := Option.some.inj hx
    exact (lastDispatch_snoc _ _).trans hlast
  · have hsent := hs.sent i hi
    rw [hidle] at hsent
    replace hsent := (List.sublist_append_left _ _).trans hsent
    have hemitted : emitted i (s.log ++ [.taken transaction.owner command] ++
        [.dispatched transaction s.now]) = emitted i s.log := by
      rw [emitted_append, emitted_append]
      exact (List.append_nil _).trans (List.append_nil _)
    have htaken : takenBy i (s.log ++ [.taken transaction.owner command] ++
        [.dispatched transaction s.now] ++
        [.upstream ⟨0, s.epoch, s.nextWrite + 1, frame⟩ transaction]) =
        takenBy i s.log ++ takenBy i [.taken transaction.owner command] := by
      rw [takenBy_append, takenBy_append, takenBy_append]
      exact (List.append_nil _).trans (List.append_nil _)
    simp only [Broker.sendUp, claim, Broker.take]
    rw [htaken, emitted_append, hemitted, emitted_upstream, unsent_some, List.map_append,
      List.append_assoc]
    refine hsent.append ?_
    by_cases howner : transaction.owner = i
    · rcases hkind with ⟨hsetup, -⟩ | ⟨hcommand', rfl⟩
      · simp [howner, hsetup, hcommand, takenBy]
      · simp [howner, hcommand', takenBy]
    · simp [howner]

theorem upstream (hs : s.Forwarding) (hwf : s.WF) (h : Upstream s t) : t.Forwarding := by
  have hforwarded {transaction : Transaction} {payload : Bytes} {w : Option Nat} {t : Broker}
      (ht : s.Forwarded transaction payload w t) : t.Forwarding := by
    refine hs.keep (.forwarded ht (fun _ _ => rfl) (fun _ _ => rfl) fun _ => rfl)
      (Fixed.forwarded ht).config ?_
    rw [ht.frame.2.1]
    exact refl_active
  cases h with
  | @popDispatched descriptor transaction _ hidle _ _ _ htransaction =>
    subst htransaction
    exact hs.popDispatch (by rfl) (by rfl) (by rfl) hidle (by rfl) (by rfl) (by rfl)
  | dispatched hidle h hforward _ hreserves htransaction hframe =>
    subst htransaction
    exact hs.dispatch _ _ (fun hid => hwf.positive (hid ▸ OrdMap.mem_keys_of_find? h.live)) hidle h hforward rfl rfl rfl rfl hframe
  | setupRejected _ _ _ _ _ _ ht =>
    refine (hforwarded ht).keep (.notes (m := [_]) rfl rfl (by simp [Note.forwards])) rfl ?_
    exact fun _ hy => nomatch hy
  | @setupAccepted transaction _ hactive _ hstep _ hframe =>
    have hreplied : (s.note (.replied [respOk] s.now)).Forwarding :=
      hs.keep (.note rfl) rfl refl_active
    exact hreplied.sendUp hactive rfl rfl (.inl ⟨hstep, rfl, forwarded_eq hframe⟩)
  | restored =>
    refine hs.keep (.notes (m := [_]) rfl rfl (by simp [Note.forwards])) rfl ?_
    exact fun _ hy => nomatch hy
  | progressed hreplied ht =>
    refine (hforwarded ht).keep (.notes (m := [_]) rfl rfl (by simp [Note.forwards])) rfl ?_
    intro y hy
    obtain rfl := Option.some.inj hy
    exact ⟨_, ht.frame.2.1.trans hreplied.active, rfl, rfl, fun h => h⟩
  | @scopedReply t transaction payload _ _ radio signing hreplied ht =>
    have hsettled : Forwarding ({ t with radio := radio, signing := signing }.note
        (.replied payload s.now)) :=
      (hforwarded ht).keep (.notes rfl rfl (by simp [Note.forwards])) rfl refl_active
    exact hsettled.sendUp (ht.frame.2.1.trans hreplied.active) rfl rfl (.inr ⟨rfl, rfl⟩)
  | heldReply hreplied ht =>
    refine (hforwarded ht).keep (.notes (m := [_]) rfl rfl (by simp [Note.forwards])) rfl ?_
    intro y hy
    obtain rfl := Option.some.inj hy
    exact ⟨_, ht.frame.2.1.trans hreplied.active, rfl, rfl, fun h => nomatch h⟩
  | finalReply hreplied ht =>
    refine (hforwarded ht).keep (.notes (m := [_]) rfl rfl (by simp [Note.forwards])) rfl ?_
    exact fun _ hy => nomatch hy

/-- Nothing was forwarded, and the transaction is the same. -/
theorem calm (hs : s.Forwarding) (h : Keeps (·.forwards = false) (·.scope) s t)
    (hfixed : s.Fixed t) (hactive : t.active = s.active) : t.Forwarding :=
  hs.keep h hfixed.config (hactive ▸ refl_active)

end Forwarding

/-- **What goes upstream is admitted** in every state. -/
theorem Stepwise.forwarding : Stepwise (Reached s₀) Forwarding where
  report := fun _ hs => { hs with }
  input := fun _ _ hs => hs.keep (.note rfl) rfl Forwarding.refl_active
  clock := fun _ _ hs => { hs with }
  idle := by
    intro s t _ h hs
    refine hs.keep (.idle h (fun _ _ => rfl) (fun _ _ => rfl) fun _ _ => rfl)
      (Fixed.idle h).config ?_
    intro y hy
    cases h with
    | writtenUp =>
      obtain ⟨x, hx, rfl⟩ := Option.map_eq_some_iff.mp hy
      refine ⟨x, hx, ?_⟩
      split <;> exact ⟨rfl, rfl, fun h => h⟩
    | proved hactive | touched _ _ hactive =>
      obtain rfl := Option.some.inj hy
      exact ⟨_, hactive, rfl, rfl, fun h => h⟩
    | _ => exact Forwarding.refl_active y hy
  output := by
    intro s t _ h hs
    refine hs.calm (.output h (fun _ _ => rfl) (fun _ _ => rfl) (fun _ _ => rfl) fun _ => rfl)
      (.output h) ?_
    cases h with
    | drop | hint => rfl
  client := by
    intro s t hK h hs
    cases h with
    | entered _ _ _ hfresh => exact hs.enter hK.attended hfresh _
    | queued _ _ _ hcall => exact hs.queue hcall
    | answered => exact (hs.take _).calm (.send (fun _ _ => rfl) rfl) (.send _ _ _) rfl
    | @selected id _ command _ _ hvalid hop =>
      rw [Forwarding.send_setScope]
      have hsent : ((s.take id command).send id [respOk] .answer).Forwarding :=
        (hs.take _).calm (.send (fun _ _ => rfl) rfl) (.send _ _ _) rfl
      exact hsent.select ⟨hvalid, hop⟩
    | choked => exact (hs.take _).calm (.drop rfl) (.drop _ _ _) rfl
    | @waits id _ command deadline =>
      have hwaiting : Keeps (·.forwards = false) (·.scope) (s.take id command)
          { s.take id command with
            sessions := (s.take id command).sessions.modify id fun x =>
              { x with sync := some ⟨s.popSequence + 1, deadline⟩ } } := .modify fun _ => rfl
      refine (hs.take _).keep (hwaiting.trans ?_) rfl Forwarding.refl_active
      exact .notes (m := [.synced id ⟨s.popSequence + 1, deadline⟩]) rfl rfl
        (by simp [Note.forwards])
    | delivered =>
      refine Forwarding.calm ?_ (.shiftInbox (fun _ _ => rfl) fun _ => rfl) (.shiftInbox _ _ _)
        Shrinks.shiftInbox.active
      exact (hs.take _).calm (.send (fun _ _ => rfl) rfl) (.send _ _ _) rfl
    | @syncExpired id =>
      have hended : Keeps (·.forwards = false) (·.scope) s (s.endSync id) := .modify fun _ => rfl
      exact hs.keep (hended.trans (.send (fun _ _ => rfl) rfl)) rfl Forwarding.refl_active
    | broadcast => exact hs.calm (.send (fun _ _ => rfl) rfl) (.send _ _ _) rfl
  radio := by
    intro s t _ h hs
    refine hs.calm (.radio h (fun _ _ => rfl) (fun _ => rfl) (fun _ _ => rfl) fun _ => rfl)
      (.radio h) ?_
    cases h <;> rfl
  part := by
    intro s t hK h hs
    cases h with
    | dropped => exact hs.calm (.drop rfl) (.drop _ _ _) rfl
    | released => exact hs.keep (.same rfl rfl) rfl fun _ hy => nomatch hy
    | writtenDown =>
      exact hs.calm (.writtenDown (fun _ _ => rfl) fun _ _ => rfl) (.writtenDown _ _) rfl
    | upstream h => exact hs.upstream hK.wf h
    | failed =>
      exact hs.keep (.notes (m := [_]) rfl rfl (by simp [Note.forwards])) rfl
        fun _ hy => nomatch hy
  took := fun _ _ hs => hs.keep (.notes (m := [_]) rfl rfl (by simp [Note.forwards])) rfl
    fun _ hy => nomatch hy
  pop := by
    intro s t transaction payload _ _ _ h hs
    refine hs.calm (.pop h (fun _ _ => rfl) (fun _ _ => rfl) (fun _ _ => rfl) (fun _ _ => rfl) ?_)
      (.pop h) ?_
    · intro n hn
      cases n with
      | upstream | dispatched | queued | taken | selected => cases hn
      | _ => rfl
    · exact (Shrinks.of_pop h).active
  closes := by
    intro s t transaction payload _ h hs
    refine hs.calm (.closes h rfl) (.closes h) ?_
    cases h <;> rfl

theorem Starts.forwarding (h : s.Starts) : s.Forwarding := by
  obtain ⟨epoch, selfKey, config, now, orphan, slots, radio, rfl⟩ := h.fresh
  exact ⟨.nil, fun _ _ hlive => (nomatch hlive), fun _ hactive => (nomatch hactive),
    fun _ _ => List.Sublist.refl _⟩

theorem Reached.forwarding (h : Reached s₀ s) : s.Forwarding :=
  Stepwise.forwarding.holds Starts.forwarding h

end Broker

end MeshCoreTCPMux

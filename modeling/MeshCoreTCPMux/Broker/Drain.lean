import MeshCoreTCPMux.Broker.Waits

/-!
# The drain of the companion's inbox

A wait carries the number of the first pop that may answer it (`PendingSync.minimumPop`).

* `empty_answers_fresh` — a `NO_MORE_MESSAGES` reaches a session only when its own wait has come to
  its end.
* `sync_never_stranded` — while a session waits, a pop that answers it is requested or under way, and
  an item that a pop brings ends every wait.
-/

namespace MeshCoreTCPMux

open Protocol Program Relation History

namespace Broker

variable {s s₀ t u : Broker} {l m : List Note} {n : Note} {id : Nat} {x transaction : Transaction}
  {payload : Bytes}

/-! ### What a wait relies on -/

/-- An empty answer comes when the wait of its session has come to its end, and there is nothing
that the session could consume. -/
def Timely (s₀ : Broker) (past : List Note) : Note → Prop
  | .sent frame _ => frame.payload = [respNoMoreMessages] →
      wait frame.session past = some .emptied ∧
      ∃ u session, Reached s₀ u ∧ u.log = past ∧ u.sessions.find? frame.session = some session ∧
        session.sync.isSome = true ∧ u.inboxFor? session = some []
  | _ => True

theorem Timely.of_quiet (hn : n.empties = false) : Timely s₀ l n := by
  cases n with
  | sent frame => exact fun hempty => absurd hempty (of_decide_eq_false hn)
  | _ => trivial

/-- A wait began with a sync that the history shows, it may be answered by the next pop, and the
drain is authorized. -/
structure Draining (s₀ s : Broker) : Prop where
  bound : ∀ id sync, s.Pending id sync → sync.minimumPop ≤ s.popSequence + 1
  authorized : ∀ id sync, s.Pending id sync → s.drainAuthorized = true
  waits : ∀ id sync, s.Pending id sync → (wait id s.log).isSome = true
  fresh : Justified (Timely s₀) s.log

/-- A wait keeps its place while its session stays. -/
theorem Loosens.wait_eq {sync : PendingSync} (h : Loosens s t) (hpending : t.Pending id sync) :
    wait id t.log = wait id s.log := by
  obtain ⟨-, ⟨notes, hlog, hnotes⟩, -⟩ := h.pending id sync hpending
  rw [hlog, wait_append hnotes]

theorem Draining.loosen (hs : Draining s₀ s) (h : Loosens s t)
    (hfresh : Justified (Timely s₀) t.log) : Draining s₀ t where
  bound := fun id sync hpending =>
    h.sequence ▸ hs.bound id sync (h.pending id sync hpending).1
  authorized := fun id sync hpending =>
    have hbefore := h.pending id sync hpending
    hbefore.2.2.1 (hs.authorized id sync hbefore.1)
  waits := fun id sync hpending => by
    rw [h.wait_eq hpending]
    exact hs.waits id sync (h.pending id sync hpending).1
  fresh := hfresh

theorem Draining.fresh_of_quiet (hs : Draining s₀ s) (h : Adds (·.empties = false) s t) :
    Justified (Timely s₀) t.log := by
  obtain ⟨notes, hlog, hnotes⟩ := h
  rw [hlog]
  exact hs.fresh.append fun _ n hn => .of_quiet (hnotes n hn)

theorem Draining.relax (hs : Draining s₀ s) (h : Slackens s t) : Draining s₀ t :=
  hs.loosen h.toLoosens (hs.fresh_of_quiet h.quiet)

/-- **While a session waits, a pop that answers it is requested or under way.** -/
structure Pumped (s₀ s : Broker) : Prop extends Draining s₀ s where
  client : ∀ x, s.active = some x → x.owner ≠ 0 → opcode x.command ≠ cmdSyncNextMessage
  latest : ∀ x, s.active = some x → x.owner = 0 → x.popSequence = s.popSequence
  covered : ∀ id sync x, s.Pending id sync → s.active = some x → x.owner = 0 →
    sync.minimumPop ≤ x.popSequence → wait id s.log = some .covered
  coming : ∀ id sync, s.Pending id sync → s.drainRequested = true ∨
    ∃ x, s.active = some x ∧ x.owner = 0 ∧ sync.minimumPop ≤ x.popSequence

/-- Only what a transaction is about matters here. -/
theorem active_of_core (hcore : t.active.map Transaction.core = s.active.map Transaction.core)
    (hx : t.active = some x) : ∃ y, s.active = some y ∧ y.owner = x.owner ∧
      y.command = x.command ∧ y.popSequence = x.popSequence := by
  rw [hx] at hcore
  obtain ⟨y, hy, hyx⟩ := Option.map_eq_some_iff.mp hcore.symm
  have howner : y.core.owner = x.core.owner := congrArg Transaction.owner hyx
  have hcommand : y.core.command = x.core.command := congrArg Transaction.command hyx
  have hpop : y.core.popSequence = x.core.popSequence := congrArg Transaction.popSequence hyx
  exact ⟨y, hy, howner, hcommand, hpop⟩

namespace Pumped

theorem relax (hs : Pumped s₀ s) (h : Slackens s t)
    (hcore : t.active.map Transaction.core = s.active.map Transaction.core) : Pumped s₀ t where
  toDraining := hs.toDraining.relax h
  client := fun x hx howner => by
    obtain ⟨y, hy, howner', hcommand, -⟩ := active_of_core hcore hx
    rw [← hcommand]
    exact hs.client y hy (howner' ▸ howner)
  latest := fun x hx howner => by
    obtain ⟨y, hy, howner', -, hpop⟩ := active_of_core hcore hx
    rw [← hpop, h.sequence]
    exact hs.latest y hy (howner'.trans howner)
  covered := fun id sync x hpending hx howner hminimum => by
    obtain ⟨y, hy, howner', -, hpop⟩ := active_of_core hcore hx
    rw [h.wait_eq hpending]
    exact hs.covered id sync y (h.pending id sync hpending).1 hy (howner'.trans howner)
      (hpop ▸ hminimum)
  coming := fun id sync hpending => by
    obtain ⟨hbefore, -, -, hrequested⟩ := h.pending id sync hpending
    rcases hs.coming id sync hbefore with hwas | ⟨y, hy, howner, hminimum⟩
    · exact .inl (hrequested hwas)
    · obtain ⟨x, hx, howner', -, hpop⟩ := active_of_core hcore.symm hy
      exact .inr ⟨x, hx, howner'.trans howner, hpop ▸ hminimum⟩

theorem input (hs : Pumped s₀ s) (event : Event) : Pumped s₀ (s.note (.input event)) where
  bound := hs.bound
  authorized := hs.authorized
  waits := fun id sync hpending => by
    rw [Broker.note, wait_snoc]
    exact Option.isSome_map.trans (hs.waits id sync hpending)
  fresh := hs.fresh.snoc trivial
  client := hs.client
  latest := hs.latest
  covered := fun id sync x hpending hx howner hminimum => by
    rw [Broker.note, wait_snoc, hs.covered id sync x hpending hx howner hminimum]
    rfl
  coming := hs.coming

/-- A sync that finds nothing starts a wait. -/
theorem waiting (hs : Pumped s₀ s) {session : Session} {command : Command} (deadline : Time)
    (hhead : s.Head id session command) :
    Pumped s₀ ((s.take id command).startSync id ⟨s.popSequence + 1, deadline⟩) := by
  -- Whoever waits is the session itself, or waited before.
  have hpending : ∀ i sync,
      ((s.take id command).startSync id ⟨s.popSequence + 1, deadline⟩).Pending i sync →
      (i = id ∧ sync.minimumPop = s.popSequence + 1) ∨ (id ≠ i ∧ s.Pending i sync) := by
    rintro i sync ⟨y, hy, hsync⟩
    simp only [startSync, OrdMap.find?_modify] at hy
    split at hy
    · next hi =>
      obtain ⟨x, -, rfl⟩ := Option.map_eq_some_iff.mp hy
      exact .inl ⟨hi, (Option.some.inj hsync) ▸ rfl⟩
    · next hi =>
      exact .inr ⟨Ne.symm hi, (Slackens.take.pending i sync ⟨y, hy, hsync⟩).1⟩
  have hlog : ((s.take id command).startSync id ⟨s.popSequence + 1, deadline⟩).log =
      s.log ++ [.taken id command, .synced id ⟨s.popSequence + 1, deadline⟩] :=
    List.append_assoc _ _ _
  have hwait : ∀ i, id ≠ i → wait i
      ((s.take id command).startSync id ⟨s.popSequence + 1, deadline⟩).log = wait i s.log :=
    fun i hi => by
      rw [hlog]
      exact wait_append (by simp [Note.concerns, hi])
  refine
    { bound := fun i sync h => ?_
      authorized := fun _ _ _ => rfl
      waits := fun i sync h => ?_
      fresh := ?_
      client := hs.client
      latest := hs.latest
      covered := fun i sync x h hx howner hminimum => ?_
      coming := fun _ _ _ => .inl rfl }
  · rcases hpending i sync h with ⟨-, hnew⟩ | ⟨-, hold⟩
    · exact hnew.le
    · exact hs.bound i sync hold
  · rcases hpending i sync h with ⟨rfl, -⟩ | ⟨hi, hold⟩
    · rw [startSync, wait_snoc, Note.wait, if_pos rfl]
      rfl
    · rw [hwait i hi]
      exact hs.waits i sync hold
  · rw [hlog]
    exact hs.fresh.append fun _ n hn => .of_quiet (by
      rcases List.mem_pair.mp hn with rfl | rfl <;> rfl)
  · rcases hpending i sync h with ⟨-, hnew⟩ | ⟨hi, hold⟩
    · -- The pop that is under way is older than this wait.
      have hlatest := hs.latest x hx howner
      omega
    · rw [hwait i hi]
      exact hs.covered i sync x hold hx howner hminimum

/-- Nobody waits. -/
theorem of_free (hfree : ∀ id sync, ¬ s.Pending id sync)
    (hfresh : Justified (Timely s₀) s.log)
    (hclient : ∀ x, s.active = some x → x.owner ≠ 0 → opcode x.command ≠ cmdSyncNextMessage)
    (hlatest : ∀ x, s.active = some x → x.owner = 0 → x.popSequence = s.popSequence) :
    Pumped s₀ s where
  bound := fun id sync h => absurd h (hfree id sync)
  authorized := fun id sync h => absurd h (hfree id sync)
  waits := fun id sync h => absurd h (hfree id sync)
  fresh := hfresh
  client := hclient
  latest := hlatest
  covered := fun id sync _ h => absurd h (hfree id sync)
  coming := fun id sync h => absurd h (hfree id sync)

/-- A client's transaction goes on or ends. -/
theorem served (hs : Pumped s₀ s) (hactive : s.active = some x) (howner : x.owner ≠ 0)
    (hpending : ∀ id sync, t.Pending id sync → s.Pending id sync) (hdrain : SameDrain s t)
    (hadds : Adds (fun n => n.relays = true ∧ n.empties = false) s t)
    (hnext : t.active = none ∨
      ∃ y, t.active = some y ∧ y.owner = x.owner ∧ y.command = x.command) :
    Pumped s₀ t :=
  have hclient : ∀ y, t.active = some y → y.owner ≠ 0 := fun y hy hzero => by
    rcases hnext with hnone | ⟨z, hz, howner', -⟩
    · exact nomatch hnone.symm.trans hy
    · obtain rfl := Option.some.inj (hz.symm.trans hy)
      exact howner (howner'.symm.trans hzero)
  { bound := fun id sync h => hdrain.sequence ▸ hs.bound id sync (hpending id sync h)
    authorized := fun id sync h => hdrain.authorized.trans (hs.authorized id sync (hpending id sync h))
    waits := fun id sync h => by
      obtain ⟨notes, hlog, hnotes⟩ := hadds
      rw [hlog, isSome_wait_append fun n hn => (hnotes n hn).1]
      exact hs.waits id sync (hpending id sync h)
    fresh := hs.fresh_of_quiet (hadds.mono fun _ hn => hn.2)
    client := fun y hy _ => by
      rcases hnext with hnone | ⟨z, hz, -, hcommand⟩
      · exact nomatch hnone.symm.trans hy
      · obtain rfl := Option.some.inj (hz.symm.trans hy)
        exact hcommand ▸ hs.client x hactive howner
    latest := fun y hy hzero => absurd hzero (hclient y hy)
    covered := fun _ _ y _ hy hzero => absurd hzero (hclient y hy)
    coming := fun id sync h => by
      rcases hs.coming id sync (hpending id sync h) with hwas | ⟨y, hy, hzero, -⟩
      · exact .inl (hdrain.requested.trans hwas)
      · obtain rfl := Option.some.inj (hactive.symm.trans hy)
        exact absurd hzero howner }

end Pumped

/-- The companion's reply to a client's command never says that there is nothing. -/
theorem Pumped.reply_ne_empty (hs : Pumped s₀ s) (hwf : s.WF) (hactive : s.active = some x)
    (howner : x.owner ≠ 0) {phase : Nat} {disposition : ResponseDisposition}
    (hvalid : validateResponse x.descriptor payload x.command phase = .ok disposition) :
    opcode payload ≠ respNoMoreMessages := by
  have table : ∀ d ∈ remoteTelemetry :: descriptors, ∀ code ∈ d.successCodes,
      code = respNoMoreMessages → d.opcode = cmdSyncNextMessage := by
    simp only [← List.all_iff_forall_prop]
    decide
  intro hempty
  rcases reply_cases hvalid with ⟨herr, -⟩ | hcode
  · rw [hempty] at herr
    exact absurd herr (by decide)
  · obtain ⟨hmem, hop⟩ := mem_descriptors (hwf.active x hactive).shape.descriptor
    exact hs.client x hactive howner (hop ▸ table _ hmem _ hcode hempty)

theorem visibleReply_ne_empty {visible : Bytes} (h : visibleReply payload = .ok visible)
    (hpayload : opcode payload ≠ respNoMoreMessages) : visible ≠ [respNoMoreMessages] := by
  unfold visibleReply at h
  split at h
  · next hinfo =>
    unfold downstreamDeviceInfo at h
    obtain ⟨level, -, h⟩ := Except.bind_eq_ok.mp h
    obtain rfl := Except.ok.inj h
    cases payload with
    | nil => exact nofun
    | cons code rest =>
      intro hempty
      exact hpayload (List.cons.inj hempty).1
  · obtain rfl := Except.ok.inj h
    exact ne_empty_of_opcode hpayload

theorem Forwarded.speaks {w : Option Nat} (h : s.Forwarded x payload w t)
    (hpayload : opcode payload ≠ respNoMoreMessages) :
    Adds (fun n => n.relays = true ∧ n.empties = false) s t := by
  rcases h.log with ⟨-, heq⟩ | ⟨frame, -, heq, -, -, hvisible⟩
  · exact .refl heq
  · refine .one heq ⟨rfl, ?_⟩
    exact decide_eq_false (visibleReply_ne_empty hvisible hpayload)

theorem Forwarded.sameDrain {w : Option Nat} (h : s.Forwarded x payload w t) : SameDrain s t := by
  cases h with
  | gone => exact ⟨rfl, rfl, rfl⟩
  | live =>
    simp only [retarget]
    split <;> exact ⟨rfl, rfl, rfl⟩

/-- Sending commands up and taking replies starts no wait. -/
theorem Upstream.pending (h : Upstream s t) {sync : PendingSync} (hpending : t.Pending id sync) :
    s.Pending id sync := by
  have hforwarded : ∀ {u : Broker} {y : Transaction} {reply : Bytes} {w : Option Nat},
      s.Forwarded y reply w u → u.Pending id sync → s.Pending id sync := by
    rintro u y reply w hu ⟨z, hz, hsync⟩
    have hkeeps : Keeps (fun _ => True) (·.sync) s u :=
      .forwarded hu (fun _ _ => rfl) (fun _ _ => rfl) fun _ => trivial
    obtain ⟨before, hbefore, heq⟩ := hkeeps.sessions id z hz
    exact ⟨before, hbefore, heq.trans hsync⟩
  cases h with
  | popDispatched | setupAccepted | restored => exact hpending
  | @dispatched i _ command =>
    have htook : Slackens s (s.take i command) := .take
    exact (htook.pending id sync hpending).1
  | setupRejected _ _ _ _ _ _ ht | progressed _ ht | scopedReply _ ht | heldReply _ ht
    | finalReply _ ht => exact hforwarded ht hpending

/-- The turn of the internal inbox consumer. -/
theorem Pumped.popDispatched (hs : Pumped s₀ s) {radio : CompanionRadioState}
    {signing : SigningLease} {frame : Bytes} (howner : x.owner = 0)
    (hsequence : x.popSequence = s.popSequence + 1) :
    Pumped s₀ (({ s with drainRequested := false, popSequence := s.popSequence + 1 }.claim x radio
      signing).sendUp frame x) where
  bound := fun id sync h => Nat.le_succ_of_le (hs.bound id sync h)
  authorized := hs.authorized
  waits := fun id sync h => by
    simp only [sendUp, claim, wait_snoc, Note.wait, Option.isSome_map]
    exact hs.waits id sync h
  fresh := hs.fresh.snoc₂ trivial trivial
  client := fun y hy hclient => by
    obtain rfl := Option.some.inj hy
    exact absurd howner hclient
  latest := fun y hy _ => by
    obtain rfl := Option.some.inj hy
    exact hsequence
  covered := fun id sync y h _ _ _ => by
    obtain ⟨w, hw⟩ := Option.isSome_iff_exists.mp (hs.waits id sync h)
    simp only [sendUp, claim, wait_snoc, Note.wait, hw, Option.map_some, if_pos howner]
  coming := fun id sync h => .inr ⟨_, rfl, howner, hsequence ▸ hs.bound id sync h⟩

/-- The turn of a client's command. -/
theorem Pumped.dispatched (hs : Pumped s₀ s) {command : Command} {radio : CompanionRadioState}
    {signing : SigningLease} {frame : Bytes} (hidle : s.active = none) (howner : x.owner ≠ 0)
    (hcommand : opcode x.command ≠ cmdSyncNextMessage) :
    Pumped s₀ (((s.take id command).claim x radio signing).sendUp frame x) := by
  have htook : Slackens s (s.take id command) := .take
  refine
    { bound := fun i sync h => ?_
      authorized := fun i sync h => ?_
      waits := fun i sync h => ?_
      fresh := ?_
      client := fun y hy _ => ?_
      latest := fun y hy hzero => ?_
      covered := fun i sync y _ hy hzero => ?_
      coming := fun i sync h => ?_ }
  · exact hs.bound i sync (htook.pending i sync h).1
  · exact hs.authorized i sync (htook.pending i sync h).1
  · simp only [sendUp, claim, take, wait_snoc, Note.wait, Option.isSome_map]
    exact hs.waits i sync (htook.pending i sync h).1
  · have htaken : Justified (Timely s₀) (s.log ++ [.taken id command]) := hs.fresh.snoc trivial
    exact htaken.snoc₂ trivial trivial
  · obtain rfl := Option.some.inj hy
    exact hcommand
  · obtain rfl := Option.some.inj hy
    exact absurd hzero howner
  · obtain rfl := Option.some.inj hy
    exact absurd hzero howner
  · rcases hs.coming i sync (htook.pending i sync h).1 with hwas | ⟨y, hy, -⟩
    · exact .inl hwas
    · cases hidle.symm.trans hy

theorem Pumped.upstream (hs : Pumped s₀ s) (hwf : s.WF) (h : Upstream s t) : Pumped s₀ t := by
  have hpending : ∀ id sync, t.Pending id sync → s.Pending id sync := fun _ _ => h.pending
  -- The reply to a scope frame, and the next frame, tell nobody that there is nothing.
  have hclient : ∀ {y : Transaction}, s.active = some y → y.step ≠ .command → y.owner ≠ 0 :=
    fun hy hstep hzero => hstep ((hwf.active _ hy).pop hzero).1
  have hspeaks : ∀ {y : Transaction} {reply : Bytes} {disposition : ResponseDisposition}
      {started : Bool} {w : Option Nat} {u : Broker},
      s.Replied y reply disposition started → s.Forwarded y reply w u →
      Adds (fun n => n.relays = true ∧ n.empties = false) s u := fun hreplied ht =>
    ht.speaks (hs.reply_ne_empty hwf hreplied.active hreplied.client hreplied.valid)
  cases h with
  | @popDispatched _ transaction _ _ _ _ _ htransaction =>
    subst htransaction
    exact hs.popDispatched rfl rfl
  | @dispatched id _ _ _ _ _ transaction _ hidle hhead hforward _ _ htransaction =>
    have hid : id ≠ 0 := by
      rintro rfl
      exact hwf.positive (OrdMap.mem_keys_of_find? hhead.live)
    subst htransaction
    exact hs.dispatched hidle hid hforward.not_sync
  | setupRejected hactive _ hstep _ _ herr ht =>
    have hreply := ht.speaks (by rw [herr]; decide)
    exact hs.served hactive (hclient hactive (by simp [hstep])) hpending { ht.sameDrain with }
      (hreply.trans (.one rfl ⟨rfl, rfl⟩)) (.inl rfl)
  | setupAccepted hactive _ hstep =>
    exact hs.served hactive (hclient hactive (by simp [hstep])) hpending ⟨rfl, rfl, rfl⟩
      ⟨[_, _], List.append_assoc _ _ _, by simp [Note.relays, Note.empties]⟩
      (.inr ⟨_, rfl, rfl, rfl⟩)
  | restored hactive _ hstep =>
    exact hs.served hactive (hclient hactive (by simp [hstep])) hpending ⟨rfl, rfl, rfl⟩
      (.one rfl ⟨rfl, rfl⟩) (.inl rfl)
  | progressed h ht | heldReply h ht =>
    exact hs.served h.active h.client hpending { ht.sameDrain with }
      ((hspeaks h ht).trans (.one rfl ⟨rfl, rfl⟩)) (.inr ⟨_, rfl, rfl, rfl⟩)
  | scopedReply h ht =>
    exact hs.served h.active h.client hpending { ht.sameDrain with } ((hspeaks h ht).trans
      ⟨[_, _], List.append_assoc _ _ _, by simp [Note.relays, Note.empties]⟩)
      (.inr ⟨_, rfl, rfl, rfl⟩)
  | finalReply h ht =>
    exact hs.served h.active h.client hpending { ht.sameDrain with }
      ((hspeaks h ht).trans (.one rfl ⟨rfl, rfl⟩)) (.inl rfl)

theorem Pumped.part (hs : Pumped s₀ s) (hwf : s.WF) (h : Part s t) : Pumped s₀ t := by
  cases h with
  | dropped => exact hs.relax .drop rfl
  | @released transaction hactive hstep =>
    have howner : transaction.owner ≠ 0 := fun hzero => by
      have hcommand := ((hwf.active transaction hactive).pop hzero).1
      exact nomatch hstep.symm.trans hcommand
    exact hs.served hactive howner (fun _ _ hpending => hpending) ⟨rfl, rfl, rfl⟩ (.refl rfl)
      (.inl rfl)
  | writtenDown => exact hs.relax (.modify fun _ => rfl) rfl
  | upstream h => exact hs.upstream hwf h
  | failed reason _ hsessions =>
    refine .of_free (fun id sync hpending => ?_) (hs.fresh.snoc trivial)
      (fun _ hactive => nomatch hactive) fun _ hactive => nomatch hactive
    exact Bool.eq_false_iff.mp hpending.nonempty hsessions

/-! ### The answer of a pop -/

/-- While the answer of the pop `x` is handed out: if it is that there is nothing, then the wait of
every session that it covers has come to its end. -/
structure Serving (s₀ : Broker) (x : Transaction) (payload : Bytes) (s : Broker) : Prop
    extends Draining s₀ s where
  emptied : opcode payload = respNoMoreMessages → ∀ id sync, s.Pending id sync →
    sync.minimumPop ≤ x.popSequence → wait id s.log = some .emptied

namespace Serving

theorem relax (hs : Serving s₀ x payload s) (h : Slackens s t) : Serving s₀ x payload t where
  toDraining := hs.toDraining.relax h
  emptied := fun hempty id sync hpending hminimum => by
    rw [h.wait_eq hpending]
    exact hs.emptied hempty id sync (h.pending id sync hpending).1 hminimum

/-- A session is told that there is nothing. -/
theorem answered (hs : Serving s₀ x payload s) (hreached : Reached s₀ s) {session : Session}
    {sync : PendingSync} (hempty : opcode payload = respNoMoreMessages)
    (hlive : s.sessions.find? id = some session) (hsync : session.sync = some sync)
    (hminimum : sync.minimumPop ≤ x.popSequence) :
    Serving s₀ x payload ((s.endSync id).send id [respNoMoreMessages] .answer) := by
  have hsent : Loosens s ((s.endSync id).send id [respNoMoreMessages] .answer) :=
    Loosens.endSync.trans (.send (.inl not_pending_endSync))
  have hwaits : session.sync.isSome = true := by rw [hsync]; rfl
  have htimely : Timely s₀ s.log
      (.sent ⟨id, s.epoch, s.nextWrite + 1, [respNoMoreMessages]⟩ .answer) := fun _ =>
    ⟨hs.emptied hempty id sync ⟨session, hlive, hsync⟩ hminimum,
      s, session, hreached, rfl, hlive, hwaits, hreached.wf.empty_of_waits hlive hwaits⟩
  refine ⟨hs.toDraining.loosen hsent (hs.fresh.snoc htimely), fun _ i other hpending hother => ?_⟩
  rw [hsent.wait_eq hpending]
  exact hs.emptied hempty i other (hsent.pending i other hpending).1 hother

theorem pop (hs : Serving s₀ x payload s) (hreached : Reached s₀ s)
    (hanswer : PopAnswer x payload) (h : Pop x payload s t) : Serving s₀ x payload t := by
  have hwf := hreached.wf
  have hitem := pop_payload hanswer.valid
  cases h with
  | output h => exact hs.relax (.output h)
  | answered hempty hlive hsync hminimum =>
    exact hs.answered hreached hempty hlive hsync hminimum
  | duplicate | popped =>
    have hseen : Slackens s { s with radio := s.seenRadio payload } :=
      .same rfl rfl ⟨rfl, rfl, rfl⟩
    exact hs.relax (hseen.trans (.note (fun _ => rfl) rfl))
  | slotOffered => exact hs.relax .offerSlot
  | @attachedOffered _ slotId _ _ _ hslot hattached hlive hcode ht =>
    have hoffered : Slackens s (s.offerSlot slotId payload) := .offerSlot
    exact hs.relax (hoffered.trans
      (.receives (hwf.attachedOffered hslot hattached hlive (hitem hcode)) hlive ht))
  | @offered _ id _ hlive _ _ hcode ht =>
    have happended : Slackens s { s with
        sessions := s.sessions.modify id fun x => { x with inbox := x.inbox ++ [payload] } } :=
      .modify fun _ => rfl
    have hoffered : Slackens s (s.offer id payload) :=
      happended.trans (.note (n := .offered id payload) (fun _ => rfl) rfl)
    exact hs.relax (hoffered.trans
      (.receives (hwf.clientOffered hlive (hitem hcode)) (find?_offer payload hlive) ht))
  | flooded => exact hs.relax .drop
  | orphaned =>
    have hheld : Slackens s { s with orphan := some payload } := .same rfl rfl ⟨rfl, rfl, rfl⟩
    exact hs.relax (hheld.trans (.note (fun _ => rfl) rfl))

/-- Once the answer has been handed out, whoever still waits has the drain go on. -/
theorem closes (hs : Serving s₀ x payload s) (hidle : s.active = none)
    (h : Closes x payload s t) : Pumped s₀ t := by
  cases h with
  | settled hempty report =>
    have hnewer : ∀ id sync, s.Pending id sync →
        (s.newerWork x && !s.sessions.isEmpty) = true := by
      rintro id sync hpending
      have hmore := hpending.nonempty
      obtain ⟨session, hlive, hsync⟩ := hpending
      have hany : (s.sessions.any fun _ session => session.sync.isSome) = true :=
        OrdMap.any_iff.mpr ⟨id, session, hlive, by rw [hsync]; rfl⟩
      rw [newerWork, hany, hmore, Bool.or_true]
      rfl
    have hquiet : Adds (·.empties = false) s (s.settle x) :=
      ⟨_, rfl, fun n hn => by
        split at hn
        · cases hn
        · exact List.mem_singleton.mp hn ▸ rfl⟩
    have hwait : ∀ id, wait id (s.settle x).log = wait id s.log := fun id => by
      refine wait_append fun n hn => ?_
      split at hn
      · cases hn
      · exact List.mem_singleton.mp hn ▸ rfl
    exact
      { bound := hs.bound
        authorized := hnewer
        waits := fun id sync hpending => (congrArg Option.isSome (hwait id)).trans
          (hs.waits id sync hpending)
        fresh := hs.fresh_of_quiet hquiet
        client := fun _ hactive => nomatch hidle.symm.trans hactive
        latest := fun _ hactive => nomatch hidle.symm.trans hactive
        covered := fun _ _ _ _ hactive => nomatch hidle.symm.trans hactive
        coming := fun id sync hpending => .inl (hnewer id sync hpending) }
  | continued =>
    exact
      { bound := hs.bound
        authorized := hs.authorized
        waits := hs.waits
        fresh := hs.fresh
        client := fun _ hactive => nomatch hidle.symm.trans hactive
        latest := fun _ hactive => nomatch hidle.symm.trans hactive
        covered := fun _ _ _ _ hactive => nomatch hidle.symm.trans hactive
        coming := fun id sync hpending => .inl (by
          show (s.drainAuthorized && !s.sessions.isEmpty) = true
          have hmore : s.sessions.isEmpty = false := Pending.nonempty hpending
          rw [hs.authorized id sync hpending, hmore]
          rfl) }

end Serving

theorem Pumped.pop (hs : Pumped s₀ s) (hreached : Reached s₀ s) (ht : s.Takes x payload)
    (h : HandsOut x payload (s.took payload) t) : Pumped s₀ t := by
  have hserving : Serving s₀ x payload (s.took payload) :=
    { bound := hs.bound
      authorized := hs.authorized
      waits := fun id sync hpending => by
        simp only [took, note, wait_snoc, Note.wait, Option.isSome_map]
        exact hs.waits id sync hpending
      fresh := hs.fresh.snoc trivial
      emptied := fun hempty id sync hpending hminimum => by
        simp only [took, note, wait_snoc, Note.wait,
          hs.covered id sync x hpending ht.active ht.owner hminimum, Option.map_some, if_pos hempty] }
  obtain ⟨u, -, hidle, ⟨-, hu⟩, hlast⟩ := h.before_last
    (M := fun u => Reached s₀ u ∧ Serving s₀ x payload u)
    (hreached.wf.rest.note _) rfl ht.toPopAnswer ⟨hreached.took ht, hserving⟩
    (fun report hu => ⟨hu.1.report report, { hu.2 with }⟩)
    fun _ hidle hpop hu =>
      ⟨hu.1.pop hidle ht.toPopAnswer hpop, hu.2.pop hu.1 ht.toPopAnswer hpop⟩
  exact hu.closes hidle hlast

/-- After the epoch has failed nobody waits. -/
theorem Pumped.drained (hs : Pumped s₀ s) (hreached : Reached s₀ s) (ho : s.Owes x payload)
    (h : HandsOut x payload s t) : Pumped s₀ t := by
  obtain ⟨hkeys, hidle⟩ := hreached.wf.ended ho.failed
  have hserving : Serving s₀ x payload s :=
    { hs.toDraining with
      emptied := fun _ id sync hpending _ => by
        have hmore := Pending.nonempty hpending
        rw [OrdMap.isEmpty_iff_keys.mpr hkeys] at hmore
        cases hmore }
  obtain ⟨u, -, hidle, ⟨-, hu⟩, hlast⟩ := h.before_last
    (M := fun u => Reached s₀ u ∧ Serving s₀ x payload u)
    hreached.wf hidle ho.toPopAnswer ⟨hreached, hserving⟩
    (fun report hu => ⟨hu.1.report report, { hu.2 with }⟩)
    fun _ hidle hpop hu =>
      ⟨hu.1.pop hidle ho.toPopAnswer hpop, hu.2.pop hu.1 ho.toPopAnswer hpop⟩
  exact hu.closes hidle hlast

/-- Whoever waits afterwards waited before, and has been fed nothing since. -/
def Unfed (s t : Broker) : Prop :=
  ∀ id y, t.sessions.find? id = some y → y.sync.isSome = true →
    ∃ x, s.sessions.find? id = some x ∧ x.sync.isSome = true ∧
      x.dedicatedSlotId = y.dedicatedSlotId ∧
      Adds (fun n => n.feeds id y.dedicatedSlotId = false) s t

namespace Unfed

theorem trans (hst : Unfed s t) (htu : Unfed t u) : Unfed s u := by
  intro id z hz hwaits
  obtain ⟨y, hy, hywaits, hyz, hlast⟩ := htu id z hz hwaits
  obtain ⟨x, hx, hxwaits, hxy, hfirst⟩ := hst id y hy hywaits
  rw [hyz] at hxy hfirst
  exact ⟨x, hx, hxwaits, hxy, hfirst.trans hlast⟩

theorem of_keeps (h : Keeps (fun n => ∀ id slotId, n.feeds id slotId = false)
    (fun x => (x.sync, x.dedicatedSlotId)) s t) : Unfed s t := by
  intro id y hy hwaits
  obtain ⟨x, hx, hxy⟩ := h.sessions id y hy
  have hsync : x.sync = y.sync := congrArg Prod.fst hxy
  exact ⟨x, hx, hsync ▸ hwaits, congrArg Prod.snd hxy, h.log.mono fun _ hn => hn id _⟩

theorem note (hn : ∀ id slotId, n.feeds id slotId = false) (hsessions : t.sessions = s.sessions)
    (hlog : t.log = s.log ++ [n]) : Unfed s t :=
  .of_keeps (.notes hsessions hlog (by simpa using hn))

theorem endSync : Unfed s (s.endSync id) := by
  intro i y hy hwaits
  simp only [Broker.endSync, OrdMap.find?_modify] at hy
  split at hy
  · obtain ⟨x, -, rfl⟩ := Option.map_eq_some_iff.mp hy
    cases hwaits
  · exact ⟨y, hy, hwaits, rfl, .refl rfl⟩

theorem send {cause : Cause} : Unfed s (s.send id payload cause) :=
  .of_keeps (.send (fun _ _ => rfl) fun _ _ => rfl)

theorem drop {session : Session} {reason : Text} : Unfed s (s.drop id session reason) :=
  .of_keeps (.drop fun _ _ => rfl)

/-- A session that has been offered an item does not wait afterwards. -/
theorem receives {session : Session} (hlive : s.sessions.find? id = some session)
    (h : s.Receives id session t) :
    Unfed s t ∧ ∀ y, t.sessions.find? id = some y → y.sync.isSome = false := by
  cases h with
  | held hsync =>
    refine ⟨.of_keeps .refl, fun y hy => ?_⟩
    obtain rfl := Option.some.inj (hlive.symm.trans hy)
    rw [hsync]
    rfl
  | @served sync item rest visible =>
    have hended : Unfed s (s.endSync id) := endSync
    have hsent : Unfed (s.endSync id) ((s.endSync id).send id visible (.item item)) := send
    have hshifted : Keeps (fun n => ∀ id slotId, n.feeds id slotId = false)
        (fun x => (x.sync, x.dedicatedSlotId)) ((s.endSync id).send id visible (.item item))
        (((s.endSync id).send id visible (.item item)).shiftInbox id session item) :=
      .shiftInbox (fun _ _ => rfl) fun _ _ _ => rfl
    refine ⟨(hended.trans hsent).trans (.of_keeps hshifted), fun y hy => ?_⟩
    obtain ⟨x, hx, hxy⟩ := hshifted.sessions id y hy
    have hsync : x.sync = y.sync := congrArg Prod.fst hxy
    rw [find?_send visible (.item item) (find?_endSync hlive)] at hx
    obtain rfl := Option.some.inj hx
    rw [← hsync]
    rfl
  | slow =>
    refine ⟨drop, fun y hy => ?_⟩
    rw [Broker.drop, OrdMap.find?_erase, if_pos rfl] at hy
    cases hy

theorem pop (hwf : s.WF) (h : Pop x payload s t) : Unfed s t := by
  cases h with
  | output h => exact .of_keeps (.output h (fun _ _ => rfl) (fun _ _ => rfl)
      (fun _ _ _ _ => rfl) fun _ _ _ => rfl)
  | answered => exact endSync.trans send
  | duplicate | popped | orphaned => exact .note (fun _ _ => rfl) rfl rfl
  | @slotOffered slotId slot hslot hfree =>
    intro i y hy hwaits
    refine ⟨y, hy, hwaits, rfl, .one rfl (decide_eq_false fun hk => ?_)⟩
    exact nomatch hfree.symm.trans (hwf.attached_of hy hk hslot)
  | @attachedOffered _ slotId slot id _ hslot hattached hlive _ ht =>
    obtain ⟨hunfed, hserved⟩ := receives (s := s.offerSlot slotId payload) hlive ht
    intro i z hz hwaits
    obtain ⟨y, hy, hywaits, hyz, hlast⟩ := hunfed i z hz hwaits
    -- Only the session that is attached to the slot was fed by it, and it does not wait any more.
    have hother : z.dedicatedSlotId ≠ some slotId := fun hk => by
      have hsame := hattached.symm.trans (hwf.attached_of hy (hyz.trans hk) hslot)
      obtain rfl := Option.some.inj hsame
      rw [hserved z hz] at hwaits
      cases hwaits
    have hfirst : Adds (fun n => n.feeds i z.dedicatedSlotId = false) s
        (s.offerSlot slotId payload) := .one rfl (decide_eq_false hother)
    exact ⟨y, hy, hywaits, hyz, hfirst.trans hlast⟩
  | @offered _ id _ hlive _ _ _ ht =>
    obtain ⟨hunfed, hserved⟩ := receives (find?_offer payload hlive) ht
    intro i z hz hwaits
    obtain ⟨y, hy, hywaits, hyz, hlast⟩ := hunfed i z hz hwaits
    have hother : id ≠ i := by
      rintro rfl
      rw [hserved z hz] at hwaits
      cases hwaits
    have hfirst : Adds (fun n => n.feeds i z.dedicatedSlotId = false) s (s.offer id payload) :=
      .one rfl (decide_eq_false hother)
    simp only [Broker.offer, OrdMap.find?_modify, if_neg (Ne.symm hother)] at hy
    exact ⟨y, hy, hywaits, hyz, hfirst.trans hlast⟩
  | flooded => exact drop

theorem parts (hwf : s.WF) (hitem : InboxItem payload)
    (h : ReflTransGen (PopStep x payload) s t) : Unfed s t := by
  induction h with
  | refl => exact .of_keeps .refl
  | tail hbefore hlast ih =>
    cases hlast with
    | report => exact ih
    | mk hpop report =>
      have hlast := pop (hwf.popSteps (fun _ => hitem) hbefore) hpop
      exact ih.trans fun id y hy hwaits => hlast id y hy hwaits

end Unfed

end Broker

end MeshCoreTCPMux

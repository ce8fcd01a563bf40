import MeshCoreTCPMux.Broker.Refinement.Inbox

/-!
# Refinement: local heads

The loop over the sessions' head commands. Afterwards every session that may progress stands before
a command that is ready to go upstream, or has none (`Ready`).
-/

namespace MeshCoreTCPMux

open Protocol Program Relation

namespace Broker

variable {s t u : Broker} {id : Nat} {session : Session} {command : Command}

/-! ### Work on one session -/

/-- What local work on the session `id` leaves alone. -/
structure Apart (id : Nat) (s t : Broker) : Prop where
  config : t.config = s.config
  now : t.now = s.now
  failed : t.failed = s.failed
  active : t.active = s.active
  order : t.order = s.order ∨ t.order = s.order.filter (· ≠ id)
  others : ∀ i, i ≠ id → t.sessions.find? i = s.sessions.find? i

theorem Apart.refl : Apart id s s := ⟨rfl, rfl, rfl, rfl, Or.inl rfl, fun _ _ => rfl⟩

theorem Apart.trans (hst : Apart id s t) (htu : Apart id t u) : Apart id s u where
  config := htu.config.trans hst.config
  now := htu.now.trans hst.now
  failed := htu.failed.trans hst.failed
  active := htu.active.trans hst.active
  order := by
    rcases htu.order with htu | htu <;> rcases hst.order with hst | hst <;>
      simp [htu, hst, List.filter_filter]
  others := fun i hi => (htu.others i hi).trans (hst.others i hi)

theorem Apart.modifySession {f : Session → Session} (hsessions : t.sessions = s.sessions.modify id f)
    (hconfig : t.config = s.config) (hnow : t.now = s.now) (hfailed : t.failed = s.failed)
    (hactive : t.active = s.active) (horder : t.order = s.order) : Apart id s t where
  config := hconfig
  now := hnow
  failed := hfailed
  active := hactive
  order := Or.inl horder
  others := fun i hi => by rw [hsessions, OrdMap.find?_modify_of_ne _ _ hi]

theorem Apart.take : Apart id s (s.take id command) :=
  .modifySession (f := fun x => { x with commands := x.commands.tail }) rfl rfl rfl rfl rfl rfl

theorem Apart.send {frame : Bytes} {cause : Cause} : Apart id s (s.send id frame cause) :=
  .modifySession (f := fun x =>
    { x with writes := x.writes.insert (s.nextWrite + 1) ⟨s.now + s.config.writeTimeout⟩ })
    rfl rfl rfl rfl rfl rfl

theorem Apart.note {n : Note} : Apart id s (s.note n) :=
  ⟨rfl, rfl, rfl, rfl, Or.inl rfl, fun _ _ => rfl⟩

theorem Apart.report (report : Report) : Apart id s { s with report := report } :=
  ⟨rfl, rfl, rfl, rfl, Or.inl rfl, fun _ _ => rfl⟩

theorem Apart.setScope {scope : Bytes} : Apart id s (s.setScope id scope) :=
  .modifySession (f := fun x => { x with scope := scope }) rfl rfl rfl rfl rfl rfl

theorem Apart.startSync {sync : PendingSync} : Apart id s (s.startSync id sync) :=
  .modifySession (f := fun x => { x with sync := some sync }) rfl rfl rfl rfl rfl rfl

theorem Apart.shiftInbox {item : Bytes} : Apart id s (s.shiftInbox id session item) := by
  unfold Broker.shiftInbox
  split
  · exact .modifySession (f := fun x => { x with inbox := x.inbox.tail }) rfl rfl rfl rfl rfl rfl
  · exact ⟨rfl, rfl, rfl, rfl, Or.inl rfl, fun _ _ => rfl⟩

theorem Apart.drop {reason : Text} : Apart id s (s.drop id session reason) where
  config := rfl
  now := rfl
  failed := rfl
  active := rfl
  order := Or.inr rfl
  others := fun _ hi => OrdMap.find?_erase_of_ne _ hi

/-- The head of the session's queue, if it may progress, is ready to go upstream. -/
def Ready (s : Broker) (id : Nat) : Prop :=
  ∀ session command rest, s.sessions.find? id = some session → session.sync = none →
    s.activeOwner ≠ some id → session.commands = command :: rest →
    Forwardable s.config s.now command

theorem Apart.ready {i : Nat} (h : Apart id s t) (hi : i ≠ id) (hready : s.Ready i) : t.Ready i := by
  intro session command rest hlive hsync hactive hcommands
  rw [h.others i hi] at hlive
  rw [h.config, h.now]
  exact hready session command rest hlive hsync (by rwa [activeOwner, h.active] at hactive)
    hcommands

/-- Local work on the session `id`. -/
structure Works (id : Nat) (s t : Broker) : Prop where
  steps : Steps s t
  apart : Apart id s t

theorem Works.refl : Works id s s := ⟨.refl, .refl⟩

theorem Works.trans (hst : Works id s t) (htu : Works id t u) : Works id s u :=
  ⟨hst.steps.trans htu.steps, hst.apart.trans htu.apart⟩

theorem Works.report (report : Report) : Works id s { s with report := report } :=
  ⟨Steps.report report, .report report⟩

theorem Works.client (h : Client s t) (hapart : Apart id s t) (report : Report) :
    Works id s { t with report := report } :=
  ⟨Steps.moveReport (.client h) report, hapart.trans (.report report)⟩

/-- Nothing is being delivered while the broker is not under maintenance. -/
theorem delivering_of_quiet (h : s.underMaintenance = false) (id : Nat) :
    s.delivering id = false := by
  rw [← Bool.not_eq_true, delivering_iff]
  rintro ⟨transaction, hactive, hm, -⟩
  simp [underMaintenance, hactive, hm] at h

/-- Whatever is left of the session stands before the next command. -/
def Advanced (s : Broker) (id : Nat) (rest : List Command) : Prop :=
  ∀ x, s.sessions.find? id = some x → x.commands = rest ∧ x.sync = none

theorem Head.take_live (h : s.Head id session command) :
    (s.take id command).sessions.find? id
      = some { session with commands := session.commands.tail } := by
  simp [take, h.live]

theorem wp_shiftCommand {Q : Unit → Broker → Prop} {E : Error → Broker → Prop}
    (h : ∀ report, Q () { s.take id command with report := report }) :
    wp (shiftCommand id command) Q E s :=
  h _

/-- A session whose answer does not fit its output queue leaves. -/
theorem Head.choke (h : s.Head id session command) (hquiet : s.underMaintenance = false)
    {session' : Session} (hfull : ¬ s.Room session)
    (ht : (s.take id command).Removed id session' ["output queue overflow"] t)
    (hslot : session'.dedicatedSlotId = session.dedicatedSlotId) :
    Works id s t ∧ t.Advanced id session.commands.tail := by
  obtain ⟨report, rfl⟩ := ht.eq_drop (delivering_of_quiet hquiet id)
  have hdrop : (s.take id command).drop id session' ["output queue overflow"]
      = (s.take id command).drop id session ["output queue overflow"] := by
    simp only [drop, detachedSlots, hslot]
  rw [hdrop]
  refine ⟨.client (.choked h hfull) (Apart.take.trans .drop) report, fun x hx => ?_⟩
  simp [drop] at hx

/-- A command at the head of a queue is answered locally. -/
theorem Head.answer (h : s.Head id session command) (hquiet : s.underMaintenance = false)
    {reply : Bytes} {w : Option Nat} (hreply : LocalReply s.config s.now command reply)
    (ht : (s.take id command).Emitted id reply .answer w t) :
    Works id s t ∧ t.Advanced id session.commands.tail := by
  cases ht with
  | gone hgone => simp [h.take_live] at hgone
  | sent hlive hroom report =>
    obtain rfl := Option.some.inj (h.take_live.symm.trans hlive)
    refine ⟨.client (.answered h hroom hreply) (Apart.take.trans .send) report, fun x hx => ?_⟩
    obtain rfl := Option.some.inj ((find?_send reply .answer h.take_live).symm.trans hx)
    exact ⟨rfl, h.sync⟩
  | dropped hlive hfull ht =>
    obtain rfl := Option.some.inj (h.take_live.symm.trans hlive)
    exact h.choke hquiet hfull ht rfl

/-! ### The local commands -/

theorem Head.deliver (h : s.Head id session command) (hquiet : s.underMaintenance = false)
    (hop : opcode command.payload = cmdSyncNextMessage) {item : Bytes} {rest : List Bytes}
    (hinbox : s.inboxFor? session = some (item :: rest))
    (ht : (s.take id command).Delivered id { session with commands := session.commands.tail } item
      t) :
    Works id s t ∧ t.Advanced id session.commands.tail := by
  cases ht with
  | @sent visible hroom hvisible report =>
    obtain ⟨queue, hlive⟩ := find?_shiftInbox session item
      (find?_send visible (.item item) h.take_live)
    refine ⟨.client (.delivered h hop hroom hinbox hvisible)
      ((Apart.take.trans .send).trans .shiftInbox) report, fun x hx => ?_⟩
    obtain rfl := Option.some.inj (hlive.symm.trans hx)
    exact ⟨rfl, h.sync⟩
  | dropped hfull ht => exact h.choke hquiet hfull ht rfl

/-- A session waits for the companion, or is answered from its local inbox. -/
theorem Head.localSync (h : s.Head id session command) (hwf : s.WF)
    (hquiet : s.underMaintenance = false) (hop : opcode command.payload = cmdSyncNextMessage)
    (now : Time) (report : Report) :
    Returns (localSync id now) { s.take id command with report := report } fun more t =>
      Works id s t ∧ if more then t.Advanced id session.commands.tail else t.Ready id := by
  obtain ⟨queue, hqueue⟩ : ∃ queue, s.inboxFor? session = some queue := by
    unfold inboxFor?
    cases hk : session.dedicatedSlotId with
    | none => exact ⟨_, rfl⟩
    | some k =>
      obtain ⟨slot, hslot, -⟩ := (hwf.session id session h.live).slot k hk
      exact ⟨slot.offlineQueue, by simp [hslot]⟩
  have hlook : (({ s.take id command with report := report }).sessions.find? id).map
      ({ s.take id command with report := report }).inboxFor? = some (some queue) := by
    rw [← hqueue]
    exact congrArg (Option.map _) h.take_live
  unfold Returns MeshCoreTCPMux.localSync
  simp only [wp_bind, wp_get, hlook]
  cases queue with
  | nil =>
    simp only [wp_bind, wp_modifySession, wp_perform, wp_pure, Bool.false_eq_true, if_false]
    unfold authorizeDrain
    simp only [wp_bind, wp_modify, wp_get]
    refine wp_diagnostic _ _ fun report => ?_
    refine ⟨.client (.waits h hop hqueue) (Apart.take.trans .startSync) report, ?_⟩
    intro x c rest hx hsync
    simp only [record, take, OrdMap.find?_modify_self, h.live, Option.map_some,
      Option.some.injEq] at hx
    subst hx
    cases hsync
  | cons item rest =>
    simp only [wp_bind, wp_pure, if_true]
    have htaken : WF { s.take id command with report := report } := { hwf.take id command with }
    exact wp_of_returns (htaken.deliverItem h.take_live hqueue)
      fun _ t ht => h.deliver hquiet hop hqueue ht.of_report

/-- A scope selection is remembered and acknowledged. -/
theorem Head.localScope (h : s.Head id session command) (hwf : s.WF)
    (hquiet : s.underMaintenance = false) (hop : opcode command.payload = cmdSetFloodScopeKey)
    (hvalid : (validateCommand command.payload).reason = none) (report : Report) :
    Returns (localScope id command.payload) { s.take id command with report := report } fun _ t =>
      Works id s t ∧ t.Advanced id session.commands.tail := by
  have hlive : ((s.take id command).setScope id command.payload).sessions.find? id = some
      { session with commands := session.commands.tail, scope := command.payload } := by
    simp only [setScope, OrdMap.find?_modify_self, h.take_live, Option.map_some]
  have hselected : WF { (s.take id command).setScope id command.payload with report := report } :=
    { (hwf.take id command).setScope id command.payload with }
  unfold Returns MeshCoreTCPMux.localScope
  simp only [wp_bind, wp_modifySession]
  refine wp_of_returns (hselected.emit id [respOk] .answer) fun w t ht => ?_
  cases ht.of_report with
  | gone hgone => simp [hlive] at hgone
  | sent hlive' hroom report =>
    obtain rfl := Option.some.inj (hlive.symm.trans hlive')
    simp only [Option.isSome_some, if_true, wp_perform]
    refine ⟨.client (.selected h hroom hvalid hop) (((Apart.take.trans .setScope).trans .send).trans .note) _,
      fun x hx => ?_⟩
    obtain rfl := Option.some.inj ((find?_send [respOk] .answer hlive).symm.trans hx)
    exact ⟨rfl, h.sync⟩
  | dropped hlive' hfull ht =>
    obtain rfl := Option.some.inj (hlive.symm.trans hlive')
    simp only [Option.isSome_none, Bool.false_eq_true, if_false, wp_pure]
    have htaken : (s.take id command).Removed id
        { session with commands := session.commands.tail, scope := command.payload }
        ["output queue overflow"] t :=
      ht.of_drop_eq (fun _ => by simp only [drop, setScope, OrdMap.erase_modify]; rfl) rfl
    exact h.choke hquiet hfull htaken rfl

theorem Head.payload_ne_nil (h : s.Head id session command) (hwf : s.WF) :
    command.payload ≠ [] :=
  (hwf.session id session h.live).commands command (h.commands ▸ List.mem_cons_self)

/-- A rejected head. -/
theorem Head.reject (h : s.Head id session command) (hwf : s.WF)
    (hquiet : s.underMaintenance = false) {reason : UInt8}
    (hreply : LocalReply s.config s.now command [respErr, reason]) (detail : Text) (report : Report) :
    Returns (MeshCoreTCPMux.reject id reason detail) { s.take id command with report := report }
      fun _ t => Works id s t ∧ t.Advanced id session.commands.tail := by
  have htaken : WF { s.take id command with report := report } := { hwf.take id command with }
  refine (htaken.reject id reason detail).mono fun _ t ⟨w, ht⟩ => ?_
  exact h.answer hquiet hreply ht.of_report

/-- One pass of the loop over a session's head commands. -/
theorem Head.localCommand (h : s.Head id session command) (hwf : s.WF)
    (hquiet : s.underMaintenance = false) :
    Returns (localCommand id command s.now) s fun more t =>
      Works id s t ∧ if more then t.Advanced id session.commands.tail else t.Ready id := by
  have hbyte : byteAt command.payload 0 = .ok (command.payload.getD 0 0) :=
    byteAt_of_lt (List.length_pos_iff.mpr (h.payload_ne_nil hwf))
  unfold Returns MeshCoreTCPMux.localCommand shiftCommand
  simp only [wp_bind, wp_get]
  split
  · next reason hreason =>
    simp only [wp_bind, wp_modifySession, wp_perform, wp_pure, if_true]
    refine wp_ofExcept hbyte ?_
    exact h.reject hwf hquiet (.invalid hreason) _ _
  next hvalid =>
  rw [wp_ite]
  split
  · next hstale =>
    simp only [wp_bind, wp_modifySession, wp_perform, wp_pure, if_true]
    exact h.reject hwf hquiet (.stale hvalid hstale) _ _
  next hfresh =>
  rw [wp_ite]
  split
  · next hop =>
    simp only [wp_bind, wp_modifySession, wp_perform]
    exact h.localSync hwf hquiet hop _ _
  next hsync =>
  rw [wp_ite]
  split
  · next hop =>
    simp only [wp_bind, wp_modifySession, wp_perform, wp_pure, if_true]
    exact h.localScope hwf hquiet hop hvalid _
  next hscope =>
  rw [wp_ite]
  split
  · next hdisabled =>
    simp only [wp_bind, wp_modifySession, wp_perform, wp_pure, if_true, wp_get]
    refine wp_count _ _ fun report => wp_diagnostic _ _ fun report => ?_
    have htaken : WF { s.take id command with report := report } := { hwf.take id command with }
    refine wp_of_returns (htaken.emit id [respDisabled] .answer) fun w t ht => ?_
    exact h.answer hquiet (.exportDisabled hvalid hdisabled.1 (by simpa using hdisabled.2))
      ht.of_report
  next hexport =>
  rw [wp_ite]
  split
  · next hdisabled =>
    simp only [wp_bind, wp_modifySession, wp_perform, wp_pure, if_true]
    exact h.reject hwf hquiet (.importDisabled hvalid hdisabled.1 (by simpa using hdisabled.2)) _ _
  next himport =>
  rw [wp_ite]
  split
  · next hdisabled =>
    simp only [wp_bind, wp_modifySession, wp_perform, wp_pure, if_true]
    exact h.reject hwf hquiet (.resetDisabled hvalid hdisabled.1 (by simpa using hdisabled.2)) _ _
  next hreset =>
  refine ⟨.refl, ?_⟩
  intro x c rest hx _ _ hc
  obtain rfl := Option.some.inj (h.live.symm.trans hx)
  rw [h.commands] at hc
  obtain rfl := (List.cons.inj hc).1
  exact
    { valid := hvalid
      fresh := not_le.mp hfresh
      not_sync := hsync
      not_scope := hscope
      export_enabled := by simpa using hexport
      import_enabled := by simpa using himport
      reset_enabled := by simpa using hreset }

/-! ### The loops -/

theorem ready_of_gone (h : s.sessions.find? id = none) : s.Ready id := by
  intro x c rest hx
  rw [h] at hx
  cases hx

theorem WF.localCommands {commands : List Command} (hwf : s.WF)
    (hquiet : s.underMaintenance = false) (hrunning : s.failed = false)
    (hinactive : s.activeOwner ≠ some id) (hlive : s.sessions.find? id = some session)
    (hsync : session.sync = none) (hcommands : session.commands = commands) :
    Returns (localCommands id s.now commands) s fun _ t => Works id s t ∧ t.Ready id := by
  induction commands generalizing s session with
  | nil =>
    refine ⟨.refl, fun x c rest hx _ _ hc => ?_⟩
    obtain rfl := Option.some.inj (hlive.symm.trans hx)
    rw [hcommands] at hc
    cases hc
  | cons command rest ih =>
    have hhead : s.Head id session command := ⟨hrunning, hlive, by simp [hcommands], hsync, hinactive⟩
    unfold Returns MeshCoreTCPMux.localCommands
    simp only [wp_bind]
    refine wp_of_returns (hhead.localCommand hwf hquiet) fun more t ht => ?_
    cases more with
    | false =>
      simp only [Bool.false_eq_true, if_false, wp_pure] at ht ⊢
      exact ht
    | true =>
      obtain ⟨hworks, hadvanced⟩ := ht
      simp only [if_true, wp_bind, wp_get]
      rw [wp_ite]
      split
      swap
      · next hgone => exact ⟨hworks, ready_of_gone (by simpa [OrdMap.contains] using hgone)⟩
      next hcontains =>
      obtain ⟨y, hy⟩ := OrdMap.mem_keys_iff.mp (OrdMap.contains_iff.mp hcontains)
      obtain ⟨hrest, hnone⟩ := hadvanced y hy
      have hapart := hworks.apart
      rw [← hapart.now]
      refine wp_of_returns (ih (hwf.steps hworks.steps) ?_ (hapart.failed.trans hrunning) ?_ hy hnone
        (by simp [hrest, hcommands])) fun _ u hu => ⟨hworks.trans hu.1, hu.2⟩
      · rwa [underMaintenance, hapart.active]
      · rwa [activeOwner, hapart.active]

theorem WF.localTurn (hwf : s.WF) (hquiet : s.underMaintenance = false)
    (hrunning : s.failed = false) (id : Nat) :
    Returns (localTurn s.now id) s fun _ t => Works id s t ∧ t.Ready id := by
  unfold Returns MeshCoreTCPMux.localTurn
  simp only [wp_bind, wp_get]
  split
  · next hgone => exact ⟨.refl, ready_of_gone hgone⟩
  next session hlive =>
  rw [wp_ite]
  split
  · next hfree =>
    rw [not_or, Bool.not_eq_true, Option.isSome_eq_false_iff, Option.isNone_iff_eq_none] at hfree
    exact hwf.localCommands hquiet hrunning hfree.2 hlive hfree.1 rfl
  · next hbusy =>
    refine ⟨.refl, fun x c rest hx hsync hinactive _ => absurd ?_ hbusy⟩
    obtain rfl := Option.some.inj (hlive.symm.trans hx)
    simp [hsync, hinactive]

/-- **The local loop.** Afterwards every session that may progress is ready. -/
theorem WF.localTurns (hwf : s.WF) (hquiet : s.underMaintenance = false)
    (hrunning : s.failed = false) :
    Returns (s.sessions.keys.forM (MeshCoreTCPMux.localTurn s.now)) s fun _ t =>
      Steps s t ∧ t.active = s.active ∧ t.failed = false ∧ t.now = s.now ∧ ∀ id, t.Ready id := by
  refine wp_forM (fun rest t => Steps s t ∧ t.active = s.active ∧ t.failed = false ∧
    t.now = s.now ∧ ∀ id, id ∉ rest → t.Ready id)
    ⟨.refl, rfl, hrunning, rfl, fun id hid => ready_of_gone (OrdMap.find?_eq_none.mpr hid)⟩ ?_ ?_
  · rintro id rest t ⟨hsteps, hactive, hfailed, hnow, hready⟩
    have hturn := (hwf.steps hsteps).localTurn (by rwa [underMaintenance, hactive]) hfailed id
    rw [hnow] at hturn
    refine wp_of_returns hturn fun _ u ⟨hworks, hid⟩ => ?_
    have hapart := hworks.apart
    refine ⟨hsteps.trans hworks.steps, hapart.active.trans hactive, hapart.failed.trans hfailed,
      hapart.now.trans hnow, fun i hi => ?_⟩
    by_cases hne : i = id
    · exact hne ▸ hid
    · exact hapart.ready hne (hready i (by simp [hne, hi]))
  · rintro t ⟨hsteps, hactive, hfailed, hnow, hready⟩
    exact ⟨hsteps, hactive, hfailed, hnow, fun id => hready id List.not_mem_nil⟩

end Broker

end MeshCoreTCPMux

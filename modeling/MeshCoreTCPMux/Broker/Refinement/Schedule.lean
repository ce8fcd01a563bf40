import MeshCoreTCPMux.Broker.Refinement.Local
import MeshCoreTCPMux.LeaseTotality

/-!
# Refinement: the schedule

The admission checks clear what has expired before they reserve anything, and the command leaves its
queue in between; as atomic actions, the clearing comes first. The rotation visits every participant
at most once, so that the head that it finds is the one that the local loop left there.
-/

namespace MeshCoreTCPMux

open Protocol Program Relation

namespace Broker

variable {s t u : Broker} {id : Nat} {session : Session} {command : Command}

/-! ### Admission -/

/-- The leases of `s` may be cleared to `radio` and `signing`, whatever the rest of the state is. -/
def Clears (s : Broker) (radio : CompanionRadioState) (signing : SigningLease) : Prop :=
  ∀ u : Broker, u.radio = s.radio → u.signing = s.signing → u.now = s.now → u.active = none →
    Steps u { u with radio := radio, signing := signing }

theorem Clears.refl : s.Clears s.radio s.signing := by
  intro u hradio hsigning _ _
  rw [← hradio, ← hsigning]

variable {radio radio' : CompanionRadioState} {signing : SigningLease}

theorem Clears.quarantine (h : s.Clears radio signing)
    (hover : radio.quarantined s.now = (false, radio')) : s.Clears radio' signing := by
  intro u hr hs hnow ha
  refine (h u hr hs hnow ha).andThen (.radio (.quarantineOver ?_))
  rwa [hnow]

theorem Clears.expireRemote (h : s.Clears radio signing) :
    s.Clears { radio with remote := (RemoteLease.expire radio.remote s.now).2 } signing := by
  intro u hr hs hnow ha
  have hsteps := h u hr hs hnow ha
  unfold RemoteLease.expire
  split
  · next hexpired =>
    refine hsteps.andThen (.radio (.leaseExpired ?_))
    rwa [hnow]
  · exact hsteps

theorem Clears.expireSigning (h : s.Clears radio signing) :
    s.Clears radio (signing.expire s.now).2 := by
  intro u hr hs hnow ha
  have hsteps := h u hr hs hnow ha
  unfold SigningLease.expire
  split
  · next hexpired =>
    refine hsteps.andThen (.radio (.signingExpired ?_ ?_))
    · rwa [hnow]
    · simp [ha]
  · exact hsteps

/-- What the admission checks find: a refusal, or the leases that the command reserves. -/
inductive Admits (s : Broker) (owner : Nat) (command : Bytes) (desc : CommandDescriptor) :
    Option UInt8 → CompanionRadioState → SigningLease → Prop
  | refused {reason : UInt8} {radio : CompanionRadioState} {signing : SigningLease}
      (h : s.Clears radio signing) (hreason : reason = errBadState ∨ reason = errTableFull) :
      Admits s owner command desc (some reason) radio signing
  | granted {radio₀ radio : CompanionRadioState} {signing₀ signing : SigningLease}
      (h : s.Clears radio₀ signing₀)
      (hreserves : Reserves { s with radio := radio₀, signing := signing₀ } owner command desc radio
        signing) : Admits s owner command desc none radio signing

theorem Admits.busy {owner : Nat} {command : Bytes} {desc : CommandDescriptor}
    (h : s.Clears radio signing) : s.Admits owner command desc (some errBadState) radio signing :=
  .refused h (Or.inl rfl)

section Rules

variable {Q : Bool → Broker → Prop} {E : Error → Broker → Prop} {now : Time}

theorem wp_quarantined (htrue : Q true s)
    (hfalse : ∀ radio, s.radio.quarantined now = (false, radio) → Q false { s with radio := radio }) :
    wp (quarantined now) Q E s := by
  unfold MeshCoreTCPMux.quarantined
  rw [wp_modifyGet]
  rcases hq : s.radio.quarantined now with ⟨answer, radio⟩
  cases answer with
  | false => exact hfalse radio hq
  | true =>
    obtain rfl := CompanionRadioState.quarantined_true hq
    exact htrue

theorem wp_remoteOccupied
    (htrue : Q true
      { s with radio := { s.radio with remote := (RemoteLease.expire s.radio.remote now).2 } })
    (hfalse : (RemoteLease.expire s.radio.remote now).2 = none → Q false
      { s with radio := { s.radio with remote := (RemoteLease.expire s.radio.remote now).2 } }) :
    wp (remoteOccupied now) Q E s := by
  have hcases : ∀ b, (RemoteLease.expire s.radio.remote now).2.isSome = b → Q b
      { s with radio := { s.radio with remote := (RemoteLease.expire s.radio.remote now).2 } } := by
    rintro (_ | _) hb
    · exact hfalse (by simpa using hb)
    · exact htrue
  exact hcases _ rfl

theorem wp_signingOccupied (htrue : Q true { s with signing := (s.signing.expire now).2 })
    (hfalse : (s.signing.expire now).2.operation = none → Q false
      { s with signing := (s.signing.expire now).2 }) :
    wp (signingOccupied now) Q E s := by
  have hcases : ∀ b, (s.signing.expire now).2.operation.isSome = b → Q b
      { s with signing := (s.signing.expire now).2 } := by
    rintro (_ | _) hb
    · exact hfalse (by simpa using hb)
    · exact htrue
  exact hcases _ rfl

end Rules

/-- Admission is open once `quarantined` has answered no. -/
theorem uncertainUntil_of_open {now : Time} (h : radio.quarantined now = (false, radio')) :
    radio'.uncertainUntil = none := by
  rw [(CompanionRadioState.quarantined_false h).1]

/-- What the caller of the admission checks gets. -/
def Admitted (s : Broker) (owner : Nat) (command : Bytes) (desc : CommandDescriptor)
    (reason : Option UInt8) (t : Broker) : Prop :=
  ∃ radio signing report, t = { s with radio := radio, signing := signing, report := report } ∧
    s.Admits owner command desc reason radio signing

theorem Admits.admitted {owner : Nat} {payload : Bytes} {desc : CommandDescriptor}
    {reason : Option UInt8} (h : s.Admits owner payload desc reason radio signing) (report : Report) :
    s.Admitted owner payload desc reason
      { s with radio := radio, signing := signing, report := report } :=
  ⟨radio, signing, report, rfl, h⟩

/-- Disruptive maintenance needs a client alone with an idle radio. -/
theorem maintenance_admission (owner : Nat) {payload : Bytes} {desc : CommandDescriptor}
    {E : Error → Broker → Prop} {now : Time} (hnow : s.now = now) (hflag : desc.flags.maintenance = true)
    (hcommand : opcode payload ≠ cmdReboot) :
    wp (pure (s.sessions.size ≠ 1 : Bool)
      <||> quarantined now
      <||> remoteOccupied now
      <||> ((fun s : Broker => decide (0 < s.radio.dmRing.pendingCount now)) <$> get)
      <||> signingOccupied now)
      (fun refused t => s.Admitted owner payload desc
        (if refused then some errBadState else none) t) E s := by
  subst hnow
  rw [wp_orM, wp_pure]
  split
  · exact (Admits.busy .refl).admitted s.report
  next hsize =>
  rw [wp_orM]
  refine wp_quarantined ?_ fun radio hopen => ?_
  · exact (Admits.busy .refl).admitted s.report
  have hquarantine : s.Clears radio s.signing := Clears.refl.quarantine hopen
  simp only [Bool.false_eq_true, if_false]
  rw [wp_orM]
  refine wp_remoteOccupied ?_ fun hremote => ?_
  · exact (Admits.busy hquarantine.expireRemote).admitted s.report
  have hlease := hquarantine.expireRemote
  simp only [Bool.false_eq_true, if_false]
  rw [wp_orM, wp_map, wp_get]
  split
  · exact (Admits.busy hlease).admitted s.report
  next hring =>
  refine wp_signingOccupied ?_ fun hsigning => ?_
  · exact (Admits.busy hlease.expireSigning).admitted s.report
  have hnone := uncertainUntil_of_open hopen
  refine Admits.admitted (.granted hlease.expireSigning ?_) s.report
  exact .maintenance hflag hcommand (by simpa using hsize) hnone hremote (by simpa using hring)
    hsigning

theorem admissionReason_spec (owner : Nat) {payload : Bytes} {desc : CommandDescriptor}
    (hsigning : s.signing.Sound) (hdesc : descriptor payload = some desc)
    (hshape : commandShapeValid payload = true) :
    Returns (admissionReason owner payload desc s.now) s (s.Admitted owner payload desc) := by
  have hne : payload ≠ [] := by
    rintro rfl
    simp [commandShapeValid] at hshape
  unfold Returns admissionReason
  rw [wp_ite]
  split
  · next hmaintenance =>
    simp only [wp_bind, wp_get, wp_map]
    refine wp_mono (maintenance_admission owner rfl hmaintenance.1 hmaintenance.2) (fun refused t ht => ?_)
      fun _ _ h => h
    cases refused <;> exact ht
  next hmaintenance =>
  rw [wp_bind, wp_andM, wp_pure]
  have hplain : desc.flags.maintenance = true → opcode payload = cmdReboot := by
    simpa using hmaintenance
  split
  · next hdm =>
    rw [wp_orM]
    refine wp_quarantined ?_ fun radio hopen => ?_
    · exact (Admits.busy .refl).admitted s.report
    have hclear : s.Clears radio s.signing := Clears.refl.quarantine hopen
    have hnone := uncertainUntil_of_open hopen
    simp only [Bool.false_eq_true, if_false, wp_map, wp_get]
    rw [wp_ite]
    split
    · exact (Admits.busy hclear).admitted s.report
    next hring =>
    have hlease : desc.flags.remoteLease = false := by
      by_contra hl
      exact ((flags_disjoint hdesc).2 (by simpa using hl)).1 (opcode_of_plainDm hdm)
    have hop := opcode_of_plainDm hdm
    rw [if_neg (by simp [hlease]), if_neg (by rw [hop]; decide), if_neg (by rw [hop]; decide),
      if_neg (by rw [hop]; decide)]
    exact Admits.admitted (.granted hclear (.dm hdm hnone (by simpa using hring))) s.report
  next hdm =>
  rw [Bool.not_eq_true] at hdm
  simp only [Bool.false_eq_true, if_false]
  rw [wp_ite]
  split
  · next hflag =>
    rw [wp_bind]
    refine wp_quarantined ?_ fun radio hopen => ?_
    · exact (Admits.busy .refl).admitted s.report
    have hclear : s.Clears radio s.signing := Clears.refl.quarantine hopen
    have hnone := uncertainUntil_of_open hopen
    simp only [Bool.false_eq_true, if_false, wp_bind, wp_get]
    rcases RemoteLease.exists_reserve hdesc hflag hshape radio.remote owner s.now with
      hrefused | ⟨r, hfree, hreserved, hcleared⟩
    · refine wp_ofExcept hrefused ?_
      exact (Admits.busy hclear.expireRemote).admitted s.report
    · refine wp_ofExcept hreserved ?_
      have hgrant : s.Admits owner payload desc none { radio with remote := some r } s.signing :=
        .granted hclear.expireRemote
          (.lease (r := r) hdm hflag hnone hfree (by simpa only [hfree] using hcleared))
      simp only [wp_setRemote, if_true, RemoteLease.kind, Option.map_some, wp_bind, wp_get]
      refine wp_diagnostic _ _ fun report => ?_
      exact hgrant.admitted report
  next hflag =>
  rw [Bool.not_eq_true] at hflag
  have hgrant : ∀ {signing : SigningLease}, (opcode payload = cmdSignStart ∧
          s.signing.start owner payload s.now = .ok (true, signing)) ∨
        (opcode payload = cmdSignData ∧
          s.signing.beginData owner payload s.now = .ok (.allowed, signing)) ∨
        (opcode payload = cmdSignFinish ∧
          s.signing.beginFinish owner payload s.now = .ok (.allowed, signing)) →
      s.Admits owner payload desc none s.radio signing :=
    fun h => .granted .refl (.signing hdm hflag h)
  rw [wp_ite]
  split
  · next hop =>
    obtain ⟨started, signing, hstart⟩ := SigningLease.exists_start hne hop s.signing owner s.now
    simp only [wp_bind, wp_get]
    refine wp_ofExcept hstart ?_
    simp only [wp_setSigning, wp_pure]
    cases started with
    | true => exact (hgrant (Or.inl ⟨hop, hstart⟩)).admitted s.report
    | false =>
      rcases SigningLease.start_eq hstart with ⟨-, rfl⟩ | ⟨hno, -⟩
      · exact (Admits.busy Clears.refl.expireSigning).admitted s.report
      · cases hno
  next hstart =>
  rw [wp_ite]
  split
  · next hop =>
    have hlength : 2 ≤ payload.length := by
      unfold commandShapeValid at hshape
      simp +decide [hop] at hshape
      exact hshape.2
    obtain ⟨admission, signing, hdata⟩ :=
      SigningLease.exists_beginData hlength hop hsigning owner s.now
    simp only [wp_bind, wp_get]
    refine wp_ofExcept hdata ?_
    simp only [wp_setSigning, wp_pure]
    rcases SigningLease.beginData_eq hdata with ⟨hrefused, rfl⟩ | ⟨rfl, -⟩
    · cases admission with
      | allowed => exact absurd rfl hrefused
      | tableFull =>
        exact (Admits.refused Clears.refl.expireSigning (Or.inr rfl)).admitted s.report
      | badState => exact (Admits.busy Clears.refl.expireSigning).admitted s.report
    · exact (hgrant (Or.inr (Or.inl ⟨hop, hdata⟩))).admitted s.report
  next hdata =>
  rw [wp_ite]
  split
  · next hop =>
    obtain ⟨admission, signing, hfinish⟩ :=
      SigningLease.exists_beginFinish hne hop s.signing owner s.now
    simp only [wp_bind, wp_get]
    refine wp_ofExcept hfinish ?_
    simp only [wp_setSigning, wp_pure]
    rcases SigningLease.beginFinish_eq hfinish with ⟨hrefused, rfl⟩ | ⟨rfl, -⟩
    · simp only [ne_eq, hrefused, not_false_eq_true, decide_true]
      exact (Admits.busy Clears.refl.expireSigning).admitted s.report
    · exact (hgrant (Or.inr (Or.inr ⟨hop, hfinish⟩))).admitted s.report
  next hfinish =>
  exact Admits.admitted
    (.granted .refl (.plain hdm hflag (by simp [hstart, hdata, hfinish]) hplain)) s.report

/-! ### Dispatch -/

theorem exists_forwarded {payload : Bytes} (hvalid : (validateCommand payload).reason = none)
    (hdesc : (descriptor payload).isSome = true) : ∃ frame, forwarded payload = .ok frame := by
  unfold forwarded
  split
  · next hop =>
    obtain ⟨desc, hsome⟩ := Option.isSome_iff_exists.mp hdesc
    have hshape : (validateCommand payload).valid = true := by
      unfold validateCommand at hvalid ⊢
      rw [hsome] at hvalid ⊢
      by_cases h : commandShapeValid payload = true
      · simp [h, ValidationResult.valid]
      · simp [h] at hvalid
    exact ⟨payload.set 1 upstreamAppTarget, if_pos ⟨hshape, hop⟩⟩
  · exact ⟨payload, rfl⟩

/-- The transaction that `dispatch` makes active. -/
def dispatching (s : Broker) (owner : Nat) (payload : Bytes) (desc : CommandDescriptor)
    (popSequence generation : Nat) : Transaction where
  owner := owner
  command := payload
  descriptor := desc
  started := s.now
  progress := s.now
  popSequence := popSequence
  notificationGeneration := generation
  hadMultiClient := owner = 0 ∧ ¬ s.multiClients.isEmpty
  step := if (s.wrappingScope owner desc).isSome then .setup else .command
  isScoped := (s.wrappingScope owner desc).isSome
  maintenance := desc.flags.maintenance
  jobId := s.nextWrite + 1

/-- Dispatching claims the upstream and sends one frame. -/
theorem dispatch_spec {owner : Nat} {payload frame : Bytes} {desc : CommandDescriptor}
    (popSequence generation : Nat) (hdesc : descriptor payload = some desc)
    (hscope : ∀ scope, s.wrappingScope owner desc = some scope → frame = scope)
    (hplain : s.wrappingScope owner desc = none → forwarded payload = .ok frame) :
    Returns (dispatch owner payload s.now popSequence generation) s fun _ t => ∃ report,
      t = { (s.claim (s.dispatching owner payload desc popSequence generation) s.radio
        s.signing).sendUp frame (s.dispatching owner payload desc popSequence generation) with
          report := report } := by
  unfold Returns dispatch
  simp only [hdesc, wp_bind, wp_get, wp_modify]
  refine wp_diagnostic _ _ fun report => ?_
  refine wp_diagnostic _ _ fun report => ?_
  cases hwrap : s.wrappingScope owner desc with
  | some scope =>
    obtain rfl := hscope scope hwrap
    simp only [wp_bind, wp_modifyActive, wp_perform, sendUpstream, wp_get, wp_modify]
    refine wp_count _ _ fun report => ?_
    simp only [wp_pure]
    refine ⟨report, ?_⟩
    simp only [dispatching, hwrap, Option.isSome_some, if_true, claim, sendUp, record,
      Option.map_some, Note.effect]
  | none =>
    simp only [wp_bind, wp_perform, sendCommand, wp_modifyActive]
    refine wp_ofExcept (hplain hwrap) ?_
    simp only [sendUpstream, wp_bind, wp_get, wp_modify, wp_perform]
    refine wp_count _ _ fun report => ?_
    simp only [wp_pure]
    refine ⟨report, ?_⟩
    simp only [dispatching, hwrap, Option.isSome_none, claim, sendUp, record, Option.map_some]
    rfl

/-! ### The rotation -/

/-- The internal inbox consumer's turn. -/
theorem WF.popTurn (hwf : s.WF) (hrunning : s.failed = false) (hidle : s.active = none) :
    Returns (rotationTurn 0 s.now) s fun dispatched t =>
      Steps s t ∧ (dispatched = false → t = s) := by
  unfold Returns rotationTurn
  simp only [wp_bind, wp_get, if_true]
  rw [wp_ite]
  split
  swap
  · exact ⟨.refl, fun _ => rfl⟩
  next hturn =>
  obtain ⟨hrequested, hsessions⟩ := hturn
  obtain ⟨desc, hdesc⟩ : ∃ desc, descriptor [cmdSyncNextMessage] = some desc := ⟨_, rfl⟩
  have hflags : desc.flags.maintenance = false ∧
      MeshCoreTCPMux.forwarded [cmdSyncNextMessage] = .ok [cmdSyncNextMessage] := by
    obtain rfl := Option.some.inj hdesc
    exact ⟨rfl, rfl⟩
  have hnobody : s.sessions.find? 0 = none := OrdMap.find?_eq_none.mpr hwf.positive
  simp only [wp_bind, wp_modify, wp_get, wp_pure]
  have hwrap : Broker.wrappingScope
      { s with drainRequested := false, popSequence := s.popSequence + 1 } 0 desc = none := by
    simp [wrappingScope, hnobody]
  refine wp_of_returns (dispatch_spec (s := { s with
      drainRequested := false, popSequence := s.popSequence + 1 }) _ _ hdesc
    (fun scope h => by simp [hwrap] at h) fun _ => hflags.2) fun _ t ht => ?_
  obtain ⟨report, rfl⟩ := ht
  refine ⟨Steps.active (.popDispatched hrunning hidle hrequested
    (by simpa using hsessions) hdesc ?_) rfl report, fun h => by cases h⟩
  simp only [dispatching, hwrap, hflags.1, true_and, Option.isSome_none, decide_not,
    Bool.decide_eq_true]
  rfl

theorem Reserves.congr {owner : Nat} {payload : Bytes} {desc : CommandDescriptor}
    (h : Reserves s owner payload desc radio signing) (hsize : t.sessions.size = s.sessions.size)
    (hradio : t.radio = s.radio) (hsigning : t.signing = s.signing) (hnow : t.now = s.now) :
    Reserves t owner payload desc radio signing := by
  cases h with
  | maintenance hflag hcommand hone hquarantine hremote hring hoperation =>
    rw [← hradio, ← hsigning]
    exact .maintenance hflag hcommand (hsize.trans hone) (hradio ▸ hquarantine) (hradio ▸ hremote)
      (by rwa [hradio, hnow]) (hsigning ▸ hoperation)
  | dm hdm hquarantine hring =>
    rw [← hradio, ← hsigning]
    exact .dm hdm (hradio ▸ hquarantine) (by rwa [hradio, hnow])
  | lease hdm hflag hquarantine hremote hr =>
    rw [← hradio, ← hsigning]
    exact .lease hdm hflag (hradio ▸ hquarantine) (hradio ▸ hremote) (by rwa [hradio, hnow])
  | signing hdm hflag hs =>
    rw [← hradio]
    exact .signing hdm hflag (by rwa [hsigning, hnow])
  | plain hdm hflag hs hmaintenance =>
    rw [← hradio, ← hsigning]
    exact .plain hdm hflag hs hmaintenance

/-- The turn of a client whose head is ready. -/
theorem Head.turn (h : s.Head id session command) (hwf : s.WF) (hidle : s.active = none)
    (hready : Forwardable s.config s.now command) :
    Returns (rotationTurn id s.now) s fun dispatched t =>
      Steps s t ∧ (dispatched = false → Apart id s t) := by
  have hid : id ≠ 0 := by
    rintro rfl
    exact hwf.positive (OrdMap.mem_keys_of_find? h.live)
  have hvalid := hready.valid
  obtain ⟨desc, hdesc⟩ : ∃ desc, descriptor command.payload = some desc := by
    unfold validateCommand at hvalid
    split at hvalid
    · cases hvalid
    · next desc hdesc => exact ⟨desc, hdesc⟩
  have hshape : commandShapeValid command.payload = true := by
    unfold validateCommand at hvalid
    by_contra hshape
    simp [hdesc, hshape] at hvalid
  unfold Returns rotationTurn
  simp only [wp_bind, wp_get, hid, if_false, h.live, h.sync, Option.isSome_none, Bool.false_eq_true]
  rw [h.commands]
  simp only [wp_bind]
  refine wp_shiftCommand fun report => ?_
  simp only [admitCommand, hdesc, wp_bind]
  have hreason := admissionReason_spec (s := { s.take id command with report := report }) id
    hwf.signing hdesc hshape
  refine wp_of_returns hreason fun reason t ht => ?_
  obtain ⟨radio, signing, report, rfl, hadmits⟩ := ht
  have hcleared : ∀ {radio₀ signing₀},
      Clears { s.take id command with report := report } radio₀ signing₀ →
      Steps s { s with radio := radio₀, signing := signing₀ } ∧
        Head { s with radio := radio₀, signing := signing₀ } id session command :=
    fun hclears => ⟨hclears s rfl rfl rfl hidle, h.running, h.live, h.commands, h.sync, h.inactive⟩
  cases hadmits with
  | @refused reason _ _ hclears hbusy =>
    obtain ⟨hsteps, hhead⟩ := hcleared hclears
    have hwf₀ := hwf.steps hsteps
    have hquiet : s.underMaintenance = false := by simp [underMaintenance, hidle]
    simp only [wp_bind, wp_pure, Bool.false_eq_true, if_false]
    refine wp_of_returns (hhead.reject hwf₀ hquiet (.busy hvalid hbusy) _ report) fun _ t ht => ?_
    refine ⟨hsteps.trans ht.1.steps, fun _ => ?_⟩
    exact (show Apart id s { s with radio := radio, signing := signing } from
      ⟨rfl, rfl, rfl, rfl, Or.inl rfl, fun _ _ => rfl⟩).trans ht.1.apart
  | @granted radio₀ _ signing₀ _ hclears hreserves =>
    obtain ⟨hsteps, hhead⟩ := hcleared hclears
    obtain ⟨u, hu⟩ : ∃ u : Broker, u = { s.take id command with
      radio := radio, signing := signing, report := report } := ⟨_, rfl⟩
    have hwrap : u.wrappingScope id desc = if desc.flags.scopeSend = true ∧
        session.scope ≠ defaultScope then some session.scope else none := by
      subst hu
      simp [wrappingScope, h.take_live]
    obtain ⟨plain, hplain⟩ := exists_forwarded hvalid (by simp [hdesc])
    have htransaction : u.dispatching id command.payload desc 0 0 =
        { owner := id, command := command.payload, descriptor := desc
          started := s.now
          progress := s.now
          jobId := s.nextWrite + 1
          maintenance := desc.flags.maintenance
          isScoped := decide (desc.flags.scopeSend = true ∧ session.scope ≠ defaultScope)
          step := if desc.flags.scopeSend = true ∧ session.scope ≠ defaultScope then .setup
            else .command } := by
      unfold dispatching
      rw [hwrap]
      subst hu
      split <;> simp [*, take]
    obtain ⟨frame, hscope, hframe⟩ : ∃ frame,
        (∀ scope, u.wrappingScope id desc = some scope → frame = scope) ∧
        (u.wrappingScope id desc = none → forwarded command.payload = .ok frame) := by
      cases hw : u.wrappingScope id desc with
      | some scope => exact ⟨scope, fun _ h => Option.some.inj h, fun h => by cases h⟩
      | none => exact ⟨plain, fun _ h => absurd h (by simp), fun _ => hplain⟩
    have hdispatch := dispatch_spec (s := u) 0 0 hdesc hscope hframe
    rw [show u.now = s.now by rw [hu]; rfl, htransaction] at hdispatch
    simp only [wp_pure, if_true, wp_bind, ← hu]
    refine wp_of_returns hdispatch fun _ t ht => ?_
    obtain ⟨report', rfl⟩ := ht
    subst hu
    refine ⟨hsteps.trans ?_, fun h => by cases h⟩
    refine Steps.active (Upstream.dispatched (s := { s with
      radio := radio₀, signing := signing₀ }) hidle hhead hready hdesc
      (hreserves.congr (by simp [take]) rfl rfl rfl) rfl ?_) rfl report'
    rw [hwrap] at hscope hframe
    by_cases hwrapped : desc.flags.scopeSend = true ∧ session.scope ≠ defaultScope
    · simp only [hwrapped, ne_eq, not_false_eq_true, and_self, decide_true, if_true] at hscope ⊢
      exact hscope _ rfl
    · simp only [hwrapped, decide_false, Bool.false_eq_true, if_false] at hframe ⊢
      exact hframe trivial

theorem WF.rotationTurn (hwf : s.WF) (hrunning : s.failed = false) (hidle : s.active = none)
    (hready : s.Ready id) :
    Returns (rotationTurn id s.now) s fun dispatched t =>
      Steps s t ∧ (dispatched = false → Apart id s t) := by
  by_cases hid : id = 0
  · subst hid
    exact (hwf.popTurn hrunning hidle).mono fun _ t ht => ⟨ht.1, fun h => ht.2 h ▸ .refl⟩
  have hskip : Returns (pure false : BrokerM Bool) s fun dispatched t =>
      Steps s t ∧ (dispatched = false → Apart id s t) := ⟨.refl, fun _ => .refl⟩
  cases hlive : s.sessions.find? id with
  | none =>
    unfold Returns MeshCoreTCPMux.rotationTurn
    simp only [wp_bind, wp_get, hid, if_false, hlive]
    exact hskip
  | some session =>
    cases hsync : session.sync with
    | some sync =>
      unfold Returns MeshCoreTCPMux.rotationTurn
      simp only [wp_bind, wp_get, hid, if_false, hlive, hsync, Option.isSome_some, if_true]
      exact hskip
    | none =>
      cases hcommands : session.commands with
      | nil =>
        unfold Returns MeshCoreTCPMux.rotationTurn
        simp only [wp_bind, wp_get, hid, if_false, hlive, hsync, Option.isSome_none,
          Bool.false_eq_true, hcommands]
        exact hskip
      | cons command rest =>
        have hinactive : s.activeOwner ≠ some id := by simp [activeOwner, hidle]
        have hhead : s.Head id session command :=
          ⟨hrunning, hlive, by simp [hcommands], hsync, hinactive⟩
        exact hhead.turn hwf hidle (hready session command rest hlive hsync hinactive hcommands)

/-- The rotation. It reaches the participants in their order, each at most once. -/
theorem WF.rotate {turns : Nat} (hwf : s.WF) (hrunning : s.failed = false) (hidle : s.active = none)
    (hturns : turns ≤ s.order.length) (hready : ∀ id ∈ s.order.take turns, s.Ready id) :
    Returns (rotate s.now turns) s fun _ t => Steps s t := by
  induction turns generalizing s with
  | zero => exact .refl
  | succ turns ih =>
    unfold Returns MeshCoreTCPMux.rotate
    simp only [wp_bind, wp_get]
    cases horder : s.order with
    | nil => simp [horder] at hturns
    | cons id rest =>
      rw [horder] at hturns hready
      have hrotated : Steps s { s with order := rest ++ [id] } := Steps.move (.idle (.rotate horder))
      have hwf' := hwf.steps hrotated
      have hnotMem : id ∉ rest := by
        have hnodup : s.order.Nodup :=
          hwf.order.nodup_iff.mpr (List.nodup_cons.mpr ⟨hwf.positive, s.sessions.nodup_keys⟩)
        rw [horder] at hnodup
        exact (List.nodup_cons.mp hnodup).1
      have hlength : turns ≤ rest.length := by simpa using hturns
      simp only [wp_bind, wp_modify]
      have hturn := hwf'.rotationTurn hrunning hidle (hready id List.mem_cons_self)
      refine wp_of_returns hturn fun dispatched t hturned => ?_
      obtain ⟨hsteps, hundispatched⟩ := hturned
      cases dispatched with
      | true => exact hrotated.trans hsteps
      | false =>
        have hapart := hundispatched rfl
        obtain ⟨last, hlast⟩ : ∃ last, t.order = rest ++ last := by
          rcases hapart.order with h | h
          · exact ⟨[id], h⟩
          · have hkept : rest.filter (· ≠ id) = rest :=
              List.filter_eq_self.mpr fun i hi => by simpa using fun h : i = id => hnotMem (h ▸ hi)
            exact ⟨[], by rw [h, List.filter_append, hkept]; simp⟩
        have hrest := ih (hwf'.steps hsteps) (hapart.failed.trans hrunning)
          (hapart.active.trans hidle) (by rw [hlast]; simp; omega) fun i hi => ?_
        · rw [hapart.now] at hrest
          exact wp_of_returns hrest fun _ u hu => (hrotated.trans hsteps).trans hu
        · rw [hlast, List.take_append_of_le_length hlength] at hi
          have hne : i ≠ id := fun h => hnotMem (h ▸ List.mem_of_mem_take hi)
          exact hapart.ready hne (hready i (by simp [List.take_succ_cons, hi]))

/-- Where the schedule may end. A failed broker does not even read the clock. -/
def Scheduled (s : Broker) (now : Time) (t : Broker) : Prop :=
  (s.failed = true ∧ t = s) ∨ Steps { s with now := now } t

/-- **The schedule** is a sequence of atomic actions. -/
theorem WF.schedule (hwf : s.WF) {now : Time} (hnow : s.now ≤ now) :
    Returns (schedule now) s fun _ t => s.Scheduled now t := by
  unfold Returns MeshCoreTCPMux.schedule
  simp only [wp_bind, wp_get]
  cases hrunning : s.failed with
  | true => exact Or.inl ⟨hrunning, rfl⟩
  | false =>
    have hwf' := hwf.clock hnow
    simp only [Bool.false_eq_true, if_false, wp_bind, wp_modify, wp_get]
    cases hquiet : s.underMaintenance with
    | true =>
      have hbusy : Broker.underMaintenance { s with now := now } = true := hquiet
      simp only [hbusy]
      exact Or.inr .refl
    | false =>
      have hfree : Broker.underMaintenance { s with now := now } = false := hquiet
      simp only [hfree, Bool.false_eq_true, if_false, wp_bind, wp_get]
      refine wp_of_returns (hwf'.localTurns hfree hrunning)
        fun _ t hlocal => ?_
      obtain ⟨hsteps, -, hfailed, hnow', hready⟩ := hlocal
      rw [wp_ite]
      split
      swap
      · exact Or.inr hsteps
      next hidle =>
      simp only [wp_bind, wp_get]
      have hrotate := (hwf'.steps hsteps).rotate hfailed (by simpa using hidle) le_rfl
        fun id _ => hready id
      rw [hnow'] at hrotate
      exact wp_of_returns hrotate fun _ u hu => Or.inr (hsteps.trans hu)

/-- After a call that has read the clock already. -/
theorem WF.scheduleNow (hwf : s.WF) {now : Time} (hnow : s.now = now) :
    Returns (MeshCoreTCPMux.schedule now) s fun _ t => Steps s t := by
  subst hnow
  refine (hwf.schedule le_rfl).mono fun _ t ht => ?_
  rcases ht with ⟨-, rfl⟩ | hsteps
  · exact .refl
  · exact hsteps

end Broker

end MeshCoreTCPMux

import MeshCoreTCPMux.Broker.WellFormed

/-!
# What the elementary programs do

Rules for the building blocks of the entry points, and then `remove`, `emit` and `fail_epoch` as
atomic actions. A caller gets the state after the call up to the broker's report.
-/

namespace MeshCoreTCPMux

open Protocol Program Relation

namespace Broker

variable {s : Broker} {E : Error → Broker → Prop} {Q : Unit → Broker → Prop}

/-! ### Rules -/

@[simp] theorem wp_perform (n : Note) : wp (perform n) Q E s ↔ Q () (s.record n) := Iff.rfl

@[simp] theorem wp_modifySession (id : Nat) (f : Session → Session) :
    wp (modifySession id f) Q E s ↔ Q () { s with sessions := s.sessions.modify id f } := Iff.rfl

@[simp] theorem wp_modifySlot (k : Nat) (f : DedicatedClientSlot → DedicatedClientSlot) :
    wp (modifySlot k f) Q E s ↔ Q () { s with dedicatedSlots := s.dedicatedSlots.modify k f } :=
  Iff.rfl

@[simp] theorem wp_modifyActive (f : Transaction → Transaction) :
    wp (modifyActive f) Q E s ↔ Q () { s with active := s.active.map f } := Iff.rfl

@[simp] theorem wp_modifyDebt (f : Transaction → Transaction) :
    wp (modifyDebt f) Q E s ↔ Q () { s with responseDebt := s.responseDebt.map f } := Iff.rfl

@[simp] theorem wp_setRemote (remote : RemoteLease) :
    wp (setRemote remote) Q E s ↔ Q () { s with radio := { s.radio with remote := remote } } :=
  Iff.rfl

@[simp] theorem wp_setSigning (signing : SigningLease) :
    wp (setSigning signing) Q E s ↔ Q () { s with signing := signing } := Iff.rfl

theorem wp_ofExcept {α : Type} {Q : α → Broker → Prop} {x : Except Error α} {a : α}
    (hx : x = .ok a) (h : Q a s) : wp (ofExcept x) Q E s := by
  subst hx
  exact h

/-- Diagnostics and counters change the report only. -/
theorem wp_diagnostic (message : Text) (category : Category)
    (h : ∀ report, Q () { s with report := report }) : wp (diagnostic message category) Q E s :=
  h _

theorem wp_count (name : String) (amount : Nat) (h : ∀ report, Q () { s with report := report }) :
    wp (count name amount) Q E s :=
  h _

/-! ### Leaving -/

theorem wp_detach (id : Nat) (session : Session)
    (h : ∀ report, Q () { s with
      dedicatedSlots := s.detachedSlots id session, report := report }) :
    wp (detach id session) Q E s := by
  unfold detach
  cases hslot : session.dedicatedSlotId with
  | none =>
    simp only [detachedSlots, hslot] at h
    exact h _
  | some k =>
    simp only [detachedSlots, hslot] at h
    simp only [wp_bind, wp_get]
    cases hk : s.dedicatedSlots.find? k with
    | none =>
      simp only [OrdMap.modify_of_find?_eq_none hk] at h
      exact h s.report
    | some slot => exact h _

/-- A removal is `drop`, and then whatever finishes a delivered maintenance result. -/
theorem wp_removeWith {finish : Transaction → BrokerM Unit} {id : Nat} {reason : Text}
    {category : Category} {session : Session} (hlive : s.sessions.find? id = some session)
    (hdrop : s.delivering id = false →
      ∀ report, Q () { s.drop id session reason with report := report })
    (hfinish : s.delivering id = true → ∀ transaction, s.active = some transaction →
      transaction.maintenance = true → transaction.owner = id →
      ∀ report, wp (finish transaction) Q E { s.drop id session reason with report := report }) :
    wp (removeWith finish id reason category) Q E s := by
  unfold removeWith
  simp only [wp_bind, wp_get, hlive, wp_modify]
  refine wp_count _ _ fun report => ?_
  refine wp_detach _ _ fun report => ?_
  simp only [wp_setRemote]
  refine wp_diagnostic _ _ fun report => ?_
  simp only [wp_perform]
  split
  · next transaction hactive =>
    change s.active = some transaction at hactive
    rw [wp_ite]
    split
    · next hdelivering =>
      obtain ⟨hm, hs, ho⟩ := hdelivering
      exact hfinish (delivering_iff.mpr ⟨transaction, hactive, hm, hs, ho⟩) transaction hactive hm ho
        _
    · next hnot =>
      refine hdrop ?_ _
      rw [← Bool.not_eq_true, delivering_iff]
      rintro ⟨other, hother, hm, hs, ho⟩
      obtain rfl := Option.some.inj (hactive.symm.trans hother)
      exact hnot ⟨hm, hs, ho⟩
  · next hactive =>
    change s.active = none at hactive
    exact hdrop (by simp [delivering, hactive]) _

/-! ### The end of an epoch -/

theorem Steps.move {t : Broker} (h : Move s t) : Steps s t :=
  ReflTransGen.single (Step.mk h t.report)

theorem Steps.andThen {t u : Broker} (h : Steps s t) (hlast : Move t u) : Steps s u :=
  ReflTransGen.tail h (Step.mk hlast u.report)

theorem Steps.moveReport {t : Broker} (h : Move s t) (report : Report) :
    Steps s { t with report := report } :=
  ReflTransGen.single (Step.mk h report)

/-- The report may change by itself. -/
theorem Steps.report (report : Report) : Steps s { s with report := report } :=
  Steps.moveReport (.idle (@Idle.poll s s.lastPoll)) report

/-- The companion's side goes on: a transaction is active afterwards, … -/
theorem Steps.active {t : Broker} (h : Upstream s t) (hactive : t.active.isSome = true)
    (report : Report) : Steps s { t with report := report } :=
  Steps.moveReport (.upstream h fun _ => hactive) report

/-- … or an ordinary one has ended. -/
theorem Steps.ordinary {t : Broker} (h : Upstream s t) (hquiet : s.underMaintenance = false)
    (report : Report) : Steps s { t with report := report } :=
  Steps.moveReport (.upstream h fun hm => by simp [hquiet] at hm) report

/-- Failing the epoch is one atomic action. -/
theorem failAll_steps {reason : Text} (hrunning : s.failed = false) (hfatal : s.Fatal reason) :
    Steps s (s.failAll reason) :=
  Steps.move (.ending (.failed hrunning hfatal))

/-- The end of an epoch does not look at the report. -/
theorem failAll_report (report report' : Report) (reason : Text) :
    { { s with report := report }.failAll reason with report := report' }
      = { s.failAll reason with report := report' } := by
  have hleave : ∀ (u : Broker) id,
      { u with report := report }.leave id = { u.leave id with report := report } := by
    intro u id
    unfold leave
    cases u.sessions.find? id with
    | none => rfl
    | some session =>
      change (if u.delivering id = true then _ else _) = _
      split <;> rfl
  have hfold : ∀ (ids : List Nat) (u : Broker), ids.foldl leave { u with report := report }
      = { ids.foldl leave u with report := report } := by
    intro ids
    induction ids with
    | nil => exact fun _ => rfl
    | cons id ids ih => exact fun u => by rw [List.foldl_cons, hleave, ih, List.foldl_cons]
  unfold failAll
  rw [hfold]
  rfl

/-- The radio state that a failure would leave now. -/
def failingRadio (s : Broker) : CompanionRadioState :=
  match s.active with
  | none => s.radio
  | some transaction => s.preservedRadio transaction

theorem wp_preserveRadioUncertainty
    (h : ∀ report, Q () { s with radio := s.failingRadio, report := report }) :
    wp preserveRadioUncertainty Q E s := by
  have hradio : ∀ {radio}, s.failingRadio = radio →
      ∀ report, Q () { s with radio := radio, report := report } := fun hr => hr ▸ h
  unfold preserveRadioUncertainty
  simp only [wp_bind, wp_get]
  split
  · next hactive => exact hradio (by simp [failingRadio, hactive]) s.report
  next transaction hactive =>
  have hfail : s.failingRadio = s.preservedRadio transaction := by simp [failingRadio, hactive]
  unfold preservedRadio at hfail
  rw [wp_ite]
  split
  · next hsetup =>
    rw [if_pos hsetup] at hfail
    rw [wp_ite]
    split
    · next hflag => exact hradio (hfail.trans (if_pos hflag)) s.report
    · next hflag => exact hradio (hfail.trans (if_neg hflag)) s.report
  next hsetup =>
  rw [if_neg hsetup] at hfail
  rw [wp_ite]
  split
  swap
  · next hcommand => exact hradio (hfail.trans (if_neg hcommand)) s.report
  next hcommand =>
  rw [if_pos hcommand] at hfail
  simp only [wp_bind, wp_get, wp_set]
  rw [wp_ite]
  split
  · next hlease =>
    simp only [wp_bind, wp_setRemote]
    obtain ⟨hflag, htentative⟩ := hlease
    obtain ⟨r, hr, ht⟩ : ∃ r, s.radio.remote = some r ∧ r.tentative = true := by
      change RemoteLease.tentative s.radio.remote = true at htentative
      cases hr : s.radio.remote with
      | none => simp [RemoteLease.tentative, hr] at htentative
      | some r => exact ⟨r, rfl, by simpa [RemoteLease.tentative, hr] using htentative⟩
    refine wp_ofExcept (a := abandonLease s.radio.remote (s.radio.quarantine s.now
      s.config.radioUncertaintyTimeout (plainDm transaction.command)).1) ?_ ?_
    · simp only [CompanionRadioState.quarantine, RemoteLease.acceptanceUnknown, hr, ht, if_true,
        abandonLease, Option.map_some]
    · exact wp_diagnostic _ _ (hradio (hfail.trans (if_pos hflag)))
  · next hlease =>
    refine wp_diagnostic _ _ (hradio (hfail.trans ?_))
    split
    · next hflag =>
      have hnot : RemoteLease.tentative s.radio.remote = false := by
        by_contra ht
        exact hlease ⟨hflag, Bool.not_eq_false _ ▸ ht⟩
      cases hr : s.radio.remote with
      | none => simp [CompanionRadioState.quarantine, abandonLease, hr]
      | some r =>
        have ht : r.tentative = false := by simpa [RemoteLease.tentative, hr] using hnot
        simp [CompanionRadioState.quarantine, abandonLease, hr, ht]
    · rfl

/-- What a failure leaves of the radio state does not depend on who has left. -/
theorem failingRadio_drop (id : Nat) (session : Session) (reason : Text) :
    (s.drop id session reason).failingRadio =
      { s.failingRadio with remote := RemoteLease.ownerGone s.failingRadio.remote id } := by
  have habandon : ∀ lease deadline, abandonLease (RemoteLease.ownerGone lease id) deadline
      = RemoteLease.ownerGone (abandonLease lease deadline) id := by
    rintro (_ | r) deadline
    · rfl
    · cases ht : r.tentative <;> by_cases ho : r.owner = some id <;>
        simp [abandonLease, RemoteLease.ownerGone, ht, ho]
  unfold failingRadio drop
  cases hactive : s.active with
  | none => rfl
  | some transaction =>
    simp only [preservedRadio]
    split
    · split <;> rfl
    · split
      · split
        · simp only [CompanionRadioState.quarantine, habandon]
        · rfl
      · rfl

theorem leave_active (id : Nat) :
    (s.leave id).active = s.active ∨
      ∃ transaction, s.active = some transaction ∧ transaction.step = .maintenanceResult ∧
        (s.leave id).active = none := by
  unfold leave
  split
  · exact Or.inl rfl
  · split
    · next hdelivering =>
      obtain ⟨transaction, hactive, -, hstep, -⟩ := delivering_iff.mp hdelivering
      exact Or.inr ⟨transaction, hactive, hstep, rfl⟩
    · exact Or.inl rfl

/-- A delivered maintenance result leaves no uncertainty. -/
theorem failingRadio_of_result {transaction : Transaction} (hactive : s.active = some transaction)
    (hstep : transaction.step = .maintenanceResult) : s.failingRadio = s.radio := by
  simp [failingRadio, hactive, preservedRadio, hstep]

theorem failingRadio_leave (id : Nat) :
    (s.leave id).failingRadio =
      if (s.sessions.find? id).isSome then
        { s.failingRadio with remote := RemoteLease.ownerGone s.failingRadio.remote id }
      else s.failingRadio := by
  unfold leave
  cases hlive : s.sessions.find? id with
  | none => rfl
  | some session =>
    simp only [Option.isSome_some, if_true]
    split
    · next hdelivering =>
      obtain ⟨transaction, hactive, -, hstep, -⟩ := delivering_iff.mp hdelivering
      rw [failingRadio_of_result hactive hstep]
      rfl
    · exact failingRadio_drop _ _ _

/-- A removal inside a failure: the broker has failed, its radio state has been preserved and its
debt is known, but otherwise it is the state `s` that leaves session by session. -/
theorem wp_removeFailed {id : Nat} {radio : CompanionRadioState} {debt : Option Transaction}
    {report : Report}
    (h : ∀ report, Q () { s.leave id with
      radio := if (s.sessions.find? id).isSome then
          { radio with remote := RemoteLease.ownerGone radio.remote id } else radio
      failed := true
      responseDebt := debt
      report := report }) :
    wp (removeFailed id) Q E
      { s with radio := radio, failed := true, responseDebt := debt, report := report } := by
  unfold leave at h
  cases hlive : s.sessions.find? id with
  | none =>
    simp only [hlive, Option.isSome_none, Bool.false_eq_true, if_false] at h
    have hgone : wp (removeFailed id) Q E
        { s with radio := radio, failed := true, responseDebt := debt, report := report } ↔ Q ()
        { s with radio := radio, failed := true, responseDebt := debt, report := report } := by
      simp only [removeFailed, removeWith, wp_bind, wp_get, hlive, wp_pure]
    exact hgone.mpr (h report)
  | some session =>
    simp only [hlive, Option.isSome_some, if_true] at h
    have hlive' : { s with
        radio := radio, failed := true, responseDebt := debt, report := report }.sessions.find? id
          = some session := hlive
    refine wp_removeWith hlive' ?_ ?_
    · intro hnot report
      change s.delivering id = false at hnot
      simp only [hnot, Bool.false_eq_true, if_false] at h
      exact h report
    · intro hdelivering transaction hactive hmaintenance howner report
      change s.delivering id = true at hdelivering
      simp only [hdelivering, if_true] at h
      unfold finishWith
      simp only [wp_bind, wp_modify]
      rw [wp_ite, if_pos hmaintenance, howner]
      exact h report

/-- The transaction whose reply a failure leaves outstanding. -/
def failingDebt (s : Broker) : Option Transaction :=
  s.active.filter (·.step ≠ .maintenanceResult)

theorem failingDebt_leave (id : Nat) : (s.leave id).failingDebt = s.failingDebt := by
  unfold failingDebt
  rcases leave_active id with hsame | ⟨transaction, hactive, hstep, hnone⟩
  · rw [hsame]
  · simp [hnone, hactive, hstep, Option.filter]

/-- A broker in the middle of a failure, whose sessions have left as in `s`. -/
def failing (s : Broker) (report : Report) : Broker :=
  { s with
    radio := s.failingRadio, failed := true, responseDebt := s.failingDebt, report := report }

theorem wp_removeAll {ids : List Nat} {report : Report}
    (h : ∀ report, Q () ((ids.foldl leave s).failing report)) :
    wp (ids.forM removeFailed) Q E (s.failing report) := by
  refine wp_forM (fun rest t => ∃ u report, t = failing u report ∧
    rest.foldl leave u = ids.foldl leave s) ⟨s, report, rfl, rfl⟩ ?_ ?_
  · rintro id rest _ ⟨u, report, rfl, hfold⟩
    refine wp_removeFailed fun report => ⟨u.leave id, report, ?_, hfold⟩
    rw [failing, failingRadio_leave, failingDebt_leave]
  · rintro _ ⟨u, report, rfl, rfl⟩
    exact h report

/-- **Failing the epoch.** The radio uncertainty is recorded first, while the sessions are still
there; recording it last, as `failAll` does, gives the same state. -/
theorem wp_failEpoch {reason : Text} {debt : Option Transaction} (hrunning : s.failed = false)
    (hdebt : debt = none ∨ debt = s.failingDebt)
    (h : ∀ report, Q () { s.failAll reason with report := report }) :
    wp (failEpoch reason) Q E { s with responseDebt := debt } := by
  have hend : ∀ report, wp (s.sessions.keys.forM removeFailed) (fun _ t =>
      wp (do
        modify fun s => { s with active := none, upstreamWrites := ∅ }
        diagnostic (joined [["epoch=", (← get).epoch, " summary"], counterSummary (← get)])
        perform (.ended (← get).epoch reason)) Q E t) E (s.failing report) := by
    intro report
    refine wp_removeAll fun report => ?_
    simp only [wp_bind, wp_modify, wp_get]
    refine wp_diagnostic _ _ fun report => ?_
    exact h _
  have hd : (debt <|> s.failingDebt) = s.failingDebt := by
    rcases hdebt with rfl | rfl
    · rfl
    · cases s.failingDebt <;> rfl
  unfold failEpoch
  simp only [wp_bind, wp_get, hrunning, Bool.false_eq_true, if_false, wp_modify]
  refine wp_preserveRadioUncertainty fun report => ?_
  refine wp_diagnostic _ _ fun report => ?_
  have hloop := hend report
  unfold failing at hloop
  rw [← hd] at hloop
  simp only [wp_bind, wp_modify, wp_get] at hloop
  exact hloop

/-- A broker that has not failed, and owes no reply to a later drain. -/
structure Up (s : Broker) : Prop where
  running : s.failed = false
  settled : s.responseDebt = none

theorem WF.up (h : s.WF) (hrunning : s.failed = false) : s.Up := ⟨hrunning, h.debt hrunning⟩

theorem wp_fail {reason : Text} (hup : s.Up)
    (h : ∀ report, Q () { s.failAll reason with report := report }) :
    wp (failEpoch reason) Q E s := by
  have hfail : wp (failEpoch reason) Q E { s with responseDebt := none } :=
    wp_failEpoch hup.running (Or.inl rfl) h
  rwa [← hup.settled] at hfail

theorem wp_finishTransaction {transaction : Transaction} (hup : s.Up)
    (h : transaction.maintenance = false → Q () (s.release transaction.owner))
    (hend : transaction.maintenance = true → ∀ report,
      Q () { (s.release transaction.owner).failAll maintenanceReason with report := report }) :
    wp (finishTransaction transaction) Q E s := by
  unfold finishTransaction finishWith
  simp only [wp_bind, wp_modify]
  rw [wp_ite]
  split
  · next hmaintenance =>
    exact wp_fail (s := s.release transaction.owner) ⟨hup.running, hup.settled⟩ (hend hmaintenance)
  · next hmaintenance => exact h (by simpa using hmaintenance)

theorem failAll_received (reason : Text) : received (s.failAll reason).log = received s.log := by
  have hleave : ∀ (u : Broker) id, received (u.leave id).log = received u.log := by
    intro u id
    unfold leave
    split
    · rfl
    · split <;> exact received_neutral (by simp [Neutral, receive])
  have hfold : ∀ (ids : List Nat) (u : Broker),
      received (ids.foldl leave u).log = received u.log := by
    intro ids
    induction ids with
    | nil => exact fun _ => rfl
    | cons id ids ih => exact fun u => (ih _).trans (hleave u id)
  exact (received_neutral (by simp [Neutral, receive])).trans (hfold _ s)

/-! ### Removal -/

/-- What a removal leaves: the broker without the session, or, if the session was waiting for the
write of a maintenance result, a failed broker. -/
inductive Removed (s : Broker) (id : Nat) (session : Session) (reason : Text) : Broker → Prop
  | left (h : s.delivering id = false) (report : Report) :
      Removed s id session reason { s.drop id session reason with report := report }
  | ended (h : s.delivering id = true) (report : Report) :
      Removed s id session reason
        { ((s.drop id session reason).release id).failAll maintenanceReason with report := report }

theorem remove_spec {id : Nat} {session : Session} (reason : Text) (category : Category)
    (hup : s.Up) (hlive : s.sessions.find? id = some session) :
    Returns (remove id reason category) s fun _ t => s.Removed id session reason t := by
  refine wp_removeWith hlive (fun hnot report => .left hnot report) ?_
  intro hdelivering transaction hactive hmaintenance howner report
  subst howner
  refine wp_finishTransaction ⟨hup.running, hup.settled⟩ (fun hnot => ?_) fun _ report' => ?_
  · simp [hmaintenance] at hnot
  · have hended : s.Removed transaction.owner session reason _ := .ended hdelivering report'
    rwa [← failAll_report report] at hended

theorem remove_gone {id : Nat} (reason : Text) (category : Category)
    (hgone : s.sessions.find? id = none) :
    remove id reason category s = .ok () s := by
  simp only [remove, removeWith, bind, EStateM.bind, get, getThe, MonadStateOf.get, EStateM.get,
    hgone]
  rfl

theorem Removed.steps {id : Nat} {session : Session} {reason : Text} {t : Broker}
    (h : s.Removed id session reason t) (hlive : s.sessions.find? id = some session)
    (hdeparts : s.Departs id session reason) : Steps s t := by
  cases h with
  | left hother report => exact Steps.moveReport (.output (.drop hlive hdeparts hother)) report
  | ended hdelivering report =>
    obtain ⟨transaction, hactive, -, hstep, rfl⟩ := delivering_iff.mp hdelivering
    exact Steps.moveReport (.ending (.deserted hactive hstep hlive hdeparts)) report

/-- A removal forgets what was last done to the session alone. -/
theorem Removed.of_drop_eq {s' : Broker} {id : Nat} {session session' : Session} {reason : Text}
    {t : Broker} (h : s'.Removed id session' reason t)
    (hdrop : ∀ report, { s'.drop id session' reason with report := report }
      = { s.drop id session reason with report := report })
    (hdelivering : s'.delivering id = s.delivering id) : s.Removed id session reason t := by
  cases h with
  | left hnot report =>
    rw [hdrop]
    exact .left (hdelivering ▸ hnot) report
  | ended hyes report =>
    have hleft : ∀ report report', { ({ s'.drop id session' reason with report := report }.release
          id).failAll maintenanceReason with report := report' }
        = { ((s.drop id session reason).release id).failAll maintenanceReason with
            report := report' } := fun report report' => by
      rw [hdrop]
      exact failAll_report (s := (s.drop id session reason).release id) report report' _
    have hended := hleft (s'.drop id session' reason).report report
    rw [hended]
    exact .ended (hdelivering ▸ hyes) report

theorem failAll_keys (reason : Text) : (s.failAll reason).sessions.keys = [] :=
  leaveAll_keys rfl

theorem Removed.gone {id : Nat} {session : Session} {reason : Text} {t : Broker}
    (h : s.Removed id session reason t) : t.sessions.find? id = none := by
  cases h with
  | left => simp [drop]
  | ended => exact OrdMap.find?_eq_none.mpr (by simp [failAll_keys])

/-- A removal takes no frame. -/
theorem Removed.received {id : Nat} {session : Session} {reason : Text} {t : Broker}
    (h : s.Removed id session reason t) : received t.log = received s.log := by
  have hdrop : Broker.received (s.drop id session reason).log = Broker.received s.log :=
    received_neutral (by simp [Neutral, receive])
  cases h with
  | left => exact hdrop
  | ended => exact (failAll_received _).trans hdrop

/-- While nothing is being delivered, a removal is a drop. -/
theorem Removed.eq_drop {id : Nat} {session : Session} {reason : Text} {t : Broker}
    (h : s.Removed id session reason t) (hnot : s.delivering id = false) :
    ∃ report, t = { s.drop id session reason with report := report } := by
  cases h with
  | left _ report => exact ⟨report, rfl⟩
  | ended hyes => simp [hnot] at hyes

/-! ### Output -/

/-- What `emit` does: nothing for a dead session, a frame if there is room, a removal otherwise. -/
inductive Emitted (s : Broker) (id : Nat) (payload : Bytes) (cause : Cause) :
    Option Nat → Broker → Prop
  | gone (h : s.sessions.find? id = none) (report : Report) :
      Emitted s id payload cause none { s with report := report }
  | sent {session : Session} (h : s.sessions.find? id = some session) (hroom : s.Room session)
      (report : Report) :
      Emitted s id payload cause (some (s.nextWrite + 1))
        { s.send id payload cause with report := report }
  | dropped {session : Session} {t : Broker} (h : s.sessions.find? id = some session)
      (hfull : ¬ s.Room session) (ht : s.Removed id session ["output queue overflow"] t) : Emitted s id payload cause none t

theorem Emitted.received {id : Nat} {payload : Bytes} {cause : Cause} {w : Option Nat}
    {t : Broker} (h : s.Emitted id payload cause w t) : received t.log = received s.log := by
  cases h with
  | gone => rfl
  | sent => exact received_neutral (by simp [Neutral, receive])
  | dropped _ _ ht => exact ht.received

theorem emit_spec (id : Nat) (payload : Bytes) (cause : Cause) (hup : s.Up) :
    Returns (emit id payload cause) s (s.Emitted id payload cause) := by
  unfold Returns emit
  simp only [wp_bind, wp_get]
  split
  · next hgone => exact .gone hgone s.report
  · next session hlive =>
    rw [wp_ite]
    split
    · next hfull =>
      simp only [wp_bind]
      exact wp_of_returns (remove_spec _ _ hup hlive) fun _ t ht =>
        .dropped hlive (not_lt.mpr hfull) ht
    · next hroom => exact .sent hlive (not_le.mp hroom) _

theorem Removed.of_report {id : Nat} {session : Session} {reason : Text} {report : Report}
    {t : Broker} (h : { s with report := report }.Removed id session reason t) :
    s.Removed id session reason t :=
  h.of_drop_eq (fun _ => rfl) rfl

theorem Emitted.of_report {id : Nat} {payload : Bytes} {cause : Cause} {report : Report}
    {w : Option Nat} {t : Broker} (h : { s with report := report }.Emitted id payload cause w t) :
    s.Emitted id payload cause w t := by
  cases h with
  | gone hgone report => exact Emitted.gone (s := s) hgone report
  | sent hlive hroom report => exact Emitted.sent (s := s) hlive hroom report
  | dropped hlive hfull ht => exact .dropped hlive hfull ht.of_report

theorem reject_spec (id : Nat) (reason : UInt8) (detail : Text) (hup : s.Up) :
    Returns (reject id reason detail) s fun _ t =>
      ∃ w, s.Emitted id [respErr, reason] .answer w t := by
  unfold Returns reject
  simp only [wp_bind, wp_get]
  refine wp_count _ _ fun report => wp_diagnostic _ _ fun report => ?_
  exact wp_of_returns (emit_spec id _ _ ⟨hup.running, hup.settled⟩)
    fun w t ht => ⟨w, Emitted.of_report (s := s) ht⟩

theorem send_sessions (id : Nat) (payload : Bytes) (cause : Cause) :
    (s.send id payload cause).sessions.keys = s.sessions.keys := by simp [send]

/-- A hint is coalesced, sent, or closes the session. -/
theorem emitAvailabilityHint_spec (id : Nat) (hup : s.Up) :
    Returns (emitAvailabilityHint id) s fun _ t =>
      t = s ∨
      (∃ session report, s.sessions.find? id = some session ∧
        session.availabilityHintWriteId = none ∧ s.Room session ∧
        t = { (s.send id [pushMsgWaiting] .hint).markHint id (s.nextWrite + 1) with
          report := report }) ∨
      ∃ session, s.sessions.find? id = some session ∧ ¬ s.Room session ∧
        s.Removed id session ["output queue overflow"] t := by
  unfold Returns emitAvailabilityHint
  simp only [wp_bind, wp_get]
  split
  · exact Or.inl rfl
  next session hlive =>
  rw [wp_ite]
  split
  swap
  · exact Or.inl rfl
  next hnone =>
  simp only [wp_bind]
  refine wp_of_returns (emit_spec id _ _ hup) fun w t ht => ?_
  simp only [wp_modifySession]
  cases ht with
  | gone hgone => simp [hlive] at hgone
  | sent h hroom report =>
    obtain rfl := Option.some.inj (hlive.symm.trans h)
    exact Or.inr (Or.inl ⟨session, report, hlive, by simpa using hnone, hroom, rfl⟩)
  | dropped h hfull ht =>
    obtain rfl := Option.some.inj (hlive.symm.trans h)
    rw [OrdMap.modify_of_find?_eq_none ht.gone]
    exact Or.inr (Or.inr ⟨session, hlive, hfull, ht⟩)

end Broker

end MeshCoreTCPMux

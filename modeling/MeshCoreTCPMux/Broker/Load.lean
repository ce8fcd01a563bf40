import MeshCoreTCPMux.Library.Within
import MeshCoreTCPMux.Broker.Run

/-!
# The work that a broker holds

The load of a broker counts what it may still do on its own: fail, drain the companion's inbox, drop
a session and resolve a queued command. A queued command weighs two, for it may be a sync, which
requests a drain. Nothing but a call of a client or of the companion adds to the load, and a refused
write hands out new actions only at the expense of the load (`Spent`).
-/

namespace MeshCoreTCPMux

open Protocol Program

namespace Broker

variable {s t u : Broker} {now : Time} {α : Type}

/-- A session with its queued commands. -/
def Session.load (x : Session) : Nat := 1 + 2 * x.commands.length

def load (s : Broker) : Nat :=
  (if s.failed then 0 else 1) + (if s.drainRequested then 1 else 0) + s.sessions.sum Session.load

/-! ### Programs that add no load -/

/-- The load is bounded whatever is raised. -/
abbrev Any : Error → Prop := fun _ => True

/-- No session is new or has other commands, the clock is at most set to `now`, and at most `n` is
added to the load. -/
structure Grows (n : Nat) (now : Time) (s t : Broker) : Prop where
  clock : t.now = s.now ∨ t.now = now
  load : t.load ≤ s.load + n
  commands : ∀ id y, t.sessions.find? id = some y →
    ∃ x, s.sessions.find? id = some x ∧ y.commands = x.commands

/-- Nothing is added to the load. -/
abbrev Kept (now : Time) : Broker → Broker → Prop := Grows 0 now

namespace Grows

theorem trans {m n : Nat} (hst : Grows m now s t) (htu : Grows n now t u) :
    Grows (m + n) now s u where
  clock := htu.clock.elim (fun h => h ▸ hst.clock) .inr
  load := by
    have hs := hst.load
    have ht := htu.load
    omega
  commands := fun id z hz => by
    obtain ⟨y, hy, hzy⟩ := htu.commands id z hz
    obtain ⟨x, hx, hyx⟩ := hst.commands id y hy
    exact ⟨x, hx, hzy.trans hyx⟩

/-- The load looks at the sessions, at the request for a drain and at whether the broker failed. -/
theorem same (hsessions : t.sessions = s.sessions) (hdrain : t.drainRequested = s.drainRequested)
    (hfailed : t.failed = s.failed) (hnow : t.now = s.now) : Kept now s t where
  clock := .inl hnow
  load := by rw [Broker.load, Broker.load, hsessions, hdrain, hfailed]; exact le_rfl
  commands := fun _ y hy => ⟨y, hsessions ▸ hy, rfl⟩

instance : Std.Refl (Kept now) := ⟨fun _ => same rfl rfl rfl rfl⟩

instance : IsTrans Broker (Kept now) := ⟨fun _ _ _ hst htu => hst.trans htu⟩

theorem modifySession (s : Broker) (id : Nat) {f : Session → Session}
    (hf : ∀ x, (f x).commands = x.commands) :
    Kept now s { s with sessions := s.sessions.modify id f } where
  clock := .inl rfl
  load := by
    have hsum : (s.sessions.modify id f).sum Session.load ≤ s.sessions.sum Session.load :=
      OrdMap.sum_modify_le _ _ _ fun x => by rw [Session.load, Session.load, hf]
    simp only [Broker.load]
    omega
  commands := fun i y hy => by
    rw [OrdMap.find?_modify] at hy
    split at hy
    · obtain ⟨x, hx, rfl⟩ := Option.map_eq_some_iff.mp hy
      exact ⟨x, hx, hf x⟩
    · exact ⟨y, hy, rfl⟩

theorem erase (s : Broker) (id : Nat) : Kept now s { s with sessions := s.sessions.erase id } where
  clock := .inl rfl
  load := by
    have hsum := OrdMap.sum_erase_le s.sessions id Session.load
    simp only [Broker.load]
    omega
  commands := fun i y hy => by
    rw [OrdMap.find?_erase] at hy
    split at hy
    · cases hy
    · exact ⟨y, hy, rfl⟩

/-- What a broker no longer has to do. -/
theorem less (hsessions : t.sessions = s.sessions)
    (hdrain : t.drainRequested = true → s.drainRequested = true)
    (hfailed : s.failed = true → t.failed = true) (hnow : t.now = s.now) : Kept now s t where
  clock := .inl hnow
  load := by
    simp only [Broker.load, hsessions]
    cases hs : s.failed <;> cases ht : t.failed <;> cases hs' : s.drainRequested <;>
      cases ht' : t.drainRequested <;> simp_all
  commands := fun _ y hy => ⟨y, hsessions ▸ hy, rfl⟩

end Grows

theorem Grows.of_kept {n : Nat} (h : Kept now s t) : Grows n now s t :=
  { h with load := h.load.trans (Nat.le_add_right _ _) }

/-- Nothing happens, or the load drops. -/
def Drops (now : Time) (s t : Broker) : Prop := t = s ∨ Kept now s t ∧ t.load < s.load

theorem Drops.kept (h : Drops now s t) : Kept now s t :=
  h.elim (fun h => h ▸ refl_of (Kept now) s) And.left

namespace Kept

theorem perform (n : Note) : Within Any (Kept now) (perform n) := .modify fun _ => .same rfl rfl rfl rfl

theorem diagnostic (message : Text) (category : Category) :
    Within Any (Kept now) (diagnostic message category) := .modify fun _ => .same rfl rfl rfl rfl

theorem count (name : String) (amount : Nat) : Within Any (Kept now) (count name amount) :=
  .modify fun _ => .same rfl rfl rfl rfl

theorem setRemote (remote : RemoteLease) : Within Any (Kept now) (setRemote remote) :=
  .modify fun _ => .same rfl rfl rfl rfl

theorem setSigning (signing : SigningLease) : Within Any (Kept now) (setSigning signing) :=
  .modify fun _ => .same rfl rfl rfl rfl

theorem modifySlot (slotId : Nat) (f : DedicatedClientSlot → DedicatedClientSlot) :
    Within Any (Kept now) (modifySlot slotId f) := .modify fun _ => .same rfl rfl rfl rfl

theorem modifyActive (f : Transaction → Transaction) : Within Any (Kept now) (modifyActive f) :=
  .modify fun _ => .same rfl rfl rfl rfl

theorem modifySession (id : Nat) {f : Session → Session} (hf : ∀ x, (f x).commands = x.commands) :
    Within Any (Kept now) (modifySession id f) := .modify fun s => Grows.modifySession s id hf

theorem ofExcept (x : Except Error α) : Within Any (Kept now) (ofExcept x) := by
  cases x with
  | ok a => exact .pure a
  | error e => exact .throw trivial

theorem quarantined (at_ : Time) : Within Any (Kept now) (quarantined at_) :=
  .modifyGet fun _ => .same rfl rfl rfl rfl

theorem remoteOccupied (at_ : Time) : Within Any (Kept now) (remoteOccupied at_) :=
  .modifyGet fun _ => .same rfl rfl rfl rfl

theorem signingOccupied (at_ : Time) : Within Any (Kept now) (signingOccupied at_) :=
  .modifyGet fun _ => .same rfl rfl rfl rfl

/-! ### Removal and output -/

theorem detach (id : Nat) (session : Session) : Within Any (Kept now) (detach id session) := by
  unfold MeshCoreTCPMux.detach
  split
  · refine .get_bind fun s => ?_
    split
    · exact (modifySlot _ _).bind fun _ => .get_bind fun _ => diagnostic _ _
    · exact .pure _
  · exact count _ _

end Kept

/-- A session takes its load with it when it goes. -/
theorem Drops.removeWith {finish : Transaction → BrokerM Unit}
    (hfinish : ∀ transaction, Within Any (Kept now) (finish transaction)) (id : Nat) (reason : Text)
    (category : Category) : Within Any (Drops now) (removeWith finish id reason category) := by
  intro s
  cases hlive : s.sessions.find? id with
  | none =>
    unfold MeshCoreTCPMux.removeWith
    rw [wp_bind, wp_get, hlive]
    exact .inl rfl
  | some session =>
    have hdrop : ∀ report, Kept now s { s.drop id session reason with report := report } ∧
        load { s.drop id session reason with report := report } < s.load := by
      intro report
      have hgone : Kept now s { s with sessions := s.sessions.erase id } := .erase s id
      have hless : load { s with sessions := s.sessions.erase id } < s.load := by
        have hsum := OrdMap.sum_erase Session.load hlive
        simp only [load, Session.load] at hsum ⊢
        omega
      have hrest : Kept now { s with sessions := s.sessions.erase id }
          { s.drop id session reason with report := report } := by
        refine .less rfl (fun h => ?_) (fun h => h) rfl
        change (if (s.sessions.erase id).isEmpty then false else s.drainRequested) = true at h
        split at h
        · cases h
        · exact h
      exact ⟨trans_of (Kept now) hgone hrest, hrest.load.trans_lt hless⟩
    exact wp_removeWith hlive (fun _ report => .inr (hdrop report)) fun _ transaction _ _ _ report =>
      (hfinish transaction).ends fun ht => .inr ⟨trans_of (Kept now) (hdrop report).1 ht,
        ht.load.trans_lt (hdrop report).2⟩

namespace Kept

theorem finishWith {fail : Text → BrokerM Unit} (hfail : ∀ reason, Within Any (Kept now) (fail reason))
    (transaction : Transaction) : Within Any (Kept now) (finishWith fail transaction) := by
  unfold MeshCoreTCPMux.finishWith
  exact (Within.modify fun _ => .same rfl rfl rfl rfl).bind fun _ =>
    (Within.modify fun _ => .same rfl rfl rfl rfl).bind fun _ =>
    .ite (fun _ => hfail _) fun _ => .pure _

theorem removeFailed (id : Nat) : Within Any (Kept now) (removeFailed id) :=
  (Drops.removeWith (finishWith fun _ => .pure _) id _ _).mono Drops.kept

end Kept

/-- A failure takes the load of having to fail. -/
theorem Drops.failEpoch (reason : Text) : Within Any (Drops now) (failEpoch reason) := by
  intro s
  cases hfailed : s.failed with
  | true =>
    unfold wp
    rw [failEpoch_of_failed reason hfailed]
    exact .inl rfl
  | false =>
    have hend : ∀ (ids : List Nat), Within Any (Kept now) (do
        ids.forM removeFailed
        modify fun s => { s with active := none, upstreamWrites := ∅ }
        diagnostic (joined [["epoch=", (← get).epoch, " summary"], counterSummary (← get)])
        perform (.ended (← get).epoch reason)) := fun ids =>
      (Within.forM fun id _ => Kept.removeFailed id).bind fun _ =>
        (Within.modify fun _ => .same rfl rfl rfl rfl).bind fun _ => .get_bind fun _ =>
        .get_bind fun _ => (Kept.diagnostic _ _).bind fun _ => .get_bind fun _ => Kept.perform _
    unfold MeshCoreTCPMux.failEpoch
    rw [wp_bind, wp_get, hfailed, if_neg Bool.false_ne_true, wp_bind]
    refine wp_preserveRadioUncertainty fun report => ?_
    rw [wp_bind, wp_modify, wp_bind, wp_modify, wp_bind, wp_get, wp_bind]
    refine wp_diagnostic _ _ fun report => ?_
    rw [wp_bind, wp_get]
    refine (hend _).ends fun ht => .inr ⟨trans_of (Kept now) ?_ ht, ?_⟩
    · exact .less rfl (fun h => h) (fun _ => rfl) rfl
    have hload := ht.load
    simp only [load, hfailed, if_true, Bool.false_eq_true, if_false] at hload ⊢
    omega

namespace Kept

theorem finishTransaction (transaction : Transaction) :
    Within Any (Kept now) (finishTransaction transaction) :=
  finishWith (fun reason => (Drops.failEpoch reason).mono Drops.kept) transaction

end Kept

theorem Drops.remove (id : Nat) (reason : Text) (category : Category) :
    Within Any (Drops now) (remove id reason category) :=
  removeWith Kept.finishTransaction id reason category

namespace Kept

theorem remove (id : Nat) (reason : Text) (category : Category) :
    Within Any (Kept now) (remove id reason category) := (Drops.remove _ _ _).mono Drops.kept

theorem emit (id : Nat) (payload : Bytes) (cause : Cause) :
    Within Any (Kept now) (emit id payload cause) := by
  unfold MeshCoreTCPMux.emit
  refine .get_bind fun s => ?_
  split
  · exact .pure _
  · refine .ite (fun _ => (remove _ _ _).bind fun _ => .pure _) fun _ => ?_
    exact (Within.modify fun _ => .same rfl rfl rfl rfl).bind fun _ =>
      .bind (modifySession _ fun _ => rfl) fun _ => (perform _).bind fun _ => .pure _

theorem reject (id : Nat) (reason : UInt8) (detail : Text) :
    Within Any (Kept now) (reject id reason detail) := by
  unfold MeshCoreTCPMux.reject
  exact (count _ _).bind fun _ => .get_bind fun _ => (diagnostic _ _).bind fun _ =>
    (emit _ _ _).bind fun _ => .pure _

theorem deliverItem (id : Nat) : Within Any (Kept now) (deliverItem id) := by
  unfold MeshCoreTCPMux.deliverItem
  refine .get_bind fun s => ?_
  split
  · exact .pure _
  split
  · exact .throw trivial
  · exact .throw trivial
  · refine (ofExcept _).bind fun _ => (emit _ _ _).bind fun sent => .ite (fun _ => ?_) fun _ => .pure _
    split
    · exact modifySession _ fun _ => rfl
    · exact (modifySlot _ _).bind fun _ => perform _

/-! ### Dispatch -/

theorem localScope (id : Nat) (payload : Bytes) : Within Any (Kept now) (localScope id payload) := by
  unfold MeshCoreTCPMux.localScope
  exact .bind (modifySession _ fun _ => rfl) fun _ => (emit _ _ _).bind fun _ =>
    .ite (fun _ => perform _) fun _ => .pure _

theorem sendUpstream (payload : Bytes) (at_ : Time) (transaction : Transaction) :
    Within Any (Kept now) (sendUpstream payload at_ transaction) := by
  unfold MeshCoreTCPMux.sendUpstream
  exact .get_bind fun _ => (Within.modify fun _ => .same rfl rfl rfl rfl).bind fun _ =>
    .get_bind fun _ => (perform _).bind fun _ => (count _ _).bind fun _ => .pure _

theorem sendCommand (transaction : Transaction) (at_ : Time) :
    Within Any (Kept now) (sendCommand transaction at_) := by
  unfold MeshCoreTCPMux.sendCommand
  exact (modifyActive _).bind fun _ => (ofExcept _).bind fun _ => (sendUpstream _ _ _).bind fun _ =>
    modifyActive _

theorem dispatch (owner : Nat) (command : Bytes) (at_ : Time) (popSequence generation : Nat) :
    Within Any (Kept now) (dispatch owner command at_ popSequence generation) := by
  unfold MeshCoreTCPMux.dispatch
  split
  · exact .throw trivial
  · refine .get_bind fun s => (Within.modify fun _ => .same rfl rfl rfl rfl).bind fun _ =>
      (diagnostic _ _).bind fun _ => (diagnostic _ _).bind fun _ => ?_
    split
    · exact (modifyActive _).bind fun _ => (perform _).bind fun _ => (sendUpstream _ _ _).bind fun _ =>
        modifyActive _
    · exact (perform _).bind fun _ => sendCommand _ _

/-! ### Admission -/

theorem admissionReason (owner : Nat) (command : Bytes) (descriptor : Protocol.CommandDescriptor)
    (at_ : Time) : Within Any (Kept now) (admissionReason owner command descriptor at_) := by
  unfold MeshCoreTCPMux.admissionReason
  refine .ite (fun _ => .map (.get_bind fun s => ?_)) fun _ => ?_
  · exact .orM (.pure _) (.orM (quarantined _) (.orM (remoteOccupied _)
      (.orM (.map .get) (signingOccupied _))))
  refine .bind (.andM (.pure _) (.orM (quarantined _) (.map .get))) fun _ => .ite
    (fun _ => .pure _) fun _ => .ite (fun _ => ?_) fun _ => ?_
  · refine (quarantined _).bind fun _ => .ite (fun _ => .pure _) fun _ => .get_bind fun _ =>
      (ofExcept _).bind fun _ => (setRemote _).bind fun _ => .ite (fun _ => ?_) fun _ => .pure _
    split
    · exact .throw trivial
    · exact .get_bind fun _ => (diagnostic _ _).bind fun _ => .pure _
  refine .ite (fun _ => ?_) fun _ => .ite (fun _ => ?_) fun _ => .ite (fun _ => ?_) fun _ => .pure _
  all_goals exact .get_bind fun _ => (ofExcept _).bind fun _ => (setSigning _).bind fun _ => .pure _

theorem admitCommand (owner : Nat) (command : Bytes) (at_ : Time) :
    Within Any (Kept now) (admitCommand owner command at_) := by
  unfold MeshCoreTCPMux.admitCommand
  split
  · exact .throw trivial
  · refine (admissionReason _ _ _ _).bind fun reason => ?_
    cases reason with
    | none => exact .pure _
    | some reason => exact (reject _ _ _).bind fun _ => .pure _

end Kept

/-! ### New actions at the expense of the load -/

/-- The load drops, or it does not grow and no action is added. -/
def Pays (s t : Broker) : Prop :=
  t.load < s.load ∨ t.load ≤ s.load ∧ t.report.actions = s.report.actions

instance : Std.Refl Pays := ⟨fun _ => .inr ⟨le_rfl, rfl⟩⟩

instance : IsTrans Broker Pays where
  trans := fun s t u hst htu => by
    rcases hst with hless | ⟨hle, hactions⟩
    · exact .inl ((htu.elim le_of_lt And.left).trans_lt hless)
    · rcases htu with hless' | ⟨hle', hactions'⟩
      · exact .inl (hless'.trans_le hle)
      · exact .inr ⟨hle'.trans hle, hactions'.trans hactions⟩

/-- The clock is at most set to `now`, and new actions are paid for. -/
structure Spent (now : Time) (s t : Broker) : Prop where
  clock : t.now = s.now ∨ t.now = now
  pays : Pays s t

namespace Spent

theorem idle (hkept : Kept now s t) (hactions : t.report.actions = s.report.actions) :
    Spent now s t := ⟨hkept.clock, .inr ⟨hkept.load, hactions⟩⟩

instance : Std.Refl (Spent now) := ⟨fun s => ⟨.inl rfl, refl_of Pays s⟩⟩

instance : IsTrans Broker (Spent now) where
  trans := fun _ _ _ hst htu =>
    ⟨htu.clock.elim (fun h => h ▸ hst.clock) .inr, trans_of Pays hst.pays htu.pays⟩

theorem of_drops (h : Drops now s t) : Spent now s t := by
  rcases h with rfl | ⟨hkept, hless⟩
  · exact refl_of (Spent now) t
  · exact ⟨hkept.clock, .inl hless⟩

end Spent

/-- The head of the queue of `id` is resolved: `rest` is left of it. -/
structure Resolved (now : Time) (id : Nat) (rest : List Command) (s t : Broker) : Prop where
  clock : t.now = s.now ∨ t.now = now
  load : t.load < s.load
  rest : ∀ y, t.sessions.find? id = some y → y.commands = rest

theorem Resolved.spent {id : Nat} {rest : List Command} (h : Resolved now id rest s t) :
    Spent now s t := ⟨h.clock, .inl h.load⟩

/-- Taking a command off its queue pays for what then becomes of it. -/
theorem wp_shiftCommand_load {id : Nat} {session : Session} {command : Command}
    {rest : List Command} {m : BrokerM α} (hlive : s.sessions.find? id = some session)
    (hqueue : session.commands = command :: rest) (hm : Within Any (Grows 1 now) m) :
    wp (shiftCommand id command >>= fun _ => m) (fun _ t => Resolved now id rest s t)
      (fun e t => Any e ∧ Resolved now id rest s t) s := by
  rw [wp_bind, shiftCommand, wp_bind, MeshCoreTCPMux.modifySession, wp_modify, MeshCoreTCPMux.perform, wp_modify]
  refine hm.ends fun ht => ⟨ht.clock, ?_, fun y hy => ?_⟩
  · have hsum := OrdMap.sum_modify Session.load
      (fun x : Session => { x with commands := x.commands.tail }) hlive
    have htaken : load (Broker.record { s with
        sessions := s.sessions.modify id fun x => { x with commands := x.commands.tail } }
        (.taken id command)) + 2 = s.load := by
      change (if s.failed then 0 else 1) + (if s.drainRequested then 1 else 0)
        + (s.sessions.modify id _).sum Session.load + 2 = s.load
      simp only [load, Session.load, hqueue, List.tail_cons, List.length_cons] at hsum ⊢
      omega
    have hload := ht.load
    omega
  · obtain ⟨x, hx, hyx⟩ := ht.commands id y hy
    rw [hyx]
    simp only [record, OrdMap.find?_modify_self, hlive, Option.map_some, Option.some.injEq] at hx
    rw [← hx]
    exact congrArg List.tail hqueue

theorem grows_authorizeDrain : Within Any (Grows 1 now) authorizeDrain := by
  unfold authorizeDrain
  refine Within.comp (R := Grows 1 now) (T := Kept now) (.modify fun s => ?_) (fun _ =>
    .get_bind fun _ => .get_bind fun _ => Kept.diagnostic _ _) (fun h => h)
    fun hst htu => hst.trans htu
  refine ⟨.inl rfl, ?_, fun _ y hy => ⟨y, hy, rfl⟩⟩
  simp only [load, if_true]
  omega

theorem grows_localSync (id : Nat) (at_ : Time) : Within Any (Grows 1 now) (localSync id at_) := by
  have hkept : ∀ {m : BrokerM Bool}, Within Any (Kept now) m → Within Any (Grows 1 now) m :=
    fun hm => hm.mono .of_kept
  unfold localSync
  refine .get_bind fun s => ?_
  split
  · exact hkept (.pure _)
  · exact hkept (.throw trivial)
  · refine Within.comp (R := Kept now) (T := Grows 1 now) (Kept.modifySession _ fun _ => rfl)
      (fun _ => ?_) .of_kept fun hst htu => (hst.trans htu : Grows (0 + 1) now _ _)
    refine Within.comp (R := Kept now) (T := Grows 1 now) (Kept.perform _) (fun _ => ?_) .of_kept
      fun hst htu => (hst.trans htu : Grows (0 + 1) now _ _)
    exact Within.comp grows_authorizeDrain (fun _ => .pure (R := Kept now) _) (fun h => h)
      fun hst htu => hst.trans htu
  · exact hkept ((Kept.deliverItem id).bind fun _ => .pure _)

/-- A head command is resolved, or it stays for the rotation. -/
theorem wp_localCommand_load {id : Nat} {session : Session} {command : Command}
    {rest : List Command} (now at_ : Time) (hlive : s.sessions.find? id = some session)
    (hqueue : session.commands = command :: rest) :
    wp (localCommand id command at_)
      (fun more t => Resolved now id rest s t ∨ more = false ∧ t = s)
      (fun _ t => Resolved now id rest s t) s := by
  have hresolved : ∀ {m : BrokerM Bool}, Within Any (Grows 1 now) m →
      wp (shiftCommand id command >>= fun _ => m)
        (fun more t => Resolved now id rest s t ∨ more = false ∧ t = s)
        (fun _ t => Resolved now id rest s t) s :=
    fun hm => wp_mono (wp_shiftCommand_load hlive hqueue hm) (fun _ _ h => .inl h) fun _ _ h => h.2
  have hkept : ∀ {m : BrokerM Bool}, Within Any (Kept now) m →
      wp (shiftCommand id command >>= fun _ => m)
        (fun more t => Resolved now id rest s t ∨ more = false ∧ t = s)
        (fun _ t => Resolved now id rest s t) s :=
    fun hm => hresolved (hm.mono .of_kept)
  have hrejects : ∀ reason detail, Within Any (Kept now) (do
      MeshCoreTCPMux.reject id reason detail
      pure true) := fun _ _ => (Kept.reject _ _ _).bind fun _ => .pure _
  unfold localCommand
  rw [wp_bind, wp_get]
  split
  · exact hkept ((Kept.ofExcept _).bind fun _ => hrejects _ _)
  · simp only [wp_ite]
    split_ifs
    · exact hkept (hrejects _ _)
    · exact hresolved (grows_localSync _ _)
    · exact hkept ((Kept.localScope _ _).bind fun _ => .pure _)
    · exact hkept ((Kept.count _ _).bind fun _ => .get_bind fun _ => (Kept.diagnostic _ _).bind
        fun _ => (Kept.emit _ _ _).bind fun _ => .pure _)
    · exact hkept (hrejects _ _)
    · exact hkept (hrejects _ _)
    · exact .inr ⟨rfl, rfl⟩

theorem wp_localCommands_load {id : Nat} (at_ : Time) {commands : List Command}
    (hlive : ∃ session, s.sessions.find? id = some session ∧ session.commands = commands) :
    wp (localCommands id at_ commands) (fun _ t => Spent now s t) (fun e t => Any e ∧ Spent now s t)
      s := by
  induction commands generalizing s with
  | nil => exact refl_of (Spent now) s
  | cons command rest ih =>
    obtain ⟨session, hsession, hqueue⟩ := hlive
    unfold localCommands
    rw [wp_bind]
    refine wp_mono (wp_localCommand_load now at_ hsession hqueue) (fun more t ht => ?_)
      fun _ _ h => ⟨trivial, h.spent⟩
    rcases ht with ht | ⟨rfl, rfl⟩
    · cases more with
      | false => exact ht.spent
      | true =>
        rw [if_pos rfl, wp_bind, wp_get, wp_ite]
        split
        · next hcontains =>
          obtain ⟨session', hsession'⟩ := Option.isSome_iff_exists.mp hcontains
          exact wp_mono (ih ⟨session', hsession', ht.rest _ hsession'⟩)
            (fun _ _ hu => trans_of (Spent now) ht.spent hu)
            fun _ _ h => ⟨trivial, trans_of (Spent now) ht.spent h.2⟩
        · exact ht.spent
    · exact refl_of (Spent now) t

theorem Spent.localTurn (at_ : Time) (id : Nat) : Within Any (Spent now) (localTurn at_ id) := by
  intro s
  unfold MeshCoreTCPMux.localTurn
  rw [wp_bind, wp_get]
  cases hlive : s.sessions.find? id with
  | none => exact refl_of (Spent now) s
  | some session =>
    simp only [wp_ite]
    split
    · exact wp_localCommands_load at_ ⟨session, hlive, rfl⟩
    · exact refl_of (Spent now) s

/-- A turn that comes to nothing leaves no action. -/
theorem Spent.rotationTurn (id : Nat) (at_ : Time) : Within Any (Spent now) (rotationTurn id at_) := by
  intro s
  unfold MeshCoreTCPMux.rotationTurn
  rw [wp_bind, wp_get, wp_ite]
  split
  · rw [wp_ite]
    split
    · next hdrain =>
      rw [wp_bind, wp_modify, wp_bind, wp_get, wp_bind, wp_get]
      have hdispatch : ∀ sequence generation, Within Any (Kept now) (do
          dispatch 0 [cmdSyncNextMessage] at_ sequence generation
          pure true) := fun _ _ => (Kept.dispatch _ _ _ _ _).bind fun _ => .pure _
      refine (hdispatch _ _).ends fun ht => ⟨ht.clock, .inl ?_⟩
      refine ht.load.trans_lt ?_
      simp only [Broker.load, hdrain.1, if_true, Bool.false_eq_true, if_false]
      omega
    · exact refl_of (Spent now) s
  · split
    · exact refl_of (Spent now) s
    next session hlive =>
    rw [wp_ite]
    split
    · exact refl_of (Spent now) s
    split
    · exact refl_of (Spent now) s
    next command rest hqueue =>
    refine wp_mono (wp_shiftCommand_load hlive hqueue (Within.mono (R := Kept now) ?_ .of_kept))
      (fun _ _ h => h.spent) fun _ _ h => ⟨trivial, h.2.spent⟩
    refine (Kept.admitCommand _ _ _).bind fun admitted => .ite (fun _ => ?_) fun _ => .pure _
    exact (Kept.dispatch _ _ _ _ _).bind fun _ => .pure _

theorem Spent.rotate (at_ : Time) (turns : Nat) : Within Any (Spent now) (rotate at_ turns) := by
  induction turns with
  | zero => exact .pure _
  | succ turns ih =>
    unfold MeshCoreTCPMux.rotate
    refine .get_bind fun s => ?_
    split
    · exact .throw trivial
    · refine (Within.modify fun _ => .idle (.same rfl rfl rfl rfl) rfl).bind fun _ =>
        (rotationTurn _ _).bind fun dispatched => ?_
      cases dispatched with
      | true => exact .pure _
      | false => exact ih

theorem Spent.schedule (now : Time) : Within Any (Spent now) (schedule now) := by
  unfold MeshCoreTCPMux.schedule
  refine .get_bind fun s => ?_
  cases s.failed with
  | true => exact .pure _
  | false =>
    refine .bind (.modify fun _ => ⟨.inr rfl, .inr ⟨le_rfl, rfl⟩⟩) fun _ => .get_bind fun t => ?_
    cases t.underMaintenance with
    | true => exact .pure _
    | false =>
      exact .get_bind fun _ => (Within.forM fun id _ => localTurn now id).bind fun _ =>
        .get_bind fun _ => .ite (fun _ => .get_bind fun _ => rotate now _) fun _ => .pure _

theorem Spent.writeFailed (id epoch : Nat) (reason : Text) (now : Time) :
    Within Any (Spent now) (writeFailed id epoch reason now) := by
  unfold MeshCoreTCPMux.writeFailed
  refine .get_bind fun s => .ite (fun _ => ?_) fun _ => .pure _
  refine .bind (.modify fun _ => ⟨.inr rfl, .inr ⟨le_rfl, rfl⟩⟩) fun _ => .ite (fun _ => ?_)
    fun _ => ?_
  · exact (Drops.failEpoch _).mono of_drops
  · exact ((Drops.remove _ _ _).mono of_drops).bind fun _ => schedule now

/-- **A refused write is answered at the expense of the load.** -/
theorem Spent.handle (id epoch : Nat) (reason : Text) (now : Time) :
    Within Any (Spent now) (handle (.writeFailed id epoch reason now)) := by
  unfold MeshCoreTCPMux.handle
  exact .bind (.modify fun s => .idle (.same rfl rfl rfl rfl) (List.append_nil _)) fun _ =>
    writeFailed id epoch reason now

end Broker

end MeshCoreTCPMux

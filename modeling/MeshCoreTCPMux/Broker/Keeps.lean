import MeshCoreTCPMux.Broker.Run

/-!
# What an action leaves alone

Most actions do not concern a given property of runs: they add only history entries that it does not
look at, and they change only parts of a session that it does not look at. `Keeps P f s t` says so
of one action: the new entries satisfy `P`, and every session of `t` is one of `s` as far as `f`
sees.
-/

namespace MeshCoreTCPMux

open Protocol Relation

/-- An entry that may be made while an inbox result is handed out. -/
def Note.handing : Note → Bool
  | sent _ .hint | sent _ (.item _) | sent _ .answer | closed _ _ | duplicate _ | popped _
  | orphaned _ | offered _ _ | slotOffered _ _ | slotDelivered _ _ | drained => true
  | _ => false

/-- An entry that may be made when a push settles a lease. -/
def Note.settling : Note → Bool
  | sent _ .leaseResult | confirmed _ | matched _ _ => true
  | _ => false

/-- An entry that may be made when a command goes upstream or its reply is taken. -/
def Note.relays : Note → Bool
  | sent _ .reply | taken _ _ | dispatched _ _ | upstream _ _ | replied _ _ => true
  | _ => false

/-- What a transaction is about: all but its times, its counter and its upstream write. -/
def Transaction.core (x : Transaction) : Transaction :=
  { x with
    started := 0
    progress := 0
    upstreamWriteId := none
    responseFrames := 0 }

/-- An entry that may be made when a client comes or is served. -/
def Note.serving : Note → Bool
  | sent _ .answer | sent _ (.item _) | closed _ _ | admitted _ _ | queued _ _ | taken _ _
  | synced _ _ | selected _ _ | offered _ _ | slotDelivered _ _ => true
  | _ => false

/-- An entry that may be made when a client is served. -/
def Note.serves : Note → Bool
  | admitted _ _ => false
  | n => n.serving

theorem Note.serving_of_serves {n : Note} (h : n.serves = true) : n.serving = true := by
  cases n <;> first | exact h | cases h

namespace Broker

/-- A push that is copied to every session. -/
def Opaque (payload : Bytes) : Prop := pushAdvert ≤ opcode payload ∧ opcode payload ∉ resultPushes

variable {s t u : Broker} {α : Type} {P : Note → Prop} {f : Session → α}

/-- Only a call brings a frame. -/
theorem received_of_append {l m : List Note} {payload : Bytes} (hm : ∀ n ∈ m, n.internal = true)
    (h : received (l ++ m) = some payload) : received l = some payload := by
  induction m generalizing l with
  | nil => rwa [List.append_nil] at h
  | cons n m ih =>
    rw [List.append_cons] at h
    have hlast := ih (fun k hk => hm k (List.mem_cons_of_mem _ hk)) h
    rw [received_append] at hlast
    have hn := hm n List.mem_cons_self
    cases n with
    | input => cases hn
    | replied | matched => cases hlast
    | _ => exact hlast

/-! ### What each kind of action adds to the history -/

/-- Only entries in `P` are new. -/
def Adds (P : Note → Prop) (s t : Broker) : Prop := ∃ notes, t.log = s.log ++ notes ∧ ∀ n ∈ notes, P n

namespace Adds

theorem refl (h : t.log = s.log) : Adds P s t := ⟨[], h.trans (List.append_nil _).symm, by simp⟩

theorem one {n : Note} (h : t.log = s.log ++ [n]) (hn : P n) : Adds P s t :=
  ⟨[n], h, by simpa using hn⟩

theorem trans (hst : Adds P s t) (htu : Adds P t u) : Adds P s u := by
  obtain ⟨l, hl, hPl⟩ := hst
  obtain ⟨m, hm, hPm⟩ := htu
  refine ⟨l ++ m, by rw [hm, hl, List.append_assoc], fun n hn => ?_⟩
  exact (List.mem_append.mp hn).elim (hPl n) (hPm n)

theorem mono {Q : Note → Prop} (h : Adds P s t) (hPQ : ∀ n, P n → Q n) : Adds Q s t := by
  obtain ⟨notes, hlog, hnotes⟩ := h
  exact ⟨notes, hlog, fun n hn => hPQ n (hnotes n hn)⟩

theorem shiftInbox {id : Nat} {session : Session} {item : Bytes}
    (hn : ∀ k, P (.slotDelivered k item)) : Adds P s (s.shiftInbox id session item) := by
  unfold Broker.shiftInbox
  split
  · exact refl rfl
  · exact one rfl (hn _)

end Adds

/-- A client joins. -/
structure Enters (s t : Broker) : Prop where
  running : s.failed = false
  quiet : s.underMaintenance = false
  entered : ∃ id slotId, 0 < id ∧ Fresh id s.log ∧ t = s.enter id slotId

/-- Clients come and go, and are served. -/
theorem Client.enters_or_adds (h : Client s t) : Enters s t ∨ Adds (·.serves = true) s t ∨
    ∃ id session payload, s.sessions.find? id = some session ∧ received s.log = some payload ∧
      Opaque payload ∧ t = s.send id payload .broadcast := by
  cases h with
  | entered hrunning hquiet hid hfresh => exact .inl ⟨hrunning, hquiet, _, _, hid, hfresh, rfl⟩
  | queued | syncExpired => exact .inr (.inl (.one rfl rfl))
  | answered | choked | waits =>
    exact .inr (.inl (.trans (.one (t := s.take _ _) rfl rfl) (.one rfl rfl)))
  | @selected id _ command =>
    have hsent : Adds (·.serves = true) s
        (((s.take id command).setScope id command.payload).send id [respOk] .answer) :=
      .trans (.one (t := s.take id command) rfl rfl) (.one rfl rfl)
    exact .inr (.inl (hsent.trans (.one rfl rfl)))
  | @delivered id _ command item _ visible =>
    have hsent : Adds (·.serves = true) s ((s.take id command).send id visible (.item item)) :=
      .trans (.one (t := s.take id command) rfl rfl) (.one rfl rfl)
    exact .inr (.inl (hsent.trans (.shiftInbox fun _ => rfl)))
  | broadcast hlive _ hreceived hpush hresult =>
    exact .inr (.inr ⟨_, _, _, hlive, hreceived, ⟨hpush, hresult⟩, rfl⟩)

theorem Enters.adds (h : Enters s t) : Adds (·.serving = true) s t := by
  obtain ⟨id, slotId, -, -, rfl⟩ := h.entered
  refine ⟨_, rfl, fun n hn => ?_⟩
  rcases List.mem_cons.mp hn with rfl | hn
  · rfl
  · split at hn
    · obtain ⟨_, -, rfl⟩ := List.mem_map.mp hn
      rfl
    · cases hn

theorem Client.adds (h : Client s t) : Adds (·.serving = true) s t ∨
    ∃ id session payload, s.sessions.find? id = some session ∧ received s.log = some payload ∧
      Opaque payload ∧ t = s.send id payload .broadcast := by
  rcases h.enters_or_adds with h | h | h
  · exact .inl h.adds
  · exact .inl (h.mono fun _ => Note.serving_of_serves)
  · exact .inr h

/-- Only entries in `P` are new, and no session is new or looks different through `f`. -/
structure Keeps (P : Note → Prop) (f : Session → α) (s t : Broker) : Prop where
  log : Adds P s t
  sessions : ∀ id y, t.sessions.find? id = some y →
    ∃ x, s.sessions.find? id = some x ∧ f x = f y

namespace Keeps

theorem refl : Keeps P f s s := ⟨⟨[], (List.append_nil _).symm, by simp⟩, fun _ y hy => ⟨y, hy, rfl⟩⟩

theorem trans (hst : Keeps P f s t) (htu : Keeps P f t u) : Keeps P f s u where
  log := by
    obtain ⟨l, hl, hPl⟩ := hst.log
    obtain ⟨m, hm, hPm⟩ := htu.log
    refine ⟨l ++ m, by rw [hm, hl, List.append_assoc], fun n hn => ?_⟩
    exact (List.mem_append.mp hn).elim (hPl n) (hPm n)
  sessions := fun id z hz => by
    obtain ⟨y, hy, hyz⟩ := htu.sessions id z hz
    obtain ⟨x, hx, hxy⟩ := hst.sessions id y hy
    exact ⟨x, hx, hxy.trans hyz⟩

/-- New entries alone. -/
theorem notes {m : List Note} (hsessions : t.sessions = s.sessions)
    (hlog : t.log = s.log ++ m) (hnotes : ∀ n ∈ m, P n) : Keeps P f s t :=
  ⟨⟨m, hlog, hnotes⟩, fun _ y hy => ⟨y, hsessions ▸ hy, rfl⟩⟩

/-- Nothing at all. -/
theorem same (hsessions : t.sessions = s.sessions) (hlog : t.log = s.log) : Keeps P f s t :=
  .notes hsessions (hlog.trans (List.append_nil _).symm) (by simp)

theorem note {n : Note} (hn : P n) : Keeps P f s (s.note n) :=
  .notes rfl rfl (by simpa using hn)

/-- A change of one session that `f` does not see. -/
theorem modify {id : Nat} {g : Session → Session} (hg : ∀ x, f (g x) = f x) :
    Keeps P f s { s with sessions := s.sessions.modify id g } where
  log := ⟨[], (List.append_nil _).symm, by simp⟩
  sessions := fun i y hy => by
    rw [OrdMap.find?_modify] at hy
    split at hy
    · obtain ⟨x, hx, rfl⟩ := Option.map_eq_some_iff.mp hy
      exact ⟨x, hx, (hg x).symm⟩
    · exact ⟨y, hy, rfl⟩

theorem send {id : Nat} {payload : Bytes} {cause : Cause}
    (hwrites : ∀ x w, f { x with writes := w } = f x)
    (hn : P (.sent ⟨id, s.epoch, s.nextWrite + 1, payload⟩ cause)) :
    Keeps P f s (s.send id payload cause) := by
  have hwritten : Keeps P f s { s with
      sessions := s.sessions.modify id fun x =>
        { x with writes := x.writes.insert (s.nextWrite + 1) ⟨s.now + s.config.writeTimeout⟩ } } :=
    modify fun x => hwrites x _
  exact hwritten.trans (.notes rfl rfl (by simpa using hn))

theorem drop {id : Nat} {session : Session} {reason : Text} (hn : P (.closed id reason)) :
    Keeps P f s (s.drop id session reason) where
  log := ⟨[_], rfl, by simpa using hn⟩
  sessions := fun i y hy => by
    rw [Broker.drop, OrdMap.find?_erase] at hy
    split at hy
    · cases hy
    · exact ⟨y, hy, rfl⟩

theorem shiftInbox {id : Nat} {session : Session} {item : Bytes}
    (hinbox : ∀ x q, f { x with inbox := q } = f x) (hn : ∀ k, P (.slotDelivered k item)) :
    Keeps P f s (s.shiftInbox id session item) := by
  unfold Broker.shiftInbox
  split
  · exact modify fun x => hinbox x _
  · next k _ => exact .notes rfl rfl (by simpa using hn k)

theorem writtenDown {id writeId : Nat} (hwrites : ∀ x w, f { x with writes := w } = f x)
    (hhint : ∀ x w, f { x with availabilityHintWriteId := w } = f x) :
    Keeps P f s (s.writtenDown id writeId) :=
  modify fun x => (hhint { x with writes := x.writes.erase writeId } _).trans (hwrites x _)

theorem retarget {transaction : Transaction} {payload : Bytes}
    (htarget : ∀ x v, f { x with targetVersion := v } = f x) :
    Keeps P f s (s.retarget transaction payload) := by
  unfold Broker.retarget
  split
  · exact modify fun x => htarget x _
  · exact refl

theorem forwarded {transaction : Transaction} {payload : Bytes} {w : Option Nat}
    (h : s.Forwarded transaction payload w t)
    (hwrites : ∀ x w, f { x with writes := w } = f x)
    (htarget : ∀ x v, f { x with targetVersion := v } = f x)
    (hn : ∀ frame, P (.sent frame .reply)) : Keeps P f s t := by
  cases h with
  | gone => exact refl
  | live => exact (retarget htarget).trans (send hwrites (hn _))

/-! ### Steps that concern few properties -/

theorem idle (h : Idle s t) (hwrites : ∀ x w, f { x with writes := w } = f x)
    (hhint : ∀ x w, f { x with availabilityHintWriteId := w } = f x)
    (hn : ∀ id reason, P (.closed id reason)) : Keeps P f s t := by
  cases h with
  | refuse => exact note (hn _ _)
  | writtenDown => exact writtenDown hwrites hhint
  | _ => exact same rfl rfl

theorem output (h : Output s t) (hwrites : ∀ x w, f { x with writes := w } = f x)
    (hhint : ∀ x w, f { x with availabilityHintWriteId := w } = f x)
    (hclosed : ∀ id reason, P (.closed id reason)) (hsent : ∀ frame, P (.sent frame .hint)) :
    Keeps P f s t := by
  cases h with
  | drop => exact drop (hclosed _ _)
  | hint => exact (send hwrites (hsent _)).trans (modify fun x => hhint x _)

theorem radio (h : Radio s t) (hwrites : ∀ x w, f { x with writes := w } = f x)
    (hconfirmed : ∀ payload, P (.confirmed payload))
    (hmatched : ∀ payload now, P (.matched payload now))
    (hsent : ∀ frame, P (.sent frame .leaseResult)) : Keeps P f s t := by
  cases h with
  | leaseExpired | signingExpired | quarantineOver | notified => exact same rfl rfl
  | confirmed => exact .notes rfl rfl (by simpa using hconfirmed _)
  | unmatched => exact .notes rfl rfl (by simpa using hmatched _ _)
  | @matched payload now remote owner session =>
    have hfreed : Keeps P f s { s with radio := { s.radio with remote := remote } } := same rfl rfl
    exact (hfreed.trans (send hwrites (hsent _))).trans (note (hmatched _ _))

theorem closes {transaction : Transaction} {payload : Bytes}
    (h : Closes transaction payload s t) (hn : P .drained) : Keeps P f s t := by
  cases h with
  | settled =>
    refine .notes rfl rfl fun n hm => ?_
    split at hm
    · cases hm
    · exact List.mem_singleton.mp hm ▸ hn
  | continued => exact same rfl rfl

theorem receives {id : Nat} {session : Session} (h : s.Receives id session t)
    (hwrites : ∀ x w, f { x with writes := w } = f x)
    (hinbox : ∀ x q, f { x with inbox := q } = f x) (hsync : ∀ x y, f { x with sync := y } = f x)
    (hn : ∀ n : Note, n.handing = true → P n) : Keeps P f s t := by
  cases h with
  | held => exact refl
  | served =>
    have hended : Keeps P f s (s.endSync id) := modify fun x => hsync x _
    exact (hended.trans (send hwrites (hn _ rfl))).trans (shiftInbox hinbox fun _ => hn _ rfl)
  | slow => exact drop (hn _ rfl)

/-- The parts of handing out a result, for a property that looks at none of this. -/
theorem pop {transaction : Transaction} {payload : Bytes} (h : Pop transaction payload s t)
    (hwrites : ∀ x w, f { x with writes := w } = f x)
    (hhint : ∀ x w, f { x with availabilityHintWriteId := w } = f x)
    (hinbox : ∀ x q, f { x with inbox := q } = f x) (hsync : ∀ x y, f { x with sync := y } = f x)
    (hn : ∀ n : Note, n.handing = true → P n) : Keeps P f s t := by
  cases h with
  | output h => exact output h hwrites hhint (fun _ _ => hn _ rfl) fun _ => hn _ rfl
  | @answered id =>
    have hended : Keeps P f s (s.endSync id) := modify fun x => hsync x _
    exact hended.trans (send hwrites (hn _ rfl))
  | duplicate | popped | orphaned | slotOffered =>
    exact .notes rfl rfl (by simpa using hn _ rfl)
  | @attachedOffered _ slotId _ _ _ _ _ _ _ ht =>
    have hoffered : Keeps P f s (s.offerSlot slotId payload) :=
      .notes rfl rfl (by simpa using hn _ rfl)
    exact hoffered.trans (receives ht hwrites hinbox hsync hn)
  | @offered _ id _ _ _ _ _ ht =>
    have happended : Keeps P f s { s with
        sessions := s.sessions.modify id fun x => { x with inbox := x.inbox ++ [payload] } } :=
      modify fun x => hinbox x _
    have hoffered : Keeps P f s (s.offer id payload) :=
      happended.trans (.notes rfl rfl (by simpa using hn _ rfl))
    exact hoffered.trans (receives ht hwrites hinbox hsync hn)
  | flooded => exact drop (hn _ rfl)

end Keeps

/-! ### Actions that leave the active transaction alone -/

/-- Only entries in `P` are new, and the active transaction is about the same. -/
structure Calm (P : Note → Prop) (s t : Broker) : Prop where
  adds : Adds P s t
  core : t.active.map Transaction.core = s.active.map Transaction.core
  failed : t.failed = s.failed

theorem Calm.mono {Q : Note → Prop} (h : Calm P s t) (hPQ : ∀ n, P n → Q n) : Calm Q s t :=
  { h with adds := h.adds.mono hPQ }

theorem Calm.trans (hst : Calm P s t) (htu : Calm P t u) : Calm P s u :=
  ⟨hst.adds.trans htu.adds, htu.core.trans hst.core, htu.failed.trans hst.failed⟩

theorem Calm.of_adds (h : Adds P s t) (hactive : t.active = s.active)
    (hfailed : t.failed = s.failed) : Calm P s t := ⟨h, hactive ▸ rfl, hfailed⟩

theorem Idle.calm (h : Idle s t) : Calm (·.handing = true) s t := by
  have hadds : Adds (·.handing = true) s t :=
    (Keeps.idle (f := fun _ => ()) h (fun _ _ => rfl) (fun _ _ => rfl) fun _ _ => rfl).log
  cases h with
  | writtenUp =>
    refine ⟨hadds, ?_, rfl⟩
    rw [Option.map_map]
    refine congrArg (fun f => Option.map f s.active) (funext fun x => ?_)
    simp only [Function.comp_apply]
    split <;> rfl
  | proved hactive | touched _ _ hactive => exact ⟨hadds, by rw [hactive]; rfl, rfl⟩
  | _ => exact .of_adds hadds rfl rfl

theorem Output.calm (h : Output s t) : Calm (·.handing = true) s t := by
  have hadds : Adds (·.handing = true) s t := (Keeps.output (f := fun _ => ()) h (fun _ _ => rfl)
    (fun _ _ => rfl) (fun _ _ => rfl) fun _ => rfl).log
  cases h <;> exact .of_adds hadds rfl rfl

theorem Client.calm (h : Client s t) :
    Calm (fun n => n.serving = true ∨ ∃ frame, n = .sent frame .broadcast) s t := by
  have hframe : t.active = s.active ∧ t.failed = s.failed := by
    cases h with
    | delivered =>
      simp only [shiftInbox]
      split <;> exact ⟨rfl, rfl⟩
    | _ => exact ⟨rfl, rfl⟩
  refine .of_adds ?_ hframe.1 hframe.2
  rcases h.adds with hadds | ⟨id, session, payload, -, -, -, rfl⟩
  · exact hadds.mono fun _ hn => .inl hn
  · exact .one rfl (.inr ⟨_, rfl⟩)

theorem Radio.calm (h : Radio s t) : Calm (·.settling = true) s t := by
  have hadds : Adds (·.settling = true) s t := (Keeps.radio (f := fun _ => ()) h (fun _ _ => rfl)
    (fun _ => rfl) (fun _ _ => rfl) fun _ => rfl).log
  cases h <;> exact .of_adds hadds rfl rfl

theorem Pop.calm {transaction : Transaction} {payload : Bytes} (h : Pop transaction payload s t) :
    Calm (·.handing = true) s t := by
  have hadds : Adds (·.handing = true) s t := (Keeps.pop (f := fun _ => ()) h (fun _ _ => rfl)
    (fun _ _ => rfl) (fun _ _ => rfl) (fun _ _ => rfl) fun _ hn => hn).log
  have hreceives : ∀ {u : Broker} {id session}, u.Receives id session t →
      t.active = u.active ∧ t.failed = u.failed := by
    intro u id session ht
    cases ht with
    | served =>
      simp only [shiftInbox]
      split <;> exact ⟨rfl, rfl⟩
    | _ => exact ⟨rfl, rfl⟩
  cases h with
  | output h => exact ⟨hadds, h.calm.core, h.calm.failed⟩
  | attachedOffered _ _ _ _ ht | offered _ _ _ _ ht =>
    exact .of_adds hadds (hreceives ht).1 (hreceives ht).2
  | _ => exact .of_adds hadds rfl rfl

theorem Closes.calm {transaction : Transaction} {payload : Bytes}
    (h : Closes transaction payload s t) : Calm (·.handing = true) s t := by
  have hadds : Adds (·.handing = true) s t := (Keeps.closes (P := (·.handing = true)) (f := fun _ => ()) h rfl).log
  cases h <;> exact .of_adds hadds rfl rfl

/-- Handing out an inbox result is calm as a whole. -/
theorem HandsOut.calm {x : Transaction} {payload : Bytes} (h : HandsOut x payload s t) :
    Calm (·.handing = true) s t := by
  obtain ⟨u, hparts, hlast⟩ := h.parts
  refine Calm.trans ?_ hlast.calm
  clear hlast h
  induction hparts with
  | refl => exact .of_adds (.refl rfl) rfl rfl
  | tail _ hlast ih =>
    cases hlast with
    | report report => exact ⟨ih.adds, ih.core, ih.failed⟩
    | mk hpop report => exact ih.trans ⟨hpop.calm.adds, hpop.calm.core, hpop.calm.failed⟩

/-- What a forwarded reply adds to the history. -/
theorem Forwarded.log {x : Transaction} {payload : Bytes} {w : Option Nat}
    (ht : s.Forwarded x payload w t) : (w = none ∧ t.log = s.log) ∨
      ∃ frame, w = some frame.writeId ∧ t.log = s.log ++ [.sent frame .reply] ∧
        frame.session = x.owner ∧ x.owner ∈ s.sessions.keys ∧
        visibleReply payload = .ok frame.payload := by
  cases ht with
  | gone => exact .inl ⟨rfl, rfl⟩
  | @live session visible hlive hroom hvisible =>
    refine .inr ⟨⟨x.owner, s.epoch, s.nextWrite + 1, visible⟩, rfl, ?_, rfl,
      OrdMap.mem_keys_of_find? hlive, hvisible⟩
    unfold retarget
    split <;> rfl

theorem Forwarded.adds {x : Transaction} {payload : Bytes} {w : Option Nat}
    (ht : s.Forwarded x payload w t) (hn : ∀ frame, P (.sent frame .reply)) : Adds P s t := by
  rcases ht.log with ⟨-, heq⟩ | ⟨frame, -, heq, -⟩
  · exact .refl heq
  · exact .one heq (hn frame)

theorem Upstream.adds (h : Upstream s t) : Adds (·.relays = true) s t := by
  cases h with
  | popDispatched | setupAccepted => exact ⟨[_, _], List.append_assoc _ _ _, by simp [Note.relays]⟩
  | @dispatched id _ command =>
    refine .trans (.one (t := s.take id command) rfl rfl) ?_
    exact ⟨[_, _], List.append_assoc _ _ _, by simp [Note.relays]⟩
  | restored => exact .one rfl rfl
  | setupRejected _ _ _ _ _ _ ht | progressed _ ht | heldReply _ ht | finalReply _ ht =>
    exact (ht.adds fun _ => rfl).trans (.one rfl rfl)
  | scopedReply _ ht =>
    refine (ht.adds fun _ => rfl).trans ?_
    exact ⟨[_, _], List.append_assoc _ _ _, by simp [Note.relays]⟩

end Broker

end MeshCoreTCPMux

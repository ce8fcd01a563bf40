import MeshCoreTCPMux.Broker.Run

/-!
# The bounds of a broker

What clients can make the broker store stays within the configuration (`Bounded`). A command moves
from its session's queue into the pending sync or into the active transaction, so that the bound on
commands is one on a sum. Outstanding writes are counted by their ids, which are used once
(`Issued`).
-/

namespace MeshCoreTCPMux

open Protocol Relation

/-- The write that a history entry issues. -/
def Note.writeId? : Note → Option Nat
  | sent frame _ | upstream frame _ => some frame.writeId
  | _ => none

/-- A `MSG_WAITING` on its way to a client. -/
def Note.isHint : Note → Bool
  | sent _ cause => cause == .hint
  | _ => false

namespace Broker

variable {s s₀ t : Broker}

/-- The ids of the writes that a history shows. -/
def writeIds (log : List Note) : List Nat := log.filterMap Note.writeId?

@[simp] theorem writeIds_append (l m : List Note) : writeIds (l ++ m) = writeIds l ++ writeIds m :=
  List.filterMap_append

/-! ### Write ids -/

/-- The writes of a history have distinct ids, and `last` is the last one. -/
structure IssuedUpTo (last : Nat) (log : List Note) : Prop where
  increasing : (writeIds log).Pairwise (· < ·)
  issued : ∀ w ∈ writeIds log, w ≤ last

def Issued (s : Broker) : Prop := IssuedUpTo s.nextWrite s.log

namespace IssuedUpTo

variable {last : Nat} {l m : List Note} {n : Note}

/-- Entries that issue no write. -/
theorem append (h : IssuedUpTo last l) (hm : writeIds m = []) : IssuedUpTo last (l ++ m) := by
  have heq : writeIds (l ++ m) = writeIds l := by rw [writeIds_append, hm, List.append_nil]
  exact ⟨heq ▸ h.increasing, heq ▸ h.issued⟩

theorem quiet (h : IssuedUpTo last l) (hn : n.writeId? = none) : IssuedUpTo last (l ++ [n]) :=
  h.append (by simp [writeIds, hn])

theorem write (h : IssuedUpTo last l) (hn : n.writeId? = some (last + 1)) :
    IssuedUpTo (last + 1) (l ++ [n]) := by
  have heq : writeIds (l ++ [n]) = writeIds l ++ [last + 1] := by simp [writeIds, hn]
  constructor
  · rw [heq, List.pairwise_append]
    refine ⟨h.increasing, List.pairwise_singleton _ _, fun w hw v hv => ?_⟩
    rw [List.mem_singleton.mp hv]
    exact Nat.lt_succ_of_le (h.issued w hw)
  · intro w hw
    rw [heq, List.mem_append, List.mem_singleton] at hw
    rcases hw with hw | rfl
    · exact (h.issued w hw).trans (Nat.le_succ last)
    · exact le_rfl

end IssuedUpTo

theorem Forwarded.issued {transaction : Transaction} {payload : Bytes} {w : Option Nat}
    (h : s.Forwarded transaction payload w t) (hs : s.Issued) : t.Issued := by
  cases h with
  | gone => exact hs
  | live =>
    -- only the target version of the session changes before the write
    unfold retarget
    split <;> exact IssuedUpTo.write hs rfl

theorem shiftInbox_issued {id : Nat} {session : Session} {item : Bytes} (hs : s.Issued) :
    (s.shiftInbox id session item).Issued := by
  unfold shiftInbox
  split
  · exact hs
  · exact IssuedUpTo.quiet hs rfl

theorem output_issued (h : Output s t) (hs : s.Issued) : t.Issued := by
  cases h with
  | drop => exact IssuedUpTo.quiet hs rfl
  | hint => exact IssuedUpTo.write hs rfl

theorem upstream_issued (h : Upstream s t) (hs : s.Issued) : t.Issued := by
  cases h with
  | popDispatched => exact (IssuedUpTo.quiet hs rfl).write rfl
  | dispatched => exact ((IssuedUpTo.quiet hs rfl).quiet rfl).write rfl
  | setupAccepted => exact (IssuedUpTo.quiet hs rfl).write rfl
  | restored => exact IssuedUpTo.quiet hs rfl
  | setupRejected _ _ _ _ _ _ ht => exact (ht.issued hs).quiet rfl
  | progressed _ ht | heldReply _ ht | finalReply _ ht => exact (ht.issued hs).quiet rfl
  | scopedReply _ ht => exact ((ht.issued hs).quiet rfl).write rfl

theorem receives_issued {id : Nat} {session : Session} (h : s.Receives id session t)
    (hs : s.Issued) : t.Issued := by
  cases h with
  | held => exact hs
  | served => exact shiftInbox_issued (IssuedUpTo.write hs rfl)
  | slow => exact IssuedUpTo.quiet hs rfl

/-- **Every write id is used once.** -/
theorem Stepwise.issued {K : Broker → Prop} : Stepwise K Issued where
  report := fun _ hs => hs
  input := fun _ _ hs => IssuedUpTo.quiet hs rfl
  clock := fun _ _ hs => hs
  idle := by
    intro s t _ h hs
    cases h with
    | refuse => exact IssuedUpTo.quiet hs rfl
    | _ => exact hs
  output := fun _ h hs => output_issued h hs
  client := by
    intro s t _ h hs
    cases h with
    | entered =>
      refine IssuedUpTo.append hs ?_
      split
      · cases s.orphan <;> rfl
      · rfl
    | queued => exact IssuedUpTo.quiet hs rfl
    | answered => exact (IssuedUpTo.quiet hs rfl).write rfl
    | selected => exact ((IssuedUpTo.quiet hs rfl).write rfl).quiet rfl
    | choked | waits => exact (IssuedUpTo.quiet hs rfl).quiet rfl
    | delivered => exact shiftInbox_issued ((IssuedUpTo.quiet hs rfl).write rfl)
    | syncExpired | broadcast => exact IssuedUpTo.write hs rfl
  radio := by
    intro s t _ h hs
    cases h with
    | leaseExpired | signingExpired | quarantineOver | notified => exact hs
    | confirmed | unmatched => exact IssuedUpTo.quiet hs rfl
    | matched => exact (IssuedUpTo.write hs rfl).quiet rfl
  part := by
    intro s t _ h hs
    cases h with
    | dropped | failed => exact IssuedUpTo.quiet hs rfl
    | released | writtenDown => exact hs
    | upstream h => exact upstream_issued h hs
  took := fun _ _ hs => IssuedUpTo.quiet hs rfl
  pop := by
    intro s t transaction payload _ _ _ h hs
    cases h with
    | output h => exact output_issued h hs
    | answered => exact IssuedUpTo.write hs rfl
    | duplicate | popped | slotOffered | flooded | orphaned => exact IssuedUpTo.quiet hs rfl
    | attachedOffered _ _ _ _ ht => exact receives_issued ht (IssuedUpTo.quiet hs rfl)
    | offered _ _ _ _ ht => exact receives_issued ht (IssuedUpTo.quiet hs rfl)
  closes := by
    intro s t transaction payload _ h hs
    cases h with
    | settled =>
      refine IssuedUpTo.append hs ?_
      split <;> rfl
    | continued => exact hs

/-! ### Bounds -/

/-- What one session may hold while `owner` owns the active transaction. -/
structure SessionBound (config : Config) (owner : Option Nat) (log : List Note) (id : Nat)
    (session : Session) : Prop where
  commands : session.commands.length + (if session.sync.isSome then 1 else 0)
    + (if owner = some id then 1 else 0) ≤ config.commandLimit
  writes : session.writes.size ≤ config.outputFrames
  inbox : session.inbox.length ≤ config.inboxEntries
  hint : ∀ w, session.availabilityHintWriteId = some w → w ∈ session.writes.keys
  /-- The hint that is remembered is the only one that has not been written. -/
  single : ∀ frame, .sent frame .hint ∈ log → frame.session = id →
    frame.writeId ∈ session.writes.keys → session.availabilityHintWriteId = some frame.writeId

/-- What clients make the broker store stays within the configuration. -/
structure Bounded (s : Broker) : Prop where
  session : ∀ id session, s.sessions.find? id = some session →
    SessionBound s.config s.activeOwner s.log id session
  slot : ∀ k slot, s.dedicatedSlots.find? k = some slot →
    slot.offlineQueue.length ≤ s.config.offlineQueueSize

namespace SessionBound

variable {config : Config} {owner : Option Nat} {log notes : List Note} {id : Nat}
  {session : Session}

/-- Entries that hint nothing. -/
theorem append (h : SessionBound config owner log id session) (hn : ∀ n ∈ notes, n.isHint = false) :
    SessionBound config owner (log ++ notes) id session :=
  { h with
    single := fun frame hframe => h.single frame <| (List.mem_append.mp hframe).resolve_right
      fun hmem => Bool.noConfusion (hn _ hmem) }

/-- A session that does not own the active transaction has the more room. -/
theorem unowned {owner' : Option Nat} (h : SessionBound config owner log id session)
    (howner : owner' ≠ some id) : SessionBound config owner' log id session :=
  { h with
    commands := by
      rw [if_neg howner, Nat.add_zero]
      exact (Nat.le_add_right _ _).trans h.commands }

theorem take (h : SessionBound config owner log id session) :
    SessionBound config owner log id { session with commands := session.commands.tail } :=
  { h with
    commands := by
      have hcommands := h.commands
      simp only [List.length_tail] at hcommands ⊢
      omega }

theorem endSync (h : SessionBound config owner log id session) :
    SessionBound config owner log id { session with sync := none } :=
  { h with
    commands := by
      have hcommands := h.commands
      simp only [Option.isSome_none, Bool.false_eq_true, if_false] at hcommands ⊢
      omega }

/-- A frame that is no hint, under a fresh write id. -/
theorem write {nextWrite : Nat} (h : SessionBound config owner log id session)
    (hissued : IssuedUpTo nextWrite log) (hroom : session.writes.size < config.outputFrames)
    (budget : WriteBudget) :
    SessionBound config owner log id
      { session with writes := session.writes.insert (nextWrite + 1) budget } :=
  { h with
    writes := (OrdMap.size_insert_le _ _ _).trans hroom
    hint := fun w hw => OrdMap.mem_keys_insert.mpr (.inr (h.hint w hw))
    single := fun frame hframe hid hw => by
      refine h.single frame hframe hid ((OrdMap.mem_keys_insert.mp hw).resolve_left fun heq => ?_)
      have hle : frame.writeId ≤ nextWrite :=
        hissued.issued _ (List.mem_filterMap.mpr ⟨_, hframe, rfl⟩)
      omega }

/-- The write that carries the one hint. -/
theorem hinted {nextWrite : Nat} (h : SessionBound config owner log id session)
    (hroom : session.writes.size < config.outputFrames)
    (hnone : session.availabilityHintWriteId = none) (budget : WriteBudget) (frame : SendFrame)
    (hframe : frame.writeId = nextWrite + 1) :
    SessionBound config owner (log ++ [.sent frame .hint]) id
      { session with
        writes := session.writes.insert (nextWrite + 1) budget
        availabilityHintWriteId := some (nextWrite + 1) } :=
  { h with
    writes := (OrdMap.size_insert_le _ _ _).trans hroom
    hint := fun w hw => OrdMap.mem_keys_insert.mpr (.inl (Option.some.inj hw).symm)
    single := fun f hf hid hw => by
      rcases List.mem_append.mp hf with hold | hnew
      · rcases OrdMap.mem_keys_insert.mp hw with heq | hold'
        · exact congrArg some heq.symm
        · have hsome := h.single f hold hid hold'
          rw [hnone] at hsome
          cases hsome
      · obtain ⟨rfl, -⟩ := Note.sent.inj (List.mem_singleton.mp hnew)
        exact congrArg some hframe.symm }

end SessionBound

namespace Bounded

theorem note (h : s.Bounded) {n : Note} (hn : n.isHint = false) : (s.note n).Bounded :=
  { h with
    session := fun id session hlive => (h.session id session hlive).append fun m hm => by
      rwa [List.mem_singleton.mp hm] }

theorem modifySession (h : s.Bounded) {id : Nat} {f : Session → Session}
    (hf : ∀ x, s.sessions.find? id = some x → SessionBound s.config s.activeOwner s.log id x →
      SessionBound s.config s.activeOwner s.log id (f x)) :
    Bounded { s with sessions := s.sessions.modify id f } :=
  { h with
    session := OrdMap.forall_find?_modify h.session fun x hx => hf x hx (h.session id x hx) }

theorem take (h : s.Bounded) (id : Nat) (command : Command) : (s.take id command).Bounded :=
  Bounded.note (h.modifySession fun _ _ => SessionBound.take) rfl

theorem endSync (h : s.Bounded) (id : Nat) : (s.endSync id).Bounded :=
  h.modifySession fun _ _ => SessionBound.endSync

theorem setScope (h : s.Bounded) (id : Nat) (scope : Bytes) : (s.setScope id scope).Bounded :=
  h.modifySession fun _ _ hx => { hx with }

theorem retarget (h : s.Bounded) (transaction : Transaction) (payload : Bytes) :
    (s.retarget transaction payload).Bounded := by
  unfold Broker.retarget
  split
  · exact h.modifySession fun _ _ hx => { hx with }
  · exact h

theorem send (h : s.Bounded) (hissued : s.Issued) {id : Nat} {session : Session}
    (hlive : s.sessions.find? id = some session) (hroom : s.Room session) (payload : Bytes)
    {cause : Cause} (hcause : cause ≠ .hint) : (s.send id payload cause).Bounded := by
  have hwritten : Bounded { s with
      nextWrite := s.nextWrite + 1
      sessions := s.sessions.modify id fun x =>
        { x with writes := x.writes.insert (s.nextWrite + 1) ⟨s.now + s.config.writeTimeout⟩ } } := by
    refine { h with session := OrdMap.forall_find?_modify h.session fun x hx => ?_ }
    obtain rfl := Option.some.inj (hlive.symm.trans hx)
    exact (h.session id session hlive).write hissued hroom _
  exact hwritten.note (by simpa [Note.isHint] using hcause)

theorem hint (h : s.Bounded) {id : Nat} {session : Session}
    (hlive : s.sessions.find? id = some session) (hroom : s.Room session)
    (hnone : session.availabilityHintWriteId = none) :
    ((s.send id [pushMsgWaiting] .hint).markHint id (s.nextWrite + 1)).Bounded := by
  refine { h with session := fun i x hx => ?_ }
  simp only [Broker.send, markHint, OrdMap.modify_modify, OrdMap.find?_modify] at hx
  split at hx
  · next hid =>
    subst hid
    rw [hlive, Option.map_some] at hx
    obtain rfl := Option.some.inj hx
    exact (h.session i session hlive).hinted hroom hnone _ _ rfl
  · next hid =>
    -- the new hint is another session's
    refine { h.session i x hx with single := fun frame hframe hi hw => ?_ }
    refine (h.session i x hx).single frame ?_ hi hw
    refine (List.mem_append.mp hframe).resolve_right fun hmem => hid ?_
    obtain ⟨rfl, -⟩ := Note.sent.inj (List.mem_singleton.mp hmem)
    exact hi.symm

theorem drop (h : s.Bounded) (id : Nat) (session : Session) (reason : Text) :
    (s.drop id session reason).Bounded where
  session := OrdMap.forall_find?_erase (fun i x hx =>
    (h.session i x hx).append fun m hm => by
      rw [List.mem_singleton.mp hm]
      rfl) id
  slot := by
    intro k slot hslot
    simp only [Broker.drop, detachedSlots] at hslot
    split at hslot
    · exact h.slot k slot hslot
    · refine OrdMap.forall_find?_modify h.slot (fun x hx => ?_) k slot hslot
      split <;> exact h.slot _ x hx

theorem shiftInbox (h : s.Bounded) (id : Nat) (session : Session) (item : Bytes) :
    (s.shiftInbox id session item).Bounded := by
  unfold Broker.shiftInbox
  split
  · refine h.modifySession fun x _ hx => { hx with inbox := ?_ }
    exact (List.tail_sublist x.inbox).length_le.trans hx.inbox
  · next slotId _ =>
    have hshifted : Bounded { s with
        dedicatedSlots := s.dedicatedSlots.modify slotId fun slot =>
          { slot with offlineQueue := slot.offlineQueue.tail }.recordDelivery } := by
      refine { h with slot := OrdMap.forall_find?_modify h.slot fun slot hslot => ?_ }
      exact (List.tail_sublist slot.offlineQueue).length_le.trans (h.slot _ slot hslot)
    exact hshifted.note rfl

theorem forwarded {transaction : Transaction} {payload : Bytes} {w : Option Nat} (h : s.Bounded)
    (hissued : s.Issued) (ht : s.Forwarded transaction payload w t) : t.Bounded := by
  cases ht with
  | gone => exact h
  | live hlive hroom =>
    obtain ⟨session', hlive', hroom'⟩ : ∃ x,
        (s.retarget transaction payload).sessions.find? transaction.owner = some x ∧
          (s.retarget transaction payload).Room x := by
      unfold Broker.retarget
      split
      · exact ⟨_, (OrdMap.find?_modify_self _ _ _).trans (congrArg _ hlive), hroom⟩
      · exact ⟨_, hlive, hroom⟩
    have hissued' : (s.retarget transaction payload).Issued := by
      unfold Broker.retarget
      split <;> exact hissued
    exact (h.retarget _ _).send hissued' hlive' hroom' _ (by simp)

/-- Only the owner of the active transaction counts. -/
theorem own (h : s.Bounded) {t : Broker} (hsessions : t.sessions = s.sessions)
    (hslots : t.dedicatedSlots = s.dedicatedSlots) (hconfig : t.config = s.config)
    (hlog : ∃ notes, t.log = s.log ++ notes ∧ ∀ n ∈ notes, n.isHint = false)
    (howner : ∀ id ∈ s.sessions.keys, t.activeOwner = s.activeOwner ∨ t.activeOwner ≠ some id) :
    t.Bounded where
  session := by
    intro id session hlive
    rw [hsessions] at hlive
    obtain ⟨notes, hlog, hnotes⟩ := hlog
    rw [hlog, hconfig]
    have hbound := (h.session id session hlive).append hnotes
    rcases howner id (OrdMap.mem_keys_of_find? hlive) with heq | hne
    · rw [heq]
      exact hbound
    · exact hbound.unowned hne
  slot := by
    rw [hslots, hconfig]
    exact h.slot

end Bounded

theorem Bounded.output (hs : s.Bounded) (h : Output s t) : t.Bounded := by
  cases h with
  | drop => exact hs.drop _ _ _
  | hint hlive hnone hroom => exact hs.hint hlive hroom hnone

/-- A new session holds at most the orphan. -/
theorem Bounded.enter (hs : s.Bounded) (hconfig : s.config.Valid) (id : Nat)
    (slotId : Option Nat) : (s.enter id slotId).Bounded where
  session := by
    obtain ⟨⟨hlimit, hentries, -, -⟩, -⟩ := hconfig.positive
    intro i session hlive
    have hnotes : ∀ n ∈ .admitted id slotId ::
        (if slotId.isNone then s.orphan.toList.map (Note.offered id) else []),
        n.isHint = false := by
      intro n hn
      rcases List.mem_cons.mp hn with rfl | hn
      · rfl
      · split at hn
        · obtain ⟨_, -, rfl⟩ := List.mem_map.mp hn
          rfl
        · cases hn
    simp only [Broker.enter, OrdMap.find?_insert] at hlive
    split at hlive
    · obtain rfl := Option.some.inj hlive
      refine ⟨?_, Nat.zero_le _, ?_, fun w hw => (by cases hw), fun _ _ _ hw => (by cases hw)⟩
      · simp only [List.length_nil, Option.isSome_none, Bool.false_eq_true, if_false]
        split
        · exact hlimit
        · exact Nat.zero_le _
      · simp only [Broker.enter]
        split
        · exact (Option.length_toList_le).trans hentries
        · exact Nat.zero_le _
    · exact (hs.session i session hlive).append hnotes
  slot := by
    intro k slot hslot
    simp only [Broker.enter] at hslot
    split at hslot
    · exact hs.slot k slot hslot
    · exact OrdMap.forall_find?_modify hs.slot (fun x hx => by exact hs.slot _ x hx) k slot hslot

/-- A write that completes is no longer outstanding. -/
theorem Bounded.writtenDown (hs : s.Bounded) (id writeId : Nat) :
    (s.writtenDown id writeId).Bounded := by
  refine hs.modifySession fun x _ hx => ?_
  refine { hx with
    writes := (OrdMap.size_erase_le _ _).trans hx.writes
    hint := fun w hw => ?_
    single := fun frame hframe hid hw => ?_ }
  · rw [OrdMap.keys_erase, List.mem_filter]
    split at hw
    · cases hw
    · next hne => exact ⟨hx.hint w hw, by simpa using fun heq : w = writeId => hne (heq ▸ hw)⟩
  · rw [OrdMap.keys_erase, List.mem_filter] at hw
    have hsome := hx.single frame hframe hid hw.1
    rw [if_neg, hsome]
    rw [hsome, Option.some.injEq]
    exact of_decide_eq_true hw.2

theorem Bounded.upstream (hs : s.Bounded) (hwf : s.WF) (hissued : s.Issued) (h : Upstream s t) :
    t.Bounded := by
  cases h with
  | popDispatched hrunning hidle hrequested hsessions hdescriptor htransaction =>
    subst htransaction
    refine hs.own rfl rfl rfl ⟨_, List.append_assoc _ _ _, by simp [Note.isHint]⟩ ?_
    intro id hid
    right
    -- the internal inbox consumer is no session
    rintro howner
    obtain rfl := Option.some.inj howner
    exact hwf.positive hid
  | @dispatched id session command _ _ _ _ _ _ h _ _ _ htransaction =>
    subst htransaction
    refine { hs with session := fun i x hx => ?_ }
    simp only [Broker.sendUp, Broker.claim, Broker.take, OrdMap.find?_modify] at hx ⊢
    rw [List.append_assoc, List.append_assoc]
    split at hx
    · next hid =>
      subst hid
      rw [h.live, Option.map_some] at hx
      obtain rfl := Option.some.inj hx
      have hbound := hs.session i session h.live
      -- the command that was taken is the active transaction's
      have hcommands := hbound.commands
      rw [h.commands, List.length_cons] at hcommands
      refine SessionBound.append { hbound with commands := ?_ } (by simp [Note.isHint])
      simp only [activeOwner, Option.map_some, if_true, h.sync, Option.isSome_none,
        Bool.false_eq_true, if_false]
      omega
    · next hid =>
      refine ((hs.session i x hx).append (by simp [Note.isHint])).unowned ?_
      exact fun howner => hid (Option.some.inj howner).symm
  | setupRejected h _ _ _ _ _ ht =>
    refine (hs.forwarded hissued ht).own rfl rfl rfl ⟨[_], rfl, by simp [Note.isHint]⟩ ?_
    exact fun _ _ => .inr fun h => by cases h
  | setupAccepted h =>
    refine hs.own rfl rfl rfl ⟨_, List.append_assoc _ _ _, by simp [Note.isHint]⟩ ?_
    exact fun _ _ => .inl (by simp [activeOwner, Broker.sendUp, h])
  | restored =>
    refine hs.own rfl rfl rfl ⟨[_], rfl, by simp [Note.isHint]⟩ ?_
    exact fun _ _ => .inr fun h => by cases h
  | progressed h ht | heldReply h ht =>
    refine (hs.forwarded hissued ht).own rfl rfl rfl ⟨[_], rfl, by simp [Note.isHint]⟩ ?_
    exact fun _ _ => .inl (by simp [activeOwner, Broker.note, ht.frame.2.1, h.active])
  | scopedReply h ht =>
    refine (hs.forwarded hissued ht).own rfl rfl rfl
      ⟨_, List.append_assoc _ _ _, by simp [Note.isHint]⟩ ?_
    exact fun _ _ => .inl (by simp [activeOwner, Broker.sendUp, ht.frame.2.1, h.active])
  | finalReply h ht =>
    refine (hs.forwarded hissued ht).own rfl rfl rfl ⟨[_], rfl, by simp [Note.isHint]⟩ ?_
    exact fun _ _ => .inr fun h => by cases h

theorem Bounded.offerSlot (hs : s.Bounded) (slotId : Nat) (item : Bytes) :
    (s.offerSlot slotId item).Bounded := by
  have hoffered : Bounded { s with
      dedicatedSlots := s.dedicatedSlots.modify slotId fun slot =>
        (slot.enqueueOffline item s.config.offlineQueueSize).2 } := by
    refine { hs with slot := OrdMap.forall_find?_modify hs.slot fun slot hslot => ?_ }
    exact DedicatedClientSlot.length_enqueueOffline_le (hs.slot _ slot hslot) _
  exact hoffered.note rfl

theorem Bounded.offer (hs : s.Bounded) {id : Nat} {session : Session}
    (hlive : s.sessions.find? id = some session)
    (hlimit : session.inbox.length < s.config.inboxEntries) (item : Bytes) :
    (s.offer id item).Bounded := by
  have hoffered : Bounded { s with
      sessions := s.sessions.modify id fun x => { x with inbox := x.inbox ++ [item] } } := by
    refine hs.modifySession fun x hx hbound => { hbound with inbox := ?_ }
    obtain rfl := Option.some.inj (hlive.symm.trans hx)
    rw [List.length_append, List.length_singleton]
    exact hlimit
  exact hoffered.note rfl

theorem Bounded.receives (hs : s.Bounded) (hissued : s.Issued) {id : Nat} {session : Session}
    (hlive : s.sessions.find? id = some session) (h : s.Receives id session t) : t.Bounded := by
  cases h with
  | held => exact hs
  | served _ hroom =>
    exact ((hs.endSync _).send hissued (find?_endSync hlive) hroom _ (by simp)).shiftInbox _ _ _
  | slow => exact hs.drop _ _ _

/-- **What clients make the broker store stays bounded in every state.** -/
theorem Stepwise.bounded : Stepwise (fun s => s.WF ∧ s.Issued) Bounded where
  report := fun _ hs => { hs with }
  input := fun _ _ hs => hs.note rfl
  clock := fun _ _ hs => { hs with }
  idle := by
    intro s t _ h hs
    cases h with
    | poll | rotate | debtTouched | debtCleared => exact { hs with }
    | refuse => exact hs.note rfl
    | writtenUp =>
      refine hs.own rfl rfl rfl ⟨[], (List.append_nil _).symm, by simp⟩ fun _ _ => .inl ?_
      simp only [activeOwner, Option.map_map]
      refine Option.map_congr fun x _ => ?_
      simp only [Function.comp_apply]
      split <;> rfl
    | writtenDown => exact hs.writtenDown _ _
    | proved hactive | touched _ _ hactive =>
      refine hs.own rfl rfl rfl ⟨[], (List.append_nil _).symm, by simp⟩ fun _ _ => .inl ?_
      simp only [activeOwner, hactive]
      rfl
  output := fun _ h hs => hs.output h
  client := by
    intro s t hK h hs
    obtain ⟨hwf, hissued⟩ := hK
    cases h with
    | entered => exact hs.enter hwf.config _ _
    | @queued id session payload _ hlive _ _ hlimit =>
      have hqueued : Bounded { s with
          sessions := s.sessions.modify id fun x =>
            { x with commands := x.commands ++ [⟨payload, s.now⟩] } } := by
        refine hs.modifySession fun x hx hbound => { hbound with commands := ?_ }
        obtain rfl := Option.some.inj (hlive.symm.trans hx)
        simp only [List.length_append, List.length_singleton]
        omega
      exact hqueued.note rfl
    | answered h hroom hreply =>
      exact (hs.take _ _).send (hissued.quiet rfl) h.take_live hroom _ (by simp)
    | @selected id session command h hroom =>
      have hlive : ((s.take id command).setScope id command.payload).sessions.find? id
          = some { session with commands := session.commands.tail, scope := command.payload } := by
        simp [Broker.setScope, h.take_live]
      have hscoped := (hs.take id command).setScope id command.payload
      exact (hscoped.send (hissued.quiet rfl) hlive hroom _ (by simp)).note rfl
    | choked => exact (hs.take _ _).drop _ _ _
    | @waits id session command deadline h =>
      refine { hs with session := fun i x hx => ?_ }
      have hnotes : ∀ n ∈ [.taken id command, .synced id ⟨s.popSequence + 1, deadline⟩],
          Note.isHint n = false := by simp [Note.isHint]
      simp only [startSync, Broker.take, OrdMap.modify_modify, OrdMap.find?_modify] at hx ⊢
      rw [List.append_assoc]
      split at hx
      · next hid =>
        subst hid
        rw [h.live, Option.map_some] at hx
        obtain rfl := Option.some.inj hx
        have hbound := hs.session i session h.live
        -- the command that was taken waits in its place
        have hcommands := hbound.commands
        rw [h.commands, List.length_cons] at hcommands
        refine SessionBound.append { hbound with commands := ?_ } hnotes
        simp only [h.sync, Option.isSome_none, Bool.false_eq_true, if_false] at hcommands
        change _ + 1 + (if s.activeOwner = some i then 1 else 0) ≤ s.config.commandLimit
        omega
      · exact (hs.session i x hx).append hnotes
    | delivered h _ hroom =>
      exact ((hs.take _ _).send (hissued.quiet rfl) h.take_live hroom _ (by simp)).shiftInbox _ _ _
    | syncExpired h _ _ hroom =>
      exact (hs.endSync _).send hissued (find?_endSync h) hroom _ (by simp)
    | broadcast h hroom => exact hs.send hissued h hroom _ (by simp)
  radio := by
    intro s t hK h hs
    cases h with
    | leaseExpired | quarantineOver | signingExpired | notified => exact { hs with }
    | confirmed | unmatched =>
      exact hs.own rfl rfl rfl ⟨[_], rfl, by simp [Note.isHint]⟩ fun _ _ => .inl rfl
    | @matched _ _ remote _ _ _ _ _ _ hlive hroom =>
      have hfreed : Bounded { s with radio := { s.radio with remote := remote } } := { hs with }
      exact (hfreed.send hK.2 hlive hroom _ (by simp)).note rfl
  part := by
    intro s t hK h hs
    cases h with
    | dropped => exact hs.drop _ _ _
    | writtenDown => exact hs.writtenDown _ _
    | upstream h => exact hs.upstream hK.1 hK.2 h
    | released =>
      refine hs.own rfl rfl rfl ⟨[], (List.append_nil _).symm, by simp⟩ ?_
      exact fun _ _ => .inr fun h => by cases h
    | failed =>
      refine hs.own rfl rfl rfl ⟨[_], rfl, by simp [Note.isHint]⟩ ?_
      exact fun _ _ => .inr fun h => by cases h
  took := by
    intro s transaction payload _ htakes hs
    refine hs.own rfl rfl rfl ⟨[_], rfl, by simp [Note.isHint]⟩ fun _ _ => .inr ?_
    exact fun h => by cases h
  pop := by
    intro s t transaction payload hK _ _ h hs
    cases h with
    | output h => exact hs.output h
    | answered _ hlive _ _ hroom =>
      exact (hs.endSync _).send hK.2 (find?_endSync hlive) hroom _ (by simp)
    | duplicate | popped | orphaned =>
      exact hs.own rfl rfl rfl ⟨[_], rfl, by simp [Note.isHint]⟩ fun _ _ => .inl rfl
    | slotOffered => exact hs.offerSlot _ _
    | flooded => exact hs.drop _ _ _
    | attachedOffered _ _ hlive _ ht =>
      exact (hs.offerSlot _ _).receives (hK.2.quiet rfl) hlive ht
    | offered hlive _ hlimit _ ht =>
      exact (hs.offer hlive hlimit _).receives (hK.2.quiet rfl) (find?_offer _ hlive) ht
  closes := by
    intro s t transaction payload _ h hs
    cases h with
    | settled =>
      refine hs.own rfl rfl rfl ⟨_, rfl, fun n hn => ?_⟩ fun _ _ => .inl rfl
      split at hn
      · cases hn
      · rw [List.mem_singleton.mp hn]
        rfl
    | continued => exact { hs with }

/-! ### Runs -/

theorem Starts.issued (h : s.Starts) : s.Issued := by
  obtain ⟨epoch, selfKey, config, now, orphan, slots, radio, rfl⟩ := h.fresh
  exact ⟨.nil, fun _ hw => nomatch hw⟩

theorem Starts.bounded (h : s.Starts) : s.Bounded := by
  refine ⟨fun id session hlive => ?_, fun k slot hslot => (h.slots k slot hslot).2.2⟩
  obtain ⟨epoch, selfKey, config, now, orphan, slots, radio, rfl⟩ := h.fresh
  cases hlive

theorem Reached.issued (h : Reached s₀ s) : s.Issued := Stepwise.issued.holds Starts.issued h

theorem Reached.bounded (h : Reached s₀ s) : s.Bounded :=
  (Stepwise.bounded.mono fun _ h => ⟨h.wf, h.issued⟩).holds Starts.bounded h

theorem Run.issued (h : Run s₀ s) (hstart : s₀.Starts) : s.Issued := (h.reached hstart).issued

theorem Run.bounded (h : Run s₀ s) (hstart : s₀.Starts) : s.Bounded := (h.reached hstart).bounded

end Broker

end MeshCoreTCPMux

import MeshCoreTCPMux.Broker.Stock

/-!
# Inbox wakeups

A session learns of its inbox by `MSG_WAITING` hints, and hints are coalesced while one of them is
unwritten. `wakeups_kept` says that none is lost: whatever an inbox holds has been announced since
the session came and since the inbox was last empty, unless an earlier hint was still on its way
then.
-/

namespace MeshCoreTCPMux

open Protocol Program

namespace Broker

variable {s s₀ t : Broker} {l m : List Note} {n : Note} {id slotId w : Nat}

/-- A hint to a session is among the entries. -/
def Hinted (id : Nat) (log : List Note) : Prop :=
  ∃ frame cause, .sent frame cause ∈ log ∧ frame.session = id ∧ frame.payload = [pushMsgWaiting]

/-- The hint that write `w` carries to a session has been sent, and the write has not completed. -/
def Unwritten (epoch id w : Nat) (log : List Note) : Prop :=
  ∃ past cause future, log = past ++ .sent ⟨id, epoch, w, [pushMsgWaiting]⟩ cause :: future ∧
    ∀ now, .input (.written id epoch w now) ∉ future

/-- Since any moment at which a session was not connected, or had nothing to consume, it has been
sent a hint, unless one was unwritten at that moment. -/
def Prompted (s₀ : Broker) (id : Nat) (log : List Note) : Prop :=
  ∀ past recent, log = past ++ recent → stock s₀ id past = [] →
    Hinted id recent ∨ ∃ w, Unwritten s₀.epoch id w past

/-! ### Hints and the history -/

theorem hinted_of_mem (epoch w : Nat) (cause : Cause)
    (h : .sent ⟨id, epoch, w, [pushMsgWaiting]⟩ cause ∈ l) : Hinted id l := ⟨_, cause, h, rfl, rfl⟩

theorem Hinted.append (h : Hinted id l) (m : List Note) : Hinted id (l ++ m) := by
  obtain ⟨frame, cause, hmem, hsession, hpayload⟩ := h
  exact ⟨frame, cause, List.mem_append_left m hmem, hsession, hpayload⟩

/-- A write stays unwritten until its completion. -/
theorem Unwritten.snoc (h : Unwritten s₀.epoch id w l)
    (hn : ∀ now, n ≠ .input (.written id s₀.epoch w now)) : Unwritten s₀.epoch id w (l ++ [n]) := by
  obtain ⟨past, cause, future, rfl, hfuture⟩ := h
  refine ⟨past, cause, future ++ [n], by simp, fun now hmem => ?_⟩
  rcases List.mem_append.mp hmem with hmem | hmem
  · exact hfuture now hmem
  · exact hn now (List.mem_singleton.mp hmem).symm

/-- A hint that is unwritten now was sent since, or was unwritten then. -/
theorem Unwritten.prompted (h : Unwritten s₀.epoch id w l) : Prompted s₀ id l := by
  obtain ⟨front, cause, back, rfl, hback⟩ := h
  intro past recent heq _
  rcases List.append_eq_append_iff.mp heq with ⟨c, rfl, hrecent⟩ | ⟨c, rfl, hrecent⟩
  · cases c with
    | nil =>
      refine .inl (hinted_of_mem s₀.epoch w cause ?_)
      rw [← List.nil_append recent, ← hrecent]
      exact List.mem_cons_self
    | cons a c =>
      obtain ⟨rfl, rfl⟩ := List.cons.inj hrecent
      exact .inr ⟨w, front, cause, c, rfl, fun now hmem => hback now (List.mem_append_left _ hmem)⟩
  · refine .inl (hinted_of_mem s₀.epoch w cause ?_)
    rw [hrecent]
    exact List.mem_append_right _ List.mem_cons_self

theorem Prompted.extend (h : Prompted s₀ id l) (hfilled : stock s₀ id (l ++ [n]) ≠ []) :
    Prompted s₀ id (l ++ [n]) := by
  intro past recent heq hdry
  rcases List.eq_nil_or_concat recent with rfl | ⟨front, last, rfl⟩
  · rw [List.append_nil] at heq
    exact absurd (heq ▸ hdry) hfilled
  · rw [List.concat_eq_append, ← List.append_assoc] at heq
    rw [List.concat_eq_append]
    exact (h past front (List.append_inj' heq rfl).1 hdry).imp_left fun hinted => hinted.append _

/-- An entry that does not fill the inbox. -/
theorem Prompted.snoc (h : stock s₀ id l ≠ [] → Prompted s₀ id l)
    (hstock : stock s₀ id (l ++ [n]) ≠ [] → stock s₀ id l ≠ [])
    (hfilled : stock s₀ id (l ++ [n]) ≠ []) : Prompted s₀ id (l ++ [n]) :=
  (h (hstock hfilled)).extend hfilled

/-- A hint is news. -/
theorem prompted_hint (cause : Cause)
    (hfilled : stock s₀ id (l ++ [.sent ⟨id, s₀.epoch, w, [pushMsgWaiting]⟩ cause]) ≠ []) :
    Prompted s₀ id (l ++ [.sent ⟨id, s₀.epoch, w, [pushMsgWaiting]⟩ cause]) := by
  intro past recent heq hdry
  rcases List.eq_nil_or_concat recent with rfl | ⟨front, last, rfl⟩
  · rw [List.append_nil] at heq
    exact absurd (heq ▸ hdry) hfilled
  · rw [List.concat_eq_append, ← List.append_assoc] at heq
    obtain ⟨-, hlast⟩ := List.append_inj' heq rfl
    refine .inl (hinted_of_mem s₀.epoch w cause ?_)
    rw [List.concat_eq_append, ← hlast]
    exact List.mem_append_right _ List.mem_cons_self

theorem stock_of_own {x : Holding} (hx : holding id l = some x) (hown : x.slotId = none) :
    stock s₀ id l = x.inbox := by simp only [stock, hx, hown]

theorem stock_of_slot {x : Holding} (hx : holding id l = some x) (hslot : x.slotId = some slotId) :
    stock s₀ id l = slotQueue s₀ slotId l := by simp only [stock, hx, hslot]

/-! ### What concerns another session -/

theorem stock_of_hold (hhold : n.hold id (holding id l) = holding id l)
    (hqueue : ∀ x k, holding id l = some x → x.slotId = some k → ∀ limit queue,
      n.restock limit k queue = queue) : stock s₀ id (l ++ [n]) = stock s₀ id l := by
  unfold stock
  rw [holding_snoc, hhold]
  cases hx : holding id l with
  | none => rfl
  | some x =>
    cases hk : x.slotId with
    | none => simp only [hk]
    | some k => simp only [hk, slotQueue_snoc, hqueue x k hx hk]

theorem stock_closed {i : Nat} (reason : Text) (h : id ≠ i) :
    stock s₀ i (l ++ [.closed id reason]) = stock s₀ i l :=
  stock_of_hold (n := .closed id reason) (if_neg h) fun _ _ _ _ _ _ => rfl

theorem stock_admitted {i : Nat} (slotId : Option Nat) (h : id ≠ i) :
    stock s₀ i (l ++ [.admitted id slotId]) = stock s₀ i l :=
  stock_of_hold (n := .admitted id slotId) (if_neg h) fun _ _ _ _ _ _ => rfl

theorem stock_offered {i : Nat} (item : Bytes) (h : id ≠ i) :
    stock s₀ i (l ++ [.offered id item]) = stock s₀ i l :=
  stock_of_hold (n := .offered id item) (if_neg h) fun _ _ _ _ _ _ => rfl

theorem stock_item {i : Nat} {frame : SendFrame} (item : Bytes) (h : frame.session ≠ i) :
    stock s₀ i (l ++ [.sent frame (.item item)]) = stock s₀ i l :=
  stock_of_hold (n := .sent frame (.item item)) (if_neg h) fun _ _ _ _ _ _ => rfl

theorem stock_slotOffered {i : Nat} (item : Bytes)
    (h : ∀ x, holding i l = some x → x.slotId ≠ some slotId) :
    stock s₀ i (l ++ [.slotOffered slotId item]) = stock s₀ i l :=
  stock_of_hold (n := .slotOffered slotId item) rfl fun x _ hx hk _ _ =>
    if_neg fun heq => h x hx (hk.trans (congrArg some heq.symm))

theorem stock_slotDelivered {i : Nat} (item : Bytes)
    (h : ∀ x, holding i l = some x → x.slotId ≠ some slotId) :
    stock s₀ i (l ++ [.slotDelivered slotId item]) = stock s₀ i l :=
  stock_of_hold (n := .slotDelivered slotId item) rfl fun x _ hx hk _ _ =>
    if_neg fun heq => h x hx (hk.trans (congrArg some heq.symm))

/-! ### What fills an inbox -/

/-- What is left behind the first item was there before an offer. -/
theorem filled_of_offered {x : Holding} (item : Bytes) (hx : holding id l = some x)
    (hleft : x.inbox ≠ [] ∨ (stock s₀ id (l ++ [.offered id item])).tail ≠ [])
    (hfilled : stock s₀ id (l ++ [.offered id item]) ≠ []) : stock s₀ id l ≠ [] := by
  have hoffered : holding id (l ++ [.offered id item]) =
      some { x with inbox := x.inbox ++ [item] } := by
    rw [holding_snoc, hx, Note.hold, if_pos rfl, Option.map_some]
  cases hslot : x.slotId with
  | none =>
    rw [stock_of_own hoffered hslot] at hleft
    rw [stock_of_own hx hslot]
    refine hleft.elim (fun hne => hne) fun htail hnil => htail ?_
    rw [hnil]
    rfl
  | some k =>
    rw [stock_of_slot hoffered hslot, slotQueue_snoc] at hfilled
    rw [stock_of_slot hx hslot]
    exact hfilled

/-- What is left behind the first item was in the queue before an arrival. -/
theorem filled_of_slotOffered {item : Bytes}
    (hleft : (stock s₀ id (l ++ [.slotOffered slotId item])).tail ≠ []) : stock s₀ id l ≠ [] := by
  cases hx : holding id l with
  | none =>
    have hgone : stock s₀ id (l ++ [.slotOffered slotId item]) = [] := by
      simp [stock, holding_snoc, Note.hold, hx]
    rw [hgone] at hleft
    exact absurd rfl hleft
  | some x =>
    have hsame : holding id (l ++ [.slotOffered slotId item]) = some x :=
      (holding_snoc _ _ _).trans hx
    cases hslot : x.slotId with
    | none =>
      rw [stock_of_own hsame hslot] at hleft
      rw [stock_of_own hx hslot]
      exact fun hnil => hleft (by rw [hnil]; rfl)
    | some k =>
      rw [stock_of_slot hsame hslot, slotQueue_snoc, Note.restock] at hleft
      rw [stock_of_slot hx hslot]
      intro hnil
      rw [hnil] at hleft
      split at hleft
      · exact hleft (DedicatedClientSlot.tail_enqueue_nil _ _)
      · exact hleft rfl

/-- An arrival fills an inbox only as it fills the queue. -/
theorem filled_of_queued {item : Bytes}
    (hqueue : slotQueue s₀ slotId (l ++ [.slotOffered slotId item]) ≠ [] →
      slotQueue s₀ slotId l ≠ [])
    (hfilled : stock s₀ id (l ++ [.slotOffered slotId item]) ≠ []) : stock s₀ id l ≠ [] := by
  by_cases hslot : ∀ x, holding id l = some x → x.slotId ≠ some slotId
  · rwa [stock_slotOffered item hslot] at hfilled
  · push Not at hslot
    obtain ⟨x, hx, hslot⟩ := hslot
    have hafter : stock s₀ id (l ++ [.slotOffered slotId item]) =
        slotQueue s₀ slotId (l ++ [.slotOffered slotId item]) :=
      stock_of_slot ((holding_snoc id l (.slotOffered slotId item)).trans hx) hslot
    rw [stock_of_slot hx hslot]
    exact hqueue (hafter ▸ hfilled)

/-- A slot has at most one session, the one that is attached to it. -/
theorem Stocked.attached_eq (h : Stocked s₀ s) {slot : DedicatedClientSlot}
    (hslot : s.dedicatedSlots.find? slotId = some slot) {x : Holding}
    (hx : holding id s.log = some x) (hk : x.slotId = some slotId) :
    slot.attachedSessionId = some id := by
  rw [h.sessions id] at hx
  obtain ⟨session, hlive, rfl⟩ := Option.map_eq_some_iff.mp hx
  obtain ⟨slot', hslot', hattached⟩ := h.attached id session slotId hlive hk
  obtain rfl := Option.some.inj (hslot.symm.trans hslot')
  exact hattached

/-! ### The invariant -/

/-- Every live session but one has been prompted to consume what it holds. -/
structure Watched (s₀ : Broker) (but : Option Nat) (s : Broker) : Prop extends Stocked s₀ s where
  unwritten : ∀ id x w, s.sessions.find? id = some x → x.availabilityHintWriteId = some w →
    Unwritten s₀.epoch id w s.log
  prompted : ∀ id, but ≠ some id → stock s₀ id s.log ≠ [] → Prompted s₀ id s.log

namespace Watched

variable {but : Option Nat}

theorem weaken (h : Watched s₀ none s) (but : Option Nat) : Watched s₀ but s :=
  { h with prompted := fun id _ => h.prompted id nofun }

theorem report (h : Watched s₀ but s) (report : Report) :
    Watched s₀ but { s with report := report } := { h with }

/-- The exception has been prompted too. -/
theorem strengthen (h : Watched s₀ (some id) s)
    (hid : stock s₀ id s.log ≠ [] → Prompted s₀ id s.log) : Watched s₀ none s :=
  { h with
    prompted := fun i _ hstock => by
      by_cases hi : i = id
      · exact hi ▸ hid (hi ▸ hstock)
      · exact h.prompted i (fun heq => hi (Option.some.inj heq).symm) hstock }

/-- An entry at which nothing moves. -/
theorem record (h : Watched s₀ but s) (hn : n.still = true)
    (hinput : ∀ id w now, n = .input (.written id s₀.epoch w now) → s.sessions.find? id = none) :
    Watched s₀ but (s.record n) where
  toStocked := h.toStocked.record hn
  unwritten := fun id x w hx hw => (h.unwritten id x w hx hw).snoc fun now heq =>
    Option.some_ne_none x (hx.symm.trans (hinput id w now heq))
  prompted := fun id hbut => Prompted.snoc (h.prompted id hbut) fun hstock => by
    rwa [stock_of_still hn] at hstock

theorem modifySession (h : Watched s₀ but s) (id : Nat) {f : Session → Session}
    (hslot : ∀ x, (f x).dedicatedSlotId = x.dedicatedSlotId) (hinbox : ∀ x, (f x).inbox = x.inbox)
    (hhint : ∀ x, (f x).availabilityHintWriteId = x.availabilityHintWriteId) :
    Watched s₀ but { s with sessions := s.sessions.modify id f } where
  toStocked := h.toStocked.modifySession id hslot hinbox
  unwritten := by
    intro i y w hy hw
    simp only [OrdMap.find?_modify] at hy
    split at hy
    · obtain ⟨x, hx, rfl⟩ := Option.map_eq_some_iff.mp hy
      exact h.unwritten i x w hx (hhint x ▸ hw)
    · exact h.unwritten i y w hy hw
  prompted := h.prompted

/-- A frame that is no inbox item. -/
theorem send (h : Watched s₀ but s) (id : Nat) (payload : Bytes) {cause : Cause}
    (hcause : ∀ item, cause ≠ .item item) : Watched s₀ but (s.send id payload cause) := by
  have hwritten := h.modifySession id (f := fun x =>
    { x with writes := x.writes.insert (s.nextWrite + 1) ⟨s.now + s.config.writeTimeout⟩ })
    (fun _ => rfl) (fun _ => rfl) fun _ => rfl
  have hstill : (Note.sent ⟨id, s.epoch, s.nextWrite + 1, payload⟩ cause).still = true := by
    cases cause with
    | item original => exact absurd rfl (hcause original)
    | _ => rfl
  exact { hwritten.record hstill nofun with }

/-- A session that leaves is to consume nothing. -/
theorem drop (h : Watched s₀ (some id) s) (session : Session) (reason : Text) :
    Watched s₀ none (s.drop id session reason) := by
  have hstocked := h.toStocked.drop id session reason
  have hgone : stock s₀ id (s.drop id session reason).log = [] :=
    hstocked.stock_of_gone (OrdMap.find?_erase_self _ _)
  refine ⟨hstocked, fun i x w hx hw => ?_, fun i _ hfilled => ?_⟩
  · rw [Broker.drop, OrdMap.find?_erase] at hx
    split at hx
    · cases hx
    · exact (h.unwritten i x w hx hw).snoc fun _ => by rintro ⟨⟩
  · have hi : i ≠ id := by
      rintro rfl
      exact hfilled hgone
    refine Prompted.snoc (h.prompted i fun heq => hi (Option.some.inj heq).symm) (fun hstock => ?_)
      hfilled
    rwa [stock_closed reason (Ne.symm hi)] at hstock

/-- A session that is not connected is no exception. -/
theorem of_gone (h : Watched s₀ (some id) s) (hgone : s.sessions.find? id = none) :
    Watched s₀ none s :=
  h.strengthen fun hfilled => absurd (h.stock_of_gone hgone) hfilled

/-- A hint that is outstanding prompts its session. -/
theorem of_outstanding (h : Watched s₀ (some id) s) {session : Session}
    (hlive : s.sessions.find? id = some session)
    (hout : session.availabilityHintWriteId = some w) : Watched s₀ none s :=
  h.strengthen fun _ => (h.unwritten id session w hlive hout).prompted

/-- A hint prompts its session. -/
theorem hint (h : Watched s₀ (some id) s) : Watched s₀ none
    ((s.send id [pushMsgWaiting] .hint).markHint id (s.nextWrite + 1)) := by
  have hsent := @send _ _ _ h id [pushMsgWaiting] .hint fun _ => nofun
  have hhinted : stock s₀ id (s.send id [pushMsgWaiting] .hint).log ≠ [] →
      Prompted s₀ id (s.send id [pushMsgWaiting] .hint).log := by
    simp only [Broker.send, h.epoch]
    exact prompted_hint .hint
  have hstocked := hsent.toStocked.modifySession id (f := fun x =>
    { x with availabilityHintWriteId := some (s.nextWrite + 1) }) (fun _ => rfl) fun _ => rfl
  refine ⟨hstocked, fun i y w hy hw => ?_, (hsent.strengthen hhinted).prompted⟩
  simp only [markHint, OrdMap.find?_modify] at hy
  split at hy
  · next hi =>
    subst hi
    obtain ⟨x, -, rfl⟩ := Option.map_eq_some_iff.mp hy
    obtain rfl := Option.some.inj hw
    refine ⟨s.log, .hint, [], ?_, fun _ => List.not_mem_nil⟩
    rw [← h.epoch]
    rfl
  · exact hsent.unwritten i y w hy hw

/-- An offer may fill the inbox of the session that it is made to. -/
theorem offer (h : Watched s₀ none s) (id : Nat) {item : Bytes}
    (hshape : validateResponseShape item = .ok ()) : Watched s₀ (some id) (s.offer id item) where
  toStocked := h.toStocked.offer id hshape
  unwritten := by
    intro i y w hy hw
    have hx : ∃ x, s.sessions.find? i = some x ∧ x.availabilityHintWriteId = some w := by
      simp only [Broker.offer, OrdMap.find?_modify] at hy
      split at hy
      · obtain ⟨x, hx, rfl⟩ := Option.map_eq_some_iff.mp hy
        exact ⟨x, hx, hw⟩
      · exact ⟨y, hy, hw⟩
    obtain ⟨x, hx, hw⟩ := hx
    exact (h.unwritten i x w hx hw).snoc fun _ => by rintro ⟨⟩
  prompted := by
    intro i hi
    refine Prompted.snoc (h.prompted i (by rintro ⟨⟩)) fun hstock => ?_
    have hother : ¬ id = i := fun heq => hi (congrArg some heq)
    rwa [stock_offered item hother] at hstock

/-- An arrival may fill the queue of the session that is attached to the slot. -/
theorem offerSlot (h : Watched s₀ none s) {slot : DedicatedClientSlot}
    (hslot : s.dedicatedSlots.find? slotId = some slot) {item : Bytes}
    (hshape : validateResponseShape item = .ok ()) :
    Watched s₀ slot.attachedSessionId (s.offerSlot slotId item) where
  toStocked := h.toStocked.offerSlot slotId hshape
  unwritten := fun i x w hx hw => (h.unwritten i x w hx hw).snoc fun _ => nofun
  prompted := by
    intro i hi
    refine Prompted.snoc (h.prompted i nofun) fun hstock => ?_
    rwa [stock_slotOffered item fun x hx hk => hi (h.attached_eq hslot hx hk)] at hstock

/-- A delivery from a session's own inbox. What is left of it has been announced. -/
theorem deliverOwn (h : Watched s₀ (some id) s) {session : Session}
    (hlive : s.sessions.find? id = some session) (hown : session.dedicatedSlotId = none)
    (hrest : (stock s₀ id s.log).tail ≠ [] → Prompted s₀ id s.log) (visible item : Bytes)
    (hstocked : Stocked s₀ ((s.send id visible (.item item)).shiftInbox id session item)) :
    Watched s₀ none ((s.send id visible (.item item)).shiftInbox id session item) := by
  have hholding := h.sessions id
  rw [hlive, Option.map_some, hown] at hholding
  unfold shiftInbox at hstocked ⊢
  simp only [hown] at hstocked ⊢
  refine ⟨hstocked, fun i y w hy hw => ?_, fun i _ => ?_⟩
  · simp only [Broker.send, OrdMap.modify_modify, OrdMap.find?_modify] at hy
    refine Unwritten.snoc ?_ fun _ => by rintro ⟨⟩
    split at hy
    · obtain ⟨x, hx, rfl⟩ := Option.map_eq_some_iff.mp hy
      exact h.unwritten i x w hx hw
    · exact h.unwritten i y w hy hw
  · by_cases hi : id = i
    · subst hi
      have hbefore : stock s₀ id s.log = session.inbox := stock_of_own hholding rfl
      have hafter : stock s₀ id (s.log ++ [.sent ⟨id, s.epoch, s.nextWrite + 1, visible⟩
          (.item item)]) = session.inbox.tail := by
        simp [stock, holding_snoc, Note.hold, hholding]
      intro hfilled
      refine Prompted.extend (hrest ?_) hfilled
      rw [hbefore, ← hafter]
      exact hfilled
    · refine Prompted.snoc (h.prompted i fun heq => hi (Option.some.inj heq)) fun hstock => ?_
      rwa [stock_item item hi] at hstock

/-- A delivery from a slot's queue. What is left of it has been announced. -/
theorem deliverSlot (h : Watched s₀ (some id) s) {session : Session}
    (hlive : s.sessions.find? id = some session) (hslotId : session.dedicatedSlotId = some slotId)
    (hrest : (stock s₀ id s.log).tail ≠ [] → Prompted s₀ id s.log) (visible item : Bytes)
    (hstocked : Stocked s₀ ((s.send id visible (.item item)).shiftInbox id session item)) :
    Watched s₀ none ((s.send id visible (.item item)).shiftInbox id session item) := by
  have hholding := h.sessions id
  rw [hlive, Option.map_some, hslotId] at hholding
  obtain ⟨slot, hslot, hattached⟩ := h.attached id session slotId hlive hslotId
  unfold shiftInbox at hstocked ⊢
  simp only [hslotId] at hstocked ⊢
  refine ⟨hstocked, fun i y w hy hw => ?_, fun i _ => ?_⟩
  · simp only [Broker.send, OrdMap.find?_modify] at hy
    refine Unwritten.snoc (Unwritten.snoc ?_ fun _ => by rintro ⟨⟩) fun _ => by rintro ⟨⟩
    split at hy
    · obtain ⟨x, hx, rfl⟩ := Option.map_eq_some_iff.mp hy
      exact h.unwritten i x w hx hw
    · exact h.unwritten i y w hy hw
  · have hkept : ∀ j, holding j (s.log ++ [.sent ⟨id, s.epoch, s.nextWrite + 1, visible⟩
        (.item item)]) = holding j s.log := by
      intro j
      rw [holding_snoc, Note.hold]
      split
      · next hj =>
        obtain rfl : id = j := hj
        simp [hholding]
      · rfl
    by_cases hi : id = i
    · subst hi
      have hbefore : stock s₀ id s.log = slotQueue s₀ slotId s.log := stock_of_slot hholding rfl
      have hsent := @stock_of_slot s₀ _ id slotId _ ((hkept id).trans hholding) rfl
      have hafter := @stock_of_slot s₀ _ id slotId _
        ((holding_snoc id _ (.slotDelivered slotId item)).trans ((hkept id).trans hholding)) rfl
      rw [slotQueue_snoc] at hsent
      rw [slotQueue_snoc, Note.restock, if_pos rfl, slotQueue_snoc] at hafter
      intro hfilled
      have hleft : (slotQueue s₀ slotId s.log).tail ≠ [] := fun hnil => hfilled (hafter.trans hnil)
      refine Prompted.extend (Prompted.extend (hrest (hbefore ▸ hleft)) ?_) hfilled
      exact fun hnil => hleft (congrArg List.tail (hsent.symm.trans hnil))
    · have hother : ∀ x, holding i (s.log ++ [.sent ⟨id, s.epoch, s.nextWrite + 1, visible⟩
          (.item item)]) = some x → x.slotId ≠ some slotId := by
        intro x hx hk
        rw [hkept] at hx
        exact hi (Option.some.inj (hattached.symm.trans (h.attached_eq hslot hx hk)))
      refine Prompted.snoc (Prompted.snoc (h.prompted i fun heq => hi (Option.some.inj heq))
        fun hstock => ?_) fun hstock => ?_
      · rwa [stock_item item hi] at hstock
      · exact fun hnil => hstock ((stock_slotDelivered item hother).trans hnil)

/-- A delivery. What is left of the inbox has been announced. -/
theorem deliver (h : Watched s₀ (some id) s) {session : Session}
    (hlive : s.sessions.find? id = some session)
    (hrest : (stock s₀ id s.log).tail ≠ [] → Prompted s₀ id s.log) (visible item : Bytes) :
    Watched s₀ none ((s.send id visible (.item item)).shiftInbox id session item) := by
  have hstocked := h.toStocked.deliver hlive visible item
  cases hslotId : session.dedicatedSlotId with
  | none => exact h.deliverOwn hlive hslotId hrest visible item hstocked
  | some slotId => exact h.deliverSlot hlive hslotId hrest visible item hstocked

end Watched

/-! ### Programs -/

/-- A program that loses no wakeup. -/
def Wakes (s₀ s t : Broker) : Prop := Watched s₀ none s → Watched s₀ none t

instance : IsPreorder Broker (Wakes s₀) where
  refl := fun _ h => h
  trans := fun _ _ _ hst htu h => htu (hst h)

theorem Wakes.elementary : Elementary (Wakes s₀) where
  report := fun _ _ h => { h with }
  clock := fun _ _ h => { h with }
  polled := fun _ _ h => { h with }
  radio := fun _ _ h => { h with }
  signing := fun _ _ h => { h with }
  drain := fun _ _ _ _ _ h => { h with }
  active := fun _ _ h => { h with }
  debt := fun _ _ h => { h with }
  upstream := fun _ _ _ h => { h with }
  failed := fun _ h => { h with }
  orphan := fun _ item hshape h => { h with orphan := fun _ hi => Option.some.inj hi ▸ hshape }
  session := fun _ id _ hf h => h.modifySession id (fun x => (hf x).dedicatedSlotId)
    (fun x => (hf x).inbox) fun x => (hf x).availabilityHintWriteId
  queue := fun _ id _ h => h.modifySession id (fun _ => rfl) (fun _ => rfl) fun _ => rfl
  note := fun _ n hn h => h.record (Note.still_of_plain hn) fun _ _ _ heq => by
    rw [heq] at hn
    cases hn
  ended := fun _ _ _ h => h.record rfl fun _ _ _ => nofun
  send := fun _ id payload _ hcause h => h.send id payload fun _ heq => by
    rw [heq] at hcause
    cases hcause
  drop := fun _ id session reason _ h => (h.weaken (some id)).drop session reason

namespace Watched

theorem remove (h : Watched s₀ (some id) s) (reason : Text) (category : Category) :
    Leaves (MeshCoreTCPMux.remove id reason category) (Watched s₀ none) s := by
  cases hlive : s.sessions.find? id with
  | none =>
    unfold Leaves MeshCoreTCPMux.remove removeWith
    rw [wp_bind, wp_get, hlive]
    exact h.of_gone hlive
  | some session =>
    have hdrop : ∀ report, Watched s₀ none { s.drop id session reason with report := report } :=
      fun report => { h.drop session reason with }
    exact wp_removeWith hlive (fun _ report => hdrop report) fun _ transaction _ _ _ report =>
      (Wakes.elementary.finishTransaction transaction).ends fun ht => ht (hdrop report)

theorem emitAvailabilityHint (h : Watched s₀ (some id) s) :
    Leaves (MeshCoreTCPMux.emitAvailabilityHint id) (Watched s₀ none) s := by
  have hcleared : ∀ {t : Broker}, Watched s₀ none t → Watched s₀ none { t with
      sessions := t.sessions.modify id fun x => { x with availabilityHintWriteId := none } } := by
    intro t ht
    refine ⟨ht.toStocked.modifySession id (fun _ => rfl) fun _ => rfl, fun i y w hy hw => ?_,
      ht.prompted⟩
    simp only [OrdMap.find?_modify] at hy
    split at hy
    · obtain ⟨x, -, rfl⟩ := Option.map_eq_some_iff.mp hy
      cases hw
    · exact ht.unwritten i y w hy hw
  unfold Leaves MeshCoreTCPMux.emitAvailabilityHint
  rw [wp_bind, wp_get]
  split
  · next hlive => exact h.of_gone hlive
  next session hlive =>
    rw [wp_ite]
    split
    · rw [wp_bind]
      refine wp_emit (fun hgone => hcleared (h.of_gone hgone)) (fun _ _ _ => ?_)
        fun _ _ _ report => ?_
      · exact wp_mono (h.remove _ _) (fun _ _ ht => hcleared ht) fun _ _ ht => ht
      · exact { h.hint with }
    · next hout =>
      rw [Option.isNone_iff_eq_none] at hout
      obtain ⟨w, hw⟩ := Option.ne_none_iff_exists'.mp hout
      exact h.of_outstanding hlive hw

theorem deliverItem (h : Watched s₀ (some id) s)
    (hrest : (stock s₀ id s.log).tail ≠ [] → Prompted s₀ id s.log) :
    Leaves (MeshCoreTCPMux.deliverItem id) (Watched s₀ none) s := by
  unfold Leaves MeshCoreTCPMux.deliverItem
  rw [wp_bind, wp_get]
  split
  · next hlive => exact h.of_gone hlive
  next session hlive =>
    have hinbox := h.inboxFor? hlive
    split
    · next hnone => cases hnone.symm.trans hinbox
    · next hnil =>
      refine ⟨trivial, h.strengthen fun hfilled => absurd ?_ hfilled⟩
      exact Option.some.inj (hinbox.symm.trans hnil)
    next item rest hitem =>
      obtain ⟨visible, hvisible⟩ := exists_downgradeInbox
        (h.valid hlive hitem item List.mem_cons_self) session.targetVersion
      rw [wp_bind]
      refine wp_ofExcept hvisible ?_
      rw [wp_bind]
      refine wp_emit (fun hgone => ?_) (fun _ _ _ => ?_) fun _ _ _ report => ?_
      · cases hgone.symm.trans hlive
      · refine wp_mono (h.remove _ _) (fun _ _ ht => ?_) fun _ _ ht => ht
        exact ht
      · have hdelivered := h.deliver hlive hrest visible item
        unfold shiftInbox at hdelivered
        simp only [Option.isSome_some, if_true]
        cases hslotId : session.dedicatedSlotId with
        | none =>
          simp only [hslotId] at hdelivered
          exact { hdelivered with }
        | some slotId =>
          simp only [hslotId] at hdelivered
          exact { hdelivered with }

theorem enqueueMultiClient (h : Watched s₀ none s) {payload : Bytes}
    (hshape : validateResponseShape payload = .ok ()) :
    Leaves (MeshCoreTCPMux.enqueueMultiClient payload id) (Watched s₀ none) s := by
  unfold Leaves MeshCoreTCPMux.enqueueMultiClient
  rw [wp_bind, wp_get]
  split
  · exact h
  next session hlive =>
    rw [wp_ite]
    split
    · exact (h.weaken (some id)).remove _ _
    simp only [wp_bind, wp_modifySession, wp_perform]
    have hoffered := h.offer id hshape
    have hholding := h.sessions id
    rw [hlive, Option.map_some] at hholding
    -- what was in the inbox before has been announced
    have hkept : session.inbox ≠ [] ∨ (stock s₀ id (s.offer id payload).log).tail ≠ [] →
        stock s₀ id (s.offer id payload).log ≠ [] → Prompted s₀ id (s.offer id payload).log :=
      fun hleft hfilled => (h.prompted id (by rintro ⟨⟩)
        (filled_of_offered payload hholding hleft hfilled)).extend hfilled
    rw [wp_ite]
    split
    · have hended := hoffered.modifySession id (f := fun x => { x with sync := none })
        (fun _ => rfl) (fun _ => rfl) fun _ => rfl
      simp only [wp_bind, wp_modifySession]
      refine Watched.deliverItem (?_ : Watched s₀ (some id) _) fun hleft => ?_
      · exact { hended with }
      · exact hkept (.inr hleft) fun hnil => hleft (congrArg List.tail hnil)
    rw [wp_ite]
    split
    · exact Watched.emitAvailabilityHint { hoffered with }
    · next hfilled =>
      have hne : session.inbox ≠ [] := fun hnil => hfilled (by rw [hnil]; rfl)
      exact { hoffered.strengthen (hkept (.inl hne)) with }

/-- The attached session is told of an arrival, unless it has been told of the queue. -/
theorem notifySlot {attached : Option Nat} (h : Watched s₀ attached s) {wasEmpty : Bool}
    (hrest : ∀ id, (stock s₀ id s.log).tail ≠ [] → Prompted s₀ id s.log)
    (hkept : wasEmpty = false → ∀ id, stock s₀ id s.log ≠ [] → Prompted s₀ id s.log) :
    Leaves (MeshCoreTCPMux.notifySlot attached wasEmpty) (Watched s₀ none) s := by
  unfold Leaves MeshCoreTCPMux.notifySlot
  cases attached with
  | none => exact h
  | some id =>
    dsimp only
    rw [wp_bind, wp_get]
    split
    · next hlive => exact h.of_gone hlive
    next session hlive =>
      rw [wp_ite]
      split
      · have hended := h.modifySession id (f := fun x => { x with sync := none })
          (fun _ => rfl) (fun _ => rfl) fun _ => rfl
        simp only [wp_bind, wp_modifySession]
        exact hended.deliverItem (hrest id)
      · rw [wp_ite]
        cases wasEmpty with
        | true => exact h.emitAvailabilityHint
        | false => exact h.strengthen (hkept rfl id)

theorem wp_offerSlot (h : Watched s₀ none s) {payload : Bytes} (slotId : Nat)
    (hshape : validateResponseShape payload = .ok ()) :
    Leaves (MeshCoreTCPMux.offerSlot payload slotId) (Watched s₀ none) s := by
  unfold Leaves MeshCoreTCPMux.offerSlot
  rw [wp_bind, wp_get]
  cases hslot : s.dedicatedSlots.find? slotId with
  | none => exact h
  | some slot =>
    have hoffered := h.offerSlot hslot hshape
    have hmodify : (s.dedicatedSlots.modify slotId fun _ =>
          (slot.enqueueOffline payload s.config.offlineQueueSize).2) =
        s.dedicatedSlots.modify slotId fun slot =>
          (slot.enqueueOffline payload s.config.offlineQueueSize).2 :=
      OrdMap.modify_congr hslot rfl
    have hqueue : slotQueue s₀ slotId (s.log ++ [.slotOffered slotId payload]) =
        DedicatedClientSlot.enqueue slot.offlineQueue payload s.config.offlineQueueSize := by
      rw [slotQueue_snoc, Note.restock, if_pos rfl, h.slots slotId slot hslot, h.config]
    -- what was in the queue before has been announced
    have hkept : ∀ id, (stock s₀ id (s.offerSlot slotId payload).log ≠ [] →
        stock s₀ id s.log ≠ []) → stock s₀ id (s.offerSlot slotId payload).log ≠ [] →
        Prompted s₀ id (s.offerSlot slotId payload).log :=
      fun id hbefore hfilled => (h.prompted id (by rintro ⟨⟩) (hbefore hfilled)).extend hfilled
    have hnotify : ∀ report, Leaves
        (MeshCoreTCPMux.notifySlot slot.attachedSessionId slot.offlineQueue.isEmpty)
        (Watched s₀ none) { s.offerSlot slotId payload with report := report } := by
      intro report
      refine (hoffered.report report).notifySlot (fun id hleft => ?_) fun hfull id => ?_
      · exact hkept id (fun _ => filled_of_slotOffered hleft) fun hnil =>
          hleft (congrArg List.tail hnil)
      · refine hkept id (filled_of_queued fun _ => ?_)
        rw [← h.slots slotId slot hslot]
        exact fun hnil => Bool.noConfusion (hfull.symm.trans (congrArg List.isEmpty hnil))
    simp only [wp_bind, wp_modifySlot, wp_perform, hmodify]
    rw [DedicatedClientSlot.enqueueOffline_attached]
    cases hresult : (slot.enqueueOffline payload s.config.offlineQueueSize).1 with
    | newMessageDiscarded =>
      refine wp_warnDedicatedOverflow _ _ fun report => ?_
      have hdiscarded := DedicatedClientSlot.discarded_queue hresult
      rw [DedicatedClientSlot.enqueueOffline_queue, ← hqueue] at hdiscarded
      cases hattached : slot.attachedSessionId with
      | none => exact { hattached ▸ hoffered with }
      | some id =>
        have hbut : Watched s₀ (some id) (s.offerSlot slotId payload) := hattached ▸ hoffered
        refine ((hbut.report report).strengthen (hkept id ?_))
        refine filled_of_queued fun hfilled => ?_
        rwa [hdiscarded, h.slots slotId slot hslot] at hfilled
    | channelEvicted =>
      simp only [wp_bind, if_true]
      refine wp_warnDedicatedOverflow _ _ fun report => ?_
      rw [wp_ite]
      split
      · simp only [wp_bind]
        exact wp_diagnostic _ _ fun report => hnotify report
      · exact hnotify report
    | added =>
      simp only [reduceCtorEq, if_false]
      rw [wp_ite]
      split
      · simp only [wp_bind]
        exact wp_diagnostic _ _ fun report => hnotify report
      · exact hnotify _

end Watched

theorem Wakes.stable : Stable (Wakes s₀) where
  toElementary := Wakes.elementary
  emitAvailabilityHint := fun id => .of_leaves (Filling.any.emitAvailabilityHint id) fun _ h =>
    (h.weaken (some id)).emitAvailabilityHint
  enqueueMultiClient := fun payload id hshape =>
    .of_leaves (Filling.any.enqueueMultiClient payload id) fun _ h => h.enqueueMultiClient hshape
  offerSlot := fun payload slotId hshape =>
    .of_leaves (Filling.any.offerSlot payload slotId) fun _ h => h.wp_offerSlot slotId hshape

theorem Wakes.shiftCommand (id : Nat) (command : Command) :
    Stays (Wakes s₀) (shiftCommand id command) := by
  refine .bind (.modify fun s h => ?_) fun _ => .modify fun s h => ?_
  · exact h.modifySession id (fun _ => rfl) (fun _ => rfl) fun _ => rfl
  · exact h.record rfl fun _ _ _ => nofun

theorem Wakes.turns : StableTurns (Wakes s₀) where
  toStable := Wakes.stable
  localCommand := by
    intro id command now
    refine Wakes.stable.localCommand (Wakes.shiftCommand id command) (fun now => ?_) now
    refine Wakes.stable.localSync (fun sync => .modify fun s h => ?_)
      (fun sync => .modify fun s h => ?_) ?_ now
    · exact h.modifySession id (fun _ => rfl) (fun _ => rfl) fun _ => rfl
    · exact h.record rfl fun _ _ _ => nofun
    · refine .of_leaves (Filling.any.deliverItem id) fun _ h => ?_
      exact (h.weaken (some id)).deliverItem fun hleft =>
        h.prompted id nofun fun hnil => hleft (congrArg List.tail hnil)
  rotate := Wakes.stable.rotate (fun _ _ h => { h with }) Wakes.shiftCommand
    fun _ _ => .modify fun _ h => h.record rfl fun _ _ _ => nofun

/-! ### Calls -/

/-- A completion releases the hint that it carried. -/
theorem Watched.completed (h : Watched s₀ none s) (id epoch w : Nat) (now : Time) :
    Watched s₀ none { s.record (.input (.written id epoch w now)) with
      sessions := s.sessions.modify id fun x => { x with
        writes := x.writes.erase w
        availabilityHintWriteId :=
          if x.availabilityHintWriteId = some w then none else x.availabilityHintWriteId } } := by
  have hstill : (Note.input (.written id epoch w now)).still = true := rfl
  refine ⟨(h.toStocked.record hstill).modifySession id (fun _ => rfl) fun _ => rfl,
    fun i y w' hy hw => ?_, fun i hi => Prompted.snoc (h.prompted i hi) fun hstock => ?_⟩
  · simp only [OrdMap.find?_modify] at hy
    split at hy
    · obtain ⟨x, hx, rfl⟩ := Option.map_eq_some_iff.mp hy
      simp only at hw
      split at hw
      · cases hw
      next hother =>
        refine (h.unwritten i x w' hx hw).snoc fun _ heq => hother ?_
        rw [hw]
        cases heq
        rfl
    · next hi =>
      refine (h.unwritten i y w' hy hw).snoc fun _ heq => hi ?_
      cases heq
      rfl
  · rwa [stock_of_still hstill] at hstock

/-- A completion, after its entry. -/
theorem Watched.written (h : Watched s₀ none s) (hwf : s.WF) (id epoch w : Nat) (now : Time) :
    Leaves (MeshCoreTCPMux.written id epoch w now) (Watched s₀ none)
      (s.record (.input (.written id epoch w now))) := by
  have hentry : (epoch = s.epoch → s.sessions.find? id = none) →
      Watched s₀ none (s.record (.input (.written id epoch w now))) := by
    refine fun hgone => h.record rfl fun i w' now' heq => ?_
    cases heq
    exact hgone h.epoch.symm
  have hschedule : Stays (Wakes s₀) (MeshCoreTCPMux.schedule now) := Wakes.turns.schedule now
  unfold Leaves MeshCoreTCPMux.written
  rw [wp_bind, wp_get, wp_ite]
  split
  · rw [wp_ite]
    split
    · next hzero =>
      have hgone : s.sessions.find? id = none := by
        rw [OrdMap.find?_eq_none, hzero]
        exact hwf.positive
      refine Within.ends (.bind (.modify fun s => Wakes.elementary.upstream s s.nextWrite _)
        fun _ => .ite (fun _ => (Wakes.elementary.modifyActive _).bind fun _ => hschedule)
        fun _ => hschedule) fun hst => hst (hentry fun _ => hgone)
    rw [wp_ite]
    split
    · simp only [wp_bind, wp_modifySession]
      have hcompleted := h.completed id epoch w now
      split
      · exact hschedule.ends fun hst => hst hcompleted
      · next transaction _ =>
        have hfinish : Stays (Wakes s₀) (finishTransaction transaction) :=
          Wakes.elementary.finishTransaction _
        refine Within.ends (.ite (fun _ => hfinish.bind fun _ => hschedule) fun _ => hschedule) ?_
        exact fun hst => hst hcompleted
    · next hother =>
      refine hschedule.ends fun hst => hst (hentry fun _ => ?_)
      rwa [OrdMap.contains_iff, ← OrdMap.find?_eq_none] at hother
  · next hother =>
    refine hentry fun hepoch => ?_
    have hfailed : s.failed = true := by simpa [hepoch, Broker.record] using hother
    rw [OrdMap.find?_eq_none, (hwf.ended hfailed).1]
    exact List.not_mem_nil

/-! ### Admission -/

/-- A client that is turned away. -/
theorem Watched.refuse (h : Watched s₀ none s) (hgone : s.sessions.find? id = none) (reason : Text) :
    Watched s₀ none (s.record (.closed id reason)) := by
  have hstocked := h.toStocked.refuse hgone reason
  refine ⟨hstocked, fun i x w hx hw => (h.unwritten i x w hx hw).snoc fun _ => nofun,
    fun i hi hfilled => ?_⟩
  have hother : id ≠ i := by
    rintro rfl
    exact hfilled (hstocked.stock_of_gone hgone)
  refine Prompted.snoc (h.prompted i hi) (fun hstock => ?_) hfilled
  rwa [stock_closed reason hother] at hstock

/-- A session that comes is still to be told of what it inherits. -/
theorem Watched.opened (h : Watched s₀ none s) (id : Nat) {slotId : Option Nat}
    (hfree : ∀ k, slotId = some k →
      ∃ slot, s.dedicatedSlots.find? k = some slot ∧ slot.attachedSessionId = none) :
    Watched s₀ (some id) (s.opened id slotId) := by
  refine ⟨h.toStocked.opened id hfree, fun i x w hx hw => ?_, fun i hi => ?_⟩
  · simp only [Broker.opened, OrdMap.find?_insert] at hx
    split at hx
    · obtain rfl := Option.some.inj hx
      cases hw
    · exact (h.unwritten i x w hx hw).snoc fun _ => by rintro ⟨⟩
  · refine Prompted.snoc (h.prompted i (by rintro ⟨⟩)) fun hstock => ?_
    have hother : id ≠ i := fun heq => hi (congrArg some heq)
    rwa [stock_admitted slotId hother] at hstock

theorem Watched.greet (h : Watched s₀ none s) (id : Nat) {slotId : Option Nat}
    (hfree : ∀ k, slotId = some k →
      ∃ slot, s.dedicatedSlots.find? k = some slot ∧ slot.attachedSessionId = none)
    (report : Report) : Leaves (MeshCoreTCPMux.greet id slotId) (Watched s₀ none)
      { s.opened id slotId with report := report } := by
  have hopened := h.opened id hfree
  unfold Leaves MeshCoreTCPMux.greet
  cases slotId with
  | some k =>
    simp only [wp_bind, wp_get]
    exact wp_diagnostic _ _ fun report => (hopened.report report).emitAvailabilityHint
  | none =>
    -- a multi-client session has nothing yet
    have hempty : stock s₀ id (s.opened id none).log = [] :=
      stock_of_own (x := ⟨none, []⟩)
        ((holding_snoc id s.log (.admitted id none)).trans (if_pos rfl)) rfl
    have hwatched : Watched s₀ none (s.opened id none) :=
      hopened.strengthen fun hfilled => absurd hempty hfilled
    simp only [wp_bind, wp_get]
    split
    · exact (hopened.report report).emitAvailabilityHint
    · next item hitem =>
      have hshape : validateResponseShape item = .ok () := h.orphan item hitem
      simp only [wp_bind, wp_modify]
      refine wp_mono (Watched.enqueueMultiClient ?_ hshape) (fun _ t ht => ?_) fun _ _ ht => ht
      · exact { hwatched with orphan := by rintro item ⟨⟩ }
      · exact (ht.weaken (some id)).emitAvailabilityHint

/-- A slot is free for the session that comes. -/
def Opening (s₀ : Broker) (id : Nat) (slotId : Option Nat) (t : Broker) : Prop :=
  ∃ u, Watched s₀ none u ∧ (∀ k, slotId = some k →
    ∃ slot, u.dedicatedSlots.find? k = some slot ∧ slot.attachedSessionId = none) ∧
    ∃ report, t = { u with dedicatedSlots := u.attachedSlots id slotId, report := report }

theorem Watched.attachSlot (h : Watched s₀ none s) (hwf : s.WF) (hrunning : s.failed = false)
    (hquiet : s.underMaintenance = false) (id slotId : Nat) :
    wp (MeshCoreTCPMux.attachSlot id slotId) (fun _ t => Opening s₀ id (some slotId) t)
      (fun e t => e.Ordinary ∧ Watched s₀ none t) s := by
  unfold MeshCoreTCPMux.attachSlot
  simp only [wp_bind, wp_get]
  split
  · exact ⟨trivial, h⟩
  next slot hslot =>
  split
  · next hnone =>
    simp only [wp_modifySlot]
    refine ⟨s, h, fun k hk => ?_, s.report, rfl⟩
    obtain rfl := Option.some.inj hk
    exact ⟨slot, hslot, hnone⟩
  · next old hold =>
    obtain ⟨session, hlive, hdedicated⟩ := (hwf.slot slotId slot hslot).attached old hold
    have hnot : s.delivering old = false := by
      rw [← Bool.not_eq_true, delivering_iff]
      rintro ⟨transaction, hactive, hmaintenance, -⟩
      simp [underMaintenance, hactive, hmaintenance] at hquiet
    simp only [wp_bind]
    refine wp_of_returns (remove_spec _ _ (hwf.up hrunning) hlive) fun _ t ht => ?_
    obtain ⟨report, rfl⟩ := ht.eq_drop hnot
    simp only [wp_modifySlot]
    refine ⟨s.drop old session _, (h.weaken (some old)).drop session _, fun k hk => ?_, report, rfl⟩
    obtain rfl := Option.some.inj hk
    refine ⟨{ slot with attachedSessionId := none }, ?_, rfl⟩
    simp [Broker.drop, detachedSlots, hdedicated, hslot, hold]

theorem Watched.admitSession (h : Watched s₀ none s) (hwf : s.WF)
    (hgone : s.sessions.find? id = none) (now : Time) (hnow : s.now ≤ now) (slotId : Option Nat) :
    Leaves (MeshCoreTCPMux.admitSession id now slotId) (Watched s₀ none) s := by
  unfold Leaves MeshCoreTCPMux.admitSession
  rw [wp_bind, wp_modify]
  have hclock : Watched s₀ none { s with now := now } := { h with }
  have hwf := hwf.clock hnow
  have hgone : ({ s with now := now } : Broker).sessions.find? id = none := hgone
  generalize ({ s with now := now } : Broker) = s at hclock hwf hgone ⊢
  simp only [wp_bind, wp_get]
  rw [wp_ite]
  split
  · simp only [wp_perform]
    exact hclock.refuse hgone _
  next hopen =>
  obtain ⟨hrunning, hquiet⟩ := not_or.mp hopen
  rw [Bool.not_eq_true] at hrunning hquiet
  have hrest : ∀ t, Opening s₀ id slotId t →
      wp (do
        modify fun s => { s with
          sessions := s.sessions.insert id { dedicatedSlotId := slotId }
          order := s.order ++ [id] }
        count "connections"
        perform (.admitted id slotId)
        diagnostic ["event=session.admitted epoch=", (← get).epoch, " session=", id,
          " dedicated_slot_id=", orNone slotId, " sessions=", (← get).sessions.size]
        MeshCoreTCPMux.greet id slotId
        MeshCoreTCPMux.schedule now) (fun _ t => Watched s₀ none t)
        (fun e t => e.Ordinary ∧ Watched s₀ none t) t := by
    rintro _ ⟨u, hu, hfree, report, rfl⟩
    simp only [wp_bind, wp_modify]
    refine wp_count _ _ fun report => ?_
    simp only [wp_perform, wp_get]
    refine wp_diagnostic _ _ fun report => ?_
    refine wp_mono (hu.greet id hfree report) (fun _ t ht => ?_) fun _ _ ht => ht
    exact (Wakes.turns.schedule now).ends fun htu => htu ht
  cases slotId with
  | none => exact hrest _ ⟨s, hclock, by rintro k ⟨⟩, s.report, rfl⟩
  | some k =>
    exact (wp_bind _ _).mpr (wp_mono (hclock.attachSlot hwf hrunning hquiet id k)
      (fun _ t ht => hrest t ht) fun _ _ ht => ht)

/-- **No call loses a wakeup.** -/
theorem Watched.handle (h : Watched s₀ none s) (hwf : s.WF) (event : Event)
    (hevent : s.Promised event) : Leaves (MeshCoreTCPMux.handle event) (Watched s₀ none) s := by
  have hended : ∀ (s : Broker) reason, Wakes s₀ s (s.record (.ended s.epoch reason)) :=
    fun _ _ h => h.record rfl fun _ _ _ => nofun
  have hnote : (∀ id w now, event ≠ .written id s₀.epoch w now) →
      Watched s₀ none (s.record (.input event)) := fun hn =>
    h.record rfl fun id w now heq => (hn id w now (Note.input.inj heq)).elim
  have hcall : ∀ {m : BrokerM Unit}, Stays (Wakes s₀) m →
      (∀ id w now, event ≠ .written id s₀.epoch w now) →
      Leaves m (Watched s₀ none) (s.record (.input event)) :=
    fun hm hn => hm.ends fun ht => ht (hnote hn)
  unfold Leaves MeshCoreTCPMux.handle
  rw [wp_bind, wp_perform]
  cases event with
  | admission id slotId now =>
    obtain ⟨hnow, -, hfresh⟩ := hevent
    have hgone : s.sessions.find? id = none :=
      OrdMap.find?_eq_none.mpr fun hmem => (hwf.known id hmem).elim hfresh.1
    have hentered : (s.record (.input (.admission id slotId now))).WF := { hwf.note _ with }
    exact (hnote fun _ _ _ => nofun).admitSession hentered hgone now hnow slotId
  | clientFrame id payload now => exact hcall (Wakes.turns.clientFrame id payload now) fun _ _ _ => nofun
  | clientClosed id now reason category =>
    exact hcall (Wakes.turns.clientClosed id now reason category) fun _ _ _ => nofun
  | written id epoch w now => exact h.written hwf id epoch w now
  | writeFailed id epoch reason now =>
    exact hcall (Wakes.turns.writeFailed id epoch reason now) fun _ _ _ => nofun
  | upstreamFrame payload now =>
    exact hcall (Wakes.turns.upstreamFrame payload now
      (Wakes.elementary.checkActiveDeadline hended now)) fun _ _ _ => nofun
  | tick now =>
    exact hcall (Wakes.turns.tick now (Wakes.elementary.checkActiveDeadline hended now))
      fun _ _ _ => nofun
  | failEpoch reason =>
    exact hcall (Wakes.elementary.failEpoch_of fun s => hended s reason) fun _ _ _ => nofun
  | drainUncertainFrame payload now =>
    exact hcall ((Wakes.turns.drainUncertainFrame payload now).bind fun _ => .pure _)
      fun _ _ _ => nofun

/-! ### Runs -/

theorem Starts.watched (h : s₀.Starts) : Watched s₀ none s₀ := by
  have hlog := h.log
  have hconfigured := h.slots
  have horphan := h.orphan
  obtain ⟨epoch, selfKey, config, now, orphan, slots, radio, rfl⟩ := h.fresh
  have hnobody : ∀ id, (Broker.new epoch selfKey config now orphan slots radio).sessions.find? id
      = none := fun _ => rfl
  refine ⟨⟨rfl, rfl, fun id => ?_, fun k slot hslot => ?_, fun id x k hx => ?_, fun id x hx => ?_,
    fun k slot hslot item hitem => ((hconfigured k slot hslot).2.1 item hitem).shape,
    fun item hitem => (horphan item hitem).shape⟩, fun id x w hx => ?_, fun id _ hfilled => ?_⟩
  · rw [hlog, hnobody]
    rfl
  · rw [hlog]
    simp [slotQueue, hslot]
  · cases (hnobody id).symm.trans hx
  · cases (hnobody id).symm.trans hx
  · cases (hnobody id).symm.trans hx
  · rw [hlog] at hfilled
    exact absurd rfl hfilled

theorem Run.watched (h : Run s₀ s) (hstart : s₀.Starts) : Watched s₀ none s := by
  induction h with
  | start => exact hstart.watched
  | taken _ ih => exact { ih with }
  | @call s event h hevent ih =>
    have hhandle := ih.handle (hstart.wf.acts (h.acts hstart.wf)) event hevent
    unfold Leaves wp at hhandle
    unfold Broker.after
    split at hhandle
    · next heq => rw [heq]; exact hhandle
    · next heq => rw [heq]; exact hhandle.2

end Broker

end MeshCoreTCPMux

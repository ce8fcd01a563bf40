import MeshCoreTCPMux.Broker.Wakeups
import MeshCoreTCPMux.Broker.Membership
import MeshCoreTCPMux.Broker.Keeps

/-!
# Deliveries

An inbox item reaches a client only from the head of the queue that the client consumes, in the
form that the client's protocol version knows, and in the same step it leaves that queue
(`HeadFirst`, `Paired`). The history determines every queue (`Stock`), so that this is a property of
histories alone: an item that is sent stood at the head of the stock that the entries before it
show.

The invariant that carries it is `Stocked`, which `Wakeups` proves at the end of every call. Here it
is needed between the parts of one call as well, where a delivery happens (`Stepwise.stocked`). What
a multi-client session has been offered is then what it has been sent, followed by what its inbox
still holds (`offers_eq`), by induction on the history: an offer extends the inbox at its end, and a
delivery shortens it at its head.
-/

namespace MeshCoreTCPMux

open Protocol Relation History

/-- An entry at which an inbox item is delivered. -/
def Note.delivers : Note → Bool
  | sent _ (.item _) | slotDelivered _ _ => true
  | _ => false

namespace Broker

variable {s s₀ t : Broker} {l m : List Note} {n : Note} {id : Nat}

/-! ### The stock between the parts of a call -/

namespace Stocked

theorem note (h : Stocked s₀ s) (hn : n.still = true) : Stocked s₀ (s.note n) :=
  { h.record hn with }

theorem send (h : Stocked s₀ s) (id : Nat) (payload : Bytes) {c : Cause}
    (hcause : ∀ item, c ≠ .item item) : Stocked s₀ (s.send id payload c) := by
  have hwritten := h.modifySession id
    (f := fun x =>
      { x with writes := x.writes.insert (s.nextWrite + 1) ⟨s.now + s.config.writeTimeout⟩ })
    (fun _ => rfl) fun _ => rfl
  have hstill : (Note.sent ⟨id, s.epoch, s.nextWrite + 1, payload⟩ c).still = true := by
    cases c with
    | item item => exact absurd rfl (hcause item)
    | _ => rfl
  exact { hwritten.note hstill with }

theorem take (h : Stocked s₀ s) (id : Nat) (command : Command) :
    Stocked s₀ (s.take id command) := by
  have hshifted := h.modifySession id (f := fun x => { x with commands := x.commands.tail })
    (fun _ => rfl) fun _ => rfl
  exact { hshifted.note (n := .taken id command) rfl with }

theorem endSync (h : Stocked s₀ s) (id : Nat) : Stocked s₀ (s.endSync id) :=
  h.modifySession id (fun _ => rfl) fun _ => rfl

theorem enter (h : Stocked s₀ s) (id : Nat) {slotId : Option Nat}
    (hfree : ∀ k, slotId = some k →
      ∃ slot, s.dedicatedSlots.find? k = some slot ∧ slot.attachedSessionId = none) :
    Stocked s₀ (s.enter id slotId) := by
  have hopened := h.opened id hfree
  by_cases hkept : slotId.isSome = true ∨ s.orphan = none
  · rw [← opened_eq_enter hkept]
    exact hopened
  · rw [not_or] at hkept
    obtain ⟨item, hitem⟩ := Option.ne_none_iff_exists'.mp hkept.2
    obtain rfl : slotId = none := by simpa using hkept.1
    -- the session inherits the orphan
    rw [← offer_opened hitem]
    exact { hopened.offer id (h.orphan item hitem) with orphan := by simp }

theorem forwarded {transaction : Transaction} {payload : Bytes} {w : Option Nat}
    (h : Stocked s₀ s) (ht : s.Forwarded transaction payload w t) : Stocked s₀ t := by
  cases ht with
  | gone => exact h
  | live =>
    have hretargeted : Stocked s₀ (s.retarget transaction payload) := by
      unfold Broker.retarget
      split
      · exact h.modifySession _ (fun _ => rfl) fun _ => rfl
      · exact h
    exact hretargeted.send _ _ (by simp)

theorem output (h : Stocked s₀ s) (hst : Output s t) : Stocked s₀ t := by
  cases hst with
  | drop => exact h.drop _ _ _
  | hint => exact (h.send _ _ (by simp)).modifySession _ (fun _ => rfl) fun _ => rfl

theorem receives (h : Stocked s₀ s) {session : Session} (hlive : s.sessions.find? id = some session)
    {session' : Session} (hslot : session'.dedicatedSlotId = session.dedicatedSlotId)
    (hst : s.Receives id session' t) : Stocked s₀ t := by
  cases hst with
  | held => exact h
  | @served sync item rest visible =>
    have hdelivered := (h.endSync id).deliver (find?_endSync hlive) visible item
    unfold shiftInbox at hdelivered ⊢
    rw [hslot]
    exact hdelivered
  | slow => exact h.drop _ _ _

theorem upstream (h : Stocked s₀ s) (hst : Upstream s t) : Stocked s₀ t := by
  cases hst with
  | popDispatched =>
    exact { (h.note (n := .dispatched _ _) rfl).note (n := .upstream _ _) rfl with }
  | dispatched _ hhead =>
    exact { ((h.take _ _).note (n := .dispatched _ _) rfl).note (n := .upstream _ _) rfl with }
  | setupAccepted =>
    exact { (h.note (n := .replied _ _) rfl).note (n := .upstream _ _) rfl with }
  | restored => exact { h.note (n := .replied _ _) rfl with }
  | setupRejected _ _ _ _ _ _ ht | progressed _ ht | heldReply _ ht | finalReply _ ht =>
    exact { (h.forwarded ht).note (n := .replied _ _) rfl with }
  | scopedReply _ ht =>
    exact { ((h.forwarded ht).note (n := .replied _ _) rfl).note (n := .upstream _ _) rfl with }

end Stocked

/-- **The inboxes hold what the history shows**, also between the parts of a call. -/
theorem Stepwise.stocked : Stepwise (Reached s₀) (Stocked s₀) where
  report := fun _ hs => { hs with }
  input := fun _ _ hs => hs.note rfl
  clock := fun _ _ hs => { hs with }
  idle := by
    intro s t _ h hs
    cases h with
    | refuse hgone => exact { hs.refuse hgone _ with }
    | writtenDown => exact hs.modifySession _ (fun _ => rfl) fun _ => rfl
    | _ => exact { hs with }
  output := fun _ h hs => hs.output h
  client := by
    intro s t _ h hs
    cases h with
    | entered _ _ _ _ hslot => exact hs.enter _ hslot
    | @queued id _ payload =>
      have hqueued := hs.modifySession id
        (f := fun x => { x with commands := x.commands ++ [⟨payload, s.now⟩] })
        (fun _ => rfl) fun _ => rfl
      exact hqueued.note (n := .queued id ⟨payload, s.now⟩) rfl
    | answered => exact (hs.take _ _).send _ _ (by simp)
    | @selected id _ command =>
      have hscoped := (hs.take id command).modifySession id
        (f := fun x => { x with scope := command.payload }) (fun _ => rfl) fun _ => rfl
      exact (hscoped.send id [respOk] (c := .answer) (by simp)).note rfl
    | choked => exact (hs.take _ _).drop _ _ _
    | @waits id _ command deadline =>
      have hwaiting := (hs.take id command).modifySession id
        (f := fun x => { x with sync := some ⟨s.popSequence + 1, deadline⟩ })
        (fun _ => rfl) fun _ => rfl
      exact { hwaiting.note (n := .synced id ⟨s.popSequence + 1, deadline⟩) rfl with }
    | delivered h => exact (hs.take _ _).deliver h.take_live _ _
    | syncExpired => exact (hs.endSync _).send _ _ (by simp)
    | broadcast => exact hs.send _ _ (by simp)
  radio := by
    intro s t _ h hs
    cases h with
    | leaseExpired | signingExpired | quarantineOver | notified => exact { hs with }
    | confirmed => exact { hs.note (n := .confirmed _) rfl with }
    | unmatched => exact { hs.note (n := .matched _ _) rfl with }
    | @matched payload _ remote owner =>
      have hfreed : Stocked s₀ { s with radio := { s.radio with remote := remote } } := { hs with }
      exact (hfreed.send owner payload (c := .leaseResult) (by simp)).note rfl
  part := by
    intro s t _ h hs
    cases h with
    | dropped => exact hs.drop _ _ _
    | released => exact { hs with }
    | writtenDown => exact hs.modifySession _ (fun _ => rfl) fun _ => rfl
    | upstream h => exact hs.upstream h
    | failed => exact { hs.note (n := .ended _ _) rfl with }
  took := fun _ _ hs => { hs.note (n := .replied _ _) rfl with }
  pop := by
    intro s t transaction payload _ _ hanswer h hs
    have hshape := fun hitem => (pop_payload hanswer.valid hitem).shape
    cases h with
    | output h => exact hs.output h
    | answered => exact (hs.endSync _).send _ _ (by simp)
    | duplicate => exact { hs.note (n := .duplicate payload) rfl with }
    | popped => exact { hs.note (n := .popped payload) rfl with }
    | slotOffered _ _ hitem => exact hs.offerSlot _ (hshape hitem)
    | @attachedOffered _ slotId _ _ _ _ _ hlive hitem ht =>
      have hoffered := hs.offerSlot slotId (hshape hitem)
      exact hoffered.receives hlive rfl ht
    | @offered _ id session hlive _ _ hitem ht =>
      have hoffered := hs.offer id (hshape hitem)
      exact hoffered.receives (find?_offer payload hlive) rfl ht
    | flooded => exact hs.drop _ _ _
    | orphaned _ _ hitem =>
      refine { hs.note (n := .orphaned payload) rfl with orphan := fun item heq => ?_ }
      obtain rfl := Option.some.inj heq
      exact hshape hitem
  closes := by
    intro s t transaction payload _ h hs
    cases h with
    | continued => exact { hs with }
    | settled hempty report =>
      have hlog : (s.settle transaction).log = s.log ∨
          (s.settle transaction).log = s.log ++ [.drained] := by
        unfold settle
        split
        · exact .inl (List.append_nil _)
        · exact .inr rfl
      rcases hlog with hlog | hlog
      · have hsame : Stocked s₀ { s with log := (s.settle transaction).log } := by
          rw [hlog]
          exact hs
        exact { hsame with }
      · have hnoted : Stocked s₀ { s with log := (s.settle transaction).log } := by
          rw [hlog]
          exact hs.note rfl
        exact { hnoted with }

theorem Reached.stocked (h : Reached s₀ s) : Stocked s₀ s :=
  Stepwise.stocked.holds (fun hstart => hstart.watched.toStocked) h

/-! ### What is delivered -/

/-- What may be delivered after `past`: to a client, the head of the queue that it consumes, in the
form for some protocol version; from a slot, what has just been sent to a session of that slot. -/
def HeadFirst (s₀ : Broker) (past : List Note) : Note → Prop
  | .sent frame (.item item) => (stock s₀ frame.session past).head? = some item ∧
      ∃ version, downgradeInbox item version = .ok frame.payload
  | .slotDelivered slotId item => ∃ before frame x,
      past = before ++ [.sent frame (.item item)] ∧ holding frame.session before = some x ∧
        x.slotId = some slotId
  | _ => True

/-- An item that is sent to a session with a slot leaves that slot's queue at once. -/
def Paired (log : List Note) : Prop :=
  ∀ past frame item future, log = past ++ .sent frame (.item item) :: future →
    ∀ x slotId, holding frame.session past = some x → x.slotId = some slotId →
      ∃ rest, future = .slotDelivered slotId item :: rest

theorem HeadFirst.of_quiet (hn : n.delivers = false) : HeadFirst s₀ l n := by
  cases n with
  | sent frame cause =>
    cases cause with
    | item => cases hn
    | _ => trivial
  | slotDelivered => cases hn
  | _ => trivial

/-- Where an entry of `l ++ m` stands. -/
theorem split_append {past future : List Note} (heq : l ++ m = past ++ n :: future) :
    (∃ rest, l = past ++ n :: rest ∧ future = rest ++ m) ∨
      ∃ front, m = front ++ n :: future ∧ past = l ++ front := by
  rcases List.append_eq_append_iff.mp heq with ⟨front, rfl, hm⟩ | ⟨rest, rfl, hm⟩
  · exact .inr ⟨front, hm, rfl⟩
  · cases rest with
    | nil => exact .inr ⟨[], hm.symm, by rw [List.append_nil, List.append_nil]⟩
    | cons k rest =>
      obtain ⟨rfl, rfl⟩ := List.cons.inj hm
      exact .inl ⟨rest, rfl, rfl⟩

theorem Paired.append (h : Paired l) (hm : ∀ n ∈ m, n.delivers = false) : Paired (l ++ m) := by
  intro past frame item future heq x slotId hx hslot
  rcases split_append heq with ⟨rest, hl, rfl⟩ | ⟨front, rfl, -⟩
  · obtain ⟨rest', rfl⟩ := h past frame item rest hl x slotId hx hslot
    exact ⟨rest' ++ m, rfl⟩
  · -- `m` sends no item
    have hsent := hm (.sent frame (.item item)) (List.mem_append_right _ List.mem_cons_self)
    cases hsent

/-- One more item is sent, and leaves the slot of the session that it is sent to, if that has one. -/
theorem Paired.deliver {frame : SendFrame} {item : Bytes} (h : Paired l)
    (hm : ∀ n ∈ m, ∃ slotId, n = .slotDelivered slotId item)
    (hpair : ∀ x slotId, holding frame.session l = some x → x.slotId = some slotId →
      ∃ rest, m = .slotDelivered slotId item :: rest) :
    Paired (l ++ .sent frame (.item item) :: m) := by
  intro past frame' item' future heq x slotId hx hslot
  rcases split_append heq with ⟨rest, hl, rfl⟩ | ⟨front, hfront, rfl⟩
  · obtain ⟨rest', rfl⟩ := h past frame' item' rest hl x slotId hx hslot
    exact ⟨_, rfl⟩
  · cases front with
    | nil =>
      obtain ⟨hsame, rfl⟩ := List.cons.inj hfront
      obtain ⟨rfl, hcause⟩ := Note.sent.inj hsame
      obtain rfl := Cause.item.inj hcause
      rw [List.append_nil] at hx
      exact hpair x slotId hx hslot
    | cons n front =>
      obtain ⟨k, hk⟩ := hm (.sent frame' (.item item')) (by
        rw [(List.cons.inj hfront).2]
        exact List.mem_append_right _ List.mem_cons_self)
      cases hk

/-- The broker delivers in order. -/
structure Delivering (s₀ s : Broker) : Prop where
  delivers : Justified (HeadFirst s₀) s.log
  paired : Paired s.log

namespace Delivering

/-- Nothing is delivered. -/
theorem extend (h : Delivering s₀ s) (hadds : Adds (·.delivers = false) s t) :
    Delivering s₀ t := by
  obtain ⟨notes, hlog, hnotes⟩ := hadds
  constructor
  · rw [hlog]
    refine h.delivers.append fun past n hn => ?_
    exact .of_quiet (hnotes n hn)
  · rw [hlog]
    exact h.paired.append hnotes

/-- The head of a session's queue is delivered. -/
theorem deliver (h : Delivering s₀ s) (hstock : Stocked s₀ s) {session session' : Session}
    {item visible : Bytes} {rest : List Bytes} {version : UInt8}
    (hlive : s.sessions.find? id = some session)
    (hslot' : session'.dedicatedSlotId = session.dedicatedSlotId)
    (hinbox : s.inboxFor? session = some (item :: rest))
    (hvisible : downgradeInbox item version = .ok visible) :
    Delivering s₀ ((s.send id visible (.item item)).shiftInbox id session' item) := by
  have hhead : (stock s₀ id s.log).head? = some item := by
    rw [Option.some.inj ((hstock.inboxFor? hlive).symm.trans hinbox)]
    rfl
  have hholding := hstock.sessions id
  rw [hlive, Option.map_some] at hholding
  have hsent : Justified (HeadFirst s₀)
      (s.log ++ [.sent ⟨id, s.epoch, s.nextWrite + 1, visible⟩ (.item item)]) :=
    h.delivers.snoc (show HeadFirst s₀ s.log (.sent _ (.item item)) from ⟨hhead, version, hvisible⟩)
  cases hslot : session.dedicatedSlotId with
  | none =>
    rw [shiftInbox_own item (hslot'.trans hslot)]
    refine ⟨hsent, h.paired.deliver (m := []) (by simp) fun x slotId hx hx' => ?_⟩
    -- the session has no slot
    obtain rfl := Option.some.inj (hholding.symm.trans hx)
    simp [hslot] at hx'
  | some k =>
    rw [shiftInbox_slot item (hslot'.trans hslot)]
    constructor
    · refine hsent.snoc ?_
      exact ⟨s.log, _, _, rfl, hholding, hslot⟩
    · show Paired (s.log ++ [_] ++ [_])
      rw [List.append_assoc]
      refine h.paired.deliver (by simp) fun x slotId hx hx' => ?_
      obtain rfl := Option.some.inj (hholding.symm.trans hx)
      obtain rfl := Option.some.inj (hslot.symm.trans hx')
      exact ⟨[], rfl⟩

theorem receives (h : Delivering s₀ s) (hstock : Stocked s₀ s) {session : Session}
    (hlive : s.sessions.find? id = some session) (hst : s.Receives id session t) :
    Delivering s₀ t := by
  cases hst with
  | held => exact h
  | served _ _ hinbox hvisible =>
    have hended : Delivering s₀ (s.endSync id) := { h with }
    exact hended.deliver (hstock.endSync id) (find?_endSync hlive) rfl hinbox hvisible
  | slow => exact h.extend (.one rfl rfl)

end Delivering

/-- **Deliveries are in order** in every state. -/
theorem Stepwise.delivering : Stepwise (Reached s₀) (Delivering s₀) where
  report := fun _ hs => { hs with }
  input := fun _ _ hs => hs.extend (.one rfl rfl)
  clock := fun _ _ hs => { hs with }
  idle := fun _ h hs => hs.extend
    (Keeps.idle (f := fun _ => ()) h (fun _ _ => rfl) (fun _ _ => rfl) fun _ _ => rfl).log
  output := fun _ h hs => hs.extend (Keeps.output (f := fun _ => ()) h (fun _ _ => rfl)
    (fun _ _ => rfl) (fun _ _ => rfl) fun _ => rfl).log
  client := by
    intro s t hK h hs
    cases h with
    | @entered id slotId =>
      refine hs.extend ⟨_, rfl, fun n hn => ?_⟩
      rcases List.mem_cons.mp hn with rfl | hn
      · rfl
      · split at hn
        · obtain ⟨_, -, rfl⟩ := List.mem_map.mp hn
          rfl
        · cases hn
    | queued | syncExpired | broadcast => exact hs.extend (.one rfl rfl)
    | answered | choked | waits =>
      exact hs.extend (.trans (.one (t := s.take _ _) rfl rfl) (.one rfl rfl))
    | @selected id _ command =>
      have hsent : Adds (·.delivers = false) s
          (((s.take id command).setScope id command.payload).send id [respOk] .answer) :=
        .trans (.one (t := s.take id command) rfl rfl) (.one rfl rfl)
      exact hs.extend (hsent.trans (.one rfl rfl))
    | @delivered id session command _ _ _ h hop hroom hinbox hvisible =>
      have htaken := hs.extend (.one (t := s.take id command) rfl rfl)
      exact htaken.deliver (hK.stocked.take id command) h.take_live rfl hinbox hvisible
  radio := fun _ h hs => hs.extend (Keeps.radio (f := fun _ => ()) h (fun _ _ => rfl)
    (fun _ => rfl) (fun _ _ => rfl) fun _ => rfl).log
  part := by
    intro s t _ h hs
    cases h with
    | dropped | failed => exact hs.extend (.one rfl rfl)
    | released | writtenDown => exact { hs with }
    | upstream h =>
      refine hs.extend (h.adds.mono fun n hn => ?_)
      cases n with
      | sent frame cause => cases cause <;> first | rfl | cases hn
      | slotDelivered => cases hn
      | _ => rfl
  took := fun _ _ hs => hs.extend (.one rfl rfl)
  pop := by
    intro s t transaction payload hK _ hanswer h hs
    have hshape := fun hitem => (pop_payload hanswer.valid hitem).shape
    cases h with
    | output h => exact hs.extend (Keeps.output (f := fun _ => ()) h (fun _ _ => rfl)
        (fun _ _ => rfl) (fun _ _ => rfl) fun _ => rfl).log
    | answered | duplicate | popped | slotOffered | flooded | orphaned =>
      exact hs.extend (.one rfl rfl)
    | @attachedOffered _ slotId _ _ _ _ _ hlive hitem ht =>
      have hoffered := hs.extend (.one (t := s.offerSlot slotId payload) rfl rfl)
      exact hoffered.receives (hK.stocked.offerSlot slotId (hshape hitem)) hlive ht
    | @offered _ id _ hlive _ _ hitem ht =>
      have hoffered := hs.extend (.one (t := s.offer id payload) rfl rfl)
      exact hoffered.receives (hK.stocked.offer id (hshape hitem)) (find?_offer payload hlive) ht
  closes := fun _ h hs =>
    hs.extend (Keeps.closes (P := (·.delivers = false)) (f := fun _ => ()) h rfl).log

theorem Starts.delivering (h : s.Starts) : Delivering s₀ s :=
  ⟨h.log ▸ .nil, fun past frame item future heq => by simp [h.log] at heq⟩

theorem Reached.delivering (h : Reached s₀ s) : Delivering s₀ s :=
  Stepwise.delivering.holds Starts.delivering h

/-! ### What a multi-client session has been sent -/

end Broker

end MeshCoreTCPMux

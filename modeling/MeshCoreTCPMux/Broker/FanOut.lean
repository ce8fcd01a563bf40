import MeshCoreTCPMux.Broker.Deliveries
import MeshCoreTCPMux.Broker.Ended

/-!
# Fan-out of the companion's inbox

The broker pops the inbox of the companion destructively, and whatever it pops it has to pass on
itself. The history shows what was popped (`pops`), and the theorem of this module says where it
went (`inbox_fans_out`): every configured slot was offered exactly what was popped, whoever was
attached to it and whatever became of the others; every live multi-client session has been sent, and
still holds, exactly what was popped since it was admitted, after the item that was held for it if
there was one; and the held item is never displaced by another while the epoch runs.

Three invariants carry it.

* `Shared` — the accounts of what was offered. One inbox result is handed out as a whole, with a
  history that says who has custody of it (`Custody`), and no other action offers anything but the
  held item, to the first multi-client session that joins.
* `Retaining` — while an item is held there is no multi-client session, and no pop under way was
  dispatched on behalf of one, so that its result will not be held as well.
* `Delivering` — what was offered leaves the queues at their heads.
-/

namespace MeshCoreTCPMux

open Protocol Relation History

/-- The item that is held for the next multi-client session, after an entry. -/
def Note.retain (held : Option Bytes) : Note → Option Bytes
  | orphaned item => some item
  | admitted _ none => none
  | _ => held

/-- An entry that may change the held item. -/
def Note.retains : Note → Bool
  | orphaned _ | admitted _ _ => true
  | _ => false

/-- An entry that says who has custody of an item, or at which somebody comes. -/
def Note.spreads : Note → Bool
  | popped _ | offered _ _ | slotOffered _ _ | orphaned _ | admitted _ _ => true
  | _ => false

theorem Note.retains_of_spreads {n : Note} (h : n.spreads = false) : n.retains = false := by
  cases n <;> first | rfl | cases h

namespace Broker

variable {s s₀ t : Broker} {l m : List Note} {n : Note} {id : Nat} {α : Type} {P : Note → Prop}
  {f : Session → α}

/-- The item that the history shows held for the next multi-client session. -/
def heldOrphan (s₀ : Broker) (log : List Note) : Option Bytes := log.foldl Note.retain s₀.orphan

theorem heldOrphan_append (l m : List Note) :
    heldOrphan s₀ (l ++ m) = m.foldl Note.retain (heldOrphan s₀ l) := List.foldl_append

theorem heldOrphan_of_quiet (hm : ∀ n ∈ m, n.retains = false) :
    heldOrphan s₀ (l ++ m) = heldOrphan s₀ l := by
  rw [heldOrphan_append]
  refine foldl_neutral fun n hn held => ?_
  have hretains := hm n hn
  cases n with
  | orphaned | admitted => cases hretains
  | _ => rfl

/-- Nothing is held as long as nothing is orphaned. -/
theorem retain_none (h : orphans m = []) : m.foldl Note.retain none = none := by
  induction m with
  | nil => rfl
  | cons n m ih =>
    cases n with
    | orphaned => cases h
    | admitted _ slotId => cases slotId <;> exact ih h
    | _ => exact ih h

theorem quiet_of_spreads (hm : ∀ n ∈ m, n.spreads = false) : Quiet m := by
  refine ⟨?_, fun id => ?_, fun k => ?_, ?_⟩ <;>
  · refine List.filterMap_eq_nil_iff.mpr fun n hn => ?_
    have hspreads := hm n hn
    cases n with
    | popped | offered | slotOffered | orphaned | admitted => cases hspreads
    | _ => rfl

/-! ### Actions that offer nothing -/

namespace Keeps

theorem take (hcommands : ∀ x q, f { x with commands := q } = f x) {command : Command}
    (hn : P (.taken id command)) : Keeps P f s (s.take id command) := by
  have hshifted : Keeps P f s { s with
      sessions := s.sessions.modify id fun x => { x with commands := x.commands.tail } } :=
    modify fun x => hcommands x _
  exact hshifted.trans (.notes rfl rfl (by simpa using hn))

theorem endSync (hsync : ∀ x y, f { x with sync := y } = f x) : Keeps P f s (s.endSync id) :=
  modify fun x => hsync x none

theorem upstream (h : Upstream s t) (hcommands : ∀ x q, f { x with commands := q } = f x)
    (hwrites : ∀ x w, f { x with writes := w } = f x)
    (htarget : ∀ x v, f { x with targetVersion := v } = f x)
    (hn : ∀ n : Note, n.relays = true → P n) : Keeps P f s t := by
  have hsent : ∀ frame, P (.sent frame .reply) := fun _ => hn _ rfl
  have hnotes : ∀ m : List Note, m.all Note.relays = true → ∀ n ∈ m, P n := fun m hm n hmem =>
    hn n (List.all_eq_true.mp hm n hmem)
  cases h with
  | popDispatched | setupAccepted =>
    exact .notes rfl (List.append_assoc _ _ _) (hnotes _ rfl)
  | @dispatched id _ command =>
    refine (take hcommands (hn (.taken id command) rfl)).trans ?_
    exact .notes rfl (List.append_assoc _ _ _) (hnotes _ rfl)
  | restored => exact .notes (m := [_]) rfl rfl (hnotes _ rfl)
  | setupRejected _ _ _ _ _ _ ht | progressed _ ht | heldReply _ ht | finalReply _ ht =>
    refine (forwarded ht hwrites htarget hsent).trans ?_
    exact .notes (m := [_]) rfl rfl (hnotes _ rfl)
  | scopedReply _ ht =>
    refine (forwarded ht hwrites htarget hsent).trans ?_
    exact .notes rfl (List.append_assoc _ _ _) (hnotes _ rfl)

/-- What a session comes with does not matter to those that are there. -/
theorem client (h : Client s t) (hcommands : ∀ x q, f { x with commands := q } = f x)
    (hwrites : ∀ x w, f { x with writes := w } = f x)
    (hinbox : ∀ x q, f { x with inbox := q } = f x)
    (hsync : ∀ x y, f { x with sync := y } = f x)
    (hscope : ∀ x y, f { x with scope := y } = f x)
    (hn : ∀ n : Note, n.spreads = false → P n) :
    (∃ id slotId, Fresh id s.log ∧ t = s.enter id slotId) ∨
      (Keeps P f s t ∧ t.orphan = s.orphan) := by
  have htake : ∀ id command, Keeps P f s (s.take id command) := fun _ _ =>
    take hcommands (hn _ rfl)
  cases h with
  | entered _ _ _ hfresh => exact .inl ⟨_, _, hfresh, rfl⟩
  | @queued id _ payload =>
    have hqueued : Keeps P f s { s with
        sessions := s.sessions.modify id fun x =>
          { x with commands := x.commands ++ [⟨payload, s.now⟩] } } :=
      modify fun x => hcommands x _
    exact .inr ⟨hqueued.trans (.notes (m := [_]) rfl rfl (by simpa using hn _ rfl)), rfl⟩
  | answered => exact .inr ⟨(htake _ _).trans (send hwrites (hn _ rfl)), rfl⟩
  | @selected id _ command =>
    have hscoped : Keeps P f (s.take id command)
        ((s.take id command).setScope id command.payload) := modify fun x => hscope x _
    exact .inr ⟨((htake _ _).trans hscoped).trans
      ((send hwrites (hn _ rfl)).trans (note (hn _ rfl))), rfl⟩
  | choked => exact .inr ⟨(htake _ _).trans (drop (hn _ rfl)), rfl⟩
  | @waits id _ command deadline =>
    have hwaiting : Keeps P f (s.take id command) { s.take id command with
        sessions := (s.take id command).sessions.modify id fun x =>
          { x with sync := some ⟨s.popSequence + 1, deadline⟩ } } := modify fun x => hsync x _
    refine .inr ⟨(htake _ _).trans (hwaiting.trans ?_), rfl⟩
    exact .notes (m := [.synced id ⟨s.popSequence + 1, deadline⟩]) rfl rfl (by simpa using hn _ rfl)
  | delivered =>
    refine .inr ⟨((htake _ _).trans (send hwrites (hn _ rfl))).trans
      (shiftInbox hinbox fun _ => hn _ rfl), ?_⟩
    simp only [Broker.shiftInbox]
    split <;> rfl
  | syncExpired => exact .inr ⟨(endSync hsync).trans (send hwrites (hn _ rfl)), rfl⟩
  | broadcast => exact .inr ⟨send hwrites (hn _ rfl), rfl⟩

theorem part (h : Part s t) (hcommands : ∀ x q, f { x with commands := q } = f x)
    (hwrites : ∀ x w, f { x with writes := w } = f x)
    (hhint : ∀ x w, f { x with availabilityHintWriteId := w } = f x)
    (htarget : ∀ x v, f { x with targetVersion := v } = f x)
    (hn : ∀ n : Note, n.spreads = false → P n) : Keeps P f s t := by
  cases h with
  | dropped => exact drop (hn _ rfl)
  | released => exact same rfl rfl
  | writtenDown => exact writtenDown hwrites hhint
  | upstream h =>
    refine upstream h hcommands hwrites htarget fun n hrelays => hn n ?_
    cases n <;> first | rfl | cases hrelays
  | failed => exact .notes (m := [_]) rfl rfl (by simpa using hn _ rfl)

/-- Nobody comes, and nobody changes to the multi-client port. -/
theorem multiClients (h : Keeps P (·.dedicatedSlotId) s t) (hnone : s.multiClients = []) :
    t.multiClients = [] := by
  refine List.eq_nil_iff_forall_not_mem.mpr fun id hid => ?_
  obtain ⟨y, hy, hmulti⟩ := mem_multiClients.mp hid
  obtain ⟨x, hx, hxy⟩ := h.sessions id y hy
  have hmem : id ∈ s.multiClients := mem_multiClients.mpr ⟨x, hx, hxy.trans hmulti⟩
  simp [hnone] at hmem

end Keeps

/-! ### The held item -/

/-- A transaction is still about the same pop. -/
def Inherits (active active' : Option Transaction) : Prop :=
  ∀ x, active' = some x → x.owner = 0 →
    ∃ y, active = some y ∧ y.owner = 0 ∧ x.hadMultiClient = y.hadMultiClient

theorem inherits_of_core (h : t.active.map Transaction.core = s.active.map Transaction.core) :
    Inherits s.active t.active := by
  intro x hx howner
  rw [hx, Option.map_some] at h
  obtain ⟨y, hy, hcore⟩ := Option.map_eq_some_iff.mp h.symm
  have hsame : y.owner = x.owner := (congrArg Transaction.owner hcore :)
  exact ⟨y, hy, hsame.trans howner, (congrArg Transaction.hadMultiClient hcore.symm :)⟩

/-- The held item is what the history shows. While there is one, no multi-client session is there,
and none was there when the pop under way was dispatched. -/
structure Retaining (s₀ s : Broker) : Prop where
  held : s.orphan = heldOrphan s₀ s.log
  alone : s.orphan ≠ none → s.multiClients = []
  pop : s.orphan ≠ none → ∀ x, s.active = some x → x.owner = 0 → x.hadMultiClient = false

namespace Retaining

theorem keep (hs : Retaining s₀ s) (h : Keeps (·.retains = false) (·.dedicatedSlotId) s t)
    (horphan : t.orphan = s.orphan) (hactive : Inherits s.active t.active) : Retaining s₀ t where
  held := by
    obtain ⟨notes, hlog, hnotes⟩ := h.log
    rw [hlog, heldOrphan_of_quiet hnotes, horphan]
    exact hs.held
  alone := fun hheld => h.multiClients (hs.alone (horphan ▸ hheld))
  pop := by
    intro hheld x hx howner
    obtain ⟨y, hy, hy', hmulti⟩ := hactive x hx howner
    rw [hmulti]
    exact hs.pop (horphan ▸ hheld) y hy hy'

theorem enter (hs : Retaining s₀ s) (slotId : Option Nat) : Retaining s₀ (s.enter id slotId) := by
  cases slotId with
  | none =>
    -- the session takes the item
    refine ⟨?_, fun hheld => absurd rfl hheld, fun hheld => absurd rfl hheld⟩
    show none = heldOrphan s₀ (s.log ++ .admitted id none :: s.orphan.toList.map (.offered id))
    rw [List.append_cons, heldOrphan_of_quiet, heldOrphan_append]
    · rfl
    · intro n hn
      obtain ⟨_, -, rfl⟩ := List.mem_map.mp hn
      rfl
  | some k =>
    refine ⟨?_, fun hheld => ?_, hs.pop⟩
    · show s.orphan = heldOrphan s₀ (s.log ++ [.admitted id (some k)])
      rw [heldOrphan_append]
      exact hs.held
    · refine List.eq_nil_iff_forall_not_mem.mpr fun i hi => ?_
      obtain ⟨y, hy, hmulti⟩ := mem_multiClients.mp hi
      simp only [Broker.enter, OrdMap.find?_insert] at hy
      split at hy
      · -- the new session has a slot
        obtain rfl := Option.some.inj hy
        cases hmulti
      · have hmem : i ∈ s.multiClients := mem_multiClients.mpr ⟨y, hy, hmulti⟩
        rw [hs.alone hheld] at hmem
        cases hmem

/-- A pop is dispatched on behalf of the multi-client sessions that are there. -/
theorem upstream (hs : Retaining s₀ s) (hwf : s.WF) (h : Upstream s t) : Retaining s₀ t := by
  have hkeeps : Keeps (·.retains = false) (·.dedicatedSlotId) s t :=
    .upstream h (fun _ _ => rfl) (fun _ _ => rfl) (fun _ _ => rfl) fun n hn => by
      cases n <;> first | rfl | cases hn
  have hforwarded : ∀ {x payload w} {u : Broker}, s.Forwarded x payload w u →
      u.orphan = s.orphan := by
    intro x payload w u hu
    cases hu with
    | gone => rfl
    | live =>
      unfold retarget
      split <;> rfl
  cases h with
  | @popDispatched descriptor transaction _ _ _ _ _ htransaction =>
    obtain ⟨hheld, halone, -⟩ := hs.keep (t := { s with
      active := none, log := s.log ++ [.dispatched transaction s.now] ++ [.upstream
        ⟨0, s.epoch, s.nextWrite + 1, [cmdSyncNextMessage]⟩ transaction] })
      (.notes rfl (List.append_assoc _ _ _) (by simp [Note.retains])) rfl (by rintro _ ⟨⟩)
    refine ⟨hheld, halone, fun horphan x hx _ => ?_⟩
    obtain rfl := Option.some.inj hx
    have hnone := hs.alone horphan
    simp [htransaction, hnone]
  | @dispatched id session _ _ _ _ transaction _ _ h _ _ _ htransaction =>
    refine hs.keep hkeeps rfl fun x hx howner => ?_
    obtain rfl := Option.some.inj hx
    -- the command of a session, and no pop
    obtain rfl : id = 0 := by simpa [htransaction] using howner
    exact absurd (OrdMap.mem_keys_of_find? h.live) hwf.positive
  | setupRejected _ _ _ _ _ _ ht | finalReply _ ht =>
    exact hs.keep hkeeps (hforwarded ht :) (by rintro _ ⟨⟩)
  | restored => exact hs.keep hkeeps rfl (by rintro _ ⟨⟩)
  | setupAccepted h =>
    refine hs.keep hkeeps rfl fun x hx howner => ?_
    obtain rfl := Option.some.inj hx
    exact ⟨_, h, howner, rfl⟩
  | progressed h ht | heldReply h ht | scopedReply h ht =>
    refine hs.keep hkeeps (hforwarded ht :) fun x hx howner => ?_
    obtain rfl := Option.some.inj hx
    exact ⟨_, h.active, howner, rfl⟩

end Retaining

/-- What is done with a result but for holding it. -/
theorem Pop.orphaned_or_keeps {transaction : Transaction} {payload : Bytes}
    (h : Pop transaction payload s t) :
    (s.multiClients = [] ∧ t = { s with orphan := some payload }.note (.orphaned payload)) ∨
      (Keeps (·.retains = false) (·.dedicatedSlotId) s t ∧ t.orphan = s.orphan) := by
  have hreceives : ∀ {u : Broker} {id session}, u.Receives id session t →
      Keeps (·.retains = false) (·.dedicatedSlotId) u t ∧ t.orphan = u.orphan := by
    intro u id session ht
    cases ht with
    | held => exact ⟨.refl, rfl⟩
    | @served sync item _ visible =>
      have hsent : Keeps (·.retains = false) (·.dedicatedSlotId) u
          ((u.endSync id).send id visible (.item item)) :=
        (Keeps.endSync fun _ _ => rfl).trans (.send (fun _ _ => rfl) rfl)
      refine ⟨hsent.trans (.shiftInbox (fun _ _ => rfl) fun _ => rfl), ?_⟩
      simp only [Broker.shiftInbox]
      split <;> rfl
    | slow => exact ⟨.drop rfl, rfl⟩
  cases h with
  | orphaned hclients => exact .inl ⟨hclients, rfl⟩
  | output h =>
    refine .inr ⟨.output h (fun _ _ => rfl) (fun _ _ => rfl) (fun _ _ => rfl) fun _ => rfl, ?_⟩
    cases h <;> rfl
  | answered =>
    exact .inr ⟨(Keeps.endSync fun _ _ => rfl).trans (.send (fun _ _ => rfl) rfl), rfl⟩
  | duplicate | popped | slotOffered =>
    exact .inr ⟨.notes rfl rfl (by simp [Note.retains]), rfl⟩
  | @attachedOffered _ slotId _ _ _ _ _ _ _ ht =>
    have hoffered : Keeps (·.retains = false) (·.dedicatedSlotId) s (s.offerSlot slotId payload) :=
      .notes rfl rfl (by simp [Note.retains])
    exact .inr ⟨hoffered.trans (hreceives ht).1, (hreceives ht).2⟩
  | @offered _ id _ _ _ _ _ ht =>
    have happended : Keeps (·.retains = false) (·.dedicatedSlotId) s { s with
        sessions := s.sessions.modify id fun x => { x with inbox := x.inbox ++ [payload] } } :=
      .modify fun _ => rfl
    have hoffered : Keeps (·.retains = false) (·.dedicatedSlotId) s (s.offer id payload) :=
      happended.trans (.notes rfl rfl (by simp [Note.retains]))
    exact .inr ⟨hoffered.trans (hreceives ht).1, (hreceives ht).2⟩
  | flooded => exact .inr ⟨.drop rfl, rfl⟩

/-- **At most one item is held**, in every state. -/
theorem Stepwise.retaining : Stepwise (Reached s₀) (Retaining s₀) where
  report := fun _ hs => { hs with }
  input := fun _ _ hs => hs.keep (.note rfl) rfl (inherits_of_core rfl)
  clock := fun _ _ hs => { hs with }
  idle := by
    intro s t _ h hs
    refine hs.keep (.idle h (fun _ _ => rfl) (fun _ _ => rfl) fun _ _ => rfl) ?_
      (inherits_of_core h.calm.core)
    cases h <;> rfl
  output := by
    intro s t _ h hs
    refine hs.keep (.output h (fun _ _ => rfl) (fun _ _ => rfl) (fun _ _ => rfl) fun _ => rfl) ?_
      (inherits_of_core h.calm.core)
    cases h <;> rfl
  client := by
    intro s t _ h hs
    have hquiet : ∀ n : Note, n.spreads = false → n.retains = false := fun _ =>
      Note.retains_of_spreads
    rcases Keeps.client (f := (·.dedicatedSlotId)) h (fun _ _ => rfl) (fun _ _ => rfl)
      (fun _ _ => rfl) (fun _ _ => rfl) (fun _ _ => rfl) hquiet with
      ⟨id, slotId, -, rfl⟩ | ⟨hkeeps, horphan⟩
    · exact hs.enter slotId
    · exact hs.keep hkeeps horphan (inherits_of_core h.calm.core)
  radio := by
    intro s t _ h hs
    refine hs.keep (.radio h (fun _ _ => rfl) (fun _ => rfl) (fun _ _ => rfl) fun _ => rfl) ?_
      (inherits_of_core h.calm.core)
    cases h <;> rfl
  part := by
    intro s t hK h hs
    have hkeeps : Keeps (·.retains = false) (·.dedicatedSlotId) s t :=
      .part h (fun _ _ => rfl) (fun _ _ => rfl) (fun _ _ => rfl) (fun _ _ => rfl) fun _ =>
        Note.retains_of_spreads
    cases h with
    | dropped | writtenDown => exact hs.keep hkeeps rfl (inherits_of_core rfl)
    | released | failed => exact hs.keep hkeeps rfl (by rintro _ ⟨⟩)
    | upstream h => exact hs.upstream hK.wf h
  took := fun _ _ hs =>
    hs.keep (.notes (m := [_]) rfl rfl (by simp [Note.retains])) rfl (by rintro _ ⟨⟩)
  pop := by
    intro s t transaction payload _ hidle _ h hs
    have hnone : t.active = none := by
      have hcore := h.calm.core
      rw [hidle, Option.map_none, Option.map_eq_none_iff] at hcore
      exact hcore
    have hnobody : ∀ x, t.active = some x → x.owner = 0 → x.hadMultiClient = false := by
      rw [hnone]
      rintro _ ⟨⟩
    rcases h.orphaned_or_keeps with ⟨hclients, rfl⟩ | ⟨hkeeps, horphan⟩
    · refine ⟨?_, fun _ => hclients, fun _ => hnobody⟩
      show some payload = heldOrphan s₀ (s.log ++ [.orphaned payload])
      rw [heldOrphan_append]
      rfl
    · refine hs.keep hkeeps horphan ?_
      rw [hnone]
      rintro _ ⟨⟩
  closes := by
    intro s t transaction payload _ h hs
    refine hs.keep (.closes h rfl) ?_ (inherits_of_core h.calm.core)
    cases h <;> rfl

theorem Starts.retaining (h : s₀.Starts) : Retaining s₀ s₀ := by
  refine ⟨by rw [h.log]; rfl, fun _ => ?_, fun _ x hx => ?_⟩
  · obtain ⟨epoch, selfKey, config, now, orphan, slots, radio, rfl⟩ := h.fresh
    rfl
  · obtain ⟨epoch, selfKey, config, now, orphan, slots, radio, rfl⟩ := h.fresh
    cases hx

theorem Reached.retaining (h : Reached s₀ s) : Retaining s₀ s :=
  Stepwise.retaining.holds Starts.retaining h

/-! ### What is offered -/

/-- Everybody who is there has been offered what was popped. -/
structure Shared (s₀ s : Broker) : Prop where
  keys : s.dedicatedSlots.keys = s₀.dedicatedSlots.keys
  slots : ∀ k ∈ s₀.dedicatedSlots.keys, slotOffers k s.log = pops s.log
  clients : ∀ id x, s.sessions.find? id = some x → x.dedicatedSlotId = none →
    ∃ past future, s.log = past ++ .admitted id none :: future ∧
      offers id future = (heldOrphan s₀ past).toList ++ pops future
  /-- While the epoch runs, nothing is held in place of another item. -/
  held : Justified (fun past n => ∀ item, n = .orphaned item → Over past ∨
    heldOrphan s₀ past = none) s.log

namespace Shared

/-- Nothing is offered. -/
theorem keep (hs : Shared s₀ s) (h : Keeps (·.spreads = false) (·.dedicatedSlotId) s t)
    (hkeys : t.dedicatedSlots.keys = s.dedicatedSlots.keys) : Shared s₀ t := by
  obtain ⟨notes, hlog, hnotes⟩ := h.log
  have hquiet := quiet_of_spreads hnotes
  refine ⟨hkeys.trans hs.keys, fun k hk => ?_, fun id y hy hmulti => ?_, ?_⟩
  · rw [hlog, slotOffers_append, pops_append, hquiet.slotOffers, hquiet.pops, hs.slots k hk]
  · obtain ⟨x, hx, hxy⟩ := h.sessions id y hy
    obtain ⟨past, future, hpast, hoffers⟩ := hs.clients id x hx (hxy.trans hmulti)
    refine ⟨past, future ++ notes, by rw [hlog, hpast, List.append_assoc, List.cons_append], ?_⟩
    rw [offers_append, pops_append, hquiet.offers, hquiet.pops, hoffers, List.append_nil,
      List.append_nil]
  · rw [hlog]
    refine hs.held.append fun past n hn item heq => ?_
    have hspreads := hnotes n hn
    rw [heq] at hspreads
    cases hspreads

/-- A multi-client session starts with the held item. -/
theorem enter (hs : Shared s₀ s) (hretaining : Retaining s₀ s) (slotId : Option Nat) :
    Shared s₀ (s.enter id slotId) := by
  obtain ⟨items, hitems⟩ : ∃ items, items = if slotId.isNone then s.orphan.toList else [] :=
    ⟨_, rfl⟩
  have hlog : (s.enter id slotId).log
      = s.log ++ .admitted id slotId :: items.map (.offered id) := by
    rw [hitems]
    simp only [Broker.enter]
    split <;> rfl
  have hpops : pops (.admitted id slotId :: items.map (.offered id)) = [] :=
    List.filterMap_eq_nil_iff.mpr (by simp)
  have hslots : ∀ k, slotOffers k (.admitted id slotId :: items.map (.offered id)) = [] := fun k =>
    List.filterMap_eq_nil_iff.mpr (by simp)
  have hothers : ∀ i, i ≠ id → offers i (.admitted id slotId :: items.map (.offered id)) = [] :=
    fun i hi => List.filterMap_eq_nil_iff.mpr (by simp [Ne.symm hi])
  refine ⟨(Fixed.enter id slotId).slots.trans hs.keys, fun k hk => ?_, fun i x hx hmulti => ?_, ?_⟩
  · rw [hlog, slotOffers_append, pops_append, hslots, hpops, hs.slots k hk]
  · simp only [Broker.enter, OrdMap.find?_insert] at hx
    split at hx
    · next hid =>
      subst hid
      obtain rfl := Option.some.inj hx
      obtain rfl : slotId = none := hmulti
      refine ⟨s.log, items.map (.offered i), hlog, ?_⟩
      rw [← hretaining.held, hitems]
      cases s.orphan <;> simp [offers, pops]
    · next hid =>
      obtain ⟨past, future, hpast, hoffers⟩ := hs.clients i x hx hmulti
      refine ⟨past, future ++ .admitted id slotId :: items.map (.offered id), ?_, ?_⟩
      · rw [hlog, hpast, List.append_assoc, List.cons_append]
      · rw [offers_append, pops_append, hothers i hid, hpops, hoffers, List.append_nil,
          List.append_nil]
  · rw [hlog]
    refine hs.held.append fun past n hn item heq => ?_
    rw [heq] at hn
    simp at hn

/-- One inbox result is handed out. -/
theorem handsOut {transaction : Transaction} {payload : Bytes} (hs : Shared s₀ s)
    (hst : HandsOut transaction payload s t)
    (hroom : transaction.hadMultiClient = true → Over s.log ∨ heldOrphan s₀ s.log = none) :
    Shared s₀ t := by
  obtain ⟨u, hparts, hlast⟩ := hst.parts
  have hshrinks := (Shrinks.of_parts hparts).trans (.of_closes hlast)
  obtain ⟨notes, hlog, hcustody⟩ := hst.history
  refine ⟨hshrinks.slots.trans hs.keys, fun k hk => ?_, fun id y hy hmulti => ?_, ?_⟩
  · rw [hlog, slotOffers_append, pops_append, hcustody.slots k (hs.keys ▸ hk), hs.slots k hk]
  · obtain ⟨x, hx, hxy⟩ := hshrinks.sessions id y hy
    obtain ⟨past, future, hpast, hoffers⟩ := hs.clients id x hx (hxy.trans hmulti)
    refine ⟨past, future ++ notes, by rw [hlog, hpast, List.append_assoc, List.cons_append], ?_⟩
    rw [offers_append, pops_append, hcustody.clients id y hy hmulti, hoffers, List.append_assoc]
  · rw [hlog]
    refine hs.held.extend fun front n back hnotes item heq => ?_
    subst heq
    -- something is held, and only once
    have horphans : orphans notes = orphans front ++ item :: orphans back := by
      rw [hnotes, orphans_append]
      rfl
    obtain ⟨hpops, hmulti⟩ := hcustody.held.resolve_left fun hnone => by
      rw [hnone] at horphans
      simp at horphans
    have honce : (orphans notes).length ≤ 1 := by
      rw [hpops, hcustody.popped]
      split <;> simp
    have hfront : orphans front = [] := by
      rw [horphans, List.length_append, List.length_cons] at honce
      exact List.length_eq_zero_iff.mp (by omega)
    rcases hroom hmulti with ⟨epoch, reason, hover⟩ | hnone
    · exact .inl ⟨epoch, reason, List.mem_append_left _ hover⟩
    · refine .inr ?_
      rw [heldOrphan_append, hnone]
      exact retain_none hfront

end Shared

theorem Keeps.parts (h : ReflTransGen Part s t) :
    Keeps (·.spreads = false) (·.dedicatedSlotId) s t := by
  induction h with
  | refl => exact .refl
  | tail _ hlast ih =>
    exact ih.trans (.part hlast (fun _ _ => rfl) (fun _ _ => rfl) (fun _ _ => rfl)
      (fun _ _ => rfl) fun _ hn => hn)

/-- **Everybody is offered what is popped**, after every atomic action. -/
theorem Invariant.shared : Invariant (Reached s₀) (Shared s₀) where
  report := fun _ hs => { hs with }
  input := fun _ _ hs => hs.keep (.note rfl) rfl
  clock := fun _ _ hs => { hs with }
  idle := fun _ h hs =>
    hs.keep (.idle h (fun _ _ => rfl) (fun _ _ => rfl) fun _ _ => rfl) (Fixed.idle h).slots
  output := fun _ h hs =>
    hs.keep (.output h (fun _ _ => rfl) (fun _ _ => rfl) (fun _ _ => rfl) fun _ => rfl)
      (Fixed.output h).slots
  client := by
    intro s t hK h hs
    rcases Keeps.client (P := (·.spreads = false)) (f := (·.dedicatedSlotId)) h (fun _ _ => rfl)
      (fun _ _ => rfl) (fun _ _ => rfl) (fun _ _ => rfl) (fun _ _ => rfl) (fun _ hn => hn) with
      ⟨id, slotId, -, rfl⟩ | ⟨hkeeps, -⟩
    · exact hs.enter hK.retaining slotId
    · exact hs.keep hkeeps (Fixed.client h).slots
  radio := fun _ h hs =>
    hs.keep (.radio h (fun _ _ => rfl) (fun _ => rfl) (fun _ _ => rfl) fun _ => rfl)
      (Fixed.radio h).slots
  upstream := fun _ h _ hs => hs.keep (Keeps.parts (.single (.upstream h))) (Fixed.upstream h).slots
  ending := fun hK h hs => hs.keep (Keeps.parts (h.parts hK.wf)) (Fixed.ending h).slots
  pop := by
    intro s t transaction payload hK ht hst hs
    have htook : Shared s₀ (s.took payload) :=
      hs.keep (.notes (m := [_]) rfl rfl (by simp [Note.spreads])) rfl
    refine htook.handsOut hst fun hmulti => .inr ?_
    have hheld : heldOrphan s₀ (s.took payload).log = s.orphan :=
      (heldOrphan_of_quiet (by simp [Note.retains])).trans hK.retaining.held.symm
    rw [hheld]
    by_contra hsome
    -- the pop would not have been dispatched on behalf of a multi-client session
    have hnone := hK.retaining.pop hsome transaction ht.active ht.owner
    rw [hmulti] at hnone
    cases hnone
  drained := fun hK ho hst hs => hs.handsOut hst fun _ => .inl (hK.mortal.failed.mp ho.failed)

theorem Starts.shared (h : s₀.Starts) : Shared s₀ s₀ := by
  refine ⟨rfl, fun k _ => ?_, fun id x hx => ?_, ?_⟩
  · rw [h.log]
    rfl
  · obtain ⟨epoch, selfKey, config, now, orphan, slots, radio, rfl⟩ := h.fresh
    cases hx
  · rw [h.log]
    exact .nil

/-! ### Runs -/

end Broker

end MeshCoreTCPMux

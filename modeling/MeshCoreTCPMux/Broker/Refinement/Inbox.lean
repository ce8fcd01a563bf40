import MeshCoreTCPMux.Broker.Refinement.Output

/-!
# Refinement: the virtual inbox

Handing out one physical inbox result is a sequence of parts of one `Pop`. The loops over slots and
clients carry the history so far: which slots and which clients have been offered the item.
-/

namespace MeshCoreTCPMux

open Protocol Program Relation

namespace Broker

variable {s t u : Broker} {transaction : Transaction} {payload : Bytes}

/-! ### Delivering one item -/

/-- What `deliverItem` does: the item at the head leaves the queue with the frame that carries it,
or the session leaves. -/
inductive Delivered (s : Broker) (id : Nat) (session : Session) (item : Bytes) : Broker → Prop
  | sent {visible : Bytes} (hroom : s.Room session)
      (hvisible : downgradeInbox item session.targetVersion = .ok visible) (report : Report) :
      Delivered s id session item
        { (s.send id visible (.item item)).shiftInbox id session item with report := report }
  | dropped {t : Broker} (hfull : ¬ s.Room session)
      (ht : s.Removed id session ["output queue overflow"] t) : Delivered s id session item t

theorem WF.inbox_items (h : s.WF) {id : Nat} {session : Session} {queue : List Bytes}
    (hlive : s.sessions.find? id = some session) (hqueue : s.inboxFor? session = some queue) :
    ∀ item ∈ queue, InboxItem item := by
  unfold inboxFor? at hqueue
  split at hqueue
  · obtain rfl := Option.some.inj hqueue
    exact (h.session id session hlive).items
  · obtain ⟨slot, hslot, rfl⟩ := Option.map_eq_some_iff.mp hqueue
    exact (h.slot _ slot hslot).items

theorem shiftInbox_own {id : Nat} {session : Session} (item : Bytes)
    (hslot : session.dedicatedSlotId = none) :
    s.shiftInbox id session item =
      { s with sessions := s.sessions.modify id fun x => { x with inbox := x.inbox.tail } } := by
  simp only [shiftInbox, hslot]

theorem shiftInbox_slot {id k : Nat} {session : Session} (item : Bytes)
    (hslot : session.dedicatedSlotId = some k) :
    s.shiftInbox id session item =
      { s with
        dedicatedSlots := s.dedicatedSlots.modify k fun slot =>
          { slot with offlineQueue := slot.offlineQueue.tail }.recordDelivery
        log := s.log ++ [.slotDelivered k item] } := by
  simp only [shiftInbox, hslot]

theorem WF.deliverItem (h : s.WF) {id : Nat} {session : Session} {item : Bytes}
    {rest : List Bytes} (hlive : s.sessions.find? id = some session)
    (hinbox : s.inboxFor? session = some (item :: rest)) :
    Returns (deliverItem id) s fun _ t => s.Delivered id session item t := by
  obtain ⟨visible, hvisible⟩ := exists_downgradeInbox
    (h.inbox_items hlive hinbox item List.mem_cons_self).shape session.targetVersion
  unfold Returns MeshCoreTCPMux.deliverItem
  simp only [wp_bind, wp_get, hlive, hinbox]
  refine wp_ofExcept hvisible ?_
  refine wp_of_returns (h.emit id visible (.item item)) fun w t ht => ?_
  cases ht with
  | gone hgone => simp [hlive] at hgone
  | sent hlive' hroom report =>
    obtain rfl := Option.some.inj (hlive.symm.trans hlive')
    simp only [Option.isSome_some, if_true]
    have hsent : ∀ report, s.Delivered id session item _ := Delivered.sent hroom hvisible
    cases hslot : session.dedicatedSlotId with
    | none =>
      rw [shiftInbox_own item hslot] at hsent
      exact hsent report
    | some k =>
      rw [shiftInbox_slot item hslot] at hsent
      simp only [wp_bind, wp_modifySlot, wp_perform]
      exact hsent _
  | dropped hlive' hfull ht =>
    obtain rfl := Option.some.inj (hlive.symm.trans hlive')
    exact .dropped hfull ht

theorem find?_shiftInbox {id : Nat} {x : Session} (session : Session) (item : Bytes)
    (hx : s.sessions.find? id = some x) :
    ∃ queue, (s.shiftInbox id session item).sessions.find? id = some { x with inbox := queue } := by
  unfold shiftInbox
  split
  · exact ⟨x.inbox.tail, by simp [hx]⟩
  · exact ⟨x.inbox, hx⟩

theorem shiftInbox_report (id : Nat) (session : Session) (item : Bytes) (report report' : Report) :
    { { s with report := report }.shiftInbox id session item with report := report' }
      = { s.shiftInbox id session item with report := report' } := by
  cases hslot : session.dedicatedSlotId with
  | none => rw [shiftInbox_own item hslot, shiftInbox_own item hslot]
  | some k => rw [shiftInbox_slot item hslot, shiftInbox_slot item hslot]

theorem Delivered.of_report {id : Nat} {session : Session} {item : Bytes} {report : Report}
    (h : { s with report := report }.Delivered id session item t) :
    s.Delivered id session item t := by
  cases h with
  | sent hroom hvisible report' =>
    have hsent : s.Delivered id session item _ := .sent (s := s) hroom hvisible report'
    rwa [← shiftInbox_report _ _ _ report] at hsent
  | dropped hfull ht => exact .dropped hfull ht.of_report

/-! ### Parts that offer nothing -/

/-- Notes that record no custody of an item. -/
structure Quiet (notes : List Note) : Prop where
  pops : pops notes = []
  offers : ∀ id, offers id notes = []
  slotOffers : ∀ k, slotOffers k notes = []
  orphans : orphans notes = []

theorem pops_append (l m : List Note) : Broker.pops (l ++ m) = Broker.pops l ++ Broker.pops m :=
  List.filterMap_append

theorem offers_append (id : Nat) (l m : List Note) :
    Broker.offers id (l ++ m) = Broker.offers id l ++ Broker.offers id m := List.filterMap_append

theorem slotOffers_append (k : Nat) (l m : List Note) :
    Broker.slotOffers k (l ++ m) = Broker.slotOffers k l ++ Broker.slotOffers k m :=
  List.filterMap_append

theorem orphans_append (l m : List Note) :
    Broker.orphans (l ++ m) = Broker.orphans l ++ Broker.orphans m := List.filterMap_append

theorem Quiet.nil : Quiet [] := ⟨rfl, fun _ => rfl, fun _ => rfl, rfl⟩

theorem Quiet.append {l m : List Note} (hl : Quiet l) (hm : Quiet m) : Quiet (l ++ m) :=
  ⟨by rw [pops_append, hl.pops, hm.pops]; rfl,
    fun id => by rw [offers_append, hl.offers, hm.offers]; rfl,
    fun k => by rw [slotOffers_append, hl.slotOffers, hm.slotOffers]; rfl,
    by rw [orphans_append, hl.orphans, hm.orphans]; rfl⟩

/-- What handing out an item leaves alone: it creates no session and no slot. -/
structure Shrinks (s t : Broker) : Prop where
  sessions : ∀ id y, t.sessions.find? id = some y →
    ∃ x, s.sessions.find? id = some x ∧ x.dedicatedSlotId = y.dedicatedSlotId
  slots : t.dedicatedSlots.keys = s.dedicatedSlots.keys
  active : t.active = s.active

theorem Shrinks.refl : Shrinks s s := ⟨fun _ y hy => ⟨y, hy, rfl⟩, rfl, rfl⟩

theorem Shrinks.trans (hst : Shrinks s t) (htu : Shrinks t u) : Shrinks s u where
  sessions := fun id z hz => by
    obtain ⟨y, hy, hyz⟩ := htu.sessions id z hz
    obtain ⟨x, hx, hxy⟩ := hst.sessions id y hy
    exact ⟨x, hx, hxy.trans hyz⟩
  slots := htu.slots.trans hst.slots
  active := htu.active.trans hst.active

/-- A change of one session that keeps its slot. -/
theorem Shrinks.modifySession {id : Nat} {f : Session → Session}
    (hf : ∀ x, (f x).dedicatedSlotId = x.dedicatedSlotId)
    (hsessions : t.sessions = s.sessions.modify id f)
    (hslots : t.dedicatedSlots.keys = s.dedicatedSlots.keys) (hactive : t.active = s.active) :
    Shrinks s t where
  sessions := fun i y hy => by
    rw [hsessions, OrdMap.find?_modify] at hy
    split at hy
    · obtain ⟨x, hx, rfl⟩ := Option.map_eq_some_iff.mp hy
      exact ⟨x, hx, (hf x).symm⟩
    · exact ⟨y, hy, rfl⟩
  slots := hslots
  active := hactive

theorem keys_detachedSlots {id : Nat} {session : Session} :
    (s.detachedSlots id session).keys = s.dedicatedSlots.keys := by
  unfold detachedSlots
  split <;> simp

theorem Shrinks.drop {id : Nat} {session : Session} {reason : Text} :
    Shrinks s (s.drop id session reason) where
  sessions := fun i y hy => by
    rw [Broker.drop, OrdMap.find?_erase] at hy
    split at hy
    · cases hy
    · exact ⟨y, hy, rfl⟩
  slots := keys_detachedSlots
  active := rfl

theorem Shrinks.send {id : Nat} {frame : Bytes} {cause : Cause} :
    Shrinks s (s.send id frame cause) :=
  .modifySession (f := fun x =>
    { x with writes := x.writes.insert (s.nextWrite + 1) ⟨s.now + s.config.writeTimeout⟩ })
    (fun _ => rfl) rfl rfl rfl

theorem Shrinks.endSync {id : Nat} : Shrinks s (s.endSync id) :=
  .modifySession (f := fun x => { x with sync := none }) (fun _ => rfl) rfl rfl rfl

theorem Shrinks.shiftInbox {id : Nat} {session : Session} {item : Bytes} :
    Shrinks s (s.shiftInbox id session item) := by
  unfold Broker.shiftInbox
  split
  · exact .modifySession (f := fun x => { x with inbox := x.inbox.tail }) (fun _ => rfl) rfl rfl rfl
  · exact ⟨fun _ y hy => ⟨y, hy, rfl⟩, by simp, rfl⟩

theorem Shrinks.of_output (h : Output s t) : Shrinks s t := by
  cases h with
  | drop => exact .drop
  | hint h hnone hroom =>
    exact Shrinks.send.trans (.modifySession (f := fun x =>
      { x with availabilityHintWriteId := some (s.nextWrite + 1) }) (fun _ => rfl) rfl rfl rfl)

theorem Shrinks.offerSlot {k : Nat} {item : Bytes} : Shrinks s (s.offerSlot k item) :=
  ⟨fun _ y hy => ⟨y, hy, rfl⟩, by simp [Broker.offerSlot], rfl⟩

theorem Shrinks.offer {id : Nat} {item : Bytes} : Shrinks s (s.offer id item) :=
  .modifySession (f := fun x => { x with inbox := x.inbox ++ [item] }) (fun _ => rfl) rfl rfl rfl

theorem Shrinks.of_receives {id : Nat} {session : Session} (h : s.Receives id session t) :
    Shrinks s t := by
  cases h with
  | held => exact .refl
  | served => exact (Shrinks.endSync.trans .send).trans .shiftInbox
  | slow => exact .drop

theorem Shrinks.of_pop (h : Pop transaction payload s t) : Shrinks s t := by
  cases h with
  | output h => exact .of_output h
  | answered => exact Shrinks.endSync.trans .send
  | duplicate | popped | orphaned => exact ⟨fun _ y hy => ⟨y, hy, rfl⟩, rfl, rfl⟩
  | flooded => exact .drop
  | slotOffered => exact .offerSlot
  | attachedOffered _ _ _ _ ht => exact Shrinks.offerSlot.trans (.of_receives ht)
  | offered _ _ _ _ ht => exact Shrinks.offer.trans (.of_receives ht)

theorem Shrinks.of_closes (h : Closes transaction payload s t) : Shrinks s t := by
  cases h with
  | settled | continued => exact ⟨fun _ y hy => ⟨y, hy, rfl⟩, rfl, rfl⟩

theorem Shrinks.of_parts (h : ReflTransGen (PopStep transaction payload) s t) : Shrinks s t := by
  induction h with
  | refl => exact .refl
  | tail _ hlast ih =>
    cases hlast with
    | report report => exact ih.trans ⟨fun _ y hy => ⟨y, hy, rfl⟩, rfl, rfl⟩
    | mk hpop report =>
      exact ih.trans ((Shrinks.of_pop hpop).trans ⟨fun _ y hy => ⟨y, hy, rfl⟩, rfl, rfl⟩)

/-! ### Parts with their history -/

/-- Parts of handing out a result, whose history satisfies `P`. -/
def Hands (transaction : Transaction) (payload : Bytes) (P : List Note → Prop) (s t : Broker) :
    Prop :=
  ReflTransGen (PopStep transaction payload) s t ∧ ∃ notes, t.log = s.log ++ notes ∧ P notes

/-- Parts that offer nothing. -/
abbrev Serves (transaction : Transaction) (payload : Bytes) : Broker → Broker → Prop :=
  Hands transaction payload Quiet

theorem Hands.trans {P Q R : List Note → Prop} (hst : Hands transaction payload P s t)
    (htu : Hands transaction payload Q t u) (happend : ∀ l m, P l → Q m → R (l ++ m)) :
    Hands transaction payload R s u := by
  obtain ⟨hst, l, hl, hP⟩ := hst
  obtain ⟨htu, m, hm, hQ⟩ := htu
  exact ⟨hst.trans htu, l ++ m, by rw [hm, hl, List.append_assoc], happend l m hP hQ⟩

theorem Hands.one {P : List Note → Prop} (h : Pop transaction payload s t) (notes : List Note)
    (hlog : t.log = s.log ++ notes) (hnotes : P notes) (report : Report) :
    Hands transaction payload P s { t with report := report } :=
  ⟨.single (.mk h report), notes, hlog, hnotes⟩

theorem Serves.refl : Serves transaction payload s s :=
  ⟨.refl, [], (List.append_nil _).symm, .nil⟩

theorem Serves.report (report : Report) :
    Serves transaction payload s { s with report := report } :=
  ⟨.single (.report report), [], (List.append_nil _).symm, .nil⟩

theorem Serves.trans (hst : Serves transaction payload s t)
    (htu : Serves transaction payload t u) : Serves transaction payload s u :=
  Hands.trans hst htu fun _ _ => Quiet.append

theorem Hands.thenServes {P : List Note → Prop} (hst : Hands transaction payload P s t)
    (htu : Serves transaction payload t u) (hP : ∀ l m, P l → Quiet m → P (l ++ m)) :
    Hands transaction payload P s u :=
  hst.trans htu hP

theorem delivering_of_idle (hidle : s.active = none) (id : Nat) : s.delivering id = false := by
  simp [delivering, hidle]

/-- A session may leave while an item is handed out. -/
theorem Removed.serves {id : Nat} {session : Session} {reason : Text}
    (ht : s.Removed id session reason t) (hidle : s.active = none)
    (hlive : s.sessions.find? id = some session) (hdeparts : s.Departs id session reason) :
    Serves transaction payload s t := by
  have hother := delivering_of_idle hidle id
  obtain ⟨report, rfl⟩ := ht.eq_drop hother
  exact .one (.output (.drop hlive hdeparts hother)) _ rfl ⟨rfl, fun _ => rfl, fun _ => rfl, rfl⟩ report

/-- A session that leaves right after its wait ended left while it was waiting. -/
theorem Removed.of_endSync {id : Nat} {session : Session} {reason : Text}
    (ht : (s.endSync id).Removed id { session with sync := none } reason t) :
    s.Removed id session reason t :=
  ht.of_drop_eq (fun _ => by rw [drop_endSync]) rfl

theorem shiftInbox_log (id : Nat) (session : Session) (item : Bytes) :
    ∃ notes, (s.shiftInbox id session item).log = s.log ++ notes ∧ Quiet notes := by
  cases hslot : session.dedicatedSlotId with
  | none =>
    rw [shiftInbox_own item hslot]
    exact ⟨[], (List.append_nil _).symm, .nil⟩
  | some k =>
    rw [shiftInbox_slot item hslot]
    exact ⟨[.slotDelivered k item], rfl, rfl, fun _ => rfl, fun _ => rfl, rfl⟩

/-- An item delivered to a session that was waiting when it was offered. -/
theorem Delivered.receives {id : Nat} {session : Session} {sync : PendingSync} {item : Bytes}
    {rest : List Bytes} (ht : (s.endSync id).Delivered id { session with sync := none } item t)
    (hidle : s.active = none) (hsync : session.sync = some sync)
    (hinbox : s.inboxFor? session = some (item :: rest)) :
    ∃ u report notes, s.Receives id session u ∧ t = { u with report := report } ∧
      u.log = s.log ++ notes ∧ Quiet notes := by
  cases ht with
  | @sent visible hroom hvisible report =>
    obtain ⟨notes, hlog, hquiet⟩ := shiftInbox_log (s := (s.endSync id).send id visible (.item item))
      id session item
    refine ⟨_, report, .sent _ (.item item) :: notes, .served hsync hroom hinbox hvisible, rfl,
      hlog.trans (List.append_assoc _ [_] notes), ?_⟩
    exact Quiet.append (l := [_]) ⟨rfl, fun _ => rfl, fun _ => rfl, rfl⟩ hquiet
  | dropped hfull ht =>
    obtain ⟨report, rfl⟩ := ht.of_endSync.eq_drop (delivering_of_idle hidle id)
    exact ⟨_, report, _, .slow hsync hfull, rfl, rfl, rfl, fun _ => rfl, fun _ => rfl, rfl⟩

theorem WF.hintServes (h : s.WF) (hidle : s.active = none) (id : Nat) :
    Returns (MeshCoreTCPMux.emitAvailabilityHint id) s fun _ t =>
      Serves transaction payload s t := by
  cases hfailed : s.failed with
  | true =>
    unfold Returns MeshCoreTCPMux.emitAvailabilityHint
    simp only [wp_bind, wp_get, h.no_session hfailed id, wp_pure]
    exact .refl
  | false =>
    refine (emitAvailabilityHint_spec id (h.up hfailed)).mono fun _ t ht => ?_
    rcases ht with rfl | ⟨session, report, hlive, hnone, hroom, rfl⟩ | ⟨session, hlive, hfull, ht⟩
    · exact .refl
    · exact .one (.output (.hint hlive hnone hroom)) _ rfl ⟨rfl, fun _ => rfl, fun _ => rfl, rfl⟩ report
    · exact ht.serves hidle hlive (.slow hfull)

/-! ### The empty result -/

theorem WF.answerNoMore (h : s.WF) (hidle : s.active = none)
    (hempty : opcode payload = respNoMoreMessages) (id : Nat) :
    Returns (answerNoMore transaction id) s fun _ t => Serves transaction payload s t := by
  unfold Returns MeshCoreTCPMux.answerNoMore
  simp only [wp_bind, wp_get]
  split
  · exact .refl
  next session hlive =>
  split
  · exact .refl
  next sync hsync =>
  rw [wp_ite]
  split
  swap
  · exact .refl
  next hpop =>
  simp only [wp_bind, wp_modifySession]
  refine wp_of_returns ((h.endSync id).emit id _ _) fun w t ht => ?_
  cases ht with
  | gone hgone => simp [find?_endSync hlive] at hgone
  | sent hlive' hroom report =>
    obtain rfl := Option.some.inj ((find?_endSync hlive).symm.trans hlive')
    exact .one (.answered hempty hlive hsync hpop hroom) _ rfl ⟨rfl, fun _ => rfl, fun _ => rfl, rfl⟩ report
  | dropped hlive' hfull ht =>
    obtain rfl := Option.some.inj ((find?_endSync hlive).symm.trans hlive')
    exact ht.of_endSync.serves hidle hlive (.slow hfull)

/-- While a result is handed out, no transaction is active and the broker is well formed. -/
structure Handing (payload : Bytes) (s : Broker) : Prop where
  wf : s.WF
  idle : s.active = none
  item : opcode payload ∈ inboxItemCodes → InboxItem payload

theorem Handing.hands {P : List Note → Prop} (h : s.Handing payload)
    (hst : Hands transaction payload P s t) : t.Handing payload :=
  ⟨h.wf.popSteps h.item hst.1, (Shrinks.of_parts hst.1).active.trans h.idle, h.item⟩

/-- Nobody has custody of what is not popped. -/
theorem Quiet.custody {notes : List Note} (h : Quiet notes)
    (hnone : ¬ (opcode payload ∈ inboxItemCodes ∧ s.seenBefore payload = false)) :
    Custody transaction payload s t notes where
  popped := by rw [h.pops, if_neg hnone]
  slots := fun k _ => by rw [h.slotOffers, h.pops]
  clients := fun id _ _ _ => by rw [h.offers, h.pops]
  held := Or.inl h.orphans
  kept := fun _ _ => by rw [h.orphans, h.pops]

/-- The last part ends it all. -/
theorem Hands.closes (h : Hands transaction payload (Custody transaction payload s t) s t)
    (hlast : Closes transaction payload t u) : HandsOut transaction payload s u := by
  obtain ⟨hparts, notes, hlog, hnotes⟩ := h
  obtain ⟨more, hmore, hquiet⟩ : ∃ more, u.log = t.log ++ more ∧ Quiet more := by
    cases hlast with
    | settled =>
      refine ⟨_, rfl, ?_⟩
      split <;> exact ⟨rfl, fun _ => rfl, fun _ => rfl, rfl⟩
    | continued => exact ⟨[], (List.append_nil _).symm, .nil⟩
  have hpops : pops (notes ++ more) = pops notes := by
    rw [pops_append, hquiet.pops, List.append_nil]
  have horphans : orphans (notes ++ more) = orphans notes := by
    rw [orphans_append, hquiet.orphans, List.append_nil]
  refine ⟨⟨t, hparts, hlast⟩, notes ++ more, by rw [hmore, hlog, List.append_assoc], ?_⟩
  refine ⟨hpops.trans hnotes.popped, fun k hk => ?_, fun id x hx hclient => ?_, ?_, fun hmulti hs => ?_⟩
  · rw [slotOffers_append, hnotes.slots k hk, hquiet.slotOffers, hpops, List.append_nil]
  · obtain ⟨y, hy, hxy⟩ := (Shrinks.of_closes hlast).sessions id x hx
    rw [offers_append, hnotes.clients id y hy (hxy.trans hclient), hquiet.offers, hpops,
      List.append_nil]
  · rw [horphans, hpops]
    exact hnotes.held
  · rw [horphans, hpops]
    exact hnotes.kept hmulti hs

theorem Handing.popEmpty (h : s.Handing payload) (hempty : opcode payload = respNoMoreMessages) :
    Returns (popEmpty transaction) s fun _ t => HandsOut transaction payload s t := by
  unfold Returns MeshCoreTCPMux.popEmpty
  simp only [wp_bind, wp_get]
  refine wp_forM (fun _ t => Serves transaction payload s t) .refl (fun id _ t hst => ?_)
    fun t hst => ?_
  · have ht := h.hands hst
    exact wp_of_returns (ht.wf.answerNoMore ht.idle hempty id) fun _ _ hlast => hst.trans hlast
  have hanswered : Hands transaction payload (Custody transaction payload s t) s t :=
    hst.imp_right (Exists.imp fun _ hnotes => ⟨hnotes.1, hnotes.2.custody fun hitem =>
      absurd (hempty ▸ hitem.1) (by decide)⟩)
  have hsettled : ∀ report, Closes transaction payload t
      { t.settle transaction with report := report } := .settled hempty
  unfold settle at hsettled
  cases hnewer : t.newerWork transaction with
  | false =>
    simp only [hnewer] at hsettled
    exact hanswered.closes (hsettled _)
  | true =>
    simp only [hnewer, if_true, List.append_nil] at hsettled
    exact hanswered.closes (hsettled t.report)

/-! ### One slot, one client -/

/-- Notes that offer `item` to the slot `k` and to nobody else. -/
structure OffersSlot (k : Nat) (item : Bytes) (notes : List Note) : Prop where
  pops : Broker.pops notes = []
  offers : ∀ id, Broker.offers id notes = []
  slotOffers : ∀ j, Broker.slotOffers j notes = if j = k then [item] else []
  orphans : Broker.orphans notes = []

theorem OffersSlot.append {k : Nat} {item : Bytes} {l m : List Note} (hl : OffersSlot k item l)
    (hm : Quiet m) : OffersSlot k item (l ++ m) :=
  ⟨by rw [pops_append, hl.pops, hm.pops]; rfl,
    fun id => by rw [offers_append, hl.offers, hm.offers]; rfl,
    fun j => by rw [slotOffers_append, hl.slotOffers, hm.slotOffers, List.append_nil],
    by rw [orphans_append, hl.orphans, hm.orphans]; rfl⟩

theorem wp_warnDedicatedOverflow {Q : Unit → Broker → Prop} {E : Error → Broker → Prop} (k : Nat)
    (event : String) (h : ∀ report, Q () { s with report := report }) :
    wp (warnDedicatedOverflow k event) Q E s := by
  unfold warnDedicatedOverflow
  simp only [wp_bind, wp_get]
  rw [wp_ite]
  split
  · exact h _
  · simp only [wp_bind, wp_modify]
    exact wp_diagnostic _ _ fun report => h report

/-- An empty queue takes an item. -/
theorem enqueueOffline_empty {slot : DedicatedClientSlot} {limit : Nat} (item : Bytes)
    (hempty : slot.offlineQueue = []) (hlimit : 0 < limit) :
    (slot.enqueueOffline item limit).1 = .added ∧
      (slot.enqueueOffline item limit).2.offlineQueue = [item] := by
  simp [DedicatedClientSlot.enqueueOffline, DedicatedClientSlot.append, hempty, hlimit.ne']

/-- A session that waits is given the item that its slot is offered. -/
theorem WF.serveAttached (h : s.WF) (hidle : s.active = none) {id k : Nat} {session : Session}
    {slot : DedicatedClientSlot} {sync : PendingSync} {item : Bytes}
    (hslot : s.dedicatedSlots.find? k = some slot) (hattached : slot.attachedSessionId = some id)
    (hlive : s.sessions.find? id = some session) (hsync : session.sync = some sync)
    (hqueue : slot.offlineQueue = []) (hitem : InboxItem item) (report : Report) :
    Returns (MeshCoreTCPMux.deliverItem id)
      { (s.offerSlot k item).endSync id with report := report } fun _ t =>
        ∃ u report notes, (s.offerSlot k item).Receives id session u ∧
          t = { u with report := report } ∧ u.log = (s.offerSlot k item).log ++ notes ∧
          Quiet notes := by
  obtain ⟨x, hx, hk⟩ := (h.slot k slot hslot).attached id hattached
  obtain rfl := Option.some.inj (hlive.symm.trans hx)
  have hinbox : (s.offerSlot k item).inboxFor? session = some [item] := by
    simp [inboxFor?, hk, Broker.offerSlot, hslot,
      (enqueueOffline_empty item hqueue h.config.positive.1.2.2.1).2]
  have hwf : WF { (s.offerSlot k item).endSync id with report := report } :=
    { h.attachedOffered hslot hattached hlive hitem with }
  exact (hwf.deliverItem (find?_endSync (s := s.offerSlot k item) hlive) hinbox).mono
    fun _ _ ht => ht.of_report.receives hidle hsync hinbox

variable (transaction) in
theorem Handing.offerSlot (h : s.Handing payload) (hitem : opcode payload ∈ inboxItemCodes) {k : Nat}
    (hk : k ∈ s.dedicatedSlots.keys) :
    Returns (MeshCoreTCPMux.offerSlot payload k) s fun _ t =>
      Hands transaction payload (OffersSlot k payload) s t := by
  obtain ⟨slot, hslot⟩ := OrdMap.mem_keys_iff.mp hk
  have hnotes : OffersSlot k payload [.slotOffered k payload] := by
    refine ⟨rfl, fun _ => rfl, fun j => ?_, rfl⟩
    by_cases hj : j = k <;> simp [slotOffers, hj, eq_comm]
  have hmodify : (s.dedicatedSlots.modify k fun _ =>
        (slot.enqueueOffline payload s.config.offlineQueueSize).2) =
      s.dedicatedSlots.modify k fun slot =>
        (slot.enqueueOffline payload s.config.offlineQueueSize).2 :=
    OrdMap.modify_congr hslot rfl
  -- what follows the offer: the session is notified, unless the item was discarded
  have hnotify : ∀ wasEmpty report,
      ((slot.enqueueOffline payload s.config.offlineQueueSize).1 ≠ .newMessageDiscarded →
        Returns (MeshCoreTCPMux.notifySlot slot.attachedSessionId wasEmpty)
          { s.offerSlot k payload with report := report }
          fun _ t => Hands transaction payload (OffersSlot k payload) s t) ∧
      ((slot.enqueueOffline payload s.config.offlineQueueSize).1 = .newMessageDiscarded →
        Hands transaction payload (OffersSlot k payload) s
          { s.offerSlot k payload with report := report }) := by
    intro wasEmpty report
    cases hattached : slot.attachedSessionId with
    | none =>
      have hoffered : Hands transaction payload (OffersSlot k payload) s
          { s.offerSlot k payload with report := report } :=
        .one (.slotOffered hslot hattached hitem) _ rfl hnotes report
      exact ⟨fun _ => hoffered, fun _ => hoffered⟩
    | some id =>
      obtain ⟨session, hlive, hdedicated⟩ := (h.wf.slot k slot hslot).attached id hattached
      have hlive' : { s.offerSlot k payload with report := report }.sessions.find? id
          = some session := hlive
      unfold Returns MeshCoreTCPMux.notifySlot
      simp only [wp_bind, wp_get, hlive']
      cases hsync : session.sync with
      | none =>
        have hoffered : Hands transaction payload (OffersSlot k payload) s
            { s.offerSlot k payload with report := report } :=
          .one (.attachedOffered hslot hattached hlive hitem (.held hsync)) _ rfl hnotes report
        refine ⟨fun _ => ?_, fun _ => hoffered⟩
        simp only [Option.isSome_none, Bool.false_eq_true, if_false]
        rw [wp_ite]
        split
        · have ht := h.hands hoffered
          exact wp_of_returns (ht.wf.hintServes ht.idle id) fun _ t ht =>
            hoffered.thenServes ht fun _ _ => OffersSlot.append
        · exact hoffered
      | some sync =>
        have hqueue : slot.offlineQueue = [] :=
          ((h.wf.session id session hlive).waits (by simp [hsync])).slot k slot hdedicated hslot
        refine ⟨fun _ => ?_, fun hdiscarded => ?_⟩
        · simp only [Option.isSome_some, if_true, wp_bind, wp_modifySession]
          refine wp_of_returns (h.wf.serveAttached h.idle hslot hattached hlive hsync hqueue
            (h.item hitem) report) ?_
          rintro _ _ ⟨u, report, notes, hreceives, rfl, hlog, hquiet⟩
          exact .one (.attachedOffered hslot hattached hlive hitem hreceives)
            ([.slotOffered k payload] ++ notes) (hlog.trans (List.append_assoc _ _ _))
            (hnotes.append hquiet) report
        · have hadded := enqueueOffline_empty payload hqueue h.wf.config.positive.1.2.2.1
          simp [hadded.1] at hdiscarded
  unfold Returns MeshCoreTCPMux.offerSlot
  simp only [wp_bind, wp_get, hslot, wp_modifySlot, wp_perform, hmodify]
  rw [DedicatedClientSlot.enqueueOffline_attached]
  cases hresult : (slot.enqueueOffline payload s.config.offlineQueueSize).1 with
  | newMessageDiscarded =>
    exact wp_warnDedicatedOverflow _ _ fun report => (hnotify false report).2 hresult
  | channelEvicted =>
    simp only [wp_bind, if_true]
    refine wp_warnDedicatedOverflow _ _ fun report => ?_
    rw [wp_ite]
    split
    · simp only [wp_bind]
      refine wp_diagnostic _ _ fun report => ?_
      exact (hnotify _ report).1 (by simp [hresult])
    · exact (hnotify _ report).1 (by simp [hresult])
  | added =>
    simp only [reduceCtorEq, if_false]
    rw [wp_ite]
    split
    · simp only [wp_bind]
      refine wp_diagnostic _ _ fun report => ?_
      exact (hnotify _ report).1 (by simp [hresult])
    · exact (hnotify _ _).1 (by simp [hresult])

/-- Notes that offer `item` to the client `id`, if it is still there, and to nobody else. -/
structure OffersClient (id : Nat) (item : Bytes) (t : Broker) (notes : List Note) : Prop where
  pops : Broker.pops notes = []
  slotOffers : ∀ k, Broker.slotOffers k notes = []
  orphans : Broker.orphans notes = []
  others : ∀ i, i ≠ id → Broker.offers i notes = []
  offers : id ∈ t.sessions.keys → Broker.offers id notes = [item]

theorem OffersClient.gone {id : Nat} {item : Bytes} {notes : List Note} (hquiet : Quiet notes)
    (hgone : t.sessions.find? id = none) : OffersClient id item t notes where
  pops := hquiet.pops
  slotOffers := hquiet.slotOffers
  orphans := hquiet.orphans
  others := fun i _ => hquiet.offers i
  offers := fun hlive => absurd hlive (OrdMap.find?_eq_none.mp hgone)

theorem OffersClient.append {id : Nat} {item : Bytes} {l m : List Note}
    (hl : OffersClient id item t l) (hm : Quiet m) (hst : Shrinks t u) :
    OffersClient id item u (l ++ m) where
  pops := by rw [pops_append, hl.pops, hm.pops]; rfl
  slotOffers := fun k => by rw [slotOffers_append, hl.slotOffers, hm.slotOffers]; rfl
  orphans := by rw [orphans_append, hl.orphans, hm.orphans]; rfl
  others := fun i hi => by rw [offers_append, hl.others i hi, hm.offers]; rfl
  offers := fun hlive => by
    obtain ⟨y, hy⟩ := OrdMap.mem_keys_iff.mp hlive
    obtain ⟨x, hx, -⟩ := hst.sessions id y hy
    rw [offers_append, hl.offers (OrdMap.mem_keys_of_find? hx), hm.offers, List.append_nil]

variable (transaction) in
theorem Handing.enqueueMultiClient (h : s.Handing payload)
    (hitem : opcode payload ∈ inboxItemCodes) {id : Nat}
    (hclient : ∀ x, s.sessions.find? id = some x → x.dedicatedSlotId = none) :
    Returns (MeshCoreTCPMux.enqueueMultiClient payload id) s fun _ t =>
      Hands transaction payload (OffersClient id payload t) s t := by
  unfold Returns MeshCoreTCPMux.enqueueMultiClient
  simp only [wp_bind, wp_get]
  split
  · next hgone => exact ⟨.refl, [], (List.append_nil _).symm, .gone .nil hgone⟩
  next session hlive =>
  rw [wp_ite]
  split
  · next hlimit =>
    have hrunning := h.wf.running_of_live hlive
    refine wp_of_returns (remove_spec _ _ (h.wf.up hrunning) hlive) fun _ t ht => ?_
    have hgone := ht.gone
    obtain ⟨report, rfl⟩ := ht.eq_drop (delivering_of_idle h.idle id)
    exact .one (.flooded hlive (hclient session hlive) hlimit hitem) [_] rfl
      (.gone ⟨rfl, fun _ => rfl, fun _ => rfl, rfl⟩ hgone) report
  next hlimit =>
  have hmulti := hclient session hlive
  have hnotes : ∀ t, OffersClient id payload t [.offered id payload] := by
    refine fun t => ⟨rfl, fun _ => rfl, rfl, fun i hi => ?_, fun _ => ?_⟩
    · simp [offers, hi.symm]
    · simp [offers]
  have hlive' := find?_offer payload hlive
  have hoffer : ∀ {u}, (s.offer id payload).Receives id
      { session with inbox := session.inbox ++ [payload] } u → Pop transaction payload s u :=
    .offered hlive hmulti (not_le.mp hlimit) hitem
  simp only [wp_bind, wp_modifySession, wp_perform]
  cases hsync : session.sync with
  | none =>
    have hoffered : ∀ report, Hands transaction payload
        (OffersClient id payload { s.offer id payload with report := report }) s
        { s.offer id payload with report := report } :=
      fun report => .one (hoffer (.held hsync)) _ rfl (hnotes _) report
    simp only [Option.isSome_none, Bool.false_eq_true, if_false]
    rw [wp_ite]
    split
    · have ht := h.hands (hoffered (s.record (.offered id payload)).report)
      refine wp_of_returns (@WF.hintServes _ transaction payload ht.wf ht.idle id) fun _ t ht => ?_
      exact (hoffered _).trans ht fun l m hl hm => hl.append hm (Shrinks.of_parts ht.1)
    · exact hoffered _
  | some sync =>
    have hqueue : session.inbox = [] :=
      ((h.wf.session id session hlive).waits (by simp [hsync])).own hmulti
    have hinbox : (s.offer id payload).inboxFor?
        { session with inbox := session.inbox ++ [payload] } = some [payload] := by
      simp [inboxFor?, hmulti, hqueue]
    have hwf : ∀ report, WF { (s.offer id payload).endSync id with report := report } := fun report =>
      { h.wf.clientOffered hlive (h.item hitem) with }
    simp only [Option.isSome_some, if_true, wp_bind, wp_modifySession]
    refine wp_of_returns ((hwf _).deliverItem (find?_endSync hlive') hinbox) fun _ t ht => ?_
    obtain ⟨u, report, notes, hreceives, rfl, hlog, hquiet⟩ :=
      ht.of_report.receives (s := s.offer id payload) h.idle hsync hinbox
    exact .one (hoffer hreceives) ([.offered id payload] ++ notes)
      (hlog.trans (List.append_assoc _ _ _)) ((hnotes _).append hquiet .refl) report

/-! ### Every slot, every client -/

/-- Notes that offer `item` once to each of the slots that are not among `rest`. -/
structure OffersSlots (slots rest : List Nat) (item : Bytes) (notes : List Note) : Prop where
  pops : Broker.pops notes = []
  offers : ∀ id, Broker.offers id notes = []
  slotOffers : ∀ k ∈ slots, Broker.slotOffers k notes = if k ∈ rest then [] else [item]
  orphans : Broker.orphans notes = []

variable (transaction) in
theorem Handing.fanOutDedicated (h : s.Handing payload) (hitem : opcode payload ∈ inboxItemCodes) :
    Returns (fanOutDedicated payload) s fun _ t =>
      Hands transaction payload (OffersSlots s.dedicatedSlots.keys [] payload) s t := by
  unfold Returns MeshCoreTCPMux.fanOutDedicated
  simp only [wp_bind, wp_get]
  refine wp_forM (fun rest t => rest.Nodup ∧ rest ⊆ s.dedicatedSlots.keys ∧
    Hands transaction payload (OffersSlots s.dedicatedSlots.keys rest payload) s t)
    ⟨s.dedicatedSlots.nodup_keys, List.Subset.refl _, .refl, [], (List.append_nil _).symm, rfl,
      fun _ => rfl, fun k hk => (if_pos hk).symm, rfl⟩ ?_ fun t ht => ht.2.2
  rintro k rest t ⟨hnodup, hsub, ht⟩
  have hslots := (Shrinks.of_parts ht.1).slots
  have hk : k ∈ t.dedicatedSlots.keys := hslots ▸ hsub List.mem_cons_self
  refine wp_of_returns ((h.hands ht).offerSlot transaction hitem hk)
    fun _ u hu => ⟨hnodup.of_cons, fun j hj => hsub (List.mem_cons_of_mem _ hj), ?_⟩
  refine ht.trans hu fun l m hl hm => ⟨?_, fun id => ?_, fun j hj => ?_, ?_⟩
  · rw [pops_append, hl.pops, hm.pops]; rfl
  · rw [offers_append, hl.offers, hm.offers]; rfl
  rotate_left
  · rw [orphans_append, hl.orphans, hm.orphans]; rfl
  · rw [slotOffers_append, hl.slotOffers j hj, hm.slotOffers]
    by_cases hjk : j = k
    · subst hjk
      simp [(List.nodup_cons.mp hnodup).1]
    · simp [hjk]

theorem mem_multiClients {id : Nat} : id ∈ s.multiClients ↔
    ∃ x, s.sessions.find? id = some x ∧ x.dedicatedSlotId = none := by
  simp only [multiClients, List.mem_map, List.mem_filter, Prod.exists, exists_and_right,
    exists_eq_right, Session.dedicated]
  constructor
  · rintro ⟨x, hx, hmulti⟩
    exact ⟨x, OrdMap.find?_of_mem hx, by simpa using hmulti⟩
  · rintro ⟨x, hx, hmulti⟩
    exact ⟨x, OrdMap.mem_of_find? hx, by simpa using hmulti⟩

theorem nodup_multiClients : s.multiClients.Nodup :=
  (s.sessions.nodup_keys.sublist (List.filter_sublist.map Prod.fst) :)

/-- Notes that offer `item` once to each live client that is not among `rest`. -/
structure OffersClients (rest : List Nat) (item : Bytes) (t : Broker) (notes : List Note) :
    Prop where
  pops : Broker.pops notes = []
  slotOffers : ∀ k, Broker.slotOffers k notes = []
  orphans : Broker.orphans notes = []
  offers : ∀ id ∈ t.multiClients, Broker.offers id notes = if id ∈ rest then [] else [item]

theorem Handing.enqueueAll (h : s.Handing payload) (hitem : opcode payload ∈ inboxItemCodes) :
    Returns (s.multiClients.forM (MeshCoreTCPMux.enqueueMultiClient payload)) s fun _ t =>
      Hands transaction payload (OffersClients [] payload t) s t := by
  refine wp_forM (fun rest t => rest.Nodup ∧ rest ⊆ s.multiClients ∧
    Hands transaction payload (OffersClients rest payload t) s t)
    ⟨nodup_multiClients, List.Subset.refl _, .refl, [], (List.append_nil _).symm, rfl, fun _ => rfl,
      rfl, fun id hid => (if_pos hid).symm⟩ ?_ fun t ⟨_, _, ht⟩ => ht
  rintro id rest t ⟨hnodup, hsub, ht⟩
  have hclient : ∀ y, t.sessions.find? id = some y → y.dedicatedSlotId = none := by
    intro y hy
    obtain ⟨x, hx, hxy⟩ := (Shrinks.of_parts ht.1).sessions id y hy
    obtain ⟨x', hx', hmulti⟩ := mem_multiClients.mp (hsub List.mem_cons_self)
    obtain rfl := Option.some.inj (hx.symm.trans hx')
    rw [← hxy, hmulti]
  refine wp_of_returns ((h.hands ht).enqueueMultiClient transaction hitem hclient)
    fun _ u hu => ⟨hnodup.of_cons, fun j hj => hsub (List.mem_cons_of_mem _ hj), ?_⟩
  refine ht.trans hu fun l m hl hm => ⟨?_, fun k => ?_, ?_, fun i hi => ?_⟩
  · rw [pops_append, hl.pops, hm.pops]; rfl
  · rw [slotOffers_append, hl.slotOffers, hm.slotOffers]; rfl
  · rw [orphans_append, hl.orphans, hm.orphans]; rfl
  · obtain ⟨y, hy, hmulti⟩ := mem_multiClients.mp hi
    obtain ⟨x, hx, hxy⟩ := (Shrinks.of_parts hu.1).sessions i y hy
    rw [offers_append, hl.offers i (mem_multiClients.mpr ⟨x, hx, hxy.trans hmulti⟩)]
    by_cases hid : i = id
    · subst hid
      rw [hm.offers (OrdMap.mem_keys_of_find? hy)]
      simp [(List.nodup_cons.mp hnodup).1]
    · rw [hm.others i hid]
      simp [hid]

/-! ### One result -/

theorem wp_isDuplicate {Q : Bool → Broker → Prop} {E : Error → Broker → Prop}
    (h : Q (s.seenBefore payload) { s with radio := s.seenRadio payload }) :
    wp (isDuplicate payload) Q E s := by
  unfold isDuplicate
  rw [wp_modifyGet]
  unfold seenBefore seenRadio at h
  split
  · next hconfig => simpa only [hconfig, Bool.true_and, if_true] using h
  · next hconfig => simpa only [hconfig, Bool.false_and, Bool.false_eq_true, if_false] using h

/-- Notes of a popped item that every slot, and no client, has been offered. -/
structure Fanned (slots : List Nat) (item : Bytes) (notes : List Note) : Prop where
  pops : Broker.pops notes = [item]
  offers : ∀ id, Broker.offers id notes = []
  slotOffers : ∀ k ∈ slots, Broker.slotOffers k notes = [item]
  orphans : Broker.orphans notes = []

theorem multiClients_shrinks (h : Shrinks s t) (hclients : s.multiClients = []) :
    t.multiClients = [] := by
  refine List.eq_nil_iff_forall_not_mem.mpr fun id hid => ?_
  obtain ⟨y, hy, hmulti⟩ := mem_multiClients.mp hid
  obtain ⟨x, hx, hxy⟩ := h.sessions id y hy
  have hmem : id ∈ s.multiClients := mem_multiClients.mpr ⟨x, hx, hxy.trans hmulti⟩
  simp [hclients] at hmem

/-- An item is held when every slot has been offered it and there is no client. -/
theorem Hands.orphaned (h : Hands transaction payload (Fanned s.dedicatedSlots.keys payload) s t)
    (hclients : t.multiClients = []) (hmulti : transaction.hadMultiClient = true)
    (hitem : opcode payload ∈ inboxItemCodes) (hseen : s.seenBefore payload = false)
    (report : Report) :
    Hands transaction payload (Custody transaction payload s
        { { t with orphan := some payload }.note (.orphaned payload) with report := report }) s
      { { t with orphan := some payload }.note (.orphaned payload) with report := report } := by
  have hheld : Hands transaction payload (· = [.orphaned payload]) t
      { { t with orphan := some payload }.note (.orphaned payload) with report := report } :=
    .one (P := (· = [.orphaned payload])) (.orphaned hclients hmulti hitem) _ rfl rfl report
  refine h.trans hheld fun l m hl hm => ?_
  subst hm
  have hpops : pops (l ++ [.orphaned payload]) = [payload] := by rw [pops_append, hl.pops]; rfl
  have horphans : orphans (l ++ [.orphaned payload]) = [payload] := by
    rw [orphans_append, hl.orphans]; rfl
  refine ⟨hpops.trans (if_pos ⟨hitem, hseen⟩).symm, fun k hk => ?_, fun id x hx hnone => ?_,
    Or.inr ⟨horphans.trans hpops.symm, hmulti⟩, fun _ _ => horphans.trans hpops.symm⟩
  · rw [slotOffers_append, hl.slotOffers k hk, hpops]; rfl
  · have hid : id ∈ t.multiClients := mem_multiClients.mpr ⟨x, hx, hnone⟩
    simp [hclients] at hid

/-- An item is shared among the clients when every slot has been offered it. -/
theorem Hands.shared (h : Hands transaction payload (Fanned s.dedicatedSlots.keys payload) s t)
    (hu : Hands transaction payload (OffersClients [] payload u) t u)
    (hclients : ¬ (t.multiClients = [] ∧ transaction.hadMultiClient = true))
    (hitem : opcode payload ∈ inboxItemCodes) (hseen : s.seenBefore payload = false) :
    Hands transaction payload (Custody transaction payload s u) s u := by
  refine h.trans hu fun l m hl hm => ?_
  have hpops : pops (l ++ m) = [payload] := by rw [pops_append, hl.pops, hm.pops]; rfl
  have horphans : orphans (l ++ m) = [] := by rw [orphans_append, hl.orphans, hm.orphans]; rfl
  refine ⟨hpops.trans (if_pos ⟨hitem, hseen⟩).symm, fun k hk => ?_, fun id x hx hnone => ?_,
    Or.inl horphans, fun hmulti hs => ?_⟩
  · rw [slotOffers_append, hl.slotOffers k hk, hm.slotOffers, hpops]; rfl
  · have hid : id ∈ u.multiClients := mem_multiClients.mpr ⟨x, hx, hnone⟩
    rw [offers_append, hl.offers, hm.offers id hid, hpops]; rfl
  · exact absurd ⟨multiClients_shrinks (.of_parts h.1) hs, hmulti⟩ hclients

theorem Handing.popItem (h : s.Handing payload) (hitem : opcode payload ∈ inboxItemCodes) :
    Returns (popItem transaction payload) s fun _ t => HandsOut transaction payload s t := by
  unfold Returns MeshCoreTCPMux.popItem
  simp only [wp_bind]
  refine wp_count _ _ fun report => wp_isDuplicate ?_
  rw [wp_ite]
  split
  · next hseen =>
    simp only [wp_bind, wp_get]
    refine wp_count _ _ fun report => ?_
    refine wp_diagnostic _ _ fun report => ?_
    have hnone : ¬ (opcode payload ∈ inboxItemCodes ∧ s.seenBefore payload = false) := fun hnew =>
      Bool.noConfusion (hnew.2.symm.trans hseen)
    have hdup : ∀ t report, Hands transaction payload (Custody transaction payload s t) s _ :=
      fun t => .one (.duplicate hseen hitem) [.duplicate payload] rfl
        (Quiet.custody ⟨rfl, fun _ => rfl, fun _ => rfl, rfl⟩ hnone)
    exact (hdup _ _).closes (.continued hitem)
  next hseen =>
  rw [Bool.not_eq_true] at hseen
  simp only [wp_bind, wp_perform, wp_get]
  have hpopped : ∀ report, Hands transaction payload (· = [.popped payload]) s _ :=
    .one (.popped hseen hitem) [.popped payload] rfl rfl
  refine wp_of_returns ((h.hands (hpopped _)).fanOutDedicated transaction hitem)
    fun _ t ht => ?_
  have hslots : Hands transaction payload (Fanned s.dedicatedSlots.keys payload) s t :=
    (hpopped _).trans ht fun l m hl hm => ⟨by rw [hl, pops_append, hm.pops]; rfl,
      fun id => by rw [hl, offers_append, hm.offers]; rfl,
      fun k hk => by rw [hl, slotOffers_append, hm.slotOffers k hk]; rfl,
      by rw [hl, orphans_append, hm.orphans]; rfl⟩
  rw [wp_ite]
  split
  · next horphan =>
    obtain ⟨hclients, hmulti⟩ := horphan
    simp only [wp_bind, wp_modify, wp_perform]
    exact (hslots.orphaned (List.isEmpty_iff.mp hclients) hmulti hitem hseen _).closes
      (.continued hitem)
  · next hclients =>
    rw [List.isEmpty_iff] at hclients
    simp only [wp_bind]
    exact wp_of_returns ((h.hands hslots).enqueueAll hitem)
      fun _ u hu => (hslots.shared hu hclients hitem hseen).closes (.continued hitem)

/-- **One physical inbox result** is handed out as a whole. -/
theorem Handing.popResult (h : s.Handing payload)
    (hpayload : opcode payload = respNoMoreMessages ∨ opcode payload ∈ inboxItemCodes) :
    Returns (popResult transaction payload) s fun _ t => HandsOut transaction payload s t := by
  unfold MeshCoreTCPMux.popResult
  split
  · next hempty => exact h.popEmpty hempty
  · next hsome => exact h.popItem (hpayload.resolve_left hsome)

end Broker

end MeshCoreTCPMux

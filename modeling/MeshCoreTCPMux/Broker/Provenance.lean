import MeshCoreTCPMux.Broker.FanOut

/-!
# Where inbox items come from

The broker invents no inbox item: whatever it queues, holds, offers or delivers was brought by a
frame of the companion in this epoch, or was there when the epoch began (`Known`).

`Bears s item` says that the item stands somewhere in the broker or in its history, and `Gains P s t`
that an action put nothing there but what was there before and what satisfies `P`. Only the parts
of handing out a result gain anything, namely the result, and that was received (`Sourced`).
-/

namespace MeshCoreTCPMux

open Protocol Relation History

/-- The inbox item that an entry moves. -/
def Note.item? : Note → Option Bytes
  | sent _ (.item item) | duplicate item | popped item | orphaned item | offered _ item
  | slotOffered _ item | slotDelivered _ item => some item
  | _ => none

namespace Broker

variable {s s₀ t u : Broker} {l m : List Note} {n : Note} {id : Nat} {item : Bytes}
  {P : Bytes → Prop}

/-- A frame of the companion brought the item. -/
def Brought (log : List Note) (item : Bytes) : Prop :=
  ∃ now, .input (.upstreamFrame item now) ∈ log ∨ .input (.drainUncertainFrame item now) ∈ log

/-- The item was there when the epoch began. -/
def Inherited (s₀ : Broker) (item : Bytes) : Prop :=
  s₀.orphan = some item ∨
    ∃ k slot, s₀.dedicatedSlots.find? k = some slot ∧ item ∈ slot.offlineQueue

/-- The item has a source. -/
def Known (s₀ : Broker) (log : List Note) (item : Bytes) : Prop :=
  Brought log item ∨ Inherited s₀ item

/-- The item stands somewhere in the broker, or in its history. -/
inductive Bears (s : Broker) (item : Bytes) : Prop
  | note {n : Note} (h : n ∈ s.log) (hitem : n.item? = some item)
  | inbox {id : Nat} {session : Session} (h : s.sessions.find? id = some session)
      (hitem : item ∈ session.inbox)
  | queue {k : Nat} {slot : DedicatedClientSlot} (h : s.dedicatedSlots.find? k = some slot)
      (hitem : item ∈ slot.offlineQueue)
  | orphan (h : s.orphan = some item)

theorem Brought.append (h : Brought l item) (m : List Note) : Brought (l ++ m) item := by
  obtain ⟨now, h⟩ := h
  exact ⟨now, h.imp (List.mem_append_left _) (List.mem_append_left _)⟩

/-- The frame of the current call was brought. -/
theorem brought_of_received {payload : Bytes} (h : received l = some payload) :
    Brought l payload := by
  induction l using List.reverseRecOn with
  | nil => cases h
  | append_singleton l n ih =>
    rw [received_append] at h
    have hlast : Brought (l ++ [.input (.upstreamFrame payload 0)]) payload :=
      ⟨0, .inl (List.mem_append_right _ (List.mem_singleton_self _))⟩
    have hpast : received l = some payload → Brought (l ++ [n]) payload := fun h =>
      (ih h).append [n]
    cases n with
    | input event =>
      cases event with
      | upstreamFrame frame now =>
        obtain rfl := Option.some.inj h
        exact ⟨now, .inl (List.mem_append_right _ (List.mem_singleton_self _))⟩
      | drainUncertainFrame frame now =>
        obtain rfl := Option.some.inj h
        exact ⟨now, .inr (List.mem_append_right _ (List.mem_singleton_self _))⟩
      | _ => cases h
    | replied | matched => cases h
    | _ => exact hpast h

/-! ### What an action gains -/

/-- Nothing stands in `t` but what stands in `s`, and what satisfies `P`. -/
def Gains (P : Bytes → Prop) (s t : Broker) : Prop := ∀ item, t.Bears item → s.Bears item ∨ P item

namespace Gains

theorem refl : Gains P s s := fun _ h => .inl h

theorem trans (hst : Gains P s t) (htu : Gains P t u) : Gains P s u := fun item h =>
  (htu item h).elim (hst item) .inr

theorem mono {Q : Bytes → Prop} (h : Gains P s t) (hPQ : ∀ item, P item → Q item) : Gains Q s t :=
  fun item hitem => (h item hitem).imp_right (hPQ item)

/-- Sessions that hold the same, slots that hold the same, and entries that move nothing else. -/
theorem of (hsessions : ∀ id y, t.sessions.find? id = some y →
      (∃ x, s.sessions.find? id = some x ∧ y.inbox ⊆ x.inbox) ∨ ∀ item ∈ y.inbox, s.Bears item)
    (hslots : ∀ k y, t.dedicatedSlots.find? k = some y →
      ∃ x, s.dedicatedSlots.find? k = some x ∧ y.offlineQueue ⊆ x.offlineQueue)
    (horphan : t.orphan = s.orphan ∨ t.orphan = none)
    (hlog : Adds (fun n => ∀ item, n.item? = some item → s.Bears item) s t) : Gains P s t := by
  intro item h
  refine .inl ?_
  cases h with
  | @note n h hitem =>
    obtain ⟨notes, hlog, hnotes⟩ := hlog
    rw [hlog] at h
    rcases List.mem_append.mp h with h | h
    · exact .note h hitem
    · exact hnotes n h item hitem
  | @inbox id y h hitem =>
    rcases hsessions id y h with ⟨x, hx, hsub⟩ | hall
    · exact .inbox hx (hsub hitem)
    · exact hall item hitem
  | @queue k y h hitem =>
    obtain ⟨x, hx, hsub⟩ := hslots k y h
    exact .queue hx (hsub hitem)
  | orphan h =>
    rcases horphan with heq | heq
    · exact .orphan (heq ▸ h)
    · rw [heq] at h
      cases h

/-- Nothing moves. -/
theorem keep (h : Keeps (·.item? = none) (·.inbox) s t)
    (hslots : t.dedicatedSlots = s.dedicatedSlots) (horphan : t.orphan = s.orphan) :
    Gains P s t := by
  refine of (fun id y hy => ?_) (fun k y hy => ?_) (.inl horphan) ?_
  · obtain ⟨x, hx, hxy⟩ := h.sessions id y hy
    exact .inl ⟨x, hx, by rw [hxy]; exact List.Subset.refl _⟩
  · rw [hslots] at hy
    exact ⟨y, hy, List.Subset.refl _⟩
  · refine h.log.mono fun n hn item hitem => ?_
    rw [hn] at hitem
    cases hitem

theorem note (hn : n.item? = none) : Gains P s (s.note n) := keep (.note hn) rfl rfl

theorem drop {session : Session} {reason : Text} : Gains P s (s.drop id session reason) := by
  refine of (fun i y hy => ?_) (fun k y hy => ?_) (.inl rfl) (.one rfl (by rintro _ ⟨⟩))
  · rw [Broker.drop, OrdMap.find?_erase] at hy
    split at hy
    · cases hy
    · exact .inl ⟨y, hy, List.Subset.refl _⟩
  · obtain ⟨x, hx, hxy⟩ : ∃ x, s.dedicatedSlots.find? k = some x ∧
        y.offlineQueue = x.offlineQueue := by
      simp only [Broker.drop, detachedSlots] at hy
      split at hy
      · exact ⟨y, hy, rfl⟩
      · rw [OrdMap.find?_modify] at hy
        split at hy
        · obtain ⟨x, hx, rfl⟩ := Option.map_eq_some_iff.mp hy
          exact ⟨x, hx, by split <;> rfl⟩
        · exact ⟨y, hy, rfl⟩
    exact ⟨x, hx, by rw [hxy]; exact List.Subset.refl _⟩

/-- An item that is sent was there. -/
theorem send {payload : Bytes} {cause : Cause}
    (hcause : ∀ item, cause = .item item → s.Bears item) : Gains P s (s.send id payload cause) := by
  have hkeeps : Keeps (fun _ => True) (·.inbox) s (s.send id payload cause) :=
    .send (fun _ _ => rfl) trivial
  refine of (fun i y hy => ?_) (fun k y hy => ⟨y, hy, List.Subset.refl _⟩) (.inl rfl)
    (.one rfl fun item hitem => hcause item ?_)
  · obtain ⟨x, hx, hxy⟩ := hkeeps.sessions i y hy
    exact .inl ⟨x, hx, by rw [hxy]; exact List.Subset.refl _⟩
  · cases cause with
    | item original => exact congrArg Cause.item (Option.some.inj hitem)
    | _ => cases hitem

/-- An item that is delivered was there. -/
theorem deliver {session : Session} {visible : Bytes} (hitem : s.Bears item) :
    Gains P s ((s.send id visible (.item item)).shiftInbox id session item) := by
  have hsent : Gains P s (s.send id visible (.item item)) := send fun _ heq =>
    Cause.item.inj heq ▸ hitem
  refine hsent.trans ?_
  unfold shiftInbox
  split
  · refine of (fun i y hy => ?_) (fun k y hy => ⟨y, hy, List.Subset.refl _⟩) (.inl rfl) (.refl rfl)
    simp only [OrdMap.find?_modify] at hy
    split at hy
    · obtain ⟨x, hx, rfl⟩ := Option.map_eq_some_iff.mp hy
      exact .inl ⟨x, hx, List.tail_subset _⟩
    · exact .inl ⟨y, hy, List.Subset.refl _⟩
  · refine of (fun i y hy => .inl ⟨y, hy, List.Subset.refl _⟩) (fun k y hy => ?_) (.inl rfl)
      (.one rfl fun item' heq => ?_)
    · simp only [OrdMap.find?_modify] at hy
      split at hy
      · obtain ⟨x, hx, rfl⟩ := Option.map_eq_some_iff.mp hy
        exact ⟨x, hx, List.tail_subset _⟩
      · exact ⟨y, hy, List.Subset.refl _⟩
    · obtain rfl := Option.some.inj heq
      exact .note (List.mem_append_right _ (List.mem_singleton_self _)) rfl

/-- The head of a session's queue was there. -/
theorem of_inbox {session : Session} {rest : List Bytes}
    (hlive : s.sessions.find? id = some session)
    (hinbox : s.inboxFor? session = some (item :: rest)) : s.Bears item := by
  unfold inboxFor? at hinbox
  split at hinbox
  · refine .inbox hlive ?_
    rw [Option.some.inj hinbox]
    exact List.mem_cons_self
  · obtain ⟨slot, hslot, hqueue⟩ := Option.map_eq_some_iff.mp hinbox
    refine .queue hslot ?_
    rw [hqueue]
    exact List.mem_cons_self

/-- A session inherits what was held. -/
theorem enter (slotId : Option Nat) : Gains P s (s.enter id slotId) := by
  have hheld : ∀ item ∈ (if slotId.isNone then s.orphan.toList else []), s.Bears item := by
    intro item hitem
    split at hitem
    · exact .orphan (Option.mem_toList.mp hitem)
    · cases hitem
  refine of (fun i y hy => ?_) (fun k y hy => ?_) ?_ ⟨_, rfl, fun n hn item hitem => ?_⟩
  · simp only [Broker.enter, OrdMap.find?_insert] at hy
    split at hy
    · obtain rfl := Option.some.inj hy
      exact .inr hheld
    · exact .inl ⟨y, hy, List.Subset.refl _⟩
  · cases slotId with
    | none => exact ⟨y, hy, List.Subset.refl _⟩
    | some j =>
      simp only [Broker.enter, OrdMap.find?_modify] at hy
      split at hy
      · obtain ⟨x, hx, rfl⟩ := Option.map_eq_some_iff.mp hy
        exact ⟨x, hx, List.Subset.refl _⟩
      · exact ⟨y, hy, List.Subset.refl _⟩
  · cases slotId with
    | none => exact .inr rfl
    | some => exact .inl rfl
  · rcases List.mem_cons.mp hn with rfl | hn
    · cases hitem
    · refine hheld item ?_
      split at hn
      · next hnone =>
        obtain ⟨held, hmem, rfl⟩ := List.mem_map.mp hn
        obtain rfl := Option.some.inj hitem
        rw [if_pos hnone]
        exact hmem
      · cases hn

theorem take {command : Command} : Gains P s (s.take id command) :=
  keep (.take (fun _ _ => rfl) rfl) rfl rfl

theorem endSync : Gains P s (s.endSync id) := keep (.endSync fun _ _ => rfl) rfl rfl

theorem forwarded {transaction : Transaction} {payload : Bytes} {w : Option Nat}
    (h : s.Forwarded transaction payload w t) : Gains P s t := by
  refine keep (.forwarded h (fun _ _ => rfl) (fun _ _ => rfl) fun _ => rfl) ?_ ?_
  all_goals
    cases h with
    | gone => rfl
    | live =>
      simp only [Broker.send, retarget]
      split <;> rfl

theorem output (h : Output s t) : Gains P s t := by
  cases h with
  | drop => exact drop
  | hint =>
    exact (send (by simp)).trans (keep (.modify fun _ => rfl) rfl rfl)

theorem upstream (h : Upstream s t) : Gains P s t := by
  have hkeeps : Keeps (·.item? = none) (·.inbox) s t :=
    .upstream h (fun _ _ => rfl) (fun _ _ => rfl) (fun _ _ => rfl) fun n hn => by
      cases n with
      | sent frame cause => cases cause <;> first | rfl | cases hn
      | duplicate | popped | orphaned | offered | slotOffered | slotDelivered => cases hn
      | _ => rfl
  have hforwarded : ∀ {x payload w} {u : Broker}, s.Forwarded x payload w u →
      u.dedicatedSlots = s.dedicatedSlots ∧ u.orphan = s.orphan := by
    intro x payload w u hu
    cases hu with
    | gone => exact ⟨rfl, rfl⟩
    | live =>
      unfold retarget
      split <;> exact ⟨rfl, rfl⟩
  cases h with
  | setupRejected _ _ _ _ _ _ ht | progressed _ ht | scopedReply _ ht | heldReply _ ht
  | finalReply _ ht => exact keep hkeeps (hforwarded ht).1 (hforwarded ht).2
  | _ => exact keep hkeeps rfl rfl

theorem part (h : Part s t) : Gains P s t := by
  cases h with
  | dropped => exact drop
  | released => exact keep (.same rfl rfl) rfl rfl
  | writtenDown => exact keep (.writtenDown (fun _ _ => rfl) fun _ _ => rfl) rfl rfl
  | upstream h => exact upstream h
  | failed => exact keep (.notes (m := [_]) rfl rfl (by simp [Note.item?])) rfl rfl

theorem parts (h : ReflTransGen Part s t) : Gains P s t := by
  induction h with
  | refl => exact refl
  | tail _ hlast ih => exact ih.trans (part hlast)

theorem client (h : Client s t) : Gains P s t := by
  cases h with
  | entered => exact enter _
  | @queued id _ payload =>
    have hqueued : Keeps (·.item? = none) (·.inbox) s { s with
        sessions := s.sessions.modify id fun x =>
          { x with commands := x.commands ++ [⟨payload, s.now⟩] } } := .modify fun _ => rfl
    exact keep (hqueued.trans (.notes (m := [_]) rfl rfl (by simp [Note.item?]))) rfl rfl
  | answered => exact take.trans (send (by simp))
  | @selected id _ command =>
    have hscoped : Gains P (s.take id command) ((s.take id command).setScope id command.payload) :=
      keep (.modify fun _ => rfl) rfl rfl
    exact (take.trans hscoped).trans ((send (by simp)).trans (note rfl))
  | choked => exact take.trans drop
  | @waits id _ command deadline =>
    have hwaiting : Keeps (·.item? = none) (·.inbox) (s.take id command) { s.take id command with
        sessions := (s.take id command).sessions.modify id fun x =>
          { x with sync := some ⟨s.popSequence + 1, deadline⟩ } } := .modify fun _ => rfl
    refine take.trans (keep (hwaiting.trans ?_) rfl rfl)
    exact .notes (m := [.synced id ⟨s.popSequence + 1, deadline⟩]) rfl rfl (by simp [Note.item?])
  | @delivered id session command _ _ _ h _ _ hinbox =>
    have hbears : (s.take id command).Bears _ := of_inbox h.take_live (show _ = _ from hinbox)
    exact take.trans (deliver hbears)
  | syncExpired => exact endSync.trans (send (by simp))
  | broadcast => exact send (by simp)

theorem receives {session session' : Session} (hlive : s.sessions.find? id = some session)
    (hsame : session' = session) (h : s.Receives id session' t) : Gains P s t := by
  subst hsame
  cases h with
  | held => exact refl
  | served _ _ hinbox =>
    have hbears : (s.endSync id).Bears _ := of_inbox (find?_endSync hlive) (show _ = _ from hinbox)
    exact endSync.trans (deliver hbears)
  | slow => exact drop

/-- Handing out a result gains nothing but the result. -/
theorem pop {transaction : Transaction} {payload : Bytes} (h : Pop transaction payload s t) :
    Gains (· = payload) s t := by
  have hslot : ∀ slotId, Gains (· = payload) s (s.offerSlot slotId payload) := by
    intro slotId item h
    cases h with
    | note h hitem =>
      rcases List.mem_append.mp h with h | h
      · exact .inl (.note h hitem)
      · obtain rfl := List.mem_singleton.mp h
        exact .inr (Option.some.inj hitem).symm
    | inbox h hitem => exact .inl (.inbox h hitem)
    | queue h hitem =>
      simp only [Broker.offerSlot, OrdMap.find?_modify] at h
      split at h
      · obtain ⟨x, hx, rfl⟩ := Option.map_eq_some_iff.mp h
        exact (DedicatedClientSlot.mem_enqueueOffline hitem).imp (.queue hx) id
      · exact .inl (.queue h hitem)
    | orphan h => exact .inl (.orphan h)
  have hnoted : ∀ {u : Broker} {n : Note}, u.sessions = s.sessions →
      u.dedicatedSlots = s.dedicatedSlots → (∀ item, u.orphan = some item → s.orphan = some item ∨
        item = payload) → u.log = s.log ++ [n] → (∀ item, n.item? = some item → item = payload) →
      Gains (· = payload) s u := by
    intro u n hsessions hslots horphan hlog hn item h
    cases h with
    | note h hitem =>
      rw [hlog] at h
      rcases List.mem_append.mp h with h | h
      · exact .inl (.note h hitem)
      · obtain rfl := List.mem_singleton.mp h
        exact .inr (hn item hitem)
    | inbox h hitem => exact .inl (.inbox (hsessions ▸ h) hitem)
    | queue h hitem => exact .inl (.queue (hslots ▸ h) hitem)
    | orphan h => exact (horphan item h).imp .orphan fun h => h
  cases h with
  | output h => exact output h
  | answered => exact endSync.trans (send (by simp))
  | duplicate | popped =>
    exact hnoted rfl rfl (fun _ => .inl) rfl fun _ h => (Option.some.inj h).symm
  | orphaned =>
    exact hnoted rfl rfl (fun _ h => .inr (Option.some.inj h).symm) rfl fun _ h =>
      (Option.some.inj h).symm
  | slotOffered => exact hslot _
  | attachedOffered _ _ hlive _ ht => exact (hslot _).trans (receives hlive rfl ht)
  | @offered _ id session hlive _ _ _ ht =>
    refine Gains.trans (t := s.offer id payload) ?_ (receives (find?_offer payload hlive) rfl ht)
    intro item h
    cases h with
    | note h hitem =>
      rcases List.mem_append.mp h with h | h
      · exact .inl (.note h hitem)
      · obtain rfl := List.mem_singleton.mp h
        exact .inr (Option.some.inj hitem).symm
    | inbox h hitem =>
      simp only [Broker.offer, OrdMap.find?_modify] at h
      split at h
      · obtain ⟨x, hx, rfl⟩ := Option.map_eq_some_iff.mp h
        rcases List.mem_append.mp hitem with hitem | hitem
        · exact .inl (.inbox hx hitem)
        · exact .inr (List.mem_singleton.mp hitem)
      · exact .inl (.inbox h hitem)
    | queue h hitem => exact .inl (.queue h hitem)
    | orphan h => exact .inl (.orphan h)
  | flooded => exact drop

end Gains

/-! ### Runs -/

/-- Whatever stands in the broker has a source. -/
def Sourced (s₀ s : Broker) : Prop := ∀ item, s.Bears item → Known s₀ s.log item

namespace Sourced

theorem gains (hs : Sourced s₀ s) (h : Gains P s t) (hlog : s.log <+: t.log)
    (hP : ∀ item, P item → Known s₀ t.log item) : Sourced s₀ t := by
  obtain ⟨notes, hlog⟩ := hlog
  intro item hitem
  rcases h item hitem with hbears | hnew
  · rw [← hlog]
    exact (hs item hbears).imp_left fun hbrought => hbrought.append notes
  · exact hP item hnew

theorem keep (hs : Sourced s₀ s) (h : Gains (fun _ => False) s t) (hlog : s.log <+: t.log) :
    Sourced s₀ t := hs.gains h hlog fun _ => False.elim

theorem report (hs : Sourced s₀ s) (report : Report) :
    Sourced s₀ { s with report := report } :=
  hs.keep (.keep (.same rfl rfl) rfl rfl) List.prefix_rfl

/-- One inbox result is handed out. -/
theorem handsOut {transaction : Transaction} {payload : Bytes} (hs : Sourced s₀ s) (hwf : s.WF)
    (hidle : s.active = none) (hanswer : PopAnswer transaction payload)
    (hbrought : Brought s.log payload) (hst : HandsOut transaction payload s t) :
    Sourced s₀ t := by
  obtain ⟨u, -, -, ⟨hu, hbrought⟩, hlast⟩ := hst.before_last
    (M := fun u => Sourced s₀ u ∧ Brought u.log payload) hwf hidle hanswer ⟨hs, hbrought⟩
    (fun report hu => ⟨hu.1.report report, hu.2⟩) fun {u v} _ _ hpop hu => by
      obtain ⟨notes, hlog, -⟩ := (Fixed.pop hpop).log
      have hbrought : Brought v.log payload := hlog ▸ hu.2.append notes
      refine ⟨hu.1.gains (.pop hpop) ⟨notes, hlog.symm⟩ fun item heq => ?_, hbrought⟩
      exact .inl (heq ▸ hbrought)
  refine hu.keep ?_ (Fixed.closes hlast).log.isPrefix
  refine .keep (.closes hlast rfl) ?_ ?_ <;> cases hlast <;> rfl

end Sourced

/-- **Nothing is invented**, in any atomic action. -/
theorem Invariant.sourced : Invariant (Reached s₀) (Sourced s₀) where
  report := fun report hs => hs.report report
  input := fun _ _ hs => hs.keep (.note rfl) (List.prefix_append _ _)
  clock := fun _ _ hs => hs.keep (.keep (.same rfl rfl) rfl rfl) List.prefix_rfl
  idle := by
    intro s t _ h hs
    refine hs.keep (.keep (.idle h (fun _ _ => rfl) (fun _ _ => rfl) fun _ _ => rfl) ?_ ?_)
      (Fixed.idle h).log.isPrefix <;> cases h <;> rfl
  output := fun _ h hs => hs.keep (.output h) (Fixed.output h).log.isPrefix
  client := fun _ h hs => hs.keep (.client h) (Fixed.client h).log.isPrefix
  radio := by
    intro s t _ h hs
    refine hs.keep (.keep (.radio h (fun _ _ => rfl) (fun _ => rfl) (fun _ _ => rfl) fun _ => rfl)
      ?_ ?_) (Fixed.radio h).log.isPrefix <;> cases h <;> rfl
  upstream := fun _ h _ hs => hs.keep (.upstream h) (Fixed.upstream h).log.isPrefix
  ending := fun hK h hs => hs.keep (.parts (h.parts hK.wf)) (Fixed.ending h).log.isPrefix
  pop := by
    intro s t transaction payload hK ht hst hs
    have htook : Sourced s₀ (s.took payload) :=
      hs.keep (.keep (.notes (m := [_]) rfl rfl (by simp [Note.item?])) rfl rfl)
        (List.prefix_append _ _)
    refine htook.handsOut (hK.wf.rest.note _) rfl ht.toPopAnswer ?_ hst
    exact (brought_of_received ht.received).append _
  drained := fun hK ho hst hs => hs.handsOut hK.wf (hK.wf.ended ho.failed).2 ho.toPopAnswer
    (brought_of_received ho.received) hst

/-- What a fresh broker bears it has inherited. -/
theorem Starts.sourced (h : s₀.Starts) : Sourced s₀ s₀ := by
  have hlog := h.log
  obtain ⟨epoch, selfKey, config, now, orphan, slots, radio, rfl⟩ := h.fresh
  intro item hitem
  cases hitem with
  | note h =>
    rw [hlog] at h
    cases h
  | inbox h => cases h
  | queue h hitem => exact .inr (.inr ⟨_, _, h, hitem⟩)
  | orphan h => exact .inr (.inl h)

theorem Run.sourced (h : Run s₀ s) (hstart : s₀.Starts) : Sourced s₀ s :=
  Invariant.sourced.holds hstart h hstart.sourced

end Broker

end MeshCoreTCPMux

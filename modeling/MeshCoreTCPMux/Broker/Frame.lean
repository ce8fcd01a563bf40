import MeshCoreTCPMux.Broker.WellFormed

/-!
# What no atomic action changes

The configuration, the identity and the slots of a broker are its own for life; only the clock moves
its time; its history only grows, and by no call.
-/

namespace MeshCoreTCPMux

open Protocol Relation

namespace Broker

variable {s t u : Broker}

/-! ### Histories between two calls -/

/-- A history extended by what happens within a call. -/
def Extends (l m : List Note) : Prop := ∃ notes, m = l ++ notes ∧ notes.all Note.internal = true

namespace Extends

variable {l m notes : List Note}

theorem refl : Extends l l := ⟨[], (List.append_nil l).symm, rfl⟩

theorem append (h : notes.all Note.internal = true) : Extends l (l ++ notes) := ⟨notes, rfl, h⟩

/-- Two more history entries. -/
theorem append_two {n k : Note} (h : [n, k].all Note.internal = true) :
    Extends l (l ++ [n] ++ [k]) := ⟨[n, k], by simp, h⟩

theorem trans {k : List Note} (h : Extends l m) (h' : Extends m k) : Extends l k := by
  obtain ⟨notes, rfl, hnotes⟩ := h
  obtain ⟨notes', rfl, hnotes'⟩ := h'
  exact ⟨notes ++ notes', List.append_assoc _ _ _, by rw [List.all_append, hnotes, hnotes']; rfl⟩

theorem current (h : Extends l m) : Broker.current m = Broker.current l := by
  obtain ⟨notes, rfl, hnotes⟩ := h
  exact current_append hnotes

theorem isPrefix (h : Extends l m) : l <+: m := by
  obtain ⟨notes, rfl, -⟩ := h
  exact List.prefix_append _ _

end Extends

/-! ### What stays -/

/-- What an atomic action keeps. -/
structure Fixed (s t : Broker) : Prop where
  now : t.now = s.now
  epoch : t.epoch = s.epoch
  config : t.config = s.config
  selfKey : t.selfKey = s.selfKey
  slots : t.dedicatedSlots.keys = s.dedicatedSlots.keys
  log : Extends s.log t.log

namespace Fixed

theorem refl : s.Fixed s := ⟨rfl, rfl, rfl, rfl, rfl, Extends.refl⟩

theorem trans (h : s.Fixed t) (h' : t.Fixed u) : s.Fixed u :=
  ⟨h'.now.trans h.now, h'.epoch.trans h.epoch, h'.config.trans h.config,
    h'.selfKey.trans h.selfKey, h'.slots.trans h.slots, h.log.trans h'.log⟩

/-! ### The actions -/

theorem note {n : Note} (hn : n.internal = true) : s.Fixed (s.note n) :=
  ⟨rfl, rfl, rfl, rfl, rfl, Extends.append (by simpa using hn)⟩

theorem send (id : Nat) (payload : Bytes) (cause : Cause) : s.Fixed (s.send id payload cause) :=
  ⟨rfl, rfl, rfl, rfl, rfl, Extends.append rfl⟩

theorem endSync (id : Nat) : s.Fixed (s.endSync id) :=
  ⟨rfl, rfl, rfl, rfl, rfl, Extends.refl⟩

theorem take (id : Nat) (command : Command) : s.Fixed (s.take id command) :=
  ⟨rfl, rfl, rfl, rfl, rfl, Extends.append rfl⟩

theorem drop (id : Nat) (session : Session) (reason : Text) :
    s.Fixed (s.drop id session reason) := by
  refine ⟨rfl, rfl, rfl, rfl, ?_, Extends.append rfl⟩
  simp only [Broker.drop, detachedSlots]
  split <;> simp

theorem shiftInbox (id : Nat) (session : Session) (item : Bytes) :
    s.Fixed (s.shiftInbox id session item) := by
  unfold Broker.shiftInbox
  split
  · exact ⟨rfl, rfl, rfl, rfl, rfl, Extends.refl⟩
  · exact ⟨rfl, rfl, rfl, rfl, by simp, Extends.append rfl⟩

theorem claim (transaction : Transaction) (radio : CompanionRadioState) (signing : SigningLease) :
    s.Fixed (s.claim transaction radio signing) :=
  ⟨rfl, rfl, rfl, rfl, rfl, Extends.append rfl⟩

theorem sendUp (payload : Bytes) (transaction : Transaction) :
    s.Fixed (s.sendUp payload transaction) :=
  ⟨rfl, rfl, rfl, rfl, rfl, Extends.append rfl⟩

theorem release (owner : Nat) : s.Fixed (s.release owner) :=
  ⟨rfl, rfl, rfl, rfl, rfl, Extends.refl⟩

theorem retarget (transaction : Transaction) (payload : Bytes) :
    s.Fixed (s.retarget transaction payload) := by
  unfold Broker.retarget
  split <;> exact ⟨rfl, rfl, rfl, rfl, rfl, Extends.refl⟩

theorem forwarded {transaction : Transaction} {payload : Bytes} {w : Option Nat}
    (h : s.Forwarded transaction payload w t) : s.Fixed t := by
  cases h with
  | gone => exact .refl
  | live => exact (retarget _ _).trans (send _ _ _)

theorem enter (id : Nat) (slotId : Option Nat) : s.Fixed (s.enter id slotId) := by
  refine ⟨rfl, rfl, rfl, rfl, ?_, Extends.append ?_⟩
  · simp only [Broker.enter]
    split <;> simp
  · split <;> simp [Note.internal]

theorem offer (id : Nat) (item : Bytes) : s.Fixed (s.offer id item) :=
  ⟨rfl, rfl, rfl, rfl, rfl, Extends.append rfl⟩

theorem writtenDown (id writeId : Nat) : s.Fixed (s.writtenDown id writeId) :=
  ⟨rfl, rfl, rfl, rfl, rfl, Extends.refl⟩

theorem offerSlot (k : Nat) (item : Bytes) : s.Fixed (s.offerSlot k item) :=
  ⟨rfl, rfl, rfl, rfl, by simp [Broker.offerSlot], Extends.append rfl⟩

theorem leave (id : Nat) : s.Fixed (s.leave id) := by
  unfold Broker.leave
  split
  · exact .refl
  · split
    · exact (drop _ _ _).trans (release _)
    · exact drop _ _ _

theorem failAll (reason : Text) : s.Fixed (s.failAll reason) := by
  have hleft : ∀ (ids : List Nat) (u : Broker), u.Fixed (ids.foldl Broker.leave u) := by
    intro ids
    induction ids with
    | nil => exact fun _ => .refl
    | cons id ids ih => exact fun u => (leave id).trans (ih _)
  exact (hleft _ s).trans ⟨rfl, rfl, rfl, rfl, rfl, Extends.append rfl⟩

/-! ### The steps -/

theorem idle (h : Idle s t) : s.Fixed t := by
  cases h with
  | refuse => exact note rfl
  | _ => exact ⟨rfl, rfl, rfl, rfl, rfl, Extends.refl⟩

theorem output (h : Output s t) : s.Fixed t := by
  cases h with
  | drop => exact drop _ _ _
  | hint => exact ⟨rfl, rfl, rfl, rfl, rfl, Extends.append rfl⟩

theorem client (h : Client s t) : s.Fixed t := by
  cases h with
  | entered => exact enter _ _
  | queued => exact ⟨rfl, rfl, rfl, rfl, rfl, Extends.append rfl⟩
  | answered => exact (take _ _).trans (send _ _ _)
  | selected =>
    exact (take _ _).trans ⟨rfl, rfl, rfl, rfl, rfl, Extends.append_two rfl⟩
  | choked => exact (take _ _).trans (drop _ _ _)
  | waits => exact (take _ _).trans ⟨rfl, rfl, rfl, rfl, rfl, Extends.append rfl⟩
  | delivered => exact ((take _ _).trans (send _ _ _)).trans (shiftInbox _ _ _)
  | syncExpired | broadcast => exact ⟨rfl, rfl, rfl, rfl, rfl, Extends.append rfl⟩

theorem radio (h : Radio s t) : s.Fixed t := by
  cases h with
  | leaseExpired | signingExpired | quarantineOver | notified =>
    exact ⟨rfl, rfl, rfl, rfl, rfl, Extends.refl⟩
  | confirmed | unmatched => exact ⟨rfl, rfl, rfl, rfl, rfl, Extends.append rfl⟩
  | matched => exact ⟨rfl, rfl, rfl, rfl, rfl, Extends.append_two rfl⟩

theorem upstream (h : Upstream s t) : s.Fixed t := by
  cases h with
  | popDispatched => exact ⟨rfl, rfl, rfl, rfl, rfl, Extends.append_two rfl⟩
  | dispatched => exact ((take _ _).trans (claim _ _ _)).trans (sendUp _ _)
  | setupAccepted => exact (note rfl).trans (sendUp _ _)
  | restored => exact (note rfl).trans (release _)
  | setupRejected h hreceived hstep hwritten hreply herr ht =>
    exact (forwarded ht).trans ⟨rfl, rfl, rfl, rfl, rfl, Extends.append rfl⟩
  | progressed h ht | heldReply h ht | finalReply h ht =>
    exact (forwarded ht).trans ⟨rfl, rfl, rfl, rfl, rfl, Extends.append rfl⟩
  | scopedReply h ht =>
    exact (forwarded ht).trans ⟨rfl, rfl, rfl, rfl, rfl, Extends.append_two rfl⟩

/-- The epoch ends. -/
theorem ending (h : Ending s t) : s.Fixed t := by
  cases h with
  | failed => exact failAll _
  | completed => exact ((writtenDown _ _).trans (release _)).trans (failAll _)
  | deserted => exact ((drop _ _ _).trans (release _)).trans (failAll _)
  | undelivered h => exact (upstream h).trans (failAll _)

theorem receives {id : Nat} {session : Session} (h : s.Receives id session t) : s.Fixed t := by
  cases h with
  | held => exact .refl
  | served => exact ((endSync _).trans (send _ _ _)).trans (shiftInbox _ _ _)
  | slow => exact drop _ _ _

theorem pop {transaction : Transaction} {payload : Bytes} (h : Pop transaction payload s t) :
    s.Fixed t := by
  cases h with
  | output h => exact output h
  | answered | duplicate | popped | orphaned =>
    exact ⟨rfl, rfl, rfl, rfl, rfl, Extends.append rfl⟩
  | slotOffered => exact offerSlot _ _
  | flooded => exact drop _ _ _
  | attachedOffered _ _ _ _ ht => exact (offerSlot _ _).trans (receives ht)
  | offered _ _ _ _ ht => exact (offer _ _).trans (receives ht)

theorem closes {transaction : Transaction} {payload : Bytes} (h : Closes transaction payload s t) :
    s.Fixed t := by
  cases h with
  | settled =>
    refine ⟨rfl, rfl, rfl, rfl, rfl, Extends.append ?_⟩
    split <;> rfl
  | continued => exact ⟨rfl, rfl, rfl, rfl, rfl, Extends.refl⟩

theorem popSteps {transaction : Transaction} {payload : Bytes}
    (h : ReflTransGen (PopStep transaction payload) s t) : s.Fixed t := by
  induction h with
  | refl => exact .refl
  | tail _ hlast ih =>
    refine ih.trans ?_
    cases hlast with
    | report => exact ⟨rfl, rfl, rfl, rfl, rfl, Extends.refl⟩
    | mk hpop report => exact (pop hpop).trans ⟨rfl, rfl, rfl, rfl, rfl, Extends.refl⟩

theorem handsOut {transaction : Transaction} {payload : Bytes}
    (h : HandsOut transaction payload s t) : s.Fixed t := by
  obtain ⟨u, hparts, hlast⟩ := h.parts
  exact (popSteps hparts).trans (closes hlast)

theorem move (h : Move s t) : s.Fixed t := by
  cases h with
  | idle h => exact idle h
  | output h => exact output h
  | client h => exact client h
  | radio h => exact radio h
  | upstream h => exact upstream h
  | ending h => exact ending h
  | pop hactive hreceived howner hwritten hstep hvalid herr h =>
    refine Fixed.trans ?_ (handsOut h)
    exact ⟨rfl, rfl, rfl, rfl, rfl, Extends.append rfl⟩
  | drained hfailed hdebt hreceived howner hvalid herr h => exact handsOut h

theorem step (h : Step s t) : s.Fixed t := by
  cases h with
  | mk hmove report => exact (move hmove).trans ⟨rfl, rfl, rfl, rfl, rfl, Extends.refl⟩

theorem steps (h : Steps s t) : s.Fixed t := by
  induction h with
  | refl => exact .refl
  | tail _ hlast ih => exact ih.trans (step hlast)

end Fixed

/-! ### What happens within a call -/

theorem Steps.acts (h : Steps s t) : Acts s t := by
  induction h with
  | refl => exact .refl
  | tail _ hlast ih => exact ih.tail (.step hlast)

/-- An atomic action, or the passage of time. -/
inductive Turn : Broker → Broker → Prop
  | step {s t : Broker} (h : Step s t) : Turn s t
  | clock {s : Broker} {now : Time} (h : s.now ≤ now) : Turn s { s with now := now }

/-- A sequence of atomic actions as time passes, without a call. -/
abbrev Turns : Broker → Broker → Prop := ReflTransGen Turn

theorem Steps.turns (h : Steps s t) : Turns s t := by
  induction h with
  | refl => exact .refl
  | tail _ hlast ih => exact ih.tail (.step hlast)

theorem Turns.acts (h : Turns s t) : Acts s t := by
  induction h with
  | refl => exact .refl
  | tail _ hlast ih =>
    cases hlast with
    | step h => exact ih.tail (.step h)
    | clock h => exact ih.tail (.clock h)

theorem Turns.log (h : Turns s t) : Extends s.log t.log := by
  induction h with
  | refl => exact .refl
  | tail _ hlast ih =>
    cases hlast with
    | step h => exact ih.trans (Fixed.step h).log
    | clock h => exact ih

end Broker

end MeshCoreTCPMux

import MeshCoreTCPMux.Broker.Keeps

/-!
# What moves neither the companion nor the membership

Most actions of the broker concern queues, hints and waits. They leave alone who is connected, what
the companion is doing and what is reserved there (`Gentle`). Whatever is handed out, answered or
broadcast is gentle, except that a session which cannot take its share leaves (`Sheds`).

An invariant about the leases, or about the exchange with the companion, needs one argument for all
of them.
-/

namespace MeshCoreTCPMux

open Protocol Relation

/-- An entry at which a session is sent the result of a remote request. -/
def Note.results : Note → Bool
  | sent _ .leaseResult => true
  | _ => false

/-- An entry that neither concerns the membership nor the exchange with the companion. -/
def Note.gentle : Note → Bool
  | sent _ .leaseResult => false
  | sent _ _ | queued _ _ | taken _ _ | synced _ _ | selected _ _ | duplicate _ | popped _
  | orphaned _ | offered _ _ | slotOffered _ _ | slotDelivered _ _ | drained => true
  | _ => false

namespace Broker

variable {s t u : Broker} {id : Nat} {n : Note} {x : Transaction} {payload item : Bytes}

/-- A session joins, and is offered the item that nobody took. -/
theorem Adds.enter {P : Note → Prop} {slotId : Option Nat} (hadmitted : P (.admitted id slotId))
    (hoffered : ∀ item, P (.offered id item)) : Adds P s (s.enter id slotId) := by
  refine ⟨_, rfl, fun n hn => ?_⟩
  rcases List.mem_cons.mp hn with rfl | hn
  · exact hadmitted
  · split at hn
    · obtain ⟨item, -, rfl⟩ := List.mem_map.mp hn
      exact hoffered item
    · cases hn

/-- Nobody comes or goes, and neither the companion nor what is reserved there is concerned. -/
structure Gentle (s t : Broker) : Prop where
  adds : Adds (·.gentle = true) s t
  keys : t.sessions.keys = s.sessions.keys
  radio : ∃ seen, t.radio = { s.radio with receivedMessageDeduplicator := seen }
  signing : t.signing = s.signing
  core : t.active.map Transaction.core = s.active.map Transaction.core
  failed : t.failed = s.failed
  now : t.now = s.now

/-- Gentle, but for one session that may leave. -/
def Sheds (s t : Broker) : Prop :=
  ∃ u, Gentle s u ∧ (t = u ∨ ∃ id session reason, u.sessions.find? id = some session ∧
    t = u.drop id session reason)

namespace Gentle

theorem of (hadds : Adds (·.gentle = true) s t) (hkeys : t.sessions.keys = s.sessions.keys)
    (hradio : t.radio = s.radio) (hsigning : t.signing = s.signing) (hactive : t.active = s.active)
    (hfailed : t.failed = s.failed) (hnow : t.now = s.now) : Gentle s t :=
  ⟨hadds, hkeys, ⟨_, hradio⟩, hsigning, by rw [hactive], hfailed, hnow⟩

theorem refl : Gentle s s := of (.refl rfl) rfl rfl rfl rfl rfl rfl

theorem trans (hst : Gentle s t) (htu : Gentle t u) : Gentle s u where
  adds := hst.adds.trans htu.adds
  keys := htu.keys.trans hst.keys
  radio := by
    obtain ⟨seen, ht⟩ := hst.radio
    obtain ⟨seen', hu⟩ := htu.radio
    exact ⟨seen', by rw [hu, ht]⟩
  signing := htu.signing.trans hst.signing
  core := htu.core.trans hst.core
  failed := htu.failed.trans hst.failed
  now := htu.now.trans hst.now

theorem note (hn : n.gentle = true) : Gentle s (s.note n) :=
  of (.one rfl hn) rfl rfl rfl rfl rfl rfl

theorem modify {f : Session → Session} :
    Gentle s { s with sessions := s.sessions.modify id f } :=
  of (.refl rfl) (OrdMap.keys_modify _ _ _) rfl rfl rfl rfl rfl

theorem send {cause : Cause}
    (hn : (Note.sent ⟨id, s.epoch, s.nextWrite + 1, payload⟩ cause).gentle = true) :
    Gentle s (s.send id payload cause) :=
  of (.one rfl hn) (send_sessions _ _ _) rfl rfl rfl rfl rfl

theorem take {command : Command} : Gentle s (s.take id command) :=
  of (.one rfl rfl) (OrdMap.keys_modify _ _ _) rfl rfl rfl rfl rfl

theorem shiftInbox {session : Session} : Gentle s (s.shiftInbox id session item) := by
  unfold Broker.shiftInbox
  split
  · exact modify
  · exact of (.one rfl rfl) rfl rfl rfl rfl rfl rfl

theorem forwarded {w : Option Nat} (h : s.Forwarded x payload w t) : Gentle s t := by
  cases h with
  | gone => exact refl
  | live =>
    refine trans (t := s.retarget x payload) ?_ (send rfl)
    unfold retarget
    split
    · exact modify
    · exact refl

/-- What the companion is doing is about the same. -/
theorem exists_active {y : Transaction} (h : Gentle s t) (hy : t.active = some y) :
    ∃ x, s.active = some x ∧ y.owner = x.owner ∧ y.command = x.command := by
  have hcore := h.core
  rw [hy] at hcore
  obtain ⟨x, hx, heq⟩ := Option.map_eq_some_iff.mp hcore.symm
  exact ⟨x, hx, (congrArg Transaction.owner heq).symm, (congrArg Transaction.command heq).symm⟩

/-- The last part of handing out a result. -/
theorem closes (h : Closes x payload s t) : Gentle s t := by
  cases h with
  | settled =>
    refine of ⟨_, rfl, fun n hn => ?_⟩ rfl rfl rfl rfl rfl rfl
    split at hn
    · cases hn
    · rw [List.mem_singleton.mp hn]
      rfl
  | continued => exact of (.refl rfl) rfl rfl rfl rfl rfl rfl

end Gentle

namespace Sheds

theorem gentle (h : Gentle s t) : Sheds s t := ⟨t, h, .inl rfl⟩

theorem after (hst : Gentle s t) (htu : Sheds t u) : Sheds s u := by
  obtain ⟨v, htv, hu⟩ := htu
  exact ⟨v, hst.trans htv, hu⟩

theorem drop {session : Session} (hlive : s.sessions.find? id = some session) (session' : Session)
    (hslot : session'.dedicatedSlotId = session.dedicatedSlotId) (reason : Text) :
    Sheds s (s.drop id session' reason) := by
  refine ⟨s, .refl, .inr ⟨id, session, reason, hlive, ?_⟩⟩
  simp only [Broker.drop, detachedSlots, hslot]

theorem receives {session : Session} (hlive : s.sessions.find? id = some session)
    (h : s.Receives id session t) : Sheds s t := by
  cases h with
  | held => exact gentle .refl
  | served =>
    have hended : Gentle s (s.endSync id) := .modify
    exact gentle ((hended.trans (.send rfl)).trans .shiftInbox)
  | slow => exact drop hlive _ rfl _

end Sheds

/-! ### Every action -/

theorem Output.sheds (h : Output s t) : Sheds s t := by
  cases h with
  | drop hlive => exact .drop hlive _ rfl _
  | hint => exact .gentle ((Gentle.send rfl).trans .modify)

theorem Pop.sheds (h : Pop x payload s t) : Sheds s t := by
  cases h with
  | output h => exact h.sheds
  | @answered id =>
    have hended : Gentle s (s.endSync id) := .modify
    exact .gentle (hended.trans (.send rfl))
  | duplicate | popped =>
    refine .gentle ⟨.one rfl rfl, rfl, ?_, rfl, rfl, rfl, rfl⟩
    show ∃ seen, s.seenRadio payload = _
    unfold seenRadio
    split
    · exact ⟨_, rfl⟩
    · exact ⟨_, rfl⟩
  | slotOffered | orphaned => exact .gentle (.of (.one rfl rfl) rfl rfl rfl rfl rfl rfl)
  | @attachedOffered _ slotId _ _ _ _ _ hlive _ ht =>
    have hoffered : Gentle s (s.offerSlot slotId payload) :=
      .of (.one rfl rfl) rfl rfl rfl rfl rfl rfl
    exact .after hoffered (.receives hlive ht)
  | @offered _ id _ hlive _ _ _ ht =>
    have hoffered : Gentle s (s.offer id payload) :=
      .of (.one rfl rfl) (OrdMap.keys_modify _ _ _) rfl rfl rfl rfl rfl
    exact .after hoffered (.receives (find?_offer _ hlive) ht)
  | flooded hlive => exact .drop hlive _ rfl _

/-- A session joins, or something gentle happens. -/
theorem Client.sheds (h : Client s t) : Sheds s t ∨ ∃ id slotId, s.failed = false ∧ 0 < id ∧
    Fresh id s.log ∧ t = s.enter id slotId := by
  cases h with
  | entered hrunning _ hid hfresh => exact .inr ⟨_, _, hrunning, hid, hfresh, rfl⟩
  | queued =>
    exact .inl (.gentle (.of (.one rfl rfl) (OrdMap.keys_modify _ _ _) rfl rfl rfl rfl rfl))
  | answered => exact .inl (.gentle (Gentle.take.trans (.send rfl)))
  | @selected id _ command =>
    have hscoped : Gentle (s.take id command) ((s.take id command).setScope id command.payload) :=
      .modify
    exact .inl (.gentle (((Gentle.take.trans hscoped).trans (.send rfl)).trans (.note rfl)))
  | choked h => exact .inl (.after .take (.drop h.take_live _ rfl _))
  | @waits id _ command deadline =>
    have hwaiting : Gentle (s.take id command)
        ((s.take id command).startSync id ⟨s.popSequence + 1, deadline⟩) :=
      .of (.one rfl rfl) (OrdMap.keys_modify _ _ _) rfl rfl rfl rfl rfl
    exact .inl (.gentle (Gentle.take.trans hwaiting))
  | delivered => exact .inl (.gentle ((Gentle.take.trans (.send rfl)).trans .shiftInbox))
  | @syncExpired id =>
    have hended : Gentle s (s.endSync id) := .modify
    exact .inl (.gentle (hended.trans (.send rfl)))
  | broadcast => exact .inl (.gentle (.send rfl))

/-- A refusal, or nothing that concerns the companion's transaction but its clocks. -/
theorem Idle.gentle (h : Idle s t) : Gentle s t ∨
    ∃ id slotId now reason, s.sessions.find? id = none ∧ Fresh id s.log ∧
      current s.log = some (.admission id slotId now) ∧ t = s.note (.closed id reason) := by
  have hcore := h.calm.core
  cases h with
  | refuse hgone hfresh hcall => exact .inr ⟨_, _, _, _, hgone, hfresh, hcall, rfl⟩
  | writtenDown => exact .inl .modify
  | _ => exact .inl ⟨.refl rfl, rfl, ⟨_, rfl⟩, rfl, hcore, rfl, rfl⟩

end Broker

end MeshCoreTCPMux

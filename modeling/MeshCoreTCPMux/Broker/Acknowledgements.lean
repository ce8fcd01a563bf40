import MeshCoreTCPMux.Broker.Ended
import MeshCoreTCPMux.Broker.Signing

/-!
# Acknowledgements of direct messages

The companion waits for the acknowledgement of each direct message that it has sent, in a table of
eight places which it fills round and round: the ninth message takes the place of the first, whose
acknowledgement is then no longer recognized. The broker mirrors that table in a ring, and
dispatches a direct message only when the place that is due is free.

The table is reconstructed here from the history alone (`Outbox`): the messages that the companion
has announced with `SENT`, the latest first, each with its token, its deadline, and whether a push
has confirmed it. No ring occurs in it. The first theorem (`acknowledgements_kept`) is that the
eighth of them is confirmed or too old whenever a direct message is dispatched, and again whenever
the companion announces one, since other replies and pushes may come in between. The invariant that
carries it is `Mirrors`: place `i` of the ring, counted backwards from the next one, holds message
`i` of the outbox. A new message moves every other one place back.

When an epoch ends before the companion has answered a direct message, the ring may lack one. The
second theorem (`cursor_recovers`) is that the next epoch dispatches none before the quarantine that
it inherits is over, and before nothing that it inherits is waited for, so that it does not matter
which place is due. Its invariant is `Recovers`.
-/

namespace MeshCoreTCPMux

open Protocol Relation History

/-- A push confirms a message if it has its token. -/
def DmRing.Entry.confirm (token : Nat) (entry : DmRing.Entry) : DmRing.Entry :=
  if entry.token = token then { entry with settled := true } else entry

/-- The messages that the companion has sent, the latest first, and the command that it was last
given. -/
structure Outbox where
  asked : Option Bytes := none
  messages : List (Option DmRing.Entry)

/-- The reply announces a message. A zero token takes no place. -/
def Outbox.Announces (o : Outbox) (payload : Bytes) : Prop :=
  o.asked.any plainDm = true ∧ opcode payload = respSent ∧ u32At payload 2 ≠ 0

instance (o : Outbox) (payload : Bytes) : Decidable (o.Announces payload) :=
  inferInstanceAs (Decidable (_ ∧ _ ∧ _))

/-- The next message may take its place: the eighth before it is confirmed or too old. -/
def Outbox.Spare (o : Outbox) (now : Time) : Prop :=
  ∀ entry, o.messages[7]?.join = some entry → entry.live now = false

/-- None of the eight oldest messages is waited for. -/
def Outbox.Forgotten (o : Outbox) (now : Time) : Prop :=
  ∃ newer older, o.messages = newer ++ older ∧ older.length = 8 ∧
    ∀ entry, some entry ∈ older → entry.live now = false

/-- What an entry of the history shows of the outbox. -/
def Note.post (o : Outbox) : Note → Outbox
  | dispatched x _ => { o with asked := some x.command }
  | replied payload now =>
    if o.Announces payload then
      { o with
        messages := some ⟨u32At payload 2, LeaseTime.deadline now (u32At payload 6), false⟩ ::
          o.messages }
    else o
  | confirmed payload =>
    { o with messages := o.messages.map (Option.map (.confirm (u32At payload 1))) }
  | _ => o

/-- An entry that shows nothing of the outbox. -/
def Note.unposted : Note → Bool
  | dispatched _ _ | replied _ _ | confirmed _ => false
  | _ => true

theorem Note.post_of_unposted {n : Note} (hn : n.unposted = true) (o : Outbox) : n.post o = o := by
  cases n with
  | dispatched | replied | confirmed => cases hn
  | _ => rfl

theorem Note.unposted_of_gentle {n : Note} (hn : n.gentle = true) : n.unposted = true := by
  cases n with
  | dispatched | replied | confirmed => cases hn
  | _ => rfl

/-- The messages that a ring holds, the latest first. -/
def DmRing.messages (ring : DmRing) : List (Option DmRing.Entry) :=
  List.ofFn fun i => ring.slots (ring.nextSlot + i.rev)

/-- The ring holds the last eight messages. -/
def Mirrors (ring : DmRing) (messages : List (Option DmRing.Entry)) : Prop :=
  ∀ i : Fin 8, ring.slots (ring.nextSlot + i.rev) = messages[i.val]?.join

namespace Mirrors

variable {ring : DmRing} {messages : List (Option DmRing.Entry)} {entry : DmRing.Entry}

theorem self (ring : DmRing) : Mirrors ring ring.messages := by
  intro i
  rw [DmRing.messages, List.getElem?_ofFn]
  simp

/-- The place that is due is that of the eighth message. -/
theorem due (h : Mirrors ring messages) : ring.slots ring.nextSlot = messages[7]?.join := by
  have hlast : ring.nextSlot + Fin.rev 7 = ring.nextSlot := by
    generalize ring.nextSlot = k
    revert k
    decide
  have heighth := h 7
  rwa [hlast] at heighth

theorem spare {asked : Option Bytes} {now : Time} (h : Mirrors ring messages)
    (hfree : ring.available now = true) : Outbox.Spare ⟨asked, messages⟩ now := by
  intro entry heighth
  exact DmRing.available_iff.mp hfree entry (h.due.trans heighth)

/-- A new message takes the place that is due. -/
theorem push (h : Mirrors ring messages) (entry : DmRing.Entry) :
    Mirrors ⟨Function.update ring.slots ring.nextSlot (some entry), ring.nextSlot + 1⟩
      (some entry :: messages) := by
  intro i
  -- the latest message is at the place itself, every other one place further back
  have hplaces : ∀ k i : Fin 8, (i = 0 ∧ k + 1 + i.rev = k) ∨
      ∃ j : Fin 8, i.val = j.val + 1 ∧ k + 1 + i.rev = k + j.rev ∧ k + j.rev ≠ k := by decide
  rcases hplaces ring.nextSlot i with ⟨rfl, hplace⟩ | ⟨j, hj, hplace, hother⟩
  · show Function.update ring.slots ring.nextSlot (some entry) (ring.nextSlot + 1 + Fin.rev 0) = _
    rw [hplace, Function.update_self]
    rfl
  · show Function.update ring.slots ring.nextSlot (some entry) (ring.nextSlot + 1 + i.rev) = _
    rw [hplace, Function.update_of_ne hother, h j, hj, List.getElem?_cons_succ]

/-- A confirmation reaches every message with its token. -/
theorem settle (h : Mirrors ring messages) (token : Nat) :
    Mirrors (ring.settle token) (messages.map (Option.map (.confirm token))) := by
  intro i
  have hentry : ∀ entry : DmRing.Entry,
      (if !entry.settled && entry.token == token then { entry with settled := true } else entry)
        = entry.confirm token := by
    rintro ⟨token', deadline, settled⟩
    by_cases htoken : token' = token <;> cases settled <;> simp [DmRing.Entry.confirm, htoken]
  show (ring.slots (ring.nextSlot + i.rev)).map _ = _
  rw [h i, List.getElem?_map, funext hentry]
  cases messages[i.val]? <;> rfl

end Mirrors

namespace Outbox.Forgotten

variable {o : Outbox} {now later : Time}

theorem mono (h : o.Forgotten now) (hnow : now ≤ later) : o.Forgotten later := by
  obtain ⟨newer, older, heq, hlength, hdead⟩ := h
  refine ⟨newer, older, heq, hlength, fun entry hentry => ?_⟩
  exact DmRing.Entry.live_mono hnow (hdead entry hentry)

theorem push (h : o.Forgotten now) (entry : Option DmRing.Entry) :
    Forgotten { o with messages := entry :: o.messages } now := by
  obtain ⟨newer, older, heq, hlength, hdead⟩ := h
  exact ⟨entry :: newer, older, by rw [List.cons_append, heq], hlength, hdead⟩

theorem confirm (h : o.Forgotten now) (token : Nat) :
    Forgotten { o with messages := o.messages.map (Option.map (.confirm token)) } now := by
  obtain ⟨newer, older, heq, hlength, hdead⟩ := h
  refine ⟨newer.map _, older.map _, by rw [heq, List.map_append], by rw [List.length_map, hlength],
    fun entry hentry => ?_⟩
  obtain ⟨place, hplace, hmap⟩ := List.mem_map.mp hentry
  obtain ⟨old, rfl, rfl⟩ := Option.map_eq_some_iff.mp hmap
  unfold DmRing.Entry.confirm
  split
  · rfl
  · exact hdead old hplace

end Outbox.Forgotten

/-- What `SENT` does to the ring. -/
theorem DmRing.accepted_eq {ring ring' : DmRing} {sent : Bytes} {now : Time}
    (h : ring.accepted sent now = .ok ring') :
    (u32At sent 2 = 0 ∧ ring' = ring) ∨ (u32At sent 2 ≠ 0 ∧ ring.available now = true ∧
      ring' = ⟨Function.update ring.slots ring.nextSlot
        (some ⟨u32At sent 2, LeaseTime.deadline now (u32At sent 6), false⟩),
        ring.nextSlot + 1⟩) := by
  simp only [accepted, Except.bind_eq_ok] at h
  obtain ⟨-, -, token, htoken, h⟩ := h
  rw [← LeaseParsing.readU32_eq htoken]
  split at h
  · next hzero => exact .inl ⟨hzero, (Except.pure_eq_ok.mp h).symm⟩
  · next hzero =>
    refine .inr ⟨hzero, ?_⟩
    split at h
    · cases h
    · next hfree =>
      simp only [Except.bind_eq_ok, Except.pure_eq_ok] at h
      obtain ⟨timeoutMs, htimeout, rfl⟩ := h
      rw [← LeaseParsing.readU32_eq htimeout]
      exact ⟨not_not.mp hfree, rfl⟩

namespace Broker

variable {s s₀ t u : Broker} {l m past : List Note} {n : Note} {id : Nat} {x y : Transaction}
  {payload : Bytes} {now : Time}

/-- The outbox of the companion, as the history shows it. -/
def outbox (s₀ : Broker) (log : List Note) : Outbox :=
  log.foldl Note.post { messages := s₀.radio.dmRing.messages }

theorem outbox_snoc (l : List Note) (n : Note) : outbox s₀ (l ++ [n]) = n.post (outbox s₀ l) := by
  simp [outbox]

theorem outbox_append (hm : ∀ n ∈ m, n.unposted = true) : outbox s₀ (l ++ m) = outbox s₀ l := by
  rw [outbox, List.foldl_append]
  exact foldl_neutral fun n hn => Note.post_of_unposted (hm n hn)

/-- No message that is waited for loses its place. -/
def Careful (s₀ : Broker) (past : List Note) : Note → Prop
  | .dispatched x now => plainDm x.command = true → (outbox s₀ past).Spare now
  | .replied payload now => (outbox s₀ past).Announces payload → (outbox s₀ past).Spare now
  | _ => True

theorem Careful.of_unposted (hn : n.unposted = true) : Careful s₀ past n := by
  cases n with
  | dispatched | replied | confirmed => cases hn
  | _ => trivial

/-- The ring of the broker keeps to the outbox. -/
structure Mails (s₀ s : Broker) : Prop where
  mirrors : Mirrors s.radio.dmRing (outbox s₀ s.log).messages
  asked : ∀ x, s.active = some x → (outbox s₀ s.log).asked = some x.command
  careful : Justified (Careful s₀) s.log

/-- A list of contacts announces no message. -/
theorem plainDm_of_contacts {command : Bytes} {descriptor : CommandDescriptor}
    (h : Protocol.descriptor command = some descriptor)
    (hgrammar : descriptor.grammar = .contacts) : plainDm command = false := by
  refine Bool.eq_false_iff.mpr fun hdm => ?_
  obtain ⟨hmem, hop⟩ := mem_descriptors h
  have table : ∀ d ∈ remoteTelemetry :: descriptors, d.grammar = .contacts →
      d.opcode ≠ cmdSendTxtMsg := by decide
  exact table descriptor hmem hgrammar (hop.trans (opcode_of_plainDm hdm))

/-- What the end of a command does to the ring. -/
theorem Accepts.ring {radio radio' : CompanionRadioState} {signing signing' : SigningLease}
    (ha : Accepts x payload now radio signing radio' signing')
    (hdescriptor : Protocol.descriptor x.command = some x.descriptor) :
    (plainDm x.command = true ∧ opcode payload = respSent ∧
        radio.dmRing.accepted payload now = .ok radio'.dmRing) ∨
      (¬ (plainDm x.command = true ∧ opcode payload = respSent) ∧
        radio'.dmRing = radio.dmRing) := by
  have hsigns : opcode x.command ∈ [cmdSignStart, cmdSignData, cmdSignFinish] →
      ¬ (plainDm x.command = true ∧ opcode payload = respSent) := by
    rintro hop ⟨hdm, -⟩
    rw [opcode_of_plainDm hdm] at hop
    exact absurd hop (by decide)
  have hleased : x.descriptor.flags.remoteLease = true →
      ¬ (plainDm x.command = true ∧ opcode payload = respSent) := fun hflag hdm =>
    ((flags_disjoint hdescriptor).2 hflag).1 (opcode_of_plainDm hdm.1)
  cases ha with
  | dm hdm hcode haccept => exact .inl ⟨hdm, hcode, haccept⟩
  | lease hflag | leaseRejected hflag => exact .inr ⟨hleased hflag, rfl⟩
  | signStart hop | signRejected hop | signData hop | signFinish hop =>
    exact .inr ⟨hsigns (by rw [hop]; decide), rfl⟩
  | plain hdm => exact .inr ⟨hdm, rfl⟩

/-- What a dispatched command reserves leaves the ring alone, in which a direct message has a
place. -/
theorem Reserves.ring {owner : Nat} {command : Bytes} {descriptor : CommandDescriptor}
    {radio : CompanionRadioState} {signing : SigningLease}
    (h : s.Reserves owner command descriptor radio signing) :
    radio.dmRing = s.radio.dmRing ∧
      (plainDm command = true → s.radio.dmRing.available s.now = true) := by
  cases h with
  | maintenance _ _ _ _ _ hring => exact ⟨rfl, fun _ => DmRing.available_of_pendingCount hring⟩
  | dm _ _ hring => exact ⟨rfl, fun _ => hring⟩
  | lease hdm | signing hdm | plain hdm =>
    exact ⟨rfl, fun hdm' => absurd (hdm'.symm.trans hdm) (by decide)⟩

/-- What a dispatched command reserves leaves the quarantine alone, in which no direct message is
sent. -/
theorem Reserves.opens {owner : Nat} {command : Bytes} {descriptor : CommandDescriptor}
    {radio : CompanionRadioState} {signing : SigningLease}
    (h : s.Reserves owner command descriptor radio signing) :
    radio.uncertainUntil = s.radio.uncertainUntil ∧
      radio.dmCursorUncertain = s.radio.dmCursorUncertain ∧
        (plainDm command = true → s.radio.uncertainUntil = none) := by
  cases h with
  | maintenance _ _ _ hquarantine | dm _ hquarantine => exact ⟨rfl, rfl, fun _ => hquarantine⟩
  | lease hdm | signing hdm | plain hdm =>
    exact ⟨rfl, rfl, fun hdm' => absurd (hdm'.symm.trans hdm) (by decide)⟩

/-- The end of a command leaves the quarantine alone. -/
theorem Accepts.opens {radio radio' : CompanionRadioState} {signing signing' : SigningLease}
    (ha : Accepts x payload now radio signing radio' signing') :
    radio'.uncertainUntil = radio.uncertainUntil ∧
      radio'.dmCursorUncertain = radio.dmCursorUncertain := by
  cases ha <;> exact ⟨rfl, rfl⟩

namespace Mails

/-- Nothing happens that the outbox shows. -/
theorem quiet (h : Mails s₀ s) (hadds : Adds (·.unposted = true) s t)
    (hring : t.radio.dmRing = s.radio.dmRing)
    (hactive : ∀ y, t.active = some y → ∃ x, s.active = some x ∧ y.command = x.command) :
    Mails s₀ t := by
  obtain ⟨notes, hlog, hnotes⟩ := hadds
  have hsame : outbox s₀ t.log = outbox s₀ s.log := by rw [hlog, outbox_append hnotes]
  refine ⟨?_, fun y hy => ?_, ?_⟩
  · rw [hring, hsame]
    exact h.mirrors
  · obtain ⟨x, hx, hcommand⟩ := hactive y hy
    rw [hsame, hcommand]
    exact h.asked x hx
  · rw [hlog]
    exact h.careful.append fun past n hn => .of_unposted (hnotes n hn)

theorem same (h : Mails s₀ s) (hadds : Adds (·.unposted = true) s t)
    (hring : t.radio.dmRing = s.radio.dmRing) (hactive : t.active = s.active) : Mails s₀ t :=
  h.quiet hadds hring fun y hy => ⟨y, hactive ▸ hy, rfl⟩

theorem gentle (h : Mails s₀ s) (hst : Gentle s t) : Mails s₀ t := by
  obtain ⟨seen, hradio⟩ := hst.radio
  refine h.quiet (hst.adds.mono fun _ => Note.unposted_of_gentle) (by rw [hradio]) fun y hy => ?_
  obtain ⟨x, hx, -, hcommand⟩ := hst.exists_active hy
  exact ⟨x, hx, hcommand⟩

theorem sheds (h : Mails s₀ s) (hst : Sheds s t) : Mails s₀ t := by
  obtain ⟨u, hsu, rfl | ⟨id, session, reason, -, rfl⟩⟩ := hst
  · exact h.gentle hsu
  · exact (h.gentle hsu).same (.one rfl rfl) rfl rfl

theorem enter (h : Mails s₀ s) (slotId : Option Nat) : Mails s₀ (s.enter id slotId) :=
  h.same (.enter rfl fun _ => rfl) rfl rfl

/-- A command goes upstream. A direct message finds the place that is due free. -/
theorem claim (h : Mails s₀ s) {radio : CompanionRadioState}
    (hring : radio.dmRing = s.radio.dmRing)
    (hfree : plainDm x.command = true → s.radio.dmRing.available s.now = true)
    (signing : SigningLease) : Mails s₀ (s.claim x radio signing) := by
  have hposted : outbox s₀ (s.claim x radio signing).log
      = { outbox s₀ s.log with asked := some x.command } := outbox_snoc _ _
  refine ⟨?_, fun y hy => ?_, h.careful.snoc fun hdm => h.mirrors.spare (hfree hdm)⟩
  · rw [hposted]
    exact hring ▸ h.mirrors
  · obtain rfl := Option.some.inj hy
    rw [hposted]

theorem sendUp (h : Mails s₀ s) (frame : Bytes) (hactive : s.active = some y)
    (hcommand : x.command = y.command) : Mails s₀ (s.sendUp frame x) := by
  refine h.quiet (.one rfl rfl) rfl fun z hz => ?_
  obtain rfl := Option.some.inj hz
  exact ⟨y, hactive, hcommand⟩

/-- The companion replies to the active command. -/
theorem hear (h : Mails s₀ s) (hx : s.active = some x)
    (hlog : t.log = s.log ++ [.replied payload now])
    (hring : (plainDm x.command = true ∧ opcode payload = respSent ∧
        s.radio.dmRing.accepted payload now = .ok t.radio.dmRing) ∨
      (¬ (plainDm x.command = true ∧ opcode payload = respSent) ∧
        t.radio.dmRing = s.radio.dmRing))
    (hactive : ∀ y, t.active = some y → y.command = x.command) : Mails s₀ t := by
  have hasked := h.asked x hx
  have hposted : outbox s₀ t.log = Note.post (outbox s₀ s.log) (.replied payload now) := by
    rw [hlog, outbox_snoc]
  have hkept : (outbox s₀ t.log).asked = (outbox s₀ s.log).asked := by
    rw [hposted, Note.post]
    split <;> rfl
  have hannounces : (outbox s₀ s.log).Announces payload ↔
      plainDm x.command = true ∧ opcode payload = respSent ∧ u32At payload 2 ≠ 0 := by
    rw [Outbox.Announces, hasked]
    rfl
  have hnext : ∀ y, t.active = some y → (outbox s₀ t.log).asked = some y.command := by
    intro y hy
    rw [hkept, hactive y hy]
    exact hasked
  -- unless the reply announces a message, the outbox stays as it was
  have hquiet : ¬ (outbox s₀ s.log).Announces payload → t.radio.dmRing = s.radio.dmRing →
      Mails s₀ t := by
    intro hnot hsame
    refine ⟨?_, hnext, ?_⟩
    · rw [hposted, Note.post, if_neg hnot, hsame]
      exact h.mirrors
    · rw [hlog]
      exact h.careful.snoc fun hyes => absurd hyes hnot
  rcases hring with ⟨hdm, hsent, haccept⟩ | ⟨hnot, hsame⟩
  · rcases DmRing.accepted_eq haccept with ⟨hzero, hsame⟩ | ⟨htoken, hfree, hupdated⟩
    · -- a zero token takes no place
      exact hquiet (fun hyes => (hannounces.mp hyes).2.2 hzero) hsame
    · have hyes := hannounces.mpr ⟨hdm, hsent, htoken⟩
      refine ⟨?_, hnext, ?_⟩
      · rw [hposted, Note.post, if_pos hyes, hupdated]
        exact h.mirrors.push _
      · rw [hlog]
        exact h.careful.snoc fun _ => h.mirrors.spare hfree
  · exact hquiet (fun hyes => hnot ⟨(hannounces.mp hyes).1, (hannounces.mp hyes).2.1⟩) hsame

/-- A reply that announces nothing. -/
theorem hear_plain (h : Mails s₀ s) (hx : s.active = some x)
    (hlog : t.log = s.log ++ [.replied payload now])
    (hplain : plainDm x.command = false ∨ opcode payload ≠ respSent)
    (hring : t.radio.dmRing = s.radio.dmRing)
    (hactive : ∀ y, t.active = some y → y.command = x.command) : Mails s₀ t := by
  refine h.hear hx hlog (.inr ⟨?_, hring⟩) hactive
  rintro ⟨hdm, hsent⟩
  rcases hplain with hplain | hcode
  · exact absurd (hdm.symm.trans hplain) (by decide)
  · exact hcode hsent

/-- The active command has been answered. -/
theorem completes {w : Option Nat} {started : Bool} {radio : CompanionRadioState}
    {signing : SigningLease} (h : Mails s₀ s) (hwf : s.WF)
    (hreplied : s.Replied x payload .complete started) (ht : s.Forwarded x payload w t)
    (haccept : acceptance x payload s.now s.radio s.signing = .ok (radio, signing))
    (hlog : u.log = t.log ++ [.replied payload s.now]) (hradio : u.radio = radio)
    (hactive : ∀ y, u.active = some y → y.command = x.command) : Mails s₀ u := by
  have hring := (acceptance_eq haccept).ring (hwf.active x hreplied.active).shape.descriptor
  have hsame := ht.frame.2.2.2.1
  subst hradio
  rw [← hsame] at hring
  exact (h.gentle (.forwarded ht)).hear (ht.frame.2.1.trans hreplied.active) hlog hring hactive

theorem upstream (h : Mails s₀ s) (hwf : s.WF) (hst : Upstream s t) : Mails s₀ t := by
  cases hst with
  | popDispatched hrunning hidle hrequested hsessions hdescriptor htransaction =>
    subst htransaction
    have hpopping : Mails s₀ { s with drainRequested := false, popSequence := s.popSequence + 1 } :=
      h.same (.refl rfl) rfl rfl
    refine (hpopping.claim rfl (fun hdm => ?_) s.signing).sendUp _ rfl rfl
    have hpop : plainDm [cmdSyncNextMessage] = true := hdm
    exact absurd hpop (by decide)
  | @dispatched id session command descriptor radio signing _ frame hidle hhead hforward hdescriptor
      hreserves htransaction =>
    subst htransaction
    have htaken : Mails s₀ (s.take id command) := h.gentle .take
    obtain ⟨hring, hfree⟩ := hreserves.ring
    exact (htaken.claim hring hfree signing).sendUp _ rfl rfl
  | @setupRejected t x payload w hx _ _ _ _ herr ht =>
    obtain ⟨-, hactive, -, hradio, -, -⟩ := ht.frame
    refine (h.gentle (.forwarded ht)).hear_plain (hactive.trans hx) rfl
      (.inr (by rw [herr]; decide)) ?_ (by rintro y ⟨⟩)
    show (if x.descriptor.flags.remoteLease = true then _ else s.radio).dmRing = t.radio.dmRing
    rw [hradio]
    split <;> rfl
  | @setupAccepted x frame hx =>
    have hheard : Mails s₀ (s.note (.replied [respOk] s.now)) :=
      h.hear_plain hx rfl (.inr (by decide)) rfl fun y hy => by
        rw [Option.some.inj (hx.symm.trans hy)]
    exact hheard.sendUp frame hx rfl
  | @restored x hx =>
    exact h.hear_plain hx rfl (.inr (by decide)) rfl (by rintro y ⟨⟩)
  | @progressed t x payload started w hreplied ht =>
    have hplain := plainDm_of_contacts (hwf.active x hreplied.active).shape.descriptor
      hreplied.contacts_of_progress
    refine (h.gentle (.forwarded ht)).hear_plain (ht.frame.2.1.trans hreplied.active) rfl
      (.inl hplain) rfl fun y hy => ?_
    obtain rfl := Option.some.inj hy
    rfl
  | @scopedReply t x payload started w radio signing hreplied ht haccept =>
    have hactive := ht.frame.2.1.trans hreplied.active
    have hheard : Mails s₀
        ({ t with radio := radio, signing := signing }.note (.replied payload s.now)) :=
      h.completes hwf hreplied ht haccept rfl rfl fun y hy => by
        rw [Option.some.inj (hactive.symm.trans hy)]
    exact hheard.sendUp _ hactive rfl
  | heldReply hreplied ht haccept =>
    refine h.completes hwf hreplied ht haccept rfl rfl fun y hy => ?_
    obtain rfl := Option.some.inj hy
    rfl
  | finalReply hreplied ht haccept =>
    exact h.completes hwf hreplied ht haccept rfl rfl (by rintro y ⟨⟩)

end Mails

/-- **The ring keeps to the outbox of the companion.** -/
theorem Stepwise.mails : Stepwise WF (Mails s₀) where
  report := fun _ h => h.same (.refl rfl) rfl rfl
  input := fun _ _ h => h.same (.one rfl rfl) rfl rfl
  clock := fun _ _ h => h.same (.refl rfl) rfl rfl
  idle := by
    intro s t _ hst h
    rcases hst.gentle with hgentle | ⟨id, slotId, now, reason, -, -, -, rfl⟩
    · exact h.gentle hgentle
    · exact h.same (.one rfl rfl) rfl rfl
  output := fun _ hst h => h.sheds hst.sheds
  client := by
    intro s t _ hst h
    rcases hst.sheds with hsheds | ⟨id, slotId, -, -, -, rfl⟩
    · exact h.sheds hsheds
    · exact h.enter slotId
  radio := by
    intro s t _ hst h
    cases hst with
    | leaseExpired | signingExpired | notified => exact h.same (.refl rfl) rfl rfl
    | quarantineOver hover =>
      obtain ⟨heq, -, -⟩ := CompanionRadioState.quarantined_false hover
      exact h.same (.refl rfl) (by rw [heq]) rfl
    | @confirmed payload settled ring _ hconfirm =>
      obtain rfl := DmRing.confirm_eq hconfirm
      have hposted : outbox s₀ (s.log ++ [.confirmed payload])
          = Note.post (outbox s₀ s.log) (.confirmed payload) := outbox_snoc _ _
      refine ⟨?_, fun x hx => ?_, h.careful.snoc trivial⟩
      · show Mirrors _ (outbox s₀ (s.log ++ [_])).messages
        rw [hposted]
        exact h.mirrors.settle _
      · show (outbox s₀ (s.log ++ [_])).asked = _
        rw [hposted]
        exact h.asked x hx
    | unmatched => exact h.same (.one rfl rfl) rfl rfl
    | matched => exact h.same (.trans (.one (t := send _ _ _ _) rfl rfl) (.one rfl rfl)) rfl rfl
  part := by
    intro s t hwf hst h
    cases hst with
    | dropped => exact h.same (.one rfl rfl) rfl rfl
    | released => exact h.quiet (.refl rfl) rfl (by rintro y ⟨⟩)
    | writtenDown => exact h.gentle .modify
    | upstream hst => exact h.upstream hwf hst
    | failed =>
      -- whatever becomes of the reservations, the ring is left to the epochs that follow
      refine h.quiet (.one rfl rfl) ?_ (by rintro y ⟨⟩)
      unfold Broker.fail
      split
      · rfl
      · exact preservedRadio_ring _
  took := by
    intro s x payload hwf htakes h
    -- the result is that of a pop, which is no message
    have hpop := (hwf.active x htakes.active).shape.pop htakes.owner
    exact h.hear_plain htakes.active rfl (.inl (by rw [hpop]; decide)) rfl (by rintro y ⟨⟩)
  pop := fun _ _ _ hst h => h.sheds hst.sheds
  closes := fun _ hst h => h.gentle (.closes hst)

theorem Starts.mails (h : s₀.Starts) : Mails s₀ s₀ := by
  obtain ⟨epoch, selfKey, config, now, orphan, slots, radio, rfl⟩ := h.fresh
  exact ⟨.self _, by rintro x ⟨⟩, .nil⟩

theorem Run.mails (hstart : s₀.Starts) (h : Run s₀ s) : Mails s₀ s :=
  (Stepwise.mails.mono fun u (hu : Reached s₀ u) => hu.wf).holds (fun hstart => hstart.mails)
    (h.reached hstart)

/-- **No acknowledgement is lost.** A direct message is dispatched only when the companion has a
place for it, and takes no place of a message that is still waited for. The ring of the broker holds
the last eight messages. -/
theorem acknowledgements_kept (hstart : s₀.Starts) (h : Run s₀ s) :
    Justified (Careful s₀) s.log ∧ Mirrors s.radio.dmRing (outbox s₀ s.log).messages := by
  have hmails := h.mails hstart
  exact ⟨hmails.careful, hmails.mirrors⟩

/-- A direct message. -/
def message : Bytes := [cmdSendTxtMsg, 0, 0, 0, 0, 0, 0, 7, 7, 7, 7, 7, 7, 65]

/-- A client sends a message. The companion announces it with the token `token`, and waits for its
acknowledgement for a minute. -/
def posting (token : UInt8) : List Event :=
  [.clientFrame 1 message 0, .upstreamFrame [respSent, 0, token, 0, 0, 0, 96, 234, 0, 0] 0]

/-- Eight messages wait for their acknowledgements. The ninth is turned away, until the first has
been confirmed. -/
def correspondent : Broker :=
  first.replay (.admission 1 none 0 :: (List.range 8).flatMap (fun i => posting (.ofNat (i + 1))) ++
    [.clientFrame 1 message 0, .upstreamFrame [pushSendConfirmed, 1, 0, 0, 0, 0, 0, 0, 0] 0] ++
    posting 9)

theorem acknowledgements_kept_correspondent :
    (Justified (Careful first) correspondent.log ∧
      Mirrors correspondent.radio.dmRing (outbox first correspondent.log).messages) ∧
      (outbox first correspondent.log).messages.filterMap (Option.map DmRing.Entry.token) =
        [9, 8, 7, 6, 5, 4, 3, 2, 1] := by
  have hrun : Run first correspondent := Run.start.replay (by decide +kernel)
  exact ⟨acknowledgements_kept first_starts hrun, by decide +kernel⟩

/-! ### A cursor that is not known

An epoch that ends while the companion has not answered a direct message leaves it open whether the
table has one message more than the ring. The next epoch inherits a quarantine, which ends when its
time is over and nothing in the ring is waited for. Whatever place is due is free then. -/

/-- A direct message is dispatched only when the inherited quarantine is over, and nothing that was
inherited is waited for, if the cursor is not known. -/
def Patient (s₀ : Broker) (past : List Note) : Note → Prop
  | .dispatched x now => plainDm x.command = true →
    ∀ deadline, s₀.radio.uncertainUntil = some deadline → deadline ≤ now ∧
      (s₀.radio.dmCursorUncertain = true → (outbox s₀ past).Forgotten now)
  | _ => True

theorem Patient.of_quiet (hn : ∀ x now, n = .dispatched x now → plainDm x.command = false) :
    Patient s₀ past n := by
  cases n with
  | dispatched x now => exact fun hdm => absurd (hdm.symm.trans (hn x now rfl)) (by decide)
  | _ => trivial

/-- The quarantine lasts as it was inherited, and no direct message has been sent; or it is over. -/
inductive Recovers (s₀ s : Broker) (deadline : Time) : Prop
  | waits (hclosed : s.radio.uncertainUntil = some deadline)
      (hcursor : s.radio.dmCursorUncertain = s₀.radio.dmCursorUncertain)
      (hlength : (outbox s₀ s.log).messages.length = 8)
      (hactive : ∀ x, s.active = some x → plainDm x.command = false)
  | passed (hpassed : deadline ≤ s.now)
      (hforgotten : s₀.radio.dmCursorUncertain = true → (outbox s₀ s.log).Forgotten s.now)

/-- The broker recovers from the inherited quarantine, and is patient until then. -/
structure Recovering (s₀ s : Broker) : Prop where
  recovers : s.failed = false → ∀ deadline, s₀.radio.uncertainUntil = some deadline →
    Recovers s₀ s deadline
  patient : Justified (Patient s₀) s.log

namespace Recovering

/-- Nothing is dispatched, and no message is announced. -/
theorem keep (h : Recovering s₀ s)
    (hadds : Adds (fun n => ∀ x now, n = .dispatched x now → plainDm x.command = false) s t)
    (hclosed : t.radio.uncertainUntil = s.radio.uncertainUntil)
    (hcursor : t.radio.dmCursorUncertain = s.radio.dmCursorUncertain)
    (hfailed : t.failed = s.failed) (hnow : s.now ≤ t.now)
    (hlength : (∀ x, s.active = some x → plainDm x.command = false) →
      (outbox s₀ t.log).messages.length = (outbox s₀ s.log).messages.length)
    (hactive : ∀ y, t.active = some y → (∃ x, s.active = some x ∧ y.command = x.command) ∨
      plainDm y.command = false)
    (hforgotten : (outbox s₀ s.log).Forgotten s.now → (outbox s₀ t.log).Forgotten s.now) :
    Recovering s₀ t where
  patient := by
    obtain ⟨notes, hlog, hnotes⟩ := hadds
    rw [hlog]
    exact h.patient.append fun past n hn => .of_quiet (hnotes n hn)
  recovers := by
    intro hrunning deadline hdeadline
    cases h.recovers (hfailed.symm.trans hrunning) deadline hdeadline with
    | waits hclosed' hcursor' hlength' hplain =>
      refine .waits (hclosed.trans hclosed') (hcursor.trans hcursor')
        ((hlength hplain).trans hlength') fun y hy => ?_
      rcases hactive y hy with ⟨x, hx, hcommand⟩ | hplain'
      · rw [hcommand]
        exact hplain x hx
      · exact hplain'
    | passed hpassed hall =>
      exact .passed (le_trans hpassed hnow) fun hunknown => (hforgotten (hall hunknown)).mono hnow

/-- Nothing happens that the outbox shows. -/
theorem quiet (h : Recovering s₀ s) (hadds : Adds (·.unposted = true) s t)
    (hclosed : t.radio.uncertainUntil = s.radio.uncertainUntil)
    (hcursor : t.radio.dmCursorUncertain = s.radio.dmCursorUncertain)
    (hfailed : t.failed = s.failed) (hnow : s.now ≤ t.now)
    (hactive : ∀ y, t.active = some y → ∃ x, s.active = some x ∧ y.command = x.command) :
    Recovering s₀ t := by
  have hsame : outbox s₀ t.log = outbox s₀ s.log := by
    obtain ⟨notes, hlog, hnotes⟩ := hadds
    rw [hlog, outbox_append hnotes]
  refine h.keep (hadds.mono fun n hn => ?_) hclosed hcursor hfailed hnow (fun _ => by rw [hsame])
    (fun y hy => .inl (hactive y hy)) fun hall => hsame ▸ hall
  rintro x now rfl
  cases hn

theorem gentle (h : Recovering s₀ s) (hst : Gentle s t) : Recovering s₀ t := by
  obtain ⟨seen, hradio⟩ := hst.radio
  refine h.quiet (hst.adds.mono fun _ => Note.unposted_of_gentle) (by rw [hradio]) (by rw [hradio])
    hst.failed (le_of_eq hst.now.symm) fun y hy => ?_
  obtain ⟨x, hx, -, hcommand⟩ := hst.exists_active hy
  exact ⟨x, hx, hcommand⟩

/-- Nothing happens that the outbox shows, and the companion is left alone. -/
theorem same (h : Recovering s₀ s) (hadds : Adds (·.unposted = true) s t)
    (hclosed : t.radio.uncertainUntil = s.radio.uncertainUntil)
    (hcursor : t.radio.dmCursorUncertain = s.radio.dmCursorUncertain)
    (hfailed : t.failed = s.failed) (hnow : s.now ≤ t.now) (hactive : t.active = s.active) :
    Recovering s₀ t :=
  h.quiet hadds hclosed hcursor hfailed hnow fun y hy => ⟨y, hactive ▸ hy, rfl⟩

theorem sheds (h : Recovering s₀ s) (hst : Sheds s t) : Recovering s₀ t := by
  obtain ⟨u, hsu, rfl | ⟨id, session, reason, -, rfl⟩⟩ := hst
  · exact h.gentle hsu
  · exact (h.gentle hsu).same (.one rfl rfl) rfl rfl rfl le_rfl rfl

theorem enter (h : Recovering s₀ s) (slotId : Option Nat) : Recovering s₀ (s.enter id slotId) :=
  h.same (.enter rfl fun _ => rfl) rfl rfl rfl le_rfl rfl

/-- A command goes upstream. A direct message does so only when the quarantine is over. -/
theorem claim (h : Recovering s₀ s) (hrunning : s.failed = false) {radio : CompanionRadioState}
    (hclosed : radio.uncertainUntil = s.radio.uncertainUntil)
    (hcursor : radio.dmCursorUncertain = s.radio.dmCursorUncertain)
    (hopen : plainDm x.command = true → s.radio.uncertainUntil = none) (signing : SigningLease) :
    Recovering s₀ (s.claim x radio signing) := by
  have hposted : outbox s₀ (s.claim x radio signing).log
      = { outbox s₀ s.log with asked := some x.command } := outbox_snoc _ _
  refine ⟨fun _ deadline hdeadline => ?_, h.patient.snoc fun hdm deadline hdeadline => ?_⟩
  · cases h.recovers hrunning deadline hdeadline with
    | waits hclosed' hcursor' hlength _ =>
      refine .waits (hclosed.trans hclosed') (hcursor.trans hcursor') (hposted ▸ hlength)
        fun y hy => ?_
      obtain rfl := Option.some.inj hy
      -- admission is closed, so that this is no direct message
      refine Bool.eq_false_iff.mpr fun hdm => ?_
      exact absurd (hclosed'.symm.trans (hopen hdm)) (by rintro ⟨⟩)
    | passed hpassed hall => exact .passed hpassed fun hunknown => hposted ▸ hall hunknown
  · cases h.recovers hrunning deadline hdeadline with
    | waits hclosed' => exact absurd (hclosed'.symm.trans (hopen hdm)) (by rintro ⟨⟩)
    | passed hpassed hall => exact ⟨hpassed, hall⟩

theorem sendUp (h : Recovering s₀ s) (frame : Bytes) (hactive : s.active = some y)
    (hcommand : x.command = y.command) : Recovering s₀ (s.sendUp frame x) := by
  refine h.quiet (.one rfl rfl) rfl rfl rfl le_rfl fun z hz => ?_
  obtain rfl := Option.some.inj hz
  exact ⟨y, hactive, hcommand⟩

/-- The companion replies to the active command. -/
theorem hear (h : Recovering s₀ s) (hmails : Mails s₀ s) (hx : s.active = some x)
    (hlog : t.log = s.log ++ [.replied payload now])
    (hclosed : t.radio.uncertainUntil = s.radio.uncertainUntil)
    (hcursor : t.radio.dmCursorUncertain = s.radio.dmCursorUncertain)
    (hfailed : t.failed = s.failed) (hnow : t.now = s.now)
    (hactive : ∀ y, t.active = some y → y.command = x.command) : Recovering s₀ t := by
  have hposted : outbox s₀ t.log = Note.post (outbox s₀ s.log) (.replied payload now) := by
    rw [hlog, outbox_snoc]
  refine h.keep (.one hlog (by rintro y now' ⟨⟩)) hclosed hcursor hfailed (le_of_eq hnow.symm)
    (fun hplain => ?_) (fun y hy => .inl ⟨x, hx, hactive y hy⟩) fun hall => ?_
  · -- whoever sends no direct message is not told of one
    rw [hposted, Note.post, if_neg]
    rintro ⟨hdm, -⟩
    rw [hmails.asked x hx] at hdm
    exact absurd (hdm.symm.trans (hplain x hx)) (by decide)
  · rw [hposted, Note.post]
    split
    · exact hall.push _
    · exact hall

theorem upstream (h : Recovering s₀ s) (hmails : Mails s₀ s) (hst : Upstream s t) :
    Recovering s₀ t := by
  cases hst with
  | popDispatched hrunning hidle hrequested hsessions hdescriptor htransaction =>
    subst htransaction
    have hpopping : Recovering s₀
        { s with drainRequested := false, popSequence := s.popSequence + 1 } :=
      h.same (.refl rfl) rfl rfl rfl le_rfl rfl
    refine (hpopping.claim hrunning rfl rfl (fun hdm => ?_) s.signing).sendUp _ rfl rfl
    have hpop : plainDm [cmdSyncNextMessage] = true := hdm
    exact absurd hpop (by decide)
  | @dispatched id session command descriptor radio signing _ frame hidle hhead hforward hdescriptor
      hreserves htransaction =>
    subst htransaction
    have htaken : Recovering s₀ (s.take id command) := h.gentle .take
    obtain ⟨hclosed, hcursor, hopen⟩ := hreserves.opens
    exact (htaken.claim hhead.running hclosed hcursor hopen signing).sendUp _ rfl rfl
  | @setupRejected t x payload w hx _ _ _ _ _ ht =>
    obtain ⟨hfailed, hactive, hnow, hradio, -, -⟩ := ht.frame
    have hforwarded := hmails.gentle (.forwarded ht)
    refine (h.gentle (.forwarded ht)).hear hforwarded (hactive.trans hx) rfl ?_ ?_ rfl rfl
      (by rintro y ⟨⟩)
    · show (if x.descriptor.flags.remoteLease = true then _ else s.radio).uncertainUntil = _
      rw [hradio]
      split <;> rfl
    · show (if x.descriptor.flags.remoteLease = true then _ else s.radio).dmCursorUncertain = _
      rw [hradio]
      split <;> rfl
  | @setupAccepted x frame hx =>
    have hheard : Recovering s₀ (s.note (.replied [respOk] s.now)) :=
      h.hear hmails hx rfl rfl rfl rfl rfl fun y hy => by rw [Option.some.inj (hx.symm.trans hy)]
    exact hheard.sendUp frame hx rfl
  | @restored x hx => exact h.hear hmails hx rfl rfl rfl rfl rfl (by rintro y ⟨⟩)
  | progressed hreplied ht =>
    refine (h.gentle (.forwarded ht)).hear (hmails.gentle (.forwarded ht))
      (ht.frame.2.1.trans hreplied.active) rfl rfl rfl rfl rfl fun y hy => ?_
    obtain rfl := Option.some.inj hy
    rfl
  | @scopedReply t x payload started w radio signing hreplied ht haccept =>
    have hactive := ht.frame.2.1.trans hreplied.active
    obtain ⟨hclosed, hcursor⟩ := (acceptance_eq haccept).opens
    rw [← ht.frame.2.2.2.1] at hclosed hcursor
    have hheard : Recovering s₀
        ({ t with radio := radio, signing := signing }.note (.replied payload s.now)) :=
      (h.gentle (.forwarded ht)).hear (hmails.gentle (.forwarded ht)) hactive rfl hclosed hcursor
        rfl rfl fun y hy => by rw [Option.some.inj (hactive.symm.trans hy)]
    exact hheard.sendUp _ hactive rfl
  | heldReply hreplied ht haccept =>
    obtain ⟨hclosed, hcursor⟩ := (acceptance_eq haccept).opens
    rw [← ht.frame.2.2.2.1] at hclosed hcursor
    refine (h.gentle (.forwarded ht)).hear (hmails.gentle (.forwarded ht))
      (ht.frame.2.1.trans hreplied.active) rfl hclosed hcursor rfl rfl fun y hy => ?_
    obtain rfl := Option.some.inj hy
    rfl
  | finalReply hreplied ht haccept =>
    obtain ⟨hclosed, hcursor⟩ := (acceptance_eq haccept).opens
    rw [← ht.frame.2.2.2.1] at hclosed hcursor
    exact (h.gentle (.forwarded ht)).hear (hmails.gentle (.forwarded ht))
      (ht.frame.2.1.trans hreplied.active) rfl hclosed hcursor rfl rfl (by rintro y ⟨⟩)

end Recovering

end Broker

end MeshCoreTCPMux

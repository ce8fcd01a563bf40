import MeshCoreTCPMux.Protocol.Downgrade
import MeshCoreTCPMux.Broker.Keeps

/-!
# Waiting for the companion's inbox

A sync against an empty local inbox waits for the next physical pop. Pops are shared by all
sessions, and one that was dispatched before a sync must not answer it. The history tells how far a
wait has come (`wait`): its sync has been taken, a pop that was dispatched since is under way, that
pop has just found the companion's inbox empty.

Most actions start no wait and say to nobody that there is nothing (`Slackens`).
-/

namespace MeshCoreTCPMux

open Protocol Program Relation History

/-- How far the wait of a session has come. -/
inductive Wait
  /-- The sync has been taken from the session's queue. -/
  | taken
  /-- A pop that was dispatched since is under way. -/
  | covered
  /-- In the current call, that pop has found the companion's inbox empty. -/
  | emptied

/-- The wait of `id` after an entry. Only one transaction is under way at a time, so that the next
reply after a dispatch is that transaction's. -/
def Note.wait (id : Nat) (w : Option Wait) : Note → Option Wait
  | synced i _ => if i = id then some .taken else w
  | dispatched x _ => w.map fun _ => if x.owner = 0 then .covered else .taken
  | replied payload _ => w.map fun
    | .covered => if opcode payload = respNoMoreMessages then .emptied else .taken
    | _ => .taken
  | input _ => w.map fun
    | .covered => .covered
    | _ => .taken
  | sent frame .answer | sent frame (.item _) => if frame.session = id then none else w
  | closed i _ => if i = id then none else w
  | _ => w

/-- An entry that concerns the wait of `id`. -/
def Note.concerns (id : Nat) : Note → Bool
  | synced i _ | closed i _ => i = id
  | dispatched _ _ | replied _ _ | input _ => true
  | sent frame .answer | sent frame (.item _) => frame.session = id
  | _ => false

/-- An entry that ends the wait of `id`, or starts another one. -/
def Note.ends (id : Nat) : Note → Bool
  | synced i _ | closed i _ => i = id
  | sent frame .answer | sent frame (.item _) => frame.session = id
  | _ => false

/-- An entry that hands the item of a pop to the session `id`, or to the slot that it has. -/
def Note.feeds (id : Nat) (slotId : Option Nat) : Note → Bool
  | offered i _ => i = id
  | slotOffered k _ => slotId = some k
  | _ => false

/-- A frame that tells a session that there is nothing to consume. -/
def Note.empties : Note → Bool
  | sent frame _ => frame.payload = [respNoMoreMessages]
  | _ => false

/-- The frame that a session sees of an inbox item is no empty answer. -/
theorem downgradeInbox_ne_empty {item visible : Bytes} {version : UInt8}
    (hshape : validateResponseShape item = .ok ()) (hitem : opcode item ∈ inboxItemCodes)
    (h : downgradeInbox item version = .ok visible) : visible ≠ [respNoMoreMessages] := by
  rw [downgradeInbox_eq hshape] at h
  obtain rfl := Except.ok.inj h
  intro hempty
  have hop := congrArg opcode hempty
  split at hop
  · change opcode item = respNoMoreMessages at hop
    rw [hop] at hitem
    exact absurd hitem (by decide)
  · next code hcode =>
    have table : inboxItemCodes.all (legacyCode · ≠ some respNoMoreMessages) = true := by decide
    split at hop
    · change opcode item = respNoMoreMessages at hop
      rw [hop] at hitem
      exact absurd hitem (by decide)
    · change code = respNoMoreMessages at hop
      exact absurd (hop ▸ hcode) (of_decide_eq_true (List.all_eq_true.mp table _ hitem))

namespace Broker

variable {s s₀ t u : Broker} {l m : List Note} {n : Note} {id : Nat} {x transaction : Transaction}
  {payload : Bytes}

/-- How far the wait of `id` has come; `none` when the history shows no wait. -/
def wait (id : Nat) (log : List Note) : Option Wait := log.foldl (Note.wait id) none

/-- A live session waits. -/
def Pending (s : Broker) (id : Nat) (sync : PendingSync) : Prop :=
  ∃ session, s.sessions.find? id = some session ∧ session.sync = some sync

theorem wait_snoc (id : Nat) (l : List Note) (n : Note) :
    wait id (l ++ [n]) = n.wait id (wait id l) := by simp [wait]

theorem wait_append (h : ∀ n ∈ m, n.concerns id = false) : wait id (l ++ m) = wait id l := by
  rw [wait, List.foldl_append]
  refine foldl_neutral fun n hn w => ?_
  have hn := h n hn
  cases n with
  | sent frame cause =>
    cases cause with
    | answer | item => exact if_neg (by simpa [Note.concerns] using hn)
    | _ => rfl
  | synced | closed => exact if_neg (by simpa [Note.concerns] using hn)
  | dispatched | replied | input => cases hn
  | _ => rfl

theorem Pending.nonempty {sync : PendingSync} (h : s.Pending id sync) :
    s.sessions.isEmpty = false := by
  obtain ⟨session, hlive, -⟩ := h
  rw [← Bool.not_eq_true, OrdMap.isEmpty_iff_keys]
  intro hkeys
  have hmem := OrdMap.mem_keys_of_find? hlive
  rw [hkeys] at hmem
  cases hmem

/-- Sending commands up and taking replies ends no wait. -/
theorem isSome_wait_append (h : ∀ n ∈ m, n.relays = true) :
    (wait id (l ++ m)).isSome = (wait id l).isSome := by
  induction m using List.reverseRecOn with
  | nil => rw [List.append_nil]
  | append_singleton m n ih =>
    rw [← List.append_assoc, wait_snoc, ← ih fun k hk => h k (List.mem_append_left _ hk)]
    have hn := h n (List.mem_append_right _ (List.mem_singleton_self n))
    cases n with
    | dispatched | replied => exact Option.isSome_map
    | sent frame cause =>
      cases cause with
      | answer | item => cases hn
      | _ => rfl
    | input | synced | closed => cases hn
    | _ => rfl

/-! ### What the history of a wait shows -/

/-- No wait starts, the entries concern nobody who still waits, and a drain goes on for those who
do. -/
structure Loosens (s t : Broker) : Prop where
  pending : ∀ id sync, t.Pending id sync →
    s.Pending id sync ∧ Adds (fun n => n.concerns id = false) s t ∧
      (s.drainAuthorized = true → t.drainAuthorized = true) ∧
      (s.drainRequested = true → t.drainRequested = true)
  sequence : t.popSequence = s.popSequence

/-- The drain of the companion's inbox is where it was. -/
structure SameDrain (s t : Broker) : Prop where
  authorized : t.drainAuthorized = s.drainAuthorized
  requested : t.drainRequested = s.drainRequested
  sequence : t.popSequence = s.popSequence

namespace Loosens

theorem trans (hst : Loosens s t) (htu : Loosens t u) : Loosens s u where
  pending := by
    intro id sync hu
    obtain ⟨ht, hlast, hauthorized, hrequested⟩ := htu.pending id sync hu
    obtain ⟨hs, hfirst, hauthorized', hrequested'⟩ := hst.pending id sync ht
    refine ⟨hs, hfirst.trans hlast, ?_, ?_⟩
    · exact fun h => hauthorized (hauthorized' h)
    · exact fun h => hrequested (hrequested' h)
  sequence := htu.sequence.trans hst.sequence

/-- What keeps the wait of every session that stays. -/
theorem of_keeps (h : Keeps (fun n => ∀ id, n.concerns id = false) (·.sync) s t)
    (hdrain : SameDrain s t) : Loosens s t where
  pending := by
    rintro id sync ⟨y, hy, hsync⟩
    obtain ⟨x, hx, hxy⟩ := h.sessions id y hy
    refine ⟨⟨x, hx, hxy.trans hsync⟩, h.log.mono fun _ hn => hn id, ?_, ?_⟩
    · exact fun hs => hdrain.authorized.trans hs
    · exact fun hs => hdrain.requested.trans hs
  sequence := hdrain.sequence

theorem same (hsessions : t.sessions = s.sessions) (hlog : t.log = s.log)
    (hdrain : SameDrain s t) : Loosens s t := .of_keeps (.same hsessions hlog) hdrain

theorem note (hn : ∀ id, n.concerns id = false) : Loosens s (s.note n) :=
  .of_keeps (.note hn) ⟨rfl, rfl, rfl⟩

theorem modify {f : Session → Session} (hf : ∀ x, (f x).sync = x.sync) :
    Loosens s { s with sessions := s.sessions.modify id f } :=
  .of_keeps (.modify hf) ⟨rfl, rfl, rfl⟩

theorem endSync : Loosens s (s.endSync id) where
  pending := by
    rintro i sync ⟨y, hy, hsync⟩
    simp only [Broker.endSync, OrdMap.find?_modify] at hy
    split at hy
    · obtain ⟨x, -, rfl⟩ := Option.map_eq_some_iff.mp hy
      cases hsync
    · exact ⟨⟨y, hy, hsync⟩, .refl rfl, fun h => h, fun h => h⟩
  sequence := rfl

/-- A frame to a session. One that ends a wait goes to a session that does not wait any more. -/
theorem send {cause : Cause}
    (hcause : (∀ sync, ¬ s.Pending id sync) ∨ (cause ≠ .answer ∧ ∀ item, cause ≠ .item item)) :
    Loosens s (s.send id payload cause) where
  pending := by
    rintro i sync ⟨y, hy, hsync⟩
    have hpending : s.Pending i sync := by
      simp only [Broker.send, OrdMap.find?_modify] at hy
      split at hy
      · obtain ⟨x, hx, rfl⟩ := Option.map_eq_some_iff.mp hy
        exact ⟨x, hx, hsync⟩
      · exact ⟨y, hy, hsync⟩
    refine ⟨hpending, .one rfl ?_, fun h => h, fun h => h⟩
    rcases hcause with hgone | ⟨hanswer, hitem⟩
    · have hother : id ≠ i := by
        rintro rfl
        exact hgone sync hpending
      cases cause <;> simp [Note.concerns, hother]
    · cases cause with
      | answer => exact absurd rfl hanswer
      | item item => exact absurd rfl (hitem item)
      | _ => rfl
  sequence := rfl

theorem drop {session : Session} {reason : Text} : Loosens s (s.drop id session reason) where
  pending := by
    intro i sync hpending
    -- Somebody still waits, so the drain is not given up.
    have hmore := hpending.nonempty
    obtain ⟨y, hy, hsync⟩ := hpending
    rw [Broker.drop, OrdMap.find?_erase] at hy
    split at hy
    · cases hy
    · next hi =>
      refine ⟨⟨y, hy, hsync⟩, .one rfl (by simp [Note.concerns, Ne.symm hi]), ?_, ?_⟩
      · exact fun h => (if_neg (Bool.eq_false_iff.mp hmore)).trans h
      · exact fun h => (if_neg (Bool.eq_false_iff.mp hmore)).trans h
  sequence := rfl

theorem take {command : Command} : Loosens s (s.take id command) := by
  have htail : Loosens s { s with
      sessions := s.sessions.modify id fun x => { x with commands := x.commands.tail } } :=
    .modify fun _ => rfl
  exact htail.trans (.note fun _ => rfl)

theorem shiftInbox {session : Session} {item : Bytes} :
    Loosens s (s.shiftInbox id session item) := by
  refine .of_keeps (.shiftInbox (fun _ _ => rfl) fun _ _ => rfl) ?_
  unfold Broker.shiftInbox
  split <;> exact ⟨rfl, rfl, rfl⟩

end Loosens

/-- Moreover, nobody is told that there is nothing. -/
structure Slackens (s t : Broker) : Prop extends Loosens s t where
  quiet : Adds (·.empties = false) s t

namespace Slackens

theorem trans (hst : Slackens s t) (htu : Slackens t u) : Slackens s u :=
  ⟨hst.toLoosens.trans htu.toLoosens, hst.quiet.trans htu.quiet⟩

theorem silent (h : Loosens s t) (hlog : t.log = s.log) : Slackens s t := ⟨h, .refl hlog⟩

theorem same (hsessions : t.sessions = s.sessions) (hlog : t.log = s.log)
    (hdrain : SameDrain s t) : Slackens s t := .silent (.same hsessions hlog hdrain) hlog

theorem refl : Slackens s s := .same rfl rfl ⟨rfl, rfl, rfl⟩

theorem note (hn : ∀ id, n.concerns id = false) (hempties : n.empties = false) :
    Slackens s (s.note n) := ⟨.note hn, .one rfl hempties⟩

theorem modify {f : Session → Session} (hf : ∀ x, (f x).sync = x.sync) :
    Slackens s { s with sessions := s.sessions.modify id f } := .silent (.modify hf) rfl

theorem send {cause : Cause} (hpayload : payload ≠ [respNoMoreMessages])
    (hcause : (∀ sync, ¬ s.Pending id sync) ∨ (cause ≠ .answer ∧ ∀ item, cause ≠ .item item)) :
    Slackens s (s.send id payload cause) :=
  ⟨.send hcause, .one rfl (by simpa [Note.empties] using hpayload)⟩

theorem drop {session : Session} {reason : Text} : Slackens s (s.drop id session reason) :=
  ⟨.drop, .one rfl rfl⟩

theorem take {command : Command} : Slackens s (s.take id command) := ⟨.take, .one rfl rfl⟩

theorem shiftInbox {session : Session} {item : Bytes} :
    Slackens s (s.shiftInbox id session item) := ⟨.shiftInbox, .shiftInbox fun _ => rfl⟩

theorem offerSlot {slotId : Nat} : Slackens s (s.offerSlot slotId payload) := by
  have hlog : (s.offerSlot slotId payload).log = s.log ++ [.slotOffered slotId payload] := rfl
  refine ⟨.of_keeps (.notes rfl hlog ?_) ⟨rfl, rfl, rfl⟩, .one hlog rfl⟩
  simp [Note.concerns]

end Slackens

theorem not_pending_endSync (sync : PendingSync) : ¬ (s.endSync id).Pending id sync := by
  rintro ⟨y, hy, hsync⟩
  rw [endSync, OrdMap.find?_modify, if_pos rfl] at hy
  obtain ⟨x, -, rfl⟩ := Option.map_eq_some_iff.mp hy
  cases hsync

theorem Head.not_pending {session : Session} {command : Command} (h : s.Head id session command)
    (sync : PendingSync) : ¬ s.Pending id sync := by
  rintro ⟨y, hy, hsync⟩
  obtain rfl := Option.some.inj (h.live.symm.trans hy)
  exact nomatch h.sync.symm.trans hsync

/-! ### Which actions start no wait -/

theorem ne_empty_of_opcode (h : opcode payload ≠ respNoMoreMessages) :
    payload ≠ [respNoMoreMessages] := by
  rintro rfl
  exact h rfl

/-- Nobody is told locally that there is nothing. -/
theorem LocalReply.ne_empty {config : Config} {now : Time} {command : Command}
    (h : LocalReply config now command payload) : payload ≠ [respNoMoreMessages] := by
  cases h with
  | exportDisabled => exact ne_empty_of_opcode (by decide)
  | _ => exact fun hempty => nomatch (List.cons.inj hempty).2

/-- A session takes an item that it has been offered. -/
theorem Slackens.receives {session : Session} (hwf : (s.endSync id).WF)
    (hlive : s.sessions.find? id = some session) (h : s.Receives id session t) :
    Slackens s t := by
  cases h with
  | held => exact .refl
  | @served sync item rest visible hsync hroom hinbox hvisible =>
    have hitem : InboxItem item :=
      hwf.inbox_items (find?_endSync hlive) hinbox item List.mem_cons_self
    have hended : Slackens s (s.endSync id) := .silent .endSync rfl
    have hsent : Slackens (s.endSync id) ((s.endSync id).send id visible (.item item)) :=
      .send (downgradeInbox_ne_empty hitem.shape hitem.code hvisible) (.inl not_pending_endSync)
    exact (hended.trans hsent).trans .shiftInbox
  | slow => exact .drop

theorem Slackens.output (h : Output s t) : Slackens s t := by
  cases h with
  | drop => exact .drop
  | @hint id =>
    have hsent : Slackens s (s.send id [pushMsgWaiting] .hint) :=
      .send (ne_empty_of_opcode (by decide)) (.inr ⟨nofun, nofun⟩)
    exact hsent.trans (.modify fun _ => rfl)

theorem Slackens.idle (h : Idle s t) : Slackens s t := by
  cases h with
  | @refuse id _ _ _ hnone =>
    refine ⟨⟨fun i sync hpending => ?_, rfl⟩, .one rfl rfl⟩
    -- The refused session is not live, so it does not wait.
    have hother : id ≠ i := by
      rintro rfl
      obtain ⟨y, hy, -⟩ := hpending
      exact nomatch hnone.symm.trans hy
    exact ⟨hpending, .one rfl (by simp [Note.concerns, hother]), fun h => h, fun h => h⟩
  | writtenDown => exact .modify fun _ => rfl
  | _ => exact .same rfl rfl ⟨rfl, rfl, rfl⟩

theorem Slackens.radio (h : Radio s t) : Slackens s t := by
  cases h with
  | leaseExpired | signingExpired | quarantineOver => exact .same rfl rfl ⟨rfl, rfl, rfl⟩
  | notified =>
    refine ⟨⟨fun i sync hpending => ⟨hpending, .refl rfl, fun h => h, fun h => ?_⟩, rfl⟩, .refl rfl⟩
    show (s.drainRequested || s.drainAuthorized) = true
    rw [h, Bool.true_or]
  | @confirmed _ _ ring =>
    have hring : Slackens s { s with radio := { s.radio with dmRing := ring } } :=
      .same rfl rfl ⟨rfl, rfl, rfl⟩
    exact hring.trans (.note (fun _ => rfl) rfl)
  | @unmatched _ _ remote =>
    have hremote : Slackens s { s with radio := { s.radio with remote := remote } } :=
      .same rfl rfl ⟨rfl, rfl, rfl⟩
    exact hremote.trans (.note (fun _ => rfl) rfl)
  | @matched payload _ remote owner session _ hpush =>
    have table : ∀ code ∈ resultPushes, code ≠ respNoMoreMessages := by
      simp only [← List.all_iff_forall_prop]
      decide
    have hremote : Slackens s { s with radio := { s.radio with remote := remote } } :=
      .same rfl rfl ⟨rfl, rfl, rfl⟩
    have hsent : Slackens { s with radio := { s.radio with remote := remote } }
        (Broker.send { s with radio := { s.radio with remote := remote } } owner payload
          .leaseResult) :=
      .send (ne_empty_of_opcode (table _ hpush)) (.inr ⟨nofun, nofun⟩)
    exact (hremote.trans hsent).trans (.note (fun _ => rfl) rfl)

theorem Loosens.enter {slotId : Option Nat} : Loosens s (s.enter id slotId) where
  pending := by
    rintro i sync ⟨y, hy, hsync⟩
    simp only [Broker.enter, OrdMap.find?_insert] at hy
    split at hy
    · obtain rfl := Option.some.inj hy
      cases hsync
    · refine ⟨⟨y, hy, hsync⟩, ⟨_, rfl, fun n hn => ?_⟩, fun h => h, fun h => h⟩
      rcases List.mem_cons.mp hn with rfl | hn
      · rfl
      · split at hn
        · obtain ⟨item, -, rfl⟩ := List.mem_map.mp hn
          rfl
        · cases hn
  sequence := rfl

/-- Whatever happens between the broker and a client, only a sync starts a wait. -/
theorem Slackens.client (hwf : s.WF) (h : Client s t) :
    Slackens s t ∨ ∃ id session command deadline, s.Head id session command ∧
      t = (s.take id command).startSync id ⟨s.popSequence + 1, deadline⟩ := by
  -- A session at the head of whose queue a command stands does not wait.
  have hfree : ∀ {id : Nat} {session : Session} {command : Command}, s.Head id session command →
      ∀ sync, ¬ (s.take id command).Pending id sync := fun h sync hpending =>
    h.not_pending sync (Slackens.take.pending _ _ hpending).1
  cases h with
  | entered =>
    refine .inl ⟨.enter, _, rfl, fun n hn => ?_⟩
    rcases List.mem_cons.mp hn with rfl | hn
    · rfl
    · split at hn
      · obtain ⟨item, -, rfl⟩ := List.mem_map.mp hn
        rfl
      · cases hn
  | @queued id _ payload =>
    have hqueued : Slackens s { s with
        sessions := s.sessions.modify id fun x =>
          { x with commands := x.commands ++ [⟨payload, s.now⟩] } } := .modify fun _ => rfl
    exact .inl (hqueued.trans (.note (n := .queued id ⟨payload, s.now⟩) (fun _ => rfl) rfl))
  | answered hhead _ hreply =>
    exact .inl (Slackens.take.trans (.send hreply.ne_empty (.inl (hfree hhead))))
  | @selected id _ command hhead =>
    have hscoped : Slackens (s.take id command)
        ((s.take id command).setScope id command.payload) := .modify fun _ => rfl
    have hsent : Slackens ((s.take id command).setScope id command.payload)
        (((s.take id command).setScope id command.payload).send id [respOk] .answer) :=
      .send (ne_empty_of_opcode (by decide)) (.inl fun sync hpending =>
        hfree hhead sync (hscoped.pending _ _ hpending).1)
    exact .inl (((Slackens.take.trans hscoped).trans hsent).trans (.note (fun _ => rfl) rfl))
  | choked => exact .inl (Slackens.take.trans .drop)
  | waits hhead => exact .inr ⟨_, _, _, _, hhead, rfl⟩
  | @delivered id _ command item _ visible hhead _ _ hinbox hvisible =>
    have hitem := hwf.inbox_items hhead.live hinbox item List.mem_cons_self
    have hsent : Slackens (s.take id command)
        ((s.take id command).send id visible (.item item)) :=
      .send (downgradeInbox_ne_empty hitem.shape hitem.code hvisible) (.inl (hfree hhead))
    exact .inl ((Slackens.take.trans hsent).trans .shiftInbox)
  | @syncExpired id =>
    have hended : Slackens s (s.endSync id) := .silent .endSync rfl
    have hsent : Slackens (s.endSync id) ((s.endSync id).send id [respErr, errBadState] .answer) :=
      .send (ne_empty_of_opcode (by decide)) (.inl not_pending_endSync)
    exact .inl (hended.trans hsent)
  | broadcast _ _ _ hpush =>
    refine .inl (.send (ne_empty_of_opcode ?_) (.inr ⟨nofun, nofun⟩))
    intro hempty
    rw [hempty] at hpush
    exact absurd hpush (by decide)

end Broker

end MeshCoreTCPMux

import MeshCoreTCPMux.Broker.Exchange
import MeshCoreTCPMux.Broker.Queues
import MeshCoreTCPMux.Broker.Replay
import MeshCoreTCPMux.Broker.Signing

/-!
# Conversations

A client numbers neither its commands nor the answers that it gets, so it has to rely on their
order. Answers come from many places: the broker rejects a command, it answers a sync from a queue,
from the result of a pop or when the sync has waited too long, and it forwards what the companion
replies.

The history of a session is a conversation: the commands that were taken from its queue, each with
the frames that were sent in answer to it (`conversation`). The theorem (`answers_in_order`) is that
every answer belongs to a command, that each command but the last has exactly one complete answer
(`Complete`), and that the last one has a complete answer or the beginning of one (`Begun`). So a
command is taken from the queue only when the one before it has been answered. `Stands` is what
connects the conversation to the state: the last command is incomplete when the session waits for
an item, or owns the transaction that waits for the companion.
-/

namespace MeshCoreTCPMux

open Protocol Relation History

/-- A frame that answers a command. Hints, broadcasts and results of remote requests answer none. -/
def Cause.answers : Cause → Bool
  | .answer | .item _ | .reply => true
  | _ => false

/-- The frame that answers the session `id`. -/
def Note.utters (id : Nat) : Note → Option Bytes
  | sent frame cause =>
    if frame.session = id ∧ cause.answers = true then some frame.payload else none
  | _ => none

/-- The conversation after an entry, the last command first. -/
def Note.converse (id : Nat) (groups : List (Command × List Bytes)) :
    Note → List (Command × List Bytes)
  | taken i command => if i = id then (command, []) :: groups else groups
  | n =>
    match n.utters id, groups with
    | some payload, (command, frames) :: rest => (command, frames ++ [payload]) :: rest
    | _, _ => groups

/-- An entry of a conversation. -/
def Note.converses : Note → Bool
  | taken _ _ => true
  | sent _ cause => cause.answers
  | _ => false

theorem Note.utters_eq_none {n : Note} {id : Nat} (h : n.converses = false ∨ n.about ≠ some id) :
    n.utters id = none := by
  cases n with
  | sent frame cause =>
    rw [Note.utters, if_neg]
    rintro ⟨rfl, hcause⟩
    rcases h with h | h
    · exact absurd (h.symm.trans hcause) (by decide)
    · exact h rfl
  | _ => rfl

theorem Note.converse_of_quiet {n : Note} {id : Nat} {groups : List (Command × List Bytes)}
    (h : n.converses = false ∨ n.about ≠ some id) :
    n.converse id groups = groups := by
  have hutters := Note.utters_eq_none h
  cases n with
  | taken i command =>
    rw [Note.converse, if_neg]
    rintro rfl
    rcases h with h | h
    · cases h
    · exact h rfl
  | _ => simp only [Note.converse, hutters]

/-- The frames of a contacts stream that has not ended. -/
def Streaming (frames : List Bytes) : Prop :=
  ∃ start records, frames = start :: records ∧ opcode start = respContactsStart ∧
    ∀ record ∈ records, opcode record = respContact

/-- `frames` is one whole answer to `command`. -/
inductive Complete (command : Bytes) : List Bytes → Prop
  | refused {payload : Bytes} (hcode : opcode payload = respErr) (hlength : payload.length = 2) :
      Complete command [payload]
  | disabled (hop : opcode command = cmdExportPrivateKey) : Complete command [[respDisabled]]
  | scope (hop : opcode command = cmdSetFloodScopeKey) : Complete command [[respOk]]
  | nothing (hop : opcode command = cmdSyncNextMessage) : Complete command [[respNoMoreMessages]]
  | item {item visible : Bytes} {version : UInt8} (hop : opcode command = cmdSyncNextMessage)
      (hvisible : downgradeInbox item version = .ok visible) : Complete command [visible]
  | reply {descriptor : CommandDescriptor} {payload visible : Bytes}
      (hdescriptor : Protocol.descriptor command = some descriptor)
      (hgrammar : descriptor.grammar ≠ .contacts) (hcode : opcode payload ∈ descriptor.successCodes)
      (hvisible : Broker.visibleReply payload = .ok visible) : Complete command [visible]
  | contacts {descriptor : CommandDescriptor} {frames : List Bytes} {last : Bytes}
      (hdescriptor : Protocol.descriptor command = some descriptor)
      (hgrammar : descriptor.grammar = .contacts) (hframes : Streaming frames)
      (hlast : opcode last = respEndOfContacts ∨ opcode last = respErr) :
      Complete command (frames ++ [last])

/-- `frames` is the beginning of an answer to `command`. -/
inductive Begun (command : Bytes) : List Bytes → Prop
  | none : Begun command []
  | contacts {descriptor : CommandDescriptor} {frames : List Bytes}
      (hdescriptor : Protocol.descriptor command = some descriptor)
      (hgrammar : descriptor.grammar = .contacts) (hframes : Streaming frames) :
      Begun command frames

/-- Every command has been answered. -/
def Settled (groups : List (Command × List Bytes)) : Prop :=
  ∀ group ∈ groups, Complete group.1.payload group.2

/-- Every command but the last has been answered. -/
def Told (groups : List (Command × List Bytes)) : Prop :=
  Settled groups ∨ ∃ command frames rest, groups = (command, frames) :: rest ∧
    Begun command.payload frames ∧ Settled rest

/-- Where a session stands with its last command, while `active` is at the companion. -/
inductive Stands (active : Option Transaction) (id : Nat) (sync : Option PendingSync) :
    List (Command × List Bytes) → Prop
  /-- The session waits for nothing. -/
  | rests {groups : List (Command × List Bytes)} (hsync : sync = none)
      (hquiet : ∀ x, active = some x → x.owner = id → x.step.unanswered = false)
      (hgroups : Settled groups) : Stands active id sync groups
  /-- It waits for an item. -/
  | waits {command : Command} {rest : List (Command × List Bytes)} (hsync : sync.isSome = true)
      (hother : ∀ x, active = some x → x.owner ≠ id)
      (hop : opcode command.payload = cmdSyncNextMessage) (hrest : Settled rest) :
      Stands active id sync ((command, []) :: rest)
  /-- Its transaction waits for the companion, and has perhaps begun to hear a list of contacts. -/
  | asks {x : Transaction} {command : Command} {frames : List Bytes}
      {rest : List (Command × List Bytes)} (hsync : sync = none) (hactive : active = some x)
      (howner : x.owner = id) (hstep : x.step.unanswered = true)
      (hcommand : command.payload = x.command)
      (hframes : if x.contactsStarted then x.descriptor.grammar = .contacts ∧ x.step = .command ∧
        Streaming frames else frames = [])
      (hrest : Settled rest) : Stands active id sync ((command, frames) :: rest)

section

variable {id : Nat} {x : Transaction} {command : Command}
  {groups rest : List (Command × List Bytes)}

theorem Settled.cons {frames : List Bytes} (h : Complete command.payload frames)
    (hrest : Settled rest) : Settled ((command, frames) :: rest) := by
  intro group hgroup
  rcases List.mem_cons.mp hgroup with rfl | hgroup
  · exact h
  · exact hrest group hgroup

/-- What somebody who leaves has been told. -/
theorem Stands.told {active : Option Transaction} {sync : Option PendingSync}
    (h : Stands active id sync groups)
    (hdescriptor : ∀ x, active = some x → Protocol.descriptor x.command = some x.descriptor) :
    Told groups := by
  cases h with
  | rests _ _ hgroups => exact .inl hgroups
  | waits _ _ _ hrest => exact .inr ⟨_, _, _, rfl, .none, hrest⟩
  | @asks x command frames _ _ hactive _ _ hcommand hframes hrest =>
    refine .inr ⟨_, _, _, rfl, ?_, hrest⟩
    split at hframes
    · exact .contacts (hcommand ▸ hdescriptor x hactive) hframes.1 hframes.2.2
    · exact hframes ▸ .none

/-- Somebody else's transaction is at the companion. -/
theorem Stands.other {active active' : Option Transaction} {sync : Option PendingSync}
    (h : Stands active id sync groups) (hactive : ∀ x, active = some x → x.owner ≠ id)
    (hactive' : ∀ x, active' = some x → x.owner ≠ id) : Stands active' id sync groups := by
  cases h with
  | rests hsync _ hgroups =>
    exact .rests hsync (fun x hx howner => absurd howner (hactive' x hx)) hgroups
  | waits hsync _ hop hrest => exact .waits hsync hactive' hop hrest
  | asks _ hx howner => exact absurd howner (hactive _ hx)

/-- Whoever owns a transaction that has been answered has been told everything. -/
theorem Stands.settled {active : Option Transaction} {sync : Option PendingSync}
    (h : Stands active id sync groups) (hx : active = some x) (howner : x.owner = id)
    (hstep : x.step.unanswered = false) : sync = none ∧ Settled groups := by
  cases h with
  | rests hsync _ hgroups => exact ⟨hsync, hgroups⟩
  | waits _ hother => exact absurd howner (hother x hx)
  | asks _ hactive _ hstep' =>
    obtain rfl := Option.some.inj (hx.symm.trans hactive)
    cases hstep.symm.trans hstep'

end

namespace Broker

variable {s s₀ t u : Broker} {l m : List Note} {n : Note} {id i : Nat} {x : Transaction}
  {payload : Bytes} {session : Session} {command : Command}
  {groups rest : List (Command × List Bytes)}

/-- The commands that have been taken from a session's queue, the last one first, each with the
frames that answer it. -/
def conversation (id : Nat) (log : List Note) : List (Command × List Bytes) :=
  log.foldl (Note.converse id) []

/-- The frames that have been sent to a session in answer to its commands. -/
def spoken (id : Nat) (log : List Note) : List Bytes := log.filterMap (Note.utters id)

theorem conversation_snoc (id : Nat) (l : List Note) (n : Note) :
    conversation id (l ++ [n]) = n.converse id (conversation id l) := by
  simp [conversation]

theorem spoken_append (id : Nat) (l m : List Note) :
    spoken id (l ++ m) = spoken id l ++ spoken id m := List.filterMap_append

/-- Entries that concern somebody else, or no command. -/
theorem conversation_append (hm : ∀ n ∈ m, n.converses = false ∨ n.about ≠ some id) :
    conversation id (l ++ m) = conversation id l := by
  rw [conversation, List.foldl_append]
  exact foldl_neutral fun n hn _ => Note.converse_of_quiet (hm n hn)

theorem spoken_eq_nil (hm : ∀ n ∈ m, n.converses = false ∨ n.about ≠ some id) :
    spoken id m = [] :=
  List.filterMap_eq_nil_iff.mpr fun n hn => Note.utters_eq_none (hm n hn)

theorem conversation_taken (id : Nat) (l : List Note) (command : Command) :
    conversation id (l ++ [.taken id command]) = (command, []) :: conversation id l := by
  rw [conversation_snoc, Note.converse, if_pos rfl]

/-- An answer belongs to the last command. -/
theorem conversation_sent {frame : SendFrame} {cause : Cause} {frames : List Bytes}
    (hcause : cause.answers = true) (hframe : frame.session = id)
    (h : conversation id l = (command, frames) :: rest) :
    conversation id (l ++ [.sent frame cause]) = (command, frames ++ [frame.payload]) :: rest := by
  have hutters : (Note.sent frame cause).utters id = some frame.payload := if_pos ⟨hframe, hcause⟩
  rw [conversation_snoc, h]
  simp only [Note.converse, hutters]

/-- The commands of a conversation are those that have been taken, in order. -/
theorem conversation_commands (id : Nat) (l : List Note) :
    (conversation id l).reverse.map Prod.fst = takenBy id l := by
  induction l using List.reverseRecOn with
  | nil => rfl
  | append_singleton l n ih =>
    rw [conversation_snoc, takenBy_append, ← ih]
    cases n with
    | taken i command =>
      by_cases hid : i = id
      · simp [Note.converse, takenBy, hid]
      · simp [Note.converse, takenBy, hid]
    | sent frame cause =>
      have hnone : takenBy id [.sent frame cause] = [] := rfl
      rw [hnone, List.append_nil]
      simp only [Note.converse]
      split
      · next heq => simp [heq]
      · rfl
    | _ => simp [Note.converse, Note.utters, takenBy]

/-- Every frame of a conversation is in it. -/
def Heeded (id : Nat) (log : List Note) : Prop :=
  (conversation id log).reverse.flatMap Prod.snd = spoken id log

theorem Heeded.append (h : Heeded id l)
    (hm : ∀ n ∈ m, n.converses = false ∨ n.about ≠ some id) : Heeded id (l ++ m) := by
  rw [Heeded, conversation_append hm, spoken_append, spoken_eq_nil hm, List.append_nil]
  exact h

theorem Heeded.taken (h : Heeded id l) (command : Command) :
    Heeded id (l ++ [.taken id command]) := by
  have hnone : spoken id [.taken id command] = [] := rfl
  rw [Heeded, conversation_taken, spoken_append, hnone, ← h]
  simp

theorem Heeded.sent (h : Heeded id l) {frame : SendFrame} {cause : Cause} {frames : List Bytes}
    (hcause : cause.answers = true) (hframe : frame.session = id)
    (heq : conversation id l = (command, frames) :: rest) :
    Heeded id (l ++ [.sent frame cause]) := by
  have hutters : spoken id [.sent frame cause] = [frame.payload] := by
    simp [spoken, Note.utters, hcause, hframe]
  rw [Heeded, conversation_sent hcause hframe heq, spoken_append, hutters, ← h, heq]
  simp

/-! ### The state of every conversation -/

/-- Every session stands somewhere with its last command. -/
structure Talks (s : Broker) : Prop where
  live : ∀ id session, s.sessions.find? id = some session →
    Stands (s.active.map Transaction.core) id session.sync (conversation id s.log)
  told : ∀ id, Told (conversation id s.log)
  heeded : ∀ id, Heeded id s.log

/-- Every session but `id` does. The last command of `id` is `command`, to which it has heard
`frames`. -/
structure Asking (id : Nat) (command : Command) (frames : List Bytes) (s : Broker) : Prop where
  others : ∀ i session, i ≠ id → s.sessions.find? i = some session →
    Stands (s.active.map Transaction.core) i session.sync (conversation i s.log)
  told : ∀ i, i ≠ id → Told (conversation i s.log)
  heeded : ∀ i, Heeded i s.log
  sync : ∀ session, s.sessions.find? id = some session → session.sync = none
  last : ∃ rest, conversation id s.log = (command, frames) :: rest ∧ Settled rest

namespace Talks

/-- The conversations stay, and everybody stands where they stood. -/
theorem become (h : s.Talks) (hkeeps : Keeps (·.converses = false) (·.sync) s t)
    (hstands : ∀ id session, t.sessions.find? id = some session → ∀ groups,
      Stands (s.active.map Transaction.core) id session.sync groups →
        Stands (t.active.map Transaction.core) id session.sync groups) : t.Talks := by
  obtain ⟨notes, hlog, hnotes⟩ := hkeeps.log
  have hquiet : ∀ id, ∀ n ∈ notes, n.converses = false ∨ n.about ≠ some id := fun _ n hn =>
    .inl (hnotes n hn)
  refine ⟨fun id y hy => ?_, fun id => ?_, fun id => ?_⟩
  · obtain ⟨x, hx, hsync⟩ := hkeeps.sessions id y hy
    refine hstands id y hy _ ?_
    rw [hlog, conversation_append (hquiet id), ← hsync]
    exact h.live id x hx
  · rw [hlog, conversation_append (hquiet id)]
    exact h.told id
  · rw [hlog]
    exact (h.heeded id).append (hquiet id)

theorem keep (h : s.Talks) (hkeeps : Keeps (·.converses = false) (·.sync) s t)
    (hcore : t.active.map Transaction.core = s.active.map Transaction.core) : t.Talks :=
  h.become hkeeps fun _ _ _ _ hstands => hcore ▸ hstands

/-- The command at the head of a queue is taken. -/
theorem take (h : s.Talks) (hhead : s.Head id session command) :
    Asking id command [] (s.take id command) := by
  have hnotes : ∀ i, i ≠ id → ∀ n ∈ [Note.taken id command],
      n.converses = false ∨ n.about ≠ some i := by
    intro i hi n hn
    rw [List.mem_singleton.mp hn]
    exact .inr fun heq => hi (Option.some.inj heq).symm
  refine ⟨fun i y hi hy => ?_, fun i hi => ?_, fun i => ?_, fun y hy => ?_, ?_⟩
  · show Stands _ i y.sync (conversation i (s.log ++ [_]))
    rw [conversation_append (hnotes i hi)]
    rw [Broker.take, OrdMap.find?_modify_of_ne _ _ hi] at hy
    exact h.live i y hy
  · show Told (conversation i (s.log ++ [_]))
    rw [conversation_append (hnotes i hi)]
    exact h.told i
  · by_cases hi : i = id
    · exact hi ▸ (h.heeded id).taken command
    · exact (h.heeded i).append (hnotes i hi)
  · rw [hhead.take_live] at hy
    obtain rfl := Option.some.inj hy
    exact hhead.sync
  · refine ⟨conversation id s.log, conversation_taken _ _ _, ?_⟩
    -- nothing is taken from the queue before the last command has been answered
    have hstands := h.live id session hhead.live
    generalize conversation id s.log = groups at hstands
    cases hstands with
    | rests _ _ hgroups => exact hgroups
    | waits hsync => exact absurd hsync (by simp [hhead.sync])
    | @asks x _ _ _ _ hactive howner =>
      obtain ⟨y, hy, rfl⟩ := Option.map_eq_some_iff.mp hactive
      exact absurd (by rw [activeOwner, hy, Option.map_some]; exact congrArg some howner)
        hhead.inactive

/-- A wait ends. -/
theorem endSync (h : s.Talks) {sync : PendingSync} (hlive : s.sessions.find? id = some session)
    (hsync : session.sync = some sync) : ∃ command, opcode command.payload = cmdSyncNextMessage ∧
      (∀ x, s.active = some x → x.owner ≠ id) ∧ Asking id command [] (s.endSync id) := by
  have hstands := h.live id session hlive
  rw [hsync] at hstands
  generalize hgroups : conversation id s.log = groups at hstands
  cases hstands with
  | rests hnone => cases hnone
  | asks hnone => cases hnone
  | @waits command rest _ hother hop hrest =>
    refine ⟨command, hop, fun x hx => hother x.core (by rw [hx]; rfl), ?_⟩
    refine ⟨fun i y hi hy => ?_, fun i _ => h.told i, h.heeded, fun y hy => ?_, rest, hgroups,
      hrest⟩
    · rw [Broker.endSync, OrdMap.find?_modify_of_ne _ _ hi] at hy
      exact h.live i y hy
    · rw [find?_endSync hlive] at hy
      obtain rfl := Option.some.inj hy
      rfl

/-- The owner of the active transaction waits for its reply. -/
theorem asks (h : s.Talks) (hactive : s.active = some x)
    (hlive : s.sessions.find? x.owner = some session) (hstep : x.step.unanswered = true) :
    ∃ command frames, command.payload = x.command ∧
      (if x.contactsStarted then x.descriptor.grammar = .contacts ∧ x.step = .command ∧
        Streaming frames else frames = []) ∧ Asking x.owner command frames s := by
  have hstands := h.live x.owner session hlive
  rw [hactive, Option.map_some] at hstands
  generalize hgroups : conversation x.owner s.log = groups at hstands
  cases hstands with
  | rests _ hquiet => exact absurd (hquiet x.core rfl rfl) (by simp [Transaction.core, hstep])
  | waits _ hother => exact absurd rfl (hother x.core rfl)
  | @asks y command frames rest hsync hy _ _ hcommand hframes hrest =>
    obtain rfl := Option.some.inj hy
    refine ⟨command, frames, hcommand, hframes, fun i z hi hz => h.live i z hz, fun i _ => h.told i,
      h.heeded, fun z hz => ?_, rest, hgroups, hrest⟩
    obtain rfl := Option.some.inj (hlive.symm.trans hz)
    exact hsync

end Talks

namespace Asking

variable {frames : List Bytes}

/-- Everybody else stands where they stood. -/
theorem become (h : Asking id command frames s)
    (hkeeps : Keeps (·.converses = false) (·.sync) s t)
    (hstands : ∀ i session, i ≠ id → t.sessions.find? i = some session → ∀ groups,
      Stands (s.active.map Transaction.core) i session.sync groups →
        Stands (t.active.map Transaction.core) i session.sync groups) :
    Asking id command frames t := by
  obtain ⟨notes, hlog, hnotes⟩ := hkeeps.log
  have hquiet : ∀ id, ∀ n ∈ notes, n.converses = false ∨ n.about ≠ some id := fun _ n hn =>
    .inl (hnotes n hn)
  refine ⟨fun i y hi hy => ?_, fun i hi => ?_, fun i => ?_, fun y hy => ?_, ?_⟩
  · obtain ⟨x, hx, hsync⟩ := hkeeps.sessions i y hy
    refine hstands i y hi hy _ ?_
    rw [hlog, conversation_append (hquiet i), ← hsync]
    exact h.others i x hi hx
  · rw [hlog, conversation_append (hquiet i)]
    exact h.told i hi
  · rw [hlog]
    exact (h.heeded i).append (hquiet i)
  · obtain ⟨x, hx, hsync⟩ := hkeeps.sessions id y hy
    exact hsync.symm.trans (h.sync x hx)
  · rw [hlog, conversation_append (hquiet id)]
    exact h.last

theorem keep (h : Asking id command frames s)
    (hkeeps : Keeps (·.converses = false) (·.sync) s t)
    (hcore : t.active.map Transaction.core = s.active.map Transaction.core) :
    Asking id command frames t :=
  h.become hkeeps fun _ _ _ _ _ hstands => hcore ▸ hstands

/-- An answer is sent. -/
theorem send (h : Asking id command frames s) {c : Cause} (hcause : c.answers = true)
    (payload : Bytes) : Asking id command (frames ++ [payload]) (s.send id payload c) := by
  have hnotes : ∀ i, i ≠ id → ∀ n ∈ [Note.sent ⟨id, s.epoch, s.nextWrite + 1, payload⟩ c],
      n.converses = false ∨ n.about ≠ some i := by
    intro i hi n hn
    rw [List.mem_singleton.mp hn]
    exact .inr fun heq => hi (Option.some.inj heq).symm
  obtain ⟨rest, hlast, hrest⟩ := h.last
  refine ⟨fun i y hi hy => ?_, fun i hi => ?_, fun i => ?_, fun y hy => ?_, rest, ?_, hrest⟩
  · show Stands _ i y.sync (conversation i (s.log ++ [_]))
    rw [conversation_append (hnotes i hi)]
    rw [Broker.send, OrdMap.find?_modify_of_ne _ _ hi] at hy
    exact h.others i y hi hy
  · show Told (conversation i (s.log ++ [_]))
    rw [conversation_append (hnotes i hi)]
    exact h.told i hi
  · by_cases hi : i = id
    · subst hi
      exact (h.heeded i).sent hcause rfl hlast
    · exact (h.heeded i).append (hnotes i hi)
  · rw [Broker.send, OrdMap.find?_modify_self] at hy
    obtain ⟨x, hx, rfl⟩ := Option.map_eq_some_iff.mp hy
    exact h.sync x hx
  · exact conversation_sent hcause rfl hlast

/-- Everybody stands somewhere again. -/
theorem talks (h : Asking id command frames s) (htold : Told (conversation id s.log))
    (hstands : ∀ session, s.sessions.find? id = some session →
      Stands (s.active.map Transaction.core) id session.sync (conversation id s.log)) :
    s.Talks where
  live := by
    intro i session hlive
    by_cases hi : i = id
    · subst hi
      exact hstands session hlive
    · exact h.others i session hi hlive
  told := by
    intro i
    by_cases hi : i = id
    · exact hi ▸ htold
    · exact h.told i hi
  heeded := h.heeded

/-- The answer is complete. -/
theorem finish (h : Asking id command frames s) (hcomplete : Complete command.payload frames)
    (hquiet : ∀ x, s.active = some x → x.owner = id → x.step.unanswered = false) : s.Talks := by
  obtain ⟨rest, hlast, hrest⟩ := h.last
  have hsettled : Settled (conversation id s.log) := hlast ▸ .cons hcomplete hrest
  refine h.talks (.inl hsettled) fun session hlive => .rests (h.sync session hlive) ?_ hsettled
  intro y hy howner
  obtain ⟨x, hx, rfl⟩ := Option.map_eq_some_iff.mp hy
  exact hquiet x hx howner

/-- The companion is asked, or goes on answering. -/
theorem wait (h : Asking id command frames s)
    (hactive : s.active.map Transaction.core = some x.core) (howner : x.owner = id)
    (hstep : x.step.unanswered = true) (hcommand : command.payload = x.command)
    (hdescriptor : Protocol.descriptor x.command = some x.descriptor)
    (hframes : if x.contactsStarted then x.descriptor.grammar = .contacts ∧ x.step = .command ∧
      Streaming frames else frames = []) : s.Talks := by
  obtain ⟨rest, hlast, hrest⟩ := h.last
  have hstands : ∀ sync, sync = none →
      Stands (s.active.map Transaction.core) id sync (conversation id s.log) := fun sync hsync =>
    hlast ▸ .asks (x := x.core) hsync hactive howner hstep hcommand hframes hrest
  refine h.talks ?_ fun session hlive => hstands _ (h.sync session hlive)
  refine (hstands none rfl).told fun y hy => ?_
  rw [hactive] at hy
  obtain rfl := Option.some.inj hy
  exact hdescriptor

end Asking

/-! ### What happens to a conversation -/

/-- Somebody leaves without an answer. -/
theorem Asking.leave (h : Asking id command [] s) (hgone : s.sessions.find? id = none) :
    s.Talks := by
  obtain ⟨rest, hlast, hrest⟩ := h.last
  refine h.talks (.inr ⟨command, [], rest, hlast, .none, hrest⟩) fun session hlive => ?_
  cases hgone.symm.trans hlive

/-- A session waits for an item. -/
theorem Asking.await (h : Asking id command [] s)
    (hop : opcode command.payload = cmdSyncNextMessage)
    (hother : ∀ x, s.active = some x → x.owner ≠ id) (sync : PendingSync) :
    (s.startSync id sync).Talks := by
  have hnotes : ∀ i, ∀ n ∈ [Note.synced id sync], n.converses = false ∨ n.about ≠ some i := by
    intro i n hn
    rw [List.mem_singleton.mp hn]
    exact .inl rfl
  have hsame : ∀ i, conversation i (s.startSync id sync).log = conversation i s.log := fun i =>
    conversation_append (hnotes i)
  obtain ⟨rest, hlast, hrest⟩ := h.last
  refine ⟨fun i y hy => ?_, fun i => ?_, fun i => (h.heeded i).append (hnotes i)⟩
  · rw [hsame]
    by_cases hi : i = id
    · subst hi
      rw [Broker.startSync, OrdMap.find?_modify_self] at hy
      obtain ⟨z, hz, rfl⟩ := Option.map_eq_some_iff.mp hy
      rw [hlast]
      refine .waits rfl (fun x hx => ?_) hop hrest
      obtain ⟨y, hy, rfl⟩ := Option.map_eq_some_iff.mp hx
      exact hother y hy
    · rw [Broker.startSync, OrdMap.find?_modify_of_ne _ _ hi] at hy
      exact h.others i y hi hy
  · rw [hsame]
    by_cases hi : i = id
    · exact hi ▸ .inr ⟨command, [], rest, hlast, .none, hrest⟩
    · exact h.told i hi

theorem LocalReply.complete {config : Config} {now : Time} {reply : Bytes}
    (h : LocalReply config now command reply) : Complete command.payload [reply] := by
  cases h with
  | exportDisabled _ hop => exact .disabled hop
  | _ => exact .refused rfl rfl

/-- Only the mux's own capabilities are rewritten. -/
theorem visibleReply_eq {visible : Bytes} (h : visibleReply payload = .ok visible)
    (hcode : opcode payload ≠ respDeviceInfo) : visible = payload := by
  rw [visibleReply, if_neg hcode] at h
  exact (Except.ok.inj h).symm

/-- The last frame of a reply completes the answer. -/
theorem Replied.complete {started : Bool} {frames : List Bytes} {visible : Bytes}
    (h : s.Replied x payload .complete started)
    (hdescriptor : Protocol.descriptor x.command = some x.descriptor)
    (hframes : if x.contactsStarted then x.descriptor.grammar = .contacts ∧ x.step = .command ∧
      Streaming frames else frames = [])
    (hvisible : visibleReply payload = .ok visible) : Complete x.command (frames ++ [visible]) := by
  by_cases herr : opcode payload = respErr
  · obtain rfl := visibleReply_eq hvisible (by rw [herr]; decide)
    split at hframes
    · exact .contacts hdescriptor hframes.1 hframes.2.2 (.inr herr)
    · rw [hframes]
      exact .refused herr (validateResponse_err h.valid herr).1
  · obtain ⟨hcode, -, hexpected, hprogress⟩ := validateResponse_eq_ok h.valid herr
    by_cases hgrammar : x.descriptor.grammar = .contacts
    · -- a stream that ends has started
      have hend : opcode payload = respEndOfContacts := by
        by_contra hend
        cases hprogress.mpr ⟨hgrammar, hend⟩
      obtain rfl := visibleReply_eq hvisible (by rw [hend]; decide)
      have hstarted := hexpected hgrammar
      rw [hend] at hstarted
      cases hphase : x.contactsStarted with
      | false =>
        simp only [Transaction.phase, hphase] at hstarted
        exact absurd hstarted (by decide)
      | true =>
        rw [hphase, if_pos rfl] at hframes
        exact .contacts hdescriptor hgrammar hframes.2.2 (.inl hend)
    · split at hframes
      · exact absurd hframes.1 hgrammar
      · rw [hframes]
        exact .reply hdescriptor hgrammar hcode hvisible

/-- A frame that is not the last goes on with a list of contacts. -/
theorem Replied.streaming {started : Bool} {frames : List Bytes} {visible : Bytes}
    (h : s.Replied x payload .progress started)
    (hframes : if x.contactsStarted then x.descriptor.grammar = .contacts ∧ x.step = .command ∧
      Streaming frames else frames = [])
    (hvisible : visibleReply payload = .ok visible) :
    started = true ∧ Streaming (frames ++ [visible]) := by
  have herr : opcode payload ≠ respErr := by
    intro herr
    cases (validateResponse_err h.valid herr).2
  obtain ⟨-, -, hexpected, hprogress⟩ := validateResponse_eq_ok h.valid herr
  obtain ⟨hgrammar, hend⟩ := hprogress.mp rfl
  have hstarted : started = true := by
    refine h.contacts_started ?_
    simp [Transaction.finishedBy, h.step, hgrammar, hend, herr]
  refine ⟨hstarted, ?_⟩
  have hphase := hexpected hgrammar
  cases hcontacts : x.contactsStarted with
  | false =>
    rw [hcontacts, if_neg (by decide)] at hframes
    have hcode : opcode payload = respContactsStart := by
      simpa [Transaction.phase, hcontacts, contactsExpected] using hphase
    obtain rfl := visibleReply_eq hvisible (by rw [hcode]; decide)
    rw [hframes]
    exact ⟨visible, [], rfl, hcode, by simp⟩
  | true =>
    rw [hcontacts, if_pos rfl] at hframes
    have hcode : opcode payload = respContact := by
      simpa [Transaction.phase, hcontacts, contactsExpected, hend] using hphase
    obtain rfl := visibleReply_eq hvisible (by rw [hcode]; decide)
    obtain ⟨start, records, rfl, hstart, hrecords⟩ := hframes.2.2
    refine ⟨start, records ++ [visible], rfl, hstart, fun record hrecord => ?_⟩
    rcases List.mem_append.mp hrecord with hrecord | hrecord
    · exact hrecords record hrecord
    · rw [List.mem_singleton.mp hrecord]
      exact hcode

namespace Talks

/-- What the owner of a transaction hears of a reply, if it is still there. -/
theorem forwarded {w : Option Nat} (h : s.Talks) (hactive : s.active = some x)
    (hstep : x.step.unanswered = true) (ht : s.Forwarded x payload w t) :
    (t.sessions.find? x.owner = none ∧ t.Talks) ∨
      ∃ command frames visible, command.payload = x.command ∧
        (if x.contactsStarted then x.descriptor.grammar = .contacts ∧ x.step = .command ∧
          Streaming frames else frames = []) ∧
        visibleReply payload = .ok visible ∧ Asking x.owner command (frames ++ [visible]) t := by
  cases ht with
  | gone hgone => exact .inl ⟨hgone, h⟩
  | @live session visible hlive _ hvisible =>
    obtain ⟨command, frames, hcommand, hframes, hasking⟩ := h.asks hactive hlive hstep
    have hretarget : Asking x.owner command frames (s.retarget x payload) := by
      refine hasking.keep (.retarget fun _ _ => rfl) ?_
      unfold retarget
      split <;> rfl
    exact .inr ⟨command, frames, visible, hcommand, hframes, hvisible, hretarget.send rfl visible⟩

/-- The owner of a transaction hears the last of its reply. -/
theorem conclude {w : Option Nat} (h : s.Talks) (hactive : s.active = some x)
    (hstep : x.step.unanswered = true) (ht : s.Forwarded x payload w t)
    (hcomplete : ∀ frames visible,
      (if x.contactsStarted then x.descriptor.grammar = .contacts ∧ x.step = .command ∧
        Streaming frames else frames = []) →
      visibleReply payload = .ok visible → Complete x.command (frames ++ [visible]))
    (hkeeps : Keeps (·.converses = false) (·.sync) t u)
    (howner : ∀ y, u.active = some y → y.owner = x.owner ∧ y.step.unanswered = false) :
    u.Talks := by
  have hother : ∀ i, i ≠ x.owner → ∀ sync groups,
      Stands (t.active.map Transaction.core) i sync groups →
        Stands (u.active.map Transaction.core) i sync groups := by
    intro i hi sync groups hstands
    refine hstands.other (fun y hy => ?_) fun y hy => ?_
    · rw [ht.frame.2.1, hactive] at hy
      obtain rfl := Option.some.inj hy
      exact Ne.symm hi
    · obtain ⟨z, hz, rfl⟩ := Option.map_eq_some_iff.mp hy
      exact fun heq => hi (heq.symm.trans (howner z hz).1)
  rcases h.forwarded hactive hstep ht with ⟨hgone, ht⟩ |
      ⟨command, frames, visible, hcommand, hframes, hvisible, hasking⟩
  · refine ht.become hkeeps fun i session hlive groups hstands => hother i ?_ _ _ hstands
    rintro rfl
    obtain ⟨y, hy, -⟩ := hkeeps.sessions _ session hlive
    cases hgone.symm.trans hy
  · refine (hasking.become hkeeps fun i session hi _ groups => hother i hi _ _).finish ?_ ?_
    · rw [hcommand]
      exact hcomplete frames visible hframes hvisible
    · exact fun y hy _ => (howner y hy).2

/-- The transaction goes on without an answer. -/
theorem proceed {y : Transaction} (h : s.Talks) (hactive : s.active = some x)
    (hstep : x.step.unanswered = true) (hkeeps : Keeps (·.converses = false) (·.sync) s t)
    (hactive' : t.active.map Transaction.core = some y.core) (howner : y.owner = x.owner)
    (hcommand : y.command = x.command) (hstep' : y.step.unanswered = true)
    (hdescriptor : Protocol.descriptor y.command = some y.descriptor)
    (hframes : ∀ frames,
      (if x.contactsStarted then x.descriptor.grammar = .contacts ∧ x.step = .command ∧
        Streaming frames else frames = []) →
      if y.contactsStarted then y.descriptor.grammar = .contacts ∧ y.step = .command ∧
        Streaming frames else frames = []) : t.Talks := by
  have hother : ∀ i, x.owner ≠ i → ∀ sync groups,
      Stands (s.active.map Transaction.core) i sync groups →
        Stands (t.active.map Transaction.core) i sync groups := by
    intro i hi sync groups hstands
    rw [hactive']
    refine hstands.other (fun z hz => ?_) fun z hz => ?_
    · rw [hactive] at hz
      obtain rfl := Option.some.inj hz
      exact hi
    · obtain rfl := Option.some.inj hz
      exact howner ▸ hi
  cases hlive : s.sessions.find? x.owner with
  | none =>
    refine h.become hkeeps fun i session hi groups => hother i ?_ _ _
    rintro rfl
    obtain ⟨z, hz, -⟩ := hkeeps.sessions _ session hi
    cases hlive.symm.trans hz
  | some session =>
    obtain ⟨command, frames, hpayload, hbegun, hasking⟩ := h.asks hactive hlive hstep
    refine (hasking.become hkeeps fun i session hi _ groups => hother i (Ne.symm hi) _ _).wait
      hactive' howner hstep' (hpayload.trans hcommand.symm) hdescriptor (hframes frames hbegun)

theorem upstream (h : s.Talks) (hwf : s.WF) (hst : Upstream s t) : t.Talks := by
  cases hst with
  | popDispatched hrunning hidle hrequested hsessions hdescriptor htransaction =>
    subst htransaction
    refine h.become (.notes rfl (List.append_assoc _ _ _) (by simp [Note.converses])) ?_
    intro i session hlive groups hstands
    refine hstands.other (fun y hy => by rw [hidle] at hy; cases hy) fun y hy => ?_
    obtain rfl := Option.some.inj hy
    rintro rfl
    exact hwf.positive (OrdMap.mem_keys_of_find? hlive)
  | @dispatched id session command descriptor radio signing y frame hidle hhead hforward hdescriptor
      hreserves htransaction =>
    have howner : y.owner = id := by rw [htransaction]
    have hstep : y.step.unanswered = true := by
      rw [htransaction]
      dsimp only
      split <;> rfl
    have hkeeps : Keeps (·.converses = false) (·.sync) (s.take id command)
        (((s.take id command).claim y radio signing).sendUp frame y) :=
      .notes rfl (List.append_assoc _ _ _) (by simp [Note.converses])
    refine ((h.take hhead).become hkeeps fun i session hi _ groups hstands => ?_).wait rfl howner
      hstep (by rw [htransaction]) (by rw [htransaction]; exact hdescriptor)
      (by rw [htransaction]; rfl)
    refine hstands.other (fun z hz => ?_) fun z hz => ?_
    · have hnone : (s.take id command).active = none := hidle
      rw [hnone] at hz
      cases hz
    · obtain rfl := Option.some.inj hz
      exact fun heq => hi (heq.symm.trans howner)
  | @setupRejected t x payload w hx _ hstep _ hreply herr ht =>
    refine h.conclude hx (by rw [hstep]; rfl) ht (fun frames visible hframes hvisible => ?_)
      (.notes (m := [_]) rfl rfl (by simp [Note.converses])) (by rintro y ⟨⟩)
    obtain rfl := visibleReply_eq hvisible (by rw [herr]; decide)
    split at hframes
    · cases hstep.symm.trans hframes.2.1
    · rw [hframes]
      exact .refused herr (length_of_scopeReply hreply herr)
  | @setupAccepted x frame hx _ hstep =>
    have hkeeps : Keeps (·.converses = false) (·.sync) s
        ((s.note (.replied [respOk] s.now)).sendUp frame
          { x with progress := s.now, step := .command }) :=
      .notes rfl (List.append_assoc _ _ _) (by simp [Note.converses])
    refine h.proceed hx (by rw [hstep]; rfl) hkeeps rfl rfl rfl rfl
      (hwf.active x hx).shape.descriptor fun frames hframes => ?_
    -- no list of contacts has begun before the command
    have hstarted : x.contactsStarted = false := by
      by_contra hstarted
      rw [Bool.not_eq_false] at hstarted
      rw [hstarted, if_pos rfl] at hframes
      cases hstep.symm.trans hframes.2.1
    rw [hstarted, if_neg (by decide)] at hframes
    show if x.contactsStarted then _ else _
    rw [hstarted, if_neg (by decide)]
    exact hframes
  | @restored x hx _ hstep =>
    refine h.become (.notes (m := [_]) rfl rfl (by simp [Note.converses])) ?_
    intro i session hlive groups hstands
    rw [hx, Option.map_some] at hstands
    by_cases hi : x.owner = i
    · obtain ⟨hsync, hgroups⟩ := hstands.settled rfl hi (by simp [Transaction.core, hstep]; rfl)
      exact .rests hsync (by rintro y ⟨⟩) hgroups
    · refine hstands.other (fun y hy => ?_) (by rintro y ⟨⟩)
      obtain rfl := Option.some.inj hy
      exact hi
  | @progressed t x payload started w hreplied ht =>
    have hactive := ht.frame.2.1.trans hreplied.active
    have hdescriptor := (hwf.active x hreplied.active).shape.descriptor
    have hkeeps : Keeps (·.converses = false) (·.sync) t
        ({ t with
            active := some
              { x with
                contactsStarted := started
                responseFrames := x.responseFrames + 1
                progress := s.now } }.note (.replied payload s.now)) :=
      .notes (m := [_]) rfl rfl (by simp [Note.converses])
    have hother : ∀ i, x.owner ≠ i → ∀ sync groups,
        Stands (t.active.map Transaction.core) i sync groups →
          Stands (some { x with
            contactsStarted := started
            responseFrames := x.responseFrames + 1
            progress := s.now }.core) i sync groups := by
      intro i hi sync groups hstands
      refine hstands.other (fun y hy => ?_) fun y hy => ?_
      · rw [hactive] at hy
        obtain rfl := Option.some.inj hy
        exact hi
      · obtain rfl := Option.some.inj hy
        exact hi
    rcases h.forwarded hreplied.active (by rw [hreplied.step]; rfl) ht with ⟨hgone, ht⟩ |
        ⟨command, frames, visible, hcommand, hframes, hvisible, hasking⟩
    · refine ht.become hkeeps fun i session hlive groups => hother i ?_ _ _
      rintro rfl
      cases hgone.symm.trans hlive
    · obtain ⟨hstarted, hstreaming⟩ := hreplied.streaming hframes hvisible
      refine (hasking.become hkeeps fun i session hi _ groups => hother i (Ne.symm hi) _ _).wait rfl
        rfl ?_ hcommand hdescriptor ?_
      · show x.step.unanswered = true
        rw [hreplied.step]
        rfl
      · show if started = true then _ else _
        rw [hstarted, if_pos rfl]
        exact ⟨hreplied.contacts_of_progress, hreplied.step, hstreaming⟩
  | @scopedReply t x payload started w radio signing hreplied ht haccept =>
    have hdescriptor := (hwf.active x hreplied.active).shape.descriptor
    refine h.conclude hreplied.active (by rw [hreplied.step]; rfl) ht
      (fun frames visible hframes hvisible => hreplied.complete hdescriptor hframes hvisible)
      (.notes rfl (List.append_assoc _ _ _) (by simp [Note.converses])) fun y hy => ?_
    obtain rfl := Option.some.inj hy
    exact ⟨rfl, rfl⟩
  | @heldReply t x payload started w radio signing hreplied ht haccept =>
    have hdescriptor := (hwf.active x hreplied.active).shape.descriptor
    refine h.conclude hreplied.active (by rw [hreplied.step]; rfl) ht
      (fun frames visible hframes hvisible => hreplied.complete hdescriptor hframes hvisible)
      (.notes (m := [_]) rfl rfl (by simp [Note.converses])) fun y hy => ?_
    obtain rfl := Option.some.inj hy
    exact ⟨rfl, rfl⟩
  | @finalReply t x payload started w radio signing hreplied ht haccept =>
    have hdescriptor := (hwf.active x hreplied.active).shape.descriptor
    exact h.conclude hreplied.active (by rw [hreplied.step]; rfl) ht
      (fun frames visible hframes hvisible => hreplied.complete hdescriptor hframes hvisible)
      (.notes (m := [_]) rfl rfl (by simp [Note.converses])) (by rintro y ⟨⟩)

/-- Somebody joins who has said nothing. -/
theorem enter (h : s.Talks) (hattended : s.Attended) (hfresh : Fresh id s.log)
    (howner : ∀ x, s.active = some x → x.owner ≠ id) (slotId : Option Nat) :
    (s.enter id slotId).Talks := by
  have hnotes : ∀ n ∈ .admitted id slotId ::
      (if slotId.isNone then s.orphan.toList.map (Note.offered id) else []),
      n.converses = false := by
    intro n hn
    rcases List.mem_cons.mp hn with rfl | hn
    · rfl
    · split at hn
      · obtain ⟨_, -, rfl⟩ := List.mem_map.mp hn
        rfl
      · cases hn
  have hsame : ∀ i, conversation i (s.enter id slotId).log = conversation i s.log := fun i =>
    conversation_append fun n hn => .inl (hnotes n hn)
  refine ⟨fun i y hy => ?_, fun i => ?_, fun i => ?_⟩
  · rw [hsame]
    simp only [Broker.enter, OrdMap.find?_insert] at hy
    split at hy
    · next hid =>
      subst hid
      obtain rfl := Option.some.inj hy
      have hnothing : conversation i s.log = [] :=
        conversation_append (l := []) fun n hn => .inr (hattended.unused hfresh n hn)
      rw [hnothing]
      refine .rests rfl (fun x hx hi => ?_) (by rintro group ⟨⟩)
      obtain ⟨z, hz, rfl⟩ := Option.map_eq_some_iff.mp hx
      exact absurd hi (howner z hz)
    · exact h.live i y hy
  · rw [hsame]
    exact h.told i
  · exact (h.heeded i).append fun n hn => .inl (hnotes n hn)

theorem receives {session : Session} (h : s.Talks) (hidle : s.active = none)
    (hlive : s.sessions.find? id = some session) (hst : s.Receives id session t) : t.Talks := by
  cases hst with
  | held => exact h
  | slow => exact h.keep (.drop rfl) rfl
  | @served sync item rest visible hsync _ _ hvisible =>
    obtain ⟨command, hop, -, hasking⟩ := h.endSync hlive hsync
    have hanswered := hasking.send (c := .item item) rfl visible
    have hsame : (((s.endSync id).send id visible (.item item)).shiftInbox id session item).active
        = s.active := by
      unfold shiftInbox
      split <;> rfl
    refine (hanswered.keep (.shiftInbox (fun _ _ => rfl) fun _ => rfl) ?_).finish
      (.item hop hvisible) fun x hx => ?_
    · rw [hsame]
      rfl
    · cases (hsame.trans hidle).symm.trans hx

end Talks

/-- Whose command is at the head of a queue owns no transaction. -/
theorem Head.not_owner (h : s.Head id session command) (hx : s.active = some x) : x.owner ≠ id := by
  rintro rfl
  exact h.inactive (by rw [activeOwner, hx]; rfl)

theorem Talks.client (h : s.Talks) (hK : Reached s₀ s) (hst : Client s t) : t.Talks := by
  cases hst with
  | @entered id slotId hrunning _ hid hfresh =>
    refine h.enter hK.attended hfresh (fun x hx => ?_) slotId
    rintro rfl
    rcases hK.tallies.owner x hx with hzero | hused
    · exact absurd hzero (Nat.ne_of_gt hid)
    · exact hused hfresh
  | @queued id session payload =>
    have hqueued : Keeps (·.converses = false) (·.sync) s
        { s with
          sessions := s.sessions.modify id fun x =>
            { x with commands := x.commands ++ [⟨payload, s.now⟩] } } := .modify fun _ => rfl
    exact h.keep (hqueued.trans (.notes (m := [_]) rfl rfl (by simp [Note.converses]))) rfl
  | answered hhead _ hreply =>
    refine ((h.take hhead).send rfl _).finish hreply.complete fun x hx howner => ?_
    exact absurd howner (hhead.not_owner hx)
  | @selected id session command hhead _ hvalid hop =>
    have hscoped : Asking id command [] ((s.take id command).setScope id command.payload) :=
      (h.take hhead).keep (.modify fun _ => rfl) rfl
    refine Talks.keep ?_ (.note (n := .selected id command.payload) rfl) rfl
    refine (hscoped.send (c := .answer) rfl [respOk]).finish (.scope hop) fun x hx howner => ?_
    exact absurd howner (hhead.not_owner hx)
  | choked hhead =>
    refine ((h.take hhead).keep (.drop rfl) rfl).leave ?_
    simp [Broker.drop]
  | waits hhead hop => exact (h.take hhead).await hop (fun x hx => hhead.not_owner hx) _
  | @delivered id session command item rest visible hhead hop _ _ hvisible =>
    have hanswered := (h.take hhead).send (c := .item item) rfl visible
    have hsame : (((s.take id command).send id visible (.item item)).shiftInbox id session
        item).active = s.active := by
      unfold shiftInbox
      split <;> rfl
    refine (hanswered.keep (.shiftInbox (fun _ _ => rfl) fun _ => rfl) ?_).finish
      (.item hop hvisible) fun x hx howner => ?_
    · rw [hsame]
      rfl
    · exact absurd howner (hhead.not_owner (hsame.symm.trans hx))
  | @syncExpired id session sync hlive hsync =>
    obtain ⟨command, hop, hother, hasking⟩ := h.endSync hlive hsync
    refine (hasking.send rfl _).finish (.refused rfl rfl) fun x hx howner => ?_
    exact absurd howner (hother x hx)
  | broadcast => exact h.keep (.send (fun _ _ => rfl) rfl) rfl

theorem Talks.pop (h : s.Talks) (hidle : s.active = none) (hst : Pop x payload s t) : t.Talks := by
  cases hst with
  | output hst =>
    exact h.keep (.output hst (fun _ _ => rfl) (fun _ _ => rfl) (fun _ _ => rfl) fun _ => rfl)
      hst.calm.core
  | @answered id session sync hempty hlive hsync =>
    obtain ⟨command, hop, hother, hasking⟩ := h.endSync hlive hsync
    refine (hasking.send rfl _).finish (.nothing hop) fun x hx howner => ?_
    exact absurd howner (hother x hx)
  | duplicate | popped | orphaned | slotOffered =>
    exact h.keep (.notes (m := [_]) rfl rfl (by simp [Note.converses])) rfl
  | flooded => exact h.keep (.drop rfl) rfl
  | @attachedOffered _ slotId _ _ _ _ _ hlive _ ht =>
    have hoffered : (s.offerSlot slotId payload).Talks :=
      h.keep (.notes (m := [_]) rfl rfl (by simp [Note.converses])) rfl
    exact hoffered.receives hidle hlive ht
  | @offered _ id session hlive _ _ _ ht =>
    have happended : Keeps (·.converses = false) (·.sync) s { s with
        sessions := s.sessions.modify id fun x => { x with inbox := x.inbox ++ [payload] } } :=
      .modify fun _ => rfl
    have hoffered : (s.offer id payload).Talks :=
      h.keep (happended.trans (.notes (m := [_]) rfl rfl (by simp [Note.converses]))) rfl
    exact hoffered.receives hidle (find?_offer _ hlive) ht

/-- The active transaction ends, whose owner has been told everything. -/
theorem Talks.done (h : s.Talks) (hactive : s.active = some x)
    (hlive : ∀ session, s.sessions.find? x.owner = some session → x.step.unanswered = false)
    (hkeeps : Keeps (·.converses = false) (·.sync) s t) (hidle : t.active = none) : t.Talks := by
  refine h.become hkeeps fun i session hi groups hstands => ?_
  rw [hactive, Option.map_some] at hstands
  rw [hidle]
  by_cases howner : x.owner = i
  · obtain ⟨y, hy, -⟩ := hkeeps.sessions i session hi
    obtain ⟨hsync, hgroups⟩ := hstands.settled rfl howner (hlive y (howner ▸ hy))
    exact .rests hsync (by rintro y ⟨⟩) hgroups
  · refine hstands.other (fun y hy => ?_) (by rintro y ⟨⟩)
    obtain rfl := Option.some.inj hy
    exact howner

/-- **Everybody stands somewhere in their conversation**, in every state. -/
theorem Stepwise.talks : Stepwise (Reached s₀) Talks where
  report := fun _ h => { h with }
  input := fun _ _ h => h.keep (.note rfl) rfl
  clock := fun _ _ h => { h with }
  idle := fun _ hst h =>
    h.keep (.idle hst (fun _ _ => rfl) (fun _ _ => rfl) fun _ _ => rfl) hst.calm.core
  output := fun _ hst h =>
    h.keep (.output hst (fun _ _ => rfl) (fun _ _ => rfl) (fun _ _ => rfl) fun _ => rfl)
      hst.calm.core
  client := fun hK hst h => h.client hK hst
  radio := fun _ hst h =>
    h.keep (.radio hst (fun _ _ => rfl) (fun _ => rfl) (fun _ _ => rfl) fun _ => rfl) hst.calm.core
  part := by
    intro s t hK hst h
    cases hst with
    | dropped => exact h.keep (.drop rfl) rfl
    | writtenDown => exact h.keep (.writtenDown (fun _ _ => rfl) fun _ _ => rfl) rfl
    | upstream hst => exact h.upstream hK.wf hst
    | released hactive hstep =>
      exact h.done hactive (fun _ _ => by rw [hstep]; rfl) (.same rfl rfl) rfl
    | failed reason _ hsessions =>
      -- nobody is left who could stand anywhere
      refine h.become (.notes (m := [_]) rfl rfl (by simp [Note.converses])) ?_
      intro i session hlive
      have hmem := OrdMap.mem_keys_of_find? hlive
      rw [show (s.fail reason).sessions = s.sessions from rfl,
        OrdMap.isEmpty_iff_keys.mp hsessions] at hmem
      cases hmem
  took := by
    intro s x payload hK ht h
    refine h.done ht.active (fun session hlive => ?_)
      (.notes (m := [_]) rfl rfl (by simp [Note.converses])) rfl
    rw [ht.owner] at hlive
    exact absurd (OrdMap.mem_keys_of_find? hlive) hK.wf.positive
  pop := fun _ hidle _ hst h => h.pop hidle hst
  closes := fun _ hst h => h.keep (.closes hst rfl) hst.calm.core

theorem Starts.talks (h : s.Starts) : s.Talks := by
  obtain ⟨epoch, selfKey, config, now, orphan, slots, radio, rfl⟩ := h.fresh
  refine ⟨?_, fun _ => .inl ?_, fun _ => rfl⟩
  · rintro id session ⟨⟩
  · rintro group ⟨⟩

theorem Reached.talks (h : Reached s₀ s) : s.Talks := Stepwise.talks.holds Starts.talks h

/-- A client is answered in order. -/
structure InTurn (id : Nat) (log : List Note) : Prop where
  /-- Its commands are answered in the order in which it sent them. -/
  commands : (conversation id log).reverse.map Prod.fst <+: queuedBy id log
  /-- Whatever it is sent in answer belongs to one of them. -/
  frames : (conversation id log).reverse.flatMap Prod.snd = spoken id log
  /-- Each but the last has one whole answer. -/
  told : Told (conversation id log)

/-- **Every client is answered in order**: its commands are taken in the order in which they were
queued, and each is answered once and as a whole before the next one is. It never waits for an item
and for the companion at a time. -/
theorem answers_in_order (hstart : s₀.Starts) (h : Run s₀ s) (id : Nat) :
    InTurn id s.log ∧ ∀ session, s.sessions.find? id = some session → session.sync.isSome = true →
      s.activeOwner ≠ some id := by
  have hreached := h.reached hstart
  have htalks := hreached.talks
  refine ⟨⟨?_, htalks.heeded id, htalks.told id⟩, fun session hlive hsync howner => ?_⟩
  · rw [conversation_commands]
    exact hreached.inOrder.order id
  · obtain ⟨x, hx, rfl⟩ := Option.map_eq_some_iff.mp howner
    have hstands := htalks.live x.owner session hlive
    rw [hx] at hstands
    generalize conversation x.owner s.log = groups at hstands
    cases hstands with
    | rests hnone => simp [hnone] at hsync
    | waits _ hother => exact hother x.core rfl rfl
    | asks hnone => simp [hnone] at hsync

/-- A client asks for its contacts and for its messages, and says something else that is no command,
before it hears of either. -/
def talker : Broker :=
  first.replay [.admission 1 none 0, .clientFrame 1 [cmdGetContacts] 0,
    .clientFrame 1 [cmdSyncNextMessage] 0, .clientFrame 1 [255] 0,
    .upstreamFrame [respContactsStart, 0, 0, 0, 0] 0,
    .upstreamFrame [respEndOfContacts, 0, 0, 0, 0] 0, .upstreamFrame [respNoMoreMessages] 0]

/-- It hears of all three, in order. -/
theorem answers_in_order_talker :
    (InTurn 1 talker.log ∧ ∀ session, talker.sessions.find? 1 = some session →
      session.sync.isSome = true → talker.activeOwner ≠ some 1) ∧
    conversation 1 talker.log = [
      (⟨[255], 0⟩, [[respErr, errUnsupportedCmd]]),
      (⟨[cmdSyncNextMessage], 0⟩, [[respNoMoreMessages]]),
      (⟨[cmdGetContacts], 0⟩,
        [[respContactsStart, 0, 0, 0, 0], [respEndOfContacts, 0, 0, 0, 0]])] := by
  have hrun : Run first talker := Run.start.replay (by decide +kernel)
  exact ⟨answers_in_order first_starts hrun 1, by decide +kernel⟩

end Broker

end MeshCoreTCPMux

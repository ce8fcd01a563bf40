import MeshCoreTCPMux.Broker.Commutes
import MeshCoreTCPMux.Broker.Run

/-!
# CLI bodies do not influence the logs

Two runs make corresponding calls: the same ones, but for the bodies of CLI frames, which only agree
in their lengths. Since the broker commutes with changes of CLI bodies, both runs print the same
messages, and what they send differs in corresponding frames only.

That the frames correspond, and are not just any two CLI frames, is shown with three colours. Had the
two runs sent `x` and `x'` that no pair of corresponding calls brought, there would be a run with
coloured bodies that turns into recolourings of both, and it would have to send two colours at once.
-/

namespace MeshCoreTCPMux

open Protocol Program

/-! ### Composing changes -/

namespace BodyMap

variable (f g : BodyMap)

def comp : BodyMap where
  body code b := f.body code (g.body code b)
  length_body code b := by rw [f.length_body, g.length_body]

variable {f g}

@[simp] theorem frame_frame (code : UInt8) (payload : Bytes) :
    f.frame code (g.frame code payload) = (f.comp g).frame code payload := by
  cases payload with
  | nil => rfl
  | cons op body =>
    by_cases hop : op = code
    · subst hop
      rw [frame_cons, frame_cons, frame_cons]
      rfl
    · rw [g.frame_cons_of_ne hop, f.frame_cons_of_ne hop, (f.comp g).frame_cons_of_ne hop]

@[simp] theorem text_text (message : Text) : f.text (g.text message) = (f.comp g).text message := by
  simp only [text, List.map_map]
  refine List.map_congr_left fun piece _ => ?_
  cases piece with
  | command | response => simp [BodyMap.piece]
  | text | int | millis | hex | beginInspect | endInspect => rfl

@[simp] theorem event_event (event : Event) : f.event (g.event event) = (f.comp g).event event := by
  cases event <;> simp [BodyMap.event]

@[simp] theorem remote_remote (lease : RemoteLease) :
    f.remote (g.remote lease) = (f.comp g).remote lease := by
  cases lease <;> simp [BodyMap.remote]

end BodyMap

namespace Broker

variable {s s₀ : Broker} {f : BodyMap}

/-! ### Runs as functions -/

/-- A call of the runtime, or its transfer of the pending actions. -/
def turn (s : Broker) : Option Event → List Action × Broker
  | some event => ([], s.after event)
  | none => s.takeActions

/-- The actions that a run hands over, and the state in which it ends. -/
def play (s : Broker) : List (Option Event) → List Action × Broker
  | [] => ([], s)
  | call :: rest =>
    ((s.turn call).1 ++ ((s.turn call).2.play rest).1, ((s.turn call).2.play rest).2)

/-- No session has the companion's id. -/
def Numbered (calls : List (Option Event)) : Prop :=
  ∀ id slotId now, some (.admission id slotId now) ∈ calls → id ≠ 0

theorem numbered_map (calls : List (Option Event)) :
    Numbered (calls.map (Option.map f.event)) ↔ Numbered calls := by
  have hadmission (event : Event) (id : Nat) (slotId : Option Nat) (now : Time) :
      f.event event = .admission id slotId now ↔ event = .admission id slotId now := by
    cases event <;> simp [BodyMap.event]
  simp only [Numbered, List.mem_map, Option.map_eq_some_iff, hadmission]
  refine forall_congr' fun id => forall_congr' fun slotId => forall_congr' fun now =>
    imp_congr ?_ Iff.rfl
  constructor
  · rintro ⟨call, hcall, event, rfl, rfl⟩
    exact hcall
  · exact fun hcall => ⟨_, hcall, _, rfl, rfl⟩

theorem turn_broker (hs : s.Described) {call : Option Event} (hcall : Numbered [call]) :
    (s.turn call).2.Described ∧ (f.broker s).turn (call.map f.event)
      = ((s.turn call).1.map f.action, f.broker (s.turn call).2) := by
  cases call with
  | none => exact ⟨⟨hs.positive, hs.active, hs.debt⟩, rfl⟩
  | some event =>
    have hrun := @BodyMap.commutes_handle f event
      (fun id slotId now hevent => hcall id slotId now (by simp [hevent])) s hs
    simp only [turn, Option.map_some, after, List.map_nil]
    cases hhandle : MeshCoreTCPMux.handle event s with
    | ok a t =>
      rw [hhandle] at hrun
      exact ⟨hrun.1, by rw [hrun.2]⟩
    | error e t =>
      rw [hhandle] at hrun
      exact ⟨hrun.1, by rw [hrun.2]⟩

/-- **A run commutes with changes of CLI bodies.** -/
theorem play_broker (calls : List (Option Event)) (hs : s.Described) (hcalls : Numbered calls) :
    (f.broker s).play (calls.map (Option.map f.event))
      = ((s.play calls).1.map f.action, f.broker (s.play calls).2) := by
  induction calls generalizing s with
  | nil => rfl
  | cons call rest ih =>
    obtain ⟨hdescribed, hturn⟩ := @turn_broker _ f hs call
      fun id slotId now hmem => hcalls id slotId now (List.mem_cons.mpr (.inl (by simpa using hmem)))
    simp only [List.map_cons, play, hturn, List.map_append,
      ih hdescribed fun id slotId now hmem => hcalls id slotId now (List.mem_cons_of_mem _ hmem)]

theorem Starts.described (h : s₀.Starts) : s₀.Described := by
  obtain ⟨epoch, selfKey, config, now, orphan, slots, radio, rfl⟩ := h.fresh
  exact ⟨List.not_mem_nil, fun _ hactive => (nomatch hactive), fun _ howed => (nomatch howed)⟩

theorem response_inboxItem {item : Bytes} (h : InboxItem item) : f.response item = item := by
  refine f.frame_of_ne fun hop => ?_
  have hcode := h.code
  rw [hop] at hcode
  revert hcode
  decide

/-- A fresh broker holds CLI bodies in the lease that it inherits, if at all. -/
theorem Starts.broker (h : s₀.Starts) (radio : CompanionRadioState) :
    f.broker { s₀ with radio := radio } = { s₀ with radio := f.radio radio } := by
  have horphan : s₀.orphan.map f.response = s₀.orphan := by
    cases hitem : s₀.orphan with
    | none => rfl
    | some item => exact congrArg some (response_inboxItem (h.orphan item hitem))
  have hslots : s₀.dedicatedSlots.mapValues f.slot = s₀.dedicatedSlots := by
    refine OrdMap.mapValues_eq_self _ fun k slot hslot => ?_
    have hqueue : slot.offlineQueue.map f.response = slot.offlineQueue :=
      (List.map_congr_left fun item hitem =>
        response_inboxItem ((h.slots k slot hslot).2.1 item hitem)).trans (List.map_id _)
    simp only [BodyMap.slot, hqueue]
  obtain ⟨epoch, selfKey, config, now, orphan, slots, inherited, rfl⟩ := h.fresh
  simp only [BodyMap.broker, Broker.mk.injEq, horphan, hslots]
  simp [Broker.new]

/-! ### Corresponding calls -/

/-- Two calls bring these frames, which have room for CLI bodies with this opcode. -/
inductive Frames : UInt8 → Bytes → Bytes → Event → Event → Prop
  | command {payload payload' : Bytes} (id : Nat) (now : Time) :
      Frames cmdRunCliCommand payload payload' (.clientFrame id payload now)
        (.clientFrame id payload' now)
  | reply {payload payload' : Bytes} (now : Time) :
      Frames respCliReply payload payload' (.upstreamFrame payload now)
        (.upstreamFrame payload' now)
  | drained {payload payload' : Bytes} (now : Time) :
      Frames respCliReply payload payload' (.drainUncertainFrame payload now)
        (.drainUncertainFrame payload' now)

/-- Two calls that are the same, but for the bytes after the opcode of a CLI frame. -/
inductive Corresponding : Event → Event → Prop
  | same (event : Event) : Corresponding event event
  | cli {code : UInt8} {body body' : Bytes} {event event' : Event}
      (hlength : body.length = body'.length)
      (h : Frames code (code :: body) (code :: body') event event') : Corresponding event event'

/-- Two runs, call by call. -/
abbrev Script := List (Option (Event × Event))

namespace Script

variable (script : Script)

def first : List (Option Event) := script.map (Option.map Prod.fst)

def second : List (Option Event) := script.map (Option.map Prod.snd)

/-- The runs make corresponding calls. -/
def Parallel : Prop :=
  ∀ event event', some (event, event') ∈ script → Corresponding event event'

/-- The runs are brought these frames at the same time. -/
def Brings (code : UInt8) (payload payload' : Bytes) : Prop :=
  ∃ event event', some (event, event') ∈ script ∧ Frames code payload payload' event event'

end Script

/-- The opcode of the CLI frames to a session, or to the companion. -/
def cliCode (session : Nat) : UInt8 := if session = 0 then cmdRunCliCommand else respCliReply

theorem action_sendFrame (session epoch writeId : Nat) (payload : Bytes) :
    f.action (.sendFrame ⟨session, epoch, writeId, payload⟩)
      = .sendFrame ⟨session, epoch, writeId, f.frame (cliCode session) payload⟩ := by
  simp only [BodyMap.action, BodyMap.sendFrame, cliCode]
  split <;> rfl

/-- Only a frame becomes a frame. -/
theorem action_eq_sendFrame {action : Action} {session epoch writeId : Nat} {payload : Bytes}
    (h : f.action action = .sendFrame ⟨session, epoch, writeId, payload⟩) :
    ∃ p, action = .sendFrame ⟨session, epoch, writeId, p⟩ ∧
      f.frame (cliCode session) p = payload := by
  cases action with
  | sendFrame frame =>
    obtain ⟨session', epoch', writeId', p⟩ := frame
    rw [action_sendFrame] at h
    simp only [Action.sendFrame.injEq, SendFrame.mk.injEq] at h
    obtain ⟨rfl, rfl, rfl, rfl⟩ := h
    exact ⟨p, rfl, rfl⟩
  | closeSession | endEpoch | diagnostic => cases h

/-! ### Coloured bodies -/

/-- Fill every body with one byte. -/
def coloured (colour : UInt8 → Bytes → UInt8) : BodyMap where
  body code b := List.replicate b.length (colour code b)
  length_body _ _ := List.length_replicate

/-- Fill the bodies of one colour with another. -/
def recoloured (old new : UInt8) : BodyMap where
  body _ b := if b = List.replicate b.length old then List.replicate b.length new else b
  length_body _ b := by
    split
    · exact List.length_replicate
    · rfl

theorem recoloured_replicate (old new code : UInt8) (n : Nat) (colour : UInt8) :
    (recoloured old new).body code (List.replicate n colour)
      = List.replicate n (if colour = old then new else colour) := by
  cases n with
  | zero =>
    simp only [recoloured, List.replicate_zero, List.length_nil, ite_self]
  | succ n =>
    simp only [recoloured, List.length_replicate, List.replicate_inj]
    by_cases hcolour : colour = old
    · simp [hcolour]
    · simp [hcolour]

theorem recoloured_coloured {old new : UInt8} {colour colour' : UInt8 → Bytes → UInt8}
    (h : ∀ code b, (if colour code b = old then new else colour code b) = colour' code b) :
    (recoloured old new).comp (coloured colour) = coloured colour' := by
  ext1
  funext code b
  simp only [BodyMap.comp, coloured, recoloured_replicate, h]

/-- The first run with `x` in colour 0 and everything else in colour 2. -/
def firstColour (opcode : UInt8) (x : Bytes) (code : UInt8) (b : Bytes) : UInt8 :=
  if code = opcode ∧ b ≠ x then 2 else 0

/-- The second run with `x'` in colour 2 and everything else in colour 0. -/
def secondColour (opcode : UInt8) (x' : Bytes) (code : UInt8) (b : Bytes) : UInt8 :=
  if code = opcode ∧ b = x' then 2 else 0

/-- A colour for a pair of bodies, from which those in both runs follow. -/
def commonColour (opcode : UInt8) (x x' : Bytes) (code : UInt8) (b b' : Bytes) : UInt8 :=
  if code ≠ opcode ∨ b = x then 0 else if b' = x' then 2 else 1

/-- No body has two colours. -/
theorem not_two_colours {code : UInt8} {b : Bytes} {n : Nat} (hn : n ≠ 0)
    (h : (recoloured 1 2).body code b = List.replicate n 0) :
    (recoloured 1 0).body code b ≠ List.replicate n 2 := by
  have hb : b = List.replicate n 0 := by
    simp only [recoloured] at h
    split at h
    · exact absurd (List.replicate_inj.mp h).2 (by simp [(List.replicate_inj.mp h).1, hn])
    · exact h
  rw [hb, recoloured_replicate]
  simp [List.replicate_inj, hn]

section Colours
variable {op : UInt8} {x x' : Bytes}

theorem commonColour_first (code : UInt8) (b b' : Bytes) :
    (if commonColour op x x' code b b' = 1 then 2 else commonColour op x x' code b b')
      = firstColour op x code b := by
  unfold commonColour firstColour
  by_cases hcode : code = op
  · by_cases hb : b = x
    · simp [hb]
    · by_cases hb' : b' = x' <;> simp [hcode, hb, hb']
  · simp [hcode]

theorem commonColour_second {code : UInt8} {b b' : Bytes}
    (h : ¬ (code = op ∧ b = x ∧ b' = x')) :
    (if commonColour op x x' code b b' = 1 then 0 else commonColour op x x' code b b')
      = secondColour op x' code b' := by
  unfold commonColour secondColour
  by_cases hcode : code = op
  · by_cases hb : b = x
    · have hb' : b' ≠ x' := fun hb' => h ⟨hcode, hb, hb'⟩
      simp [hb, hb']
    · by_cases hb' : b' = x' <;> simp [hcode, hb, hb']
  · simp [hcode]

/-- Corresponding calls that do not bring `x` and `x'` are recolourings of one. -/
theorem exists_common_event {event event' : Event} (h : Corresponding event event')
    (hne : x ≠ x') (hfree : ¬ Frames op (op :: x) (op :: x') event event') :
    ∃ common, (recoloured 1 2).event common = (coloured (firstColour op x)).event event ∧
      (recoloured 1 0).event common = (coloured (secondColour op x')).event event' := by
  cases h with
  | same event =>
    refine ⟨(coloured fun code b => commonColour op x x' code b b).event event, ?_, ?_⟩
    · rw [BodyMap.event_event, recoloured_coloured fun code b => commonColour_first code b b]
    · rw [BodyMap.event_event, recoloured_coloured fun code b =>
        commonColour_second fun hboth => hne (hboth.2.1.symm.trans hboth.2.2)]
  | @cli code body body' _ _ hlength h =>
    have hpair : ¬ (code = op ∧ body = x ∧ body' = x') := by
      rintro ⟨rfl, rfl, rfl⟩
      exact hfree h
    have hfirst : (recoloured 1 2).body code
        (List.replicate body.length (commonColour op x x' code body body'))
        = (coloured (firstColour op x)).body code body := by
      rw [recoloured_replicate, commonColour_first]
      rfl
    have hsecond : (recoloured 1 0).body code
        (List.replicate body.length (commonColour op x x' code body body'))
        = (coloured (secondColour op x')).body code body' := by
      rw [recoloured_replicate, commonColour_second hpair, hlength]
      rfl
    cases h with
    | command id now =>
      refine ⟨.clientFrame id (cmdRunCliCommand :: List.replicate body.length
        (commonColour op x x' cmdRunCliCommand body body')) now, ?_, ?_⟩ <;>
        simp [BodyMap.event, hfirst, hsecond]
    | reply now =>
      refine ⟨.upstreamFrame (respCliReply :: List.replicate body.length
        (commonColour op x x' respCliReply body body')) now, ?_, ?_⟩ <;>
        simp [BodyMap.event, hfirst, hsecond]
    | drained now =>
      refine ⟨.drainUncertainFrame (respCliReply :: List.replicate body.length
        (commonColour op x x' respCliReply body body')) now, ?_, ?_⟩ <;>
        simp [BodyMap.event, hfirst, hsecond]

theorem exists_common {script : Script} (hscript : script.Parallel) (hne : x ≠ x')
    (hfree : ¬ script.Brings op (op :: x) (op :: x')) :
    ∃ calls : List (Option Event),
      calls.map (Option.map (recoloured 1 2).event)
        = script.first.map (Option.map (coloured (firstColour op x)).event) ∧
      calls.map (Option.map (recoloured 1 0).event)
        = script.second.map (Option.map (coloured (secondColour op x')).event) := by
  induction script with
  | nil => exact ⟨[], rfl, rfl⟩
  | cons call script ih =>
    obtain ⟨calls, hfirst, hsecond⟩ := ih
      (fun event event' hmem => hscript event event' (List.mem_cons_of_mem _ hmem))
      fun ⟨event, event', hmem, hbrings⟩ =>
        hfree ⟨event, event', List.mem_cons_of_mem _ hmem, hbrings⟩
    cases call with
    | none =>
      refine ⟨none :: calls, ?_, ?_⟩
      · exact congrArg (none :: ·) hfirst
      · exact congrArg (none :: ·) hsecond
    | some pair =>
      obtain ⟨event, event'⟩ := pair
      obtain ⟨common, hcommon, hcommon'⟩ := exists_common_event
        (hscript event event' List.mem_cons_self) hne fun hbrings =>
          hfree ⟨event, event', List.mem_cons_self, hbrings⟩
      refine ⟨some common :: calls, ?_, ?_⟩
      · rw [List.map_cons, hfirst, Option.map_some, hcommon]
        rfl
      · rw [List.map_cons, hsecond, Option.map_some, hcommon']
        rfl

end Colours

/-! ### Actions that agree -/

/-- What a piece of a message prints: the description of a frame, or itself. -/
def printed (message : Text) : List (Except Error (List Fragment) ⊕ Piece) :=
  message.map fun
    | .command payload includePayload => .inl (describeCommand payload includePayload)
    | .response payload includePayload => .inl (describeResponse payload includePayload)
    | piece => .inr piece

theorem printed_text (message : Text) : printed (f.text message) = printed message := by
  simp only [printed, BodyMap.text, List.map_map]
  refine List.map_congr_left fun piece _ => ?_
  cases piece with
  | command => exact congrArg Sum.inl (f.describeCommand_command ..)
  | response => exact congrArg Sum.inl (f.describeResponse_response ..)
  | text | int | millis | hex | beginInspect | endInspect => rfl

/-- Two actions that print the same, and send the same or corresponding frames. -/
inductive Agree (script : Script) : Action → Action → Prop
  | diagnostic {message message' : Text} (category : Category)
      (h : printed message = printed message') :
      Agree script (.diagnostic message category) (.diagnostic message' category)
  | closeSession {reason reason' : Text} (session : Nat) (h : printed reason = printed reason') :
      Agree script (.closeSession session reason) (.closeSession session reason')
  | endEpoch {reason reason' : Text} (epoch : Nat) (h : printed reason = printed reason') :
      Agree script (.endEpoch epoch reason) (.endEpoch epoch reason')
  | sendFrame {payload payload' : Bytes} (session epoch writeId : Nat)
      (h : payload = payload' ∨ script.Brings (cliCode session) payload payload') :
      Agree script (.sendFrame ⟨session, epoch, writeId, payload⟩)
        (.sendFrame ⟨session, epoch, writeId, payload'⟩)

/-- Every CLI body is blank. -/
abbrev blank : BodyMap := coloured fun _ _ => 0

theorem blank_event {event event' : Event} (h : Corresponding event event') :
    blank.event event = blank.event event' := by
  cases h with
  | same => rfl
  | cli hlength h =>
    cases h <;> simp [BodyMap.event, coloured, hlength]

section Runs
variable {script : Script}

/-- A run with changed bodies hands over the changed actions. -/
theorem play_changed (hstart : s₀.Starts) {calls : List (Option Event)} (hcalls : Numbered calls)
    (radio : CompanionRadioState) :
    (({ s₀ with radio := f.radio radio } : Broker).play (calls.map (Option.map f.event))).1
      = (({ s₀ with radio := radio } : Broker).play calls).1.map f.action := by
  have hdescribed : ({ s₀ with radio := radio } : Broker).Described :=
    ⟨hstart.described.positive, hstart.described.active, hstart.described.debt⟩
  rw [← hstart.broker radio, play_broker calls hdescribed hcalls]

/-- The two runs hand over the same actions up to CLI bodies. -/
theorem play_blank (hstart : s₀.Starts) (hscript : script.Parallel)
    (hnumbered : Numbered script.first) :
    Numbered script.second ∧ (s₀.play script.first).1.map blank.action
      = (s₀.play script.second).1.map blank.action := by
  have hcalls : script.first.map (Option.map blank.event)
      = script.second.map (Option.map blank.event) := by
    simp only [Script.first, Script.second, List.map_map]
    refine List.map_congr_left fun call hcall => ?_
    cases call with
    | none => rfl
    | some pair => exact congrArg some (blank_event (hscript pair.1 pair.2 hcall))
  have hsecond : Numbered script.second := by
    rw [← numbered_map (f := blank), ← hcalls, numbered_map]
    exact hnumbered
  refine ⟨hsecond, ?_⟩
  rw [← play_changed hstart hnumbered s₀.radio, ← play_changed hstart hsecond s₀.radio, hcalls]

/-- What the two runs send in the same place is the same, or corresponding frames. -/
theorem sent_agree (hstart : s₀.Starts) (hscript : script.Parallel)
    (hnumbered : Numbered script.first) {k session epoch writeId : Nat} {x x' : Bytes}
    (hlength : x.length = x'.length) (hne : x ≠ x')
    (hfirst : (s₀.play script.first).1[k]?
      = some (.sendFrame ⟨session, epoch, writeId, cliCode session :: x⟩))
    (hsecond : (s₀.play script.second).1[k]?
      = some (.sendFrame ⟨session, epoch, writeId, cliCode session :: x'⟩)) :
    script.Brings (cliCode session) (cliCode session :: x) (cliCode session :: x') := by
  by_contra hfree
  obtain ⟨calls, hcalls, hcalls'⟩ := exists_common hscript hne hfree
  have hnumbered' := (play_blank hstart hscript hnumbered).1
  have hcommon : Numbered calls := by
    rw [← numbered_map (f := recoloured 1 2), hcalls, numbered_map]
    exact hnumbered
  -- what the fresh broker inherits is coloured as if both runs had brought it
  have hradio : (recoloured 1 2).radio ((coloured fun code b =>
      commonColour (cliCode session) x x' code b b).radio s₀.radio)
      = (coloured (firstColour (cliCode session) x)).radio s₀.radio := by
    simp only [BodyMap.radio, BodyMap.remote_remote,
      recoloured_coloured fun code b => commonColour_first code b b]
  have hradio' : (recoloured 1 0).radio ((coloured fun code b =>
      commonColour (cliCode session) x x' code b b).radio s₀.radio)
      = (coloured (secondColour (cliCode session) x')).radio s₀.radio := by
    simp only [BodyMap.radio, BodyMap.remote_remote, recoloured_coloured fun code b =>
      commonColour_second fun hboth => hne (hboth.2.1.symm.trans hboth.2.2)]
  have hcoloured := play_changed hstart (f := recoloured 1 2) hcommon
    ((coloured fun code b => commonColour (cliCode session) x x' code b b).radio s₀.radio)
  have hcoloured' := play_changed hstart (f := recoloured 1 0) hcommon
    ((coloured fun code b => commonColour (cliCode session) x x' code b b).radio s₀.radio)
  rw [hradio, hcalls, play_changed hstart hnumbered] at hcoloured
  rw [hradio', hcalls', play_changed hstart hnumbered'] at hcoloured'
  have hk := congrArg (·[k]?) hcoloured
  have hk' := congrArg (·[k]?) hcoloured'
  simp only [List.getElem?_map] at hk hk'
  rw [show (s₀.play script.first).1[k]? = _ from hfirst] at hk
  rw [show (s₀.play script.second).1[k]? = _ from hsecond] at hk'
  obtain ⟨action, haction, hfill⟩ := Option.map_eq_some_iff.mp hk.symm
  obtain ⟨action', haction', hfill'⟩ := Option.map_eq_some_iff.mp hk'.symm
  obtain rfl := Option.some.inj (haction.symm.trans haction')
  rw [action_sendFrame, BodyMap.frame_cons] at hfill hfill'
  obtain ⟨p, rfl, hp⟩ := action_eq_sendFrame hfill
  obtain ⟨b, rfl, hb⟩ := BodyMap.frame_eq_cons _ hp
  rw [action_sendFrame, BodyMap.frame_cons] at hfill'
  simp only [Action.sendFrame.injEq, SendFrame.mk.injEq, List.cons.injEq, true_and] at hfill'
  refine @not_two_colours (cliCode session) b x.length ?_ ?_ ?_
  · intro hempty
    rw [List.length_eq_zero_iff.mp hempty] at hlength hne
    exact hne (List.length_eq_zero_iff.mp hlength.symm).symm
  · rw [hb]
    simp [coloured, firstColour]
  · rw [hfill']
    simp [coloured, secondColour, hlength]

/-- Frames that are equal up to CLI bodies are equal, or both are CLI frames of one length. -/
theorem blank_eq {code : UInt8} {p p' : Bytes} (h : blank.frame code p = blank.frame code p') :
    p = p' ∨ ∃ x x' : Bytes, p = code :: x ∧ p' = code :: x' ∧ x.length = x'.length := by
  by_cases hp : opcode p = code
  · cases p with
    | nil =>
      refine .inl ?_
      have hnil := congrArg List.length h
      rw [BodyMap.length_frame, BodyMap.length_frame] at hnil
      exact (List.length_eq_zero_iff.mp hnil.symm).symm
    | cons op x =>
      obtain rfl : op = code := hp
      rw [BodyMap.frame_cons] at h
      obtain ⟨x', rfl, hx'⟩ := BodyMap.frame_eq_cons _ h.symm
      refine .inr ⟨x, x', rfl, rfl, ?_⟩
      have hlength := congrArg List.length hx'
      rw [BodyMap.length_body, BodyMap.length_body] at hlength
      exact hlength.symm
  · rw [blank.frame_of_ne hp] at h
    exact .inl (BodyMap.frame_eq_iff blank hp |>.mp h.symm).symm

theorem agree_of_blank {action action' : Action} (h : blank.action action = blank.action action')
    (hsent : ∀ session epoch writeId x x',
      action = .sendFrame ⟨session, epoch, writeId, cliCode session :: x⟩ →
      action' = .sendFrame ⟨session, epoch, writeId, cliCode session :: x'⟩ →
      x.length = x'.length → x ≠ x' →
      script.Brings (cliCode session) (cliCode session :: x) (cliCode session :: x')) :
    Agree script action action' := by
  have hprinted {message message' : Text} (h : blank.text message = blank.text message') :
      printed message = printed message' := by
    rw [← printed_text (f := blank) message, h, printed_text]
  cases action' with
  | sendFrame frame =>
    obtain ⟨session, epoch, writeId, p'⟩ := frame
    rw [action_sendFrame] at h
    obtain ⟨p, rfl, hp⟩ := action_eq_sendFrame h
    refine .sendFrame session epoch writeId ?_
    rcases blank_eq hp with hsame | ⟨x, x', rfl, rfl, hlength⟩
    · exact .inl hsame
    · by_cases hne : x = x'
      · exact .inl (congrArg _ hne)
      · exact .inr (hsent session epoch writeId x x' rfl rfl hlength hne)
  | closeSession id reason' =>
    cases action with
    | closeSession id' reason =>
      simp only [BodyMap.action, Action.closeSession.injEq] at h
      obtain ⟨rfl, hreason⟩ := h
      exact .closeSession _ (hprinted hreason)
    | sendFrame | endEpoch | diagnostic => cases h
  | endEpoch epoch reason' =>
    cases action with
    | endEpoch epoch' reason =>
      simp only [BodyMap.action, Action.endEpoch.injEq] at h
      obtain ⟨rfl, hreason⟩ := h
      exact .endEpoch _ (hprinted hreason)
    | sendFrame | closeSession | diagnostic => cases h
  | diagnostic message' category =>
    cases action with
    | diagnostic message category' =>
      simp only [BodyMap.action, Action.diagnostic.injEq] at h
      obtain ⟨hmessage, rfl⟩ := h
      exact .diagnostic _ (hprinted hmessage)
    | sendFrame | closeSession | endEpoch => cases h

end Runs

/-- Bodies of one length look the same where they are blank. -/
theorem blank_cons (code : UInt8) {body body' : Bytes} (h : body.length = body'.length) :
    blank.frame code (code :: body) = blank.frame code (code :: body') := by
  simp [coloured, h]

/-- **CLI bodies do not influence the logs.** Two runs of a broker that make the same calls, but for
the bytes after the opcode of `RUN_CLI_COMMAND` client frames and of `CLI_REPLY` upstream frames, of
the same lengths, hand over the same actions: diagnostics, closed sessions and ended epochs print the
same, and the frames that are sent are the same or corresponding ones. The wire log has the same
lines for corresponding frames in every direction. -/
theorem cli_bodies_secret (hstart : s₀.Starts) {script : Script} (hscript : script.Parallel)
    (hnumbered : Numbered script.first) :
    List.Forall₂ (Agree script) (s₀.play script.first).1 (s₀.play script.second).1 ∧
      ∀ body body' : Bytes, body.length = body'.length → ∀ identity,
        (WireLog.upstream identity .tx (cmdRunCliCommand :: body)
            = WireLog.upstream identity .tx (cmdRunCliCommand :: body') ∧
          WireLog.multiClient identity .rx (cmdRunCliCommand :: body)
            = WireLog.multiClient identity .rx (cmdRunCliCommand :: body') ∧
          WireLog.dedicatedClient identity .rx (cmdRunCliCommand :: body)
            = WireLog.dedicatedClient identity .rx (cmdRunCliCommand :: body')) ∧
        WireLog.upstream identity .rx (respCliReply :: body)
            = WireLog.upstream identity .rx (respCliReply :: body') ∧
          WireLog.multiClient identity .tx (respCliReply :: body)
            = WireLog.multiClient identity .tx (respCliReply :: body') ∧
          WireLog.dedicatedClient identity .tx (respCliReply :: body)
            = WireLog.dedicatedClient identity .tx (respCliReply :: body') := by
  have hblank := (play_blank hstart hscript hnumbered).2
  refine ⟨List.forall₂_iff_get.mpr ⟨?_, fun k hk hk' => ?_⟩, fun body body' h identity => ?_⟩
  · have hlength := congrArg List.length hblank
    rwa [List.length_map, List.length_map] at hlength
  · have haction := congrArg (·[k]?) hblank
    simp only [List.getElem?_map, List.getElem?_eq_getElem hk, List.getElem?_eq_getElem hk',
      Option.map_some, Option.some.injEq] at haction
    refine agree_of_blank haction fun session epoch writeId x x' hx hx' hlength hne => ?_
    have hfirst := (List.getElem?_eq_getElem hk).trans (congrArg some hx)
    have hsecond := (List.getElem?_eq_getElem hk').trans (congrArg some hx')
    exact sent_agree hstart hscript hnumbered hlength hne hfirst hsecond
  · have hcommand (endpoint : String) (direction : WireLog.Direction) :
        WireLog.line endpoint identity direction true (cmdRunCliCommand :: body)
          = WireLog.line endpoint identity direction true (cmdRunCliCommand :: body') := by
      rw [← blank.line_command, BodyMap.command, blank_cons _ h, blank.line_command]
    have hresponse (endpoint : String) (direction : WireLog.Direction) :
        WireLog.line endpoint identity direction false (respCliReply :: body)
          = WireLog.line endpoint identity direction false (respCliReply :: body') := by
      rw [← blank.line_response, BodyMap.response, blank_cons _ h, blank.line_response]
    exact ⟨⟨hcommand .., hcommand .., hcommand ..⟩, hresponse .., hresponse .., hresponse ..⟩

/-- Two clients that ask the same thing with different credentials. -/
theorem cli_bodies_secret_first :
    let script : Script := [some (.admission 1 none 1, .admission 1 none 1),
      some (.clientFrame 1 [cmdRunCliCommand, 5] 2, .clientFrame 1 [cmdRunCliCommand, 6] 2), none]
    List.Forall₂ (Agree script) (first.play script.first).1 (first.play script.second).1 := by
  refine (cli_bodies_secret first_starts (fun event event' hmem => ?_)
    fun id slotId now hmem => ?_).1
  · simp only [List.mem_cons, Option.some.injEq, Prod.mk.injEq, List.not_mem_nil, or_false,
      reduceCtorEq] at hmem
    rcases hmem with ⟨rfl, rfl⟩ | ⟨rfl, rfl⟩
    · exact .same _
    · exact .cli (show [(5 : UInt8)].length = [(6 : UInt8)].length from rfl) (.command 1 2)
  · simp [Script.first] at hmem
    simp [hmem]

end Broker

end MeshCoreTCPMux

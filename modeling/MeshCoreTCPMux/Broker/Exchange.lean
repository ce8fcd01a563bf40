import MeshCoreTCPMux.Broker.Admission

/-!
# The exchange with the companion

The companion's replies carry no request id, so the broker has at most one frame outstanding. The
history shows which one it is (`outstanding`), and it is that of the active transaction until the
last frame of its reply has been taken (`Exchanging`). So the next frame goes upstream only after
that, and each reply goes to the owner of the outstanding frame or to nobody (`replies_owned`).
-/

namespace MeshCoreTCPMux

open Protocol Relation History

/-- Whether `payload` is the last frame of the reply to the current step. -/
def Transaction.finishedBy (x : Transaction) (payload : Bytes) : Bool :=
  !(x.step == .command && x.descriptor.grammar == .contacts &&
    !(opcode payload == respEndOfContacts || opcode payload == respErr))

/-- `payload` is a frame of the reply to the current step. -/
inductive Transaction.Answers (x : Transaction) (payload : Bytes) : Prop
  | command (hstep : x.step = .command) (hvalid : validateResponse x.descriptor payload x.command
      x.phase = .ok (if x.finishedBy payload then .complete else .progress))
  | accepted (hstep : x.step = .setup ∨ x.step = .restore) (hpayload : payload = [respOk])
  | rejected (hstep : x.step = .setup) (hcode : opcode payload = respErr)
      (hlength : payload.length = 2)

/-- A frame for the companion, and the transaction that it is a step of. -/
structure Outstanding where
  frame : SendFrame
  transaction : Transaction

/-- The outstanding frame after an entry. A frame that does not finish a reply starts or continues
a contacts stream. -/
def Note.exchange (o : Option Outstanding) : Note → Option Outstanding
  | upstream frame transaction => some ⟨frame, transaction⟩
  | replied payload _ => (o.filter fun x => !x.transaction.finishedBy payload).map fun x =>
    { x with transaction := { x.transaction with contactsStarted := true } }
  | _ => o

/-- The copies of the current upstream frame after an entry. -/
def Note.hear (frames : List SendFrame) : Note → List SendFrame
  | input _ => []
  | sent frame .reply | sent frame .broadcast | sent frame .leaseResult => frames ++ [frame]
  | _ => frames

/-- An entry of the exchange. -/
def Note.exchanges : Note → Bool
  | input _ | upstream _ _ | replied _ _ | sent _ .reply | sent _ .broadcast
  | sent _ .leaseResult => true
  | _ => false

/-- An entry at which a transaction starts, sends a frame or takes a reply. -/
def Note.wraps : Note → Bool
  | upstream _ _ | replied _ _ | dispatched _ _ => true
  | _ => false

namespace Transaction

variable {x y : Transaction} {payload : Bytes}

theorem finishedBy_congr (h : x.core = y.core) (payload : Bytes) :
    x.finishedBy payload = y.finishedBy payload :=
  (congrArg (fun z : Transaction => z.finishedBy payload) h :)

theorem Answers.congr (h : x.core = y.core) (hx : x.Answers payload) : y.Answers payload := by
  have hcore : x.core.Answers payload := by
    cases hx with
    | command hstep hvalid => exact .command hstep hvalid
    | accepted hstep hpayload => exact .accepted hstep hpayload
    | rejected hstep hcode hlength => exact .rejected hstep hcode hlength
  rw [h] at hcore
  cases hcore with
  | command hstep hvalid => exact .command hstep hvalid
  | accepted hstep hpayload => exact .accepted hstep hpayload
  | rejected hstep hcode hlength => exact .rejected hstep hcode hlength

theorem finishedBy_of_step (h : x.step ≠ .command) (payload : Bytes) :
    x.finishedBy payload = true := by
  simp [finishedBy, h]

/-- A valid reply of a command is complete exactly when it is finished. -/
theorem answers_of_valid {disposition : ResponseDisposition} (hstep : x.step = .command)
    (hvalid : validateResponse x.descriptor payload x.command x.phase = .ok disposition) :
    x.Answers payload ∧ (disposition = .complete ↔ x.finishedBy payload = true) := by
  have hdisposition : disposition = if x.finishedBy payload then .complete else .progress := by
    by_cases herr : opcode payload = respErr
    · simp [(validateResponse_err hvalid herr).2, finishedBy, herr]
    · obtain ⟨-, -, -, hprogress⟩ := validateResponse_eq_ok hvalid herr
      by_cases hcontacts : x.descriptor.grammar = .contacts ∧ opcode payload ≠ respEndOfContacts
      · have hunfinished : x.finishedBy payload = false := by
          simp [finishedBy, hstep, hcontacts, herr]
        rw [hunfinished]
        exact hprogress.mpr hcontacts
      · have hfinished : x.finishedBy payload = true := by
          simpa [finishedBy, hstep, herr, Decidable.imp_iff_not_or] using hcontacts
        rw [hfinished]
        cases disposition with
        | complete => rfl
        | progress => exact absurd (hprogress.mp rfl) hcontacts
  refine ⟨.command hstep (hdisposition ▸ hvalid), ?_⟩
  rw [hdisposition]
  cases x.finishedBy payload <;> simp

end Transaction

namespace Broker

variable {s s₀ t : Broker} {l m : List Note} {n : Note}

/-- The frame that the companion has not answered in full. -/
def outstanding (log : List Note) : Option Outstanding := log.foldl Note.exchange none

/-- The copies of the current upstream frame that have been sent to sessions. -/
def heard (log : List Note) : List SendFrame := log.foldl Note.hear []

theorem outstanding_snoc (l : List Note) (n : Note) :
    outstanding (l ++ [n]) = n.exchange (outstanding l) := by simp [outstanding]

/-- A frame that does not finish the reply leaves the frame outstanding. -/
theorem outstanding_unfinished {o : Outstanding} {payload : Bytes} (ho : outstanding l = some o)
    (h : o.transaction.finishedBy payload = false) (now : Time) :
    outstanding (l ++ [.replied payload now]) =
      some { o with transaction := { o.transaction with contactsStarted := true } } := by
  rw [outstanding_snoc, ho, Note.exchange, Option.filter_some, h]
  rfl

theorem heard_snoc (l : List Note) (n : Note) : heard (l ++ [n]) = n.hear (heard l) := by
  simp [heard]

theorem outstanding_append (h : ∀ n ∈ m, n.exchanges = false) :
    outstanding (l ++ m) = outstanding l := by
  rw [outstanding, List.foldl_append]
  refine foldl_neutral fun n hn o => ?_
  cases n with
  | upstream | replied => cases h _ hn
  | _ => rfl

theorem outstanding_unwrapped (h : ∀ n ∈ m, n.wraps = false) :
    outstanding (l ++ m) = outstanding l := by
  rw [outstanding, List.foldl_append]
  refine foldl_neutral fun n hn o => ?_
  cases n with
  | upstream | replied => cases h _ hn
  | _ => rfl

theorem heard_append (h : ∀ n ∈ m, n.exchanges = false) : heard (l ++ m) = heard l := by
  rw [heard, List.foldl_append]
  refine foldl_neutral fun n hn o => ?_
  cases n with
  | input => cases h _ hn
  | sent frame cause =>
    cases cause with
    | reply | broadcast | leaseResult => cases h _ hn
    | _ => rfl
  | _ => rfl

/-- An entry of the exchange may stand in a history. -/
def Exchanged (past : List Note) : Note → Prop
  | .upstream frame _ => frame.session = 0 ∧ outstanding past = none
  | .replied payload _ => received past = some payload ∧ ∃ o, outstanding past = some o ∧
      o.transaction.Answers payload ∧
      (heard past = [] ∨ ∃ frame, heard past = [frame] ∧ frame.session = o.transaction.owner)
  | .sent frame .reply => frame.session ∈ live past ∧ heard past = [] ∧
      ∃ o payload, outstanding past = some o ∧ received past = some payload ∧
        o.transaction.Answers payload ∧ frame.session = o.transaction.owner ∧
        visibleReply payload = .ok frame.payload ∧
        (o.transaction.step = .command ∨
          (o.transaction.step = .setup ∧ opcode payload = respErr))
  | .sent frame .broadcast | .sent frame .leaseResult =>
    received past = some frame.payload ∧ pushAdvert ≤ opcode frame.payload
  | _ => True

theorem Exchanged.of_quiet (hn : n.exchanges = false) : Exchanged l n := by
  cases n with
  | upstream | replied => cases hn
  | sent frame cause =>
    cases cause with
    | reply | broadcast | leaseResult => cases hn
    | _ => trivial
  | _ => trivial

/-- A scope reply with the code of `ERR` is `ERR`. -/
theorem length_of_scopeReply {payload : Bytes} (hreply : scopeReply payload = true)
    (herr : opcode payload = respErr) : payload.length = 2 := by
  simp only [scopeReply, decide_eq_true_eq] at hreply
  rcases hreply with rfl | ⟨hlength, -⟩
  · exact absurd herr (by decide)
  · exact hlength

/-- A push that is copied to every session is nobody's reply. -/
theorem Opaque.not_answers {x : Transaction} {payload : Bytes} (h : Opaque payload)
    (hx : x.Shape) : ¬ x.Answers payload := by
  obtain ⟨hpush, hresult⟩ := h
  intro hanswers
  cases hanswers with
  | command hstep hvalid =>
    rcases reply_cases hvalid with ⟨herr, -⟩ | hcode
    · rw [herr] at hpush
      exact absurd hpush (by decide)
    · have table : ∀ d ∈ remoteTelemetry :: descriptors, ∀ code ∈ d.successCodes,
          pushAdvert ≤ code → code ∈ resultPushes := by
        simp only [← List.all_iff_forall_prop]
        decide
      exact hresult (table _ (mem_descriptors hx.descriptor).1 _ hcode hpush)
  | accepted _ hpayload =>
    subst hpayload
    exact absurd hpush (by decide)
  | rejected _ hcode =>
    rw [hcode] at hpush
    exact absurd hpush (by decide)

/-- The transaction that waits for the companion. -/
def awaited (active : Option Transaction) : Option Transaction :=
  (active.map Transaction.core).filter (·.step ≠ .maintenanceResult)

theorem awaited_some {x : Transaction} (h : x.step ≠ .maintenanceResult) :
    awaited (some x) = some x.core := by
  rw [awaited, Option.map_some, Option.filter_some]
  exact if_pos (decide_eq_true h)

/-- The outstanding frame is that of the active transaction, unless its reply is complete. -/
structure Exchanging (s : Broker) : Prop where
  justified : Justified Exchanged s.log
  awaits : s.failed = false → (outstanding s.log).map (·.transaction.core) = awaited s.active
  unheard : ∀ payload, received s.log = some payload → heard s.log = [] ∨ Opaque payload

/-- A reply that does not finish its command leaves a contacts stream started. -/
theorem Replied.contacts_started {x : Transaction} {payload : Bytes}
    {disposition : ResponseDisposition} {started : Bool}
    (h : s.Replied x payload disposition started) (hunfinished : x.finishedBy payload = false) :
    started = true := by
  have hcontacts := h.contacts
  simp only [Transaction.finishedBy, h.step, Bool.not_eq_eq_eq_not, Bool.not_false,
    Bool.and_eq_true, beq_iff_eq, true_and, Bool.not_true, Bool.or_eq_false_iff] at hunfinished
  obtain ⟨hgrammar, -, herr⟩ := hunfinished
  unfold contactsStep at hcontacts
  rw [if_pos ⟨hgrammar, by simpa using herr⟩] at hcontacts
  split at hcontacts
  · split at hcontacts
    · cases hcontacts
    · exact (Except.ok.inj hcontacts).symm
  · split at hcontacts
    · exact (Except.ok.inj hcontacts).symm
    · cases hcontacts

theorem internal_of_quiet (hn : n.exchanges = false) : n.internal = true := by
  cases n with
  | input => cases hn
  | _ => rfl

namespace Exchanging

/-- Nothing was exchanged. -/
theorem extend (hs : s.Exchanging) (hadds : Adds (·.exchanges = false) s t)
    (hawaits : t.failed = false → s.failed = false ∧ awaited t.active = awaited s.active) :
    t.Exchanging := by
  obtain ⟨notes, hlog, hnotes⟩ := hadds
  refine ⟨?_, fun hrunning => ?_, fun payload hpayload => ?_⟩
  · rw [hlog]
    exact hs.justified.append fun past n hn => .of_quiet (hnotes n hn)
  · obtain ⟨hfailed, hactive⟩ := hawaits hrunning
    rw [hlog, outstanding_append hnotes, hactive]
    exact hs.awaits hfailed
  · rw [hlog] at hpayload ⊢
    rw [heard_append hnotes]
    refine hs.unheard payload (received_of_append (fun n hn => ?_) hpayload)
    exact internal_of_quiet (hnotes n hn)

theorem keep (hs : s.Exchanging) (h : Calm (·.exchanges = false) s t) : t.Exchanging :=
  hs.extend h.adds fun hrunning => ⟨h.failed ▸ hrunning, by rw [awaited, h.core]; rfl⟩

theorem input (hs : s.Exchanging) (event : Event) : (s.note (.input event)).Exchanging where
  justified := hs.justified.snoc trivial
  awaits := fun hrunning => by
    simp only [Broker.note]
    rw [outstanding_snoc]
    exact hs.awaits hrunning
  unheard := fun _ _ => .inl (heard_snoc _ _)

/-- The outstanding frame while a transaction waits. -/
theorem waiting (hs : s.Exchanging) {x : Transaction} (hrunning : s.failed = false)
    (hactive : s.active = some x) (hstep : x.step ≠ .maintenanceResult) :
    ∃ o, Broker.outstanding s.log = some o ∧ o.transaction.core = x.core := by
  have hawaits := hs.awaits hrunning
  rw [hactive, awaited_some hstep] at hawaits
  exact Option.map_eq_some_iff.mp hawaits

/-- A frame goes upstream when none is outstanding. -/
theorem sendUp (hjustified : Justified Exchanged s.log) (hidle : outstanding s.log = none)
    (hunheard : ∀ payload, Broker.received s.log = some payload → heard s.log = [] ∨ Opaque payload)
    (frame : Bytes) {x : Transaction} (hstep : x.step ≠ .maintenanceResult) :
    (s.sendUp frame x).Exchanging where
  justified := hjustified.snoc ⟨rfl, hidle⟩
  awaits := fun _ => by
    simp only [Broker.sendUp]
    rw [outstanding_snoc]
    refine Eq.trans ?_ (awaited_some (by exact hstep)).symm
    rfl
  unheard := fun payload hpayload => by
    simp only [Broker.sendUp] at hpayload ⊢
    rw [heard_snoc]
    exact hunheard payload (received_of_append (by simp [Note.internal]) hpayload)

/-- A transaction is dispatched when none is active. -/
theorem dispatch (hs : s.Exchanging) (hrunning : s.failed = false) (hidle : s.active = none)
    (hlog : Adds (·.exchanges = false) s t)
    (frame : Bytes) {x : Transaction} (hstep : x.step ≠ .maintenanceResult) :
    (t.sendUp frame x).Exchanging := by
  obtain ⟨notes, hlog, hnotes⟩ := hlog
  have hawaits := hs.awaits hrunning
  rw [hidle] at hawaits
  refine sendUp ?_ ?_ (fun payload hpayload => ?_) frame hstep
  · rw [hlog]
    exact hs.justified.append fun past n hn => .of_quiet (hnotes n hn)
  · rw [hlog, outstanding_append hnotes]
    exact Option.map_eq_none_iff.mp hawaits
  · rw [hlog] at hpayload ⊢
    rw [heard_append hnotes]
    refine hs.unheard payload (received_of_append (fun n hn => ?_) hpayload)
    exact internal_of_quiet (hnotes n hn)

/-- What taking a reply leaves in the history. -/
structure Answered (x : Transaction) (payload : Bytes) (log : List Note) : Prop where
  justified : Justified Exchanged log
  outstanding : (Broker.outstanding log).map (·.transaction.core) =
    if x.finishedBy payload then none else some { x with contactsStarted := true }.core
  received : Broker.received log = none

/-- The active transaction takes a reply that nobody hears of. -/
theorem unheardReply (hs : s.Exchanging) (hwf : s.WF) {x : Transaction} {payload : Bytes}
    (hactive : s.active = some x) (hstep : x.step ≠ .maintenanceResult)
    (hreceived : Broker.received s.log = some payload) (hanswers : x.Answers payload) (now : Time) :
    Answered x payload (s.log ++ [.replied payload now]) := by
  obtain ⟨o, ho, hcore⟩ := hs.waiting (hwf.running hactive) hactive hstep
  have hheard : heard s.log = [] := (hs.unheard payload hreceived).resolve_right fun hveiled =>
    hveiled.not_answers (hwf.active x hactive).shape hanswers
  refine ⟨hs.justified.snoc ⟨hreceived, o, ho, hanswers.congr hcore.symm, .inl hheard⟩, ?_, ?_⟩
  · rw [outstanding_snoc, ho, Note.exchange, Option.filter_some,
      Transaction.finishedBy_congr hcore payload]
    cases x.finishedBy payload with
    | true => rfl
    | false => exact congrArg (fun y : Transaction => some { y with contactsStarted := true }) hcore
  · rw [received_append]
    rfl

/-- The active transaction takes a reply, and its owner is sent it if it is still connected. -/
theorem reply (hs : s.Exchanging) (hwf : s.WF) (hattended : s.Attended) {x : Transaction}
    {payload : Bytes} {w : Option Nat} (hactive : s.active = some x)
    (hstep : x.step = .command ∨ (x.step = .setup ∧ opcode payload = respErr))
    (hreceived : Broker.received s.log = some payload) (hanswers : x.Answers payload)
    (ht : s.Forwarded x payload w t) (now : Time) :
    Answered x payload (t.log ++ [.replied payload now]) := by
  have hstep' : x.step ≠ .maintenanceResult := by
    rcases hstep with h | ⟨h, -⟩ <;> simp [h]
  have hunheard := hs.unheardReply hwf hactive hstep' hreceived hanswers now
  rcases ht.log with ⟨-, heq⟩ | ⟨frame, -, heq, howner, hlive, hvisible⟩
  · rw [heq]
    exact hunheard
  · obtain ⟨o, ho, hcore⟩ := hs.waiting (hwf.running hactive) hactive hstep'
    have hheard : heard s.log = [] := (hs.unheard payload hreceived).resolve_right fun hveiled =>
      hveiled.not_answers (hwf.active x hactive).shape hanswers
    have howner' : frame.session = o.transaction.owner :=
      howner.trans (congrArg Transaction.owner hcore).symm
    have hanswers' : o.transaction.Answers payload := hanswers.congr hcore.symm
    have hsent : Exchanged s.log (.sent frame .reply) := by
      refine ⟨hattended.live ▸ howner ▸ hlive, hheard, o, payload, ho, hreceived, hanswers',
        howner', hvisible, ?_⟩
      rwa [show o.transaction.step = x.step from (congrArg Transaction.step hcore :)]
    have hlast : outstanding (s.log ++ [.sent frame .reply]) = some o :=
      (outstanding_snoc _ _).trans ho
    have hheard' : heard (s.log ++ [.sent frame .reply]) = [frame] := by
      rw [heard_snoc, hheard]
      rfl
    have hreceived' : Broker.received (s.log ++ [.sent frame .reply]) = some payload := by
      rw [received_append, hreceived]
      rfl
    rw [heq]
    refine ⟨hs.justified.snoc₂ hsent ⟨hreceived', o, hlast, hanswers', .inr ⟨frame, hheard', howner'⟩⟩,
      ?_, ?_⟩
    · rw [outstanding_snoc, hlast, ← ho, ← outstanding_snoc]
      exact hunheard.outstanding
    · rw [received_append]
      rfl

/-- The reply is over, or the transaction waits for its next frame. -/
theorem Answered.exchanging {x : Transaction} {payload : Bytes} (h : Answered x payload t.log)
    (hactive : awaited t.active =
      if x.finishedBy payload then none else some { x with contactsStarted := true }.core) :
    t.Exchanging where
  justified := h.justified
  awaits := fun _ => h.outstanding.trans hactive.symm
  unheard := fun _ hpayload => absurd (h.received.symm.trans hpayload) nofun

/-- The reply is over, and the next frame goes upstream. -/
theorem Answered.sendUp {x y : Transaction} {payload : Bytes} (h : Answered x payload s.log)
    (hfinished : x.finishedBy payload = true) (frame : Bytes) (hstep : y.step ≠ .maintenanceResult) :
    (s.sendUp frame y).Exchanging := by
  have hidle := h.outstanding
  rw [if_pos hfinished] at hidle
  exact Exchanging.sendUp h.justified (Option.map_eq_none_iff.mp hidle)
    (fun _ hpayload => absurd (h.received.symm.trans hpayload) nofun) frame hstep

theorem upstream (hs : s.Exchanging) (hwf : s.WF) (hattended : s.Attended) (h : Upstream s t) :
    t.Exchanging := by
  cases h with
  | @popDispatched _ transaction hrunning hidle _ _ _ htransaction =>
    subst htransaction
    exact hs.dispatch hrunning hidle ⟨[_], rfl, by simp [Note.exchanges]⟩ _ nofun
  | @dispatched _ _ _ _ _ _ transaction _ hidle h _ _ _ htransaction =>
    refine hs.dispatch h.running hidle ⟨[_, _], List.append_assoc _ _ _, by simp [Note.exchanges]⟩ _ ?_
    rw [htransaction]
    simp only
    split <;> nofun
  | setupRejected hactive hreceived hstep _ hreply herr ht =>
    have hanswers := hs.reply hwf hattended hactive (.inr ⟨hstep, herr⟩) hreceived
      (.rejected hstep herr (length_of_scopeReply hreply herr)) ht s.now
    refine Answered.exchanging hanswers ?_
    rw [Transaction.finishedBy_of_step (by simp [hstep])]
    rfl
  | setupAccepted hactive hreceived hstep =>
    have hanswers := hs.unheardReply hwf hactive (by simp [hstep]) hreceived
      (.accepted (.inl hstep) rfl) s.now
    exact Answered.sendUp hanswers (Transaction.finishedBy_of_step (by simp [hstep]) _) _ nofun
  | restored hactive hreceived hstep =>
    have hanswers := hs.unheardReply hwf hactive (by simp [hstep]) hreceived
      (.accepted (.inr hstep) rfl) s.now
    refine Answered.exchanging hanswers ?_
    rw [Transaction.finishedBy_of_step (by simp [hstep])]
    rfl
  | progressed h ht =>
    obtain ⟨hvalid, hdisposition⟩ := Transaction.answers_of_valid h.step h.valid
    refine Answered.exchanging (hs.reply hwf hattended h.active (.inl h.step) h.received hvalid ht _) ?_
    have hunfinished := Bool.eq_false_iff.mpr (mt hdisposition.mpr nofun)
    rw [hunfinished, h.contacts_started hunfinished]
    exact awaited_some (by simp [h.step])
  | scopedReply h ht =>
    obtain ⟨hvalid, hdisposition⟩ := Transaction.answers_of_valid h.step h.valid
    have hanswers := hs.reply hwf hattended h.active (.inl h.step) h.received hvalid ht s.now
    exact Answered.sendUp hanswers (hdisposition.mp rfl) _ nofun
  | heldReply h ht | finalReply h ht =>
    obtain ⟨hvalid, hdisposition⟩ := Transaction.answers_of_valid h.step h.valid
    refine Answered.exchanging (hs.reply hwf hattended h.active (.inl h.step) h.received hvalid ht _) ?_
    rw [hdisposition.mp rfl]
    rfl

end Exchanging

theorem Exchanging.broadcast (hs : s.Exchanging) {id : Nat} {payload : Bytes}
    (hreceived : received s.log = some payload) (hveiled : Opaque payload) :
    (s.send id payload .broadcast).Exchanging where
  justified := hs.justified.snoc ⟨hreceived, hveiled.1⟩
  awaits := fun hrunning => by
    simp only [Broker.send]
    rw [outstanding_snoc]
    exact hs.awaits hrunning
  unheard := fun payload' hpayload' => by
    have hsame : received s.log = some payload' :=
      received_of_append (by simp [Note.internal]) hpayload'
    obtain rfl := Option.some.inj (hreceived.symm.trans hsame)
    exact .inr hveiled

theorem Exchanging.radio (hs : s.Exchanging) (h : Radio s t) : t.Exchanging := by
  cases h with
  | leaseExpired | signingExpired | quarantineOver | notified => exact { hs with }
  | confirmed | unmatched => exact hs.keep (.of_adds (.one rfl rfl) rfl rfl)
  | @matched payload now remote owner session hreceived hpush =>
    have table : ∀ code ∈ resultPushes, pushAdvert ≤ code := by
      simp only [← List.all_iff_forall_prop]
      decide
    refine ⟨hs.justified.snoc₂ ⟨hreceived, table _ hpush⟩ trivial, fun hrunning => ?_,
      fun payload' hpayload' => ?_⟩
    · simp only [Broker.note, Broker.send]
      rw [outstanding_snoc, outstanding_snoc]
      exact hs.awaits hrunning
    · simp only [Broker.note, Broker.send] at hpayload'
      rw [received_append] at hpayload'
      cases hpayload'

theorem quiet_of_handing (hn : n.handing = true) : n.exchanges = false := by
  cases n with
  | input | upstream | replied => cases hn
  | sent frame cause =>
    cases cause with
    | reply | broadcast | leaseResult => cases hn
    | _ => rfl
  | _ => rfl

theorem quiet_of_serving (hn : n.serving = true) : n.exchanges = false := by
  cases n with
  | input | upstream | replied => cases hn
  | sent frame cause =>
    cases cause with
    | reply | broadcast | leaseResult => cases hn
    | _ => rfl
  | _ => rfl

/-- **One frame is outstanding at a time** in every state. -/
theorem Stepwise.exchanging : Stepwise (Reached s₀) Exchanging where
  report := fun _ hs => { hs with }
  input := fun event _ hs => hs.input event
  clock := fun _ _ hs => { hs with }
  idle := fun _ h hs => hs.keep (h.calm.mono fun _ hn => quiet_of_handing hn)
  output := fun _ h hs => hs.keep (h.calm.mono fun _ hn => quiet_of_handing hn)
  client := by
    intro s t _ h hs
    rcases h.adds with hadds | ⟨id, session, payload, -, hreceived, hveiled, rfl⟩
    · exact hs.keep { h.calm with adds := hadds.mono fun _ hn => quiet_of_serving hn }
    · exact hs.broadcast hreceived hveiled
  radio := fun _ h hs => hs.radio h
  part := by
    intro s t hK h hs
    cases h with
    | dropped => exact hs.keep (.of_adds (.one rfl rfl) rfl rfl)
    | @released transaction hactive hstep =>
      refine hs.extend (.refl rfl) fun hrunning => ⟨hrunning, ?_⟩
      rw [hactive, awaited, awaited, Option.map_some, Option.filter_some]
      exact (if_neg (by simp [Transaction.core, hstep])).symm
    | writtenDown => exact hs.keep (.of_adds (.refl rfl) rfl rfl)
    | upstream h => exact hs.upstream hK.wf hK.attended h
    | failed => exact hs.extend (.one rfl rfl) fun hrunning => nomatch hrunning
  took := by
    intro s transaction payload hK h hs
    obtain ⟨hanswers, hdisposition⟩ := Transaction.answers_of_valid h.step h.valid
    refine Exchanging.Answered.exchanging (x := transaction)
      (hs.unheardReply hK.wf h.active (by simp [h.step]) h.received hanswers _) ?_
    rw [hdisposition.mp rfl]
    rfl
  pop := fun _ _ _ h hs => hs.keep (h.calm.mono fun _ hn => quiet_of_handing hn)
  closes := fun _ h hs => hs.keep (h.calm.mono fun _ hn => quiet_of_handing hn)

theorem Starts.exchanging (h : s.Starts) : s.Exchanging := by
  obtain ⟨epoch, selfKey, config, now, orphan, slots, radio, rfl⟩ := h.fresh
  exact ⟨.nil, fun _ => rfl, fun _ hpayload => nomatch hpayload⟩

theorem Reached.exchanging (h : Reached s₀ s) : s.Exchanging :=
  Stepwise.exchanging.holds Starts.exchanging h

end Broker

end MeshCoreTCPMux

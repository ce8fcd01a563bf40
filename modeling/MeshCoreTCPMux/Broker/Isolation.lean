import MeshCoreTCPMux.Broker.Replay
import MeshCoreTCPMux.Broker.Keeps

/-!
# Clients are isolated from each other

Every call runs the shared scheduler, which answers, refuses and dispatches for any session, so one
client's frame can make the broker speak to all of them. It cannot hurt them: a call that reports
something about one client never ends the epoch, and whoever it disconnects is that client, or the
session that it replaces on its dedicated slot, or a session that did not keep up with its own output
(`clients_isolated`). The only exception is a maintenance result that waits for its write, since its
delivery ends the epoch by design.

The proof follows the call through its atomic actions. No frame of the companion is being handled, so
that no reply, no push and no inbox result is possible (`Midcall`), and nothing that ends an epoch is.
-/

namespace MeshCoreTCPMux

open Protocol Relation History

/-- The client that a call reports about. -/
def Event.client : Event → Option Nat
  | admission id _ _ | clientFrame id _ _ | clientClosed id _ _ _ => some id
  | written id _ _ _ | writeFailed id _ _ _ => if id = 0 then none else some id
  | _ => none

/-- An entry that shows a session closed. -/
def Note.closes : Note → Bool
  | closed _ _ => true
  | _ => false

namespace Broker

variable {s s₀ t u v : Broker} {event : Event} {id : Nat} {l m : List Note} {n : Note}

theorem Reached.acts (h : Reached s₀ s) (hst : Acts s t) : Reached s₀ t :=
  Stepwise.reached.invariant.acts h.wf hst h

/-- Why the call `event`, about the client `id`, may disconnect the session `i`. -/
inductive Spares (s₀ : Broker) (event : Event) (id : Nat) (past : List Note) (i : Nat) : Prop
  /-- It is about that client. -/
  | own (h : i = id)
  /-- It admits another session to the dedicated slot. -/
  | replaced {k : Nat} {now : Time} {u : Broker} {session : Session}
      (hevent : event = .admission id (some k) now) (hu : Reached s₀ u) (hpast : past = u.log)
      (hlive : u.sessions.find? i = some session) (hslot : session.dedicatedSlotId = some k)
  /-- A frame is due, and as many as may wait for their writes do. Its command has been taken before,
  if the frame is the answer to one. -/
  | slow {u : Broker} {session : Session} {taken : List Note} (hu : Reached s₀ u)
      (hpast : past = u.log ++ taken) (htaken : ∀ n ∈ taken, ∃ command, n = .taken i command)
      (hlive : u.sessions.find? i = some session)
      (hfull : u.config.outputFrames ≤ session.writes.size)

/-- Whoever an entry shows closed was closed for a reason. -/
def Excused (s₀ : Broker) (event : Event) (id : Nat) (past : List Note) : Note → Prop
  | .closed i _ => Spares s₀ event id past i
  | _ => True

theorem Excused.of_open (hn : n.closes = false) : Excused s₀ event id l n := by
  cases n with
  | closed => cases hn
  | _ => trivial

/-- In the middle of a call about the client `id`, which came when the history was `before`. -/
structure Midcall (s₀ : Broker) (event : Event) (id : Nat) (before : List Note) (u : Broker) : Prop
    where
  running : u.failed = false
  undelivered : ∀ x, u.active = some x → x.step ≠ .maintenanceResult
  current : current u.log = some event
  received : received u.log = none
  excused : ∃ notes, u.log = before ++ notes ∧
    Justified (fun front n => Excused s₀ event id (before ++ front) n) notes

namespace Midcall

theorem extend (h : Midcall s₀ event id l u) (hlog : Extends u.log v.log)
    (hrunning : v.failed = false) (hundelivered : ∀ x, v.active = some x → x.step ≠ .maintenanceResult)
    (hexcused : ∃ notes, v.log = u.log ++ notes ∧
      Justified (fun front n => Excused s₀ event id (u.log ++ front) n) notes) :
    Midcall s₀ event id l v where
  running := hrunning
  undelivered := hundelivered
  current := hlog.current.trans h.current
  received := by
    obtain ⟨notes, heq, hnotes⟩ := hlog
    cases hreceived : Broker.received v.log with
    | none => rfl
    | some payload =>
      rw [heq] at hreceived
      have hbefore := received_of_append (List.all_eq_true.mp hnotes) hreceived
      cases h.received.symm.trans hbefore
  excused := by
    obtain ⟨before, hu, hbefore⟩ := h.excused
    obtain ⟨notes, hv, hnotes⟩ := hexcused
    refine ⟨before ++ notes, by rw [hv, hu, List.append_assoc], ?_⟩
    refine hbefore.extend fun front n back heq => ?_
    have hn := hnotes front n back heq
    rw [hu, List.append_assoc] at hn
    exact hn

/-- Nobody is disconnected, and the active transaction is about the same. -/
theorem keep (h : Midcall s₀ event id l u) (hlog : Extends u.log v.log)
    (hcalm : Calm (·.closes = false) u v) : Midcall s₀ event id l v := by
  refine h.extend hlog (hcalm.failed.trans h.running) (fun x hx => ?_) ?_
  · have hcore := hcalm.core
    rw [hx] at hcore
    obtain ⟨y, hy, hyx⟩ := Option.map_eq_some_iff.mp hcore.symm
    have hstep : y.core.step = x.core.step := congrArg Transaction.step hyx
    intro hresult
    exact h.undelivered y hy (hstep.trans hresult)
  · obtain ⟨notes, heq, hnotes⟩ := hcalm.adds
    refine ⟨notes, heq, fun front n back hsplit => .of_open (hnotes n ?_)⟩
    rw [hsplit]
    exact List.mem_append_right _ List.mem_cons_self

/-- Somebody who is excused is disconnected. -/
theorem closed (h : Midcall s₀ event id l u) {i : Nat} {reason : Text} {taken : List Note}
    (hlog : v.log = u.log ++ taken ++ [.closed i reason])
    (hsame : v.active = u.active ∧ v.failed = u.failed)
    (htaken : ∀ n ∈ taken, ∃ command, n = .taken i command)
    (hspares : Spares s₀ event id (u.log ++ taken) i) : Midcall s₀ event id l v := by
  have hopen : ∀ n ∈ taken, n.internal = true ∧ n.closes = false := by
    intro n hn
    obtain ⟨command, rfl⟩ := htaken n hn
    exact ⟨rfl, rfl⟩
  have hextends : Extends u.log v.log := by
    refine ⟨taken ++ [.closed i reason], by rw [hlog, List.append_assoc], ?_⟩
    refine List.all_eq_true.mpr fun n hn => ?_
    rcases List.mem_append.mp hn with hn | hn
    · exact (hopen n hn).1
    · rw [List.mem_singleton.mp hn]
      rfl
  refine h.extend hextends (hsame.2.trans h.running) (fun x hx => ?_) ?_
  · exact h.undelivered x (hsame.1 ▸ hx)
  · refine ⟨taken ++ [.closed i reason], by rw [hlog, List.append_assoc], ?_⟩
    refine Justified.snoc (fun front n back hsplit => .of_open (hopen n ?_).2) hspares
    rw [hsplit]
    exact List.mem_append_right _ List.mem_cons_self

/-- A session that departs does so because of its own output, or of the call. -/
theorem spares (h : Midcall s₀ event id l u) (hclient : event.client = some id) (hu : Reached s₀ u)
    {i : Nat} {session : Session} {reason : Text} (hlive : u.sessions.find? i = some session)
    (hdeparts : u.Departs i session reason) : Spares s₀ event id u.log i := by
  have hown : ∀ {event' : Event}, Broker.current u.log = some event' → event'.client = some i →
      Spares s₀ event id u.log i := by
    intro event' hcall hi
    obtain rfl := Option.some.inj (h.current.symm.trans hcall)
    exact .own (Option.some.inj (hi.symm.trans hclient))
  cases hdeparts with
  | slow hfull =>
    have hnone : ∀ n ∈ ([] : List Note), ∃ command, n = .taken i command := by simp
    refine .slow hu (List.append_nil _).symm hnone hlive ?_
    exact not_lt.mp hfull
  | crowded hcall => exact hown hcall rfl
  | closed hcall => exact hown hcall rfl
  | writerFailed hcall =>
    refine hown hcall (if_neg fun hzero => ?_)
    exact hu.wf.positive (hzero ▸ OrdMap.mem_keys_of_find? hlive)
  | @replaced new k now hcall hslot =>
    obtain rfl := Option.some.inj (h.current.symm.trans hcall)
    obtain rfl := Option.some.inj (show some new = some id from hclient)
    exact .replaced rfl hu rfl hlive hslot
  | overdue hcall =>
    -- only a tick disconnects for an overdue write
    obtain rfl := Option.some.inj (h.current.symm.trans hcall)
    cases hclient

theorem idle (h : Midcall s₀ event id l u) (hclient : event.client = some id) (hst : Idle u v) :
    Midcall s₀ event id l v := by
  have hlog := (Fixed.idle hst).log
  have hcore := hst.calm.core
  have hfailed := hst.calm.failed
  cases hst with
  | @refuse i slotId now reason _ _ hcall =>
    obtain rfl := Option.some.inj (h.current.symm.trans hcall)
    have hnone : ∀ n ∈ ([] : List Note), ∃ command, n = .taken i command := by simp
    exact h.closed (by rw [List.append_nil]; rfl) ⟨rfl, rfl⟩ hnone (.own (Option.some.inj hclient))
  | _ => exact h.keep hlog ⟨.refl rfl, hcore, hfailed⟩

theorem output (h : Midcall s₀ event id l u) (hclient : event.client = some id) (hu : Reached s₀ u)
    (hst : Output u v) : Midcall s₀ event id l v := by
  have hlog := (Fixed.output hst).log
  cases hst with
  | @drop i _ _ hlive hdeparts =>
    have hnone : ∀ n ∈ ([] : List Note), ∃ command, n = .taken i command := by simp
    exact h.closed (by rw [List.append_nil]; rfl) ⟨rfl, rfl⟩ hnone
      (by rw [List.append_nil]; exact h.spares hclient hu hlive hdeparts)
  | hint => exact h.keep hlog (.of_adds (.one rfl rfl) rfl rfl)

theorem client (h : Midcall s₀ event id l u) (hu : Reached s₀ u) (hst : Client u v) :
    Midcall s₀ event id l v := by
  have hlog := (Fixed.client hst).log
  have hcalm := hst.calm
  have hopen : Adds (·.closes = false) u v → Midcall s₀ event id l v := fun hadds =>
    h.keep hlog ⟨hadds, hcalm.core, hcalm.failed⟩
  cases hst with
  | @choked i session command hhead hfull =>
    -- the command has been taken from its queue before its answer finds no room
    have htaken : ∀ n ∈ [Note.taken i command], ∃ command, n = .taken i command := by simp
    refine h.closed rfl ⟨rfl, rfl⟩ htaken ?_
    exact .slow hu rfl htaken hhead.live (not_lt.mp hfull)
  | entered =>
    refine hopen ⟨_, rfl, fun n hn => ?_⟩
    rcases List.mem_cons.mp hn with rfl | hn
    · rfl
    · split at hn
      · obtain ⟨_, -, rfl⟩ := List.mem_map.mp hn
        rfl
      · cases hn
  | queued | syncExpired | broadcast => exact hopen (.one rfl rfl)
  | answered | waits => exact hopen ⟨[_, _], List.append_assoc _ _ _, by simp [Note.closes]⟩
  | @selected i _ command =>
    have hsent : Adds (·.closes = false) u
        (((u.take i command).setScope i command.payload).send i [respOk] .answer) :=
      ⟨[_, _], List.append_assoc _ _ _, by simp [Note.closes]⟩
    exact hopen (hsent.trans (.one rfl rfl))
  | @delivered i session command item _ visible =>
    have hsent : Adds (·.closes = false) u ((u.take i command).send i visible (.item item)) :=
      ⟨[_, _], List.append_assoc _ _ _, by simp [Note.closes]⟩
    exact hopen (hsent.trans (.shiftInbox fun _ => rfl))

theorem upstream (h : Midcall s₀ event id l u) (hst : Upstream u v) :
    Midcall s₀ event id l v := by
  have hlog := (Fixed.upstream hst).log
  have hadds : Adds (·.closes = false) u v := hst.adds.mono fun n hn => by
    cases n <;> first | rfl | cases hn
  have hnone : ∀ {payload : Bytes}, Broker.received u.log ≠ some payload := by
    intro payload
    rw [h.received]
    simp
  have hdispatched : v.failed = u.failed →
      (∀ x, v.active = some x → x.step ≠ .maintenanceResult) → Midcall s₀ event id l v := by
    intro hfailed hactive
    refine h.extend hlog (hfailed.trans h.running) hactive ?_
    obtain ⟨notes, heq, hnotes⟩ := hadds
    refine ⟨notes, heq, fun front n back hsplit => .of_open (hnotes n ?_)⟩
    rw [hsplit]
    exact List.mem_append_right _ List.mem_cons_self
  cases hst with
  | popDispatched _ _ _ _ _ htransaction =>
    refine hdispatched rfl ?_
    rintro x ⟨⟩ hresult
    rw [htransaction] at hresult
    cases hresult
  | dispatched _ _ _ _ _ htransaction =>
    refine hdispatched rfl ?_
    rintro x ⟨⟩ hresult
    rw [htransaction] at hresult
    simp only at hresult
    split at hresult <;> cases hresult
  | setupRejected _ hreceived | setupAccepted _ hreceived | restored _ hreceived =>
    exact absurd hreceived hnone
  | progressed hreplied | scopedReply hreplied | heldReply hreplied | finalReply hreplied =>
    exact absurd hreplied.received hnone

/-- Nothing that ends an epoch is under way. -/
theorem not_ending (h : Midcall s₀ event id l u) (hclient : event.client = some id)
    (hst : Ending u v) : False := by
  have hcall : ∀ {event' : Event}, Broker.current u.log = some event' → event'.client = some id := by
    intro event' hevent'
    obtain rfl := Option.some.inj (h.current.symm.trans hevent')
    exact hclient
  cases hst with
  | failed _ hfatal =>
    cases hfatal with
    | requested hevent' | writerFailed hevent' | unwritten hevent' | rejected hevent' =>
      cases hcall hevent'
    | silent hevent' =>
      rcases hevent' with ⟨payload, hevent'⟩ | hevent' <;> cases hcall hevent'
  | completed hactive hstep | deserted hactive hstep => exact h.undelivered _ hactive hstep
  | undelivered hupstream _ hdone =>
    have hnone : ∀ {payload : Bytes}, Broker.received u.log ≠ some payload := by
      intro payload
      rw [h.received]
      simp
    cases hupstream with
    | popDispatched | dispatched | setupAccepted | progressed | scopedReply | heldReply => cases hdone
    | setupRejected _ hreceived | restored _ hreceived => exact hnone hreceived
    | finalReply hreplied => exact hnone hreplied.received

theorem move (h : Midcall s₀ event id l u) (hclient : event.client = some id) (hu : Reached s₀ u)
    (hst : Move u v) : Midcall s₀ event id l v := by
  cases hst with
  | idle hst => exact h.idle hclient hst
  | output hst => exact h.output hclient hu hst
  | client hst => exact h.client hu hst
  | radio hst =>
    refine h.keep (Fixed.radio hst).log (hst.calm.mono fun n hn => ?_)
    cases n <;> first | rfl | cases hn
  | upstream hst => exact h.upstream hst
  | ending hst => exact (h.not_ending hclient hst).elim
  | pop _ hreceived | drained _ _ hreceived => cases h.received.symm.trans hreceived

/-- What the call does. -/
theorem turns (h : Midcall s₀ event id l u) (hclient : event.client = some id) (hu : Reached s₀ u)
    (hst : Turns u v) : Midcall s₀ event id l v := by
  induction hst with
  | refl => exact h
  | tail hbefore hlast ih =>
    cases hlast with
    | step hstep =>
      cases hstep with
      | mk hmove report => exact { ih.move hclient (hu.acts (Turns.acts hbefore)) hmove with }
    | clock => exact { ih with }

end Midcall

end Broker

end MeshCoreTCPMux

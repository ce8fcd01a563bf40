import MeshCoreTCPMux.Broker.Bounds

/-!
# The registry of a broker

Sessions and writes are referred to from several places, and every operation that adds or removes
one has to touch them all. `Registered` says that they agree: the upstream write that is outstanding
is the active transaction's, a signing operation belongs to a live session or to the active
transaction, and a drain is asked for only while somebody is connected. `Registry` is what follows
for a running broker.
-/

namespace MeshCoreTCPMux

open Protocol Relation

namespace Broker

variable {s s₀ t : Broker}

/-! ### Owners, the upstream write and the drain -/

/-- The places that refer to sessions and to the upstream write agree. -/
structure Registered (s : Broker) : Prop where
  /-- The write that is outstanding upstream is the active transaction's. -/
  upstream : s.upstreamWrites.keys = (s.active.bind (·.upstreamWriteId)).toList
  result : ∀ x, s.active = some x → x.step = .maintenanceResult → x.upstreamWriteId = none
  requested : s.drainRequested = true → s.drainAuthorized = true
  authorized : s.drainAuthorized = true → s.sessions.keys ≠ []
  /-- A departed owner keeps its signing operation until its reply has been classified. -/
  signing : s.failed = false → ∀ op, s.signing.operation = some op →
    op.owner ∈ s.sessions.keys ∨ (s.activeOwner = some op.owner ∧ op.owner ≠ 0)

namespace Registered

theorem modifySession (h : s.Registered) (id : Nat) (f : Session → Session) :
    Registered { s with sessions := s.sessions.modify id f } :=
  { h with
    authorized := fun ha => by simpa using h.authorized ha
    signing := fun hrunning op hop => by simpa [activeOwner] using h.signing hrunning op hop }

theorem note (h : s.Registered) (n : Note) : (s.note n).Registered := { h with }

theorem send (h : s.Registered) (id : Nat) (payload : Bytes) (cause : Cause) :
    (s.send id payload cause).Registered :=
  { h.modifySession id fun x =>
      { x with writes := x.writes.insert (s.nextWrite + 1) ⟨s.now + s.config.writeTimeout⟩ } with }

theorem take (h : s.Registered) (id : Nat) (command : Command) : (s.take id command).Registered :=
  { h.modifySession id fun x => { x with commands := x.commands.tail } with }

theorem endSync (h : s.Registered) (id : Nat) : (s.endSync id).Registered :=
  h.modifySession id _

theorem shiftInbox (h : s.Registered) (id : Nat) (session : Session) (item : Bytes) :
    (s.shiftInbox id session item).Registered := by
  unfold Broker.shiftInbox
  split
  · exact h.modifySession id _
  · exact { h with }

theorem retarget (h : s.Registered) (transaction : Transaction) (payload : Bytes) :
    (s.retarget transaction payload).Registered := by
  unfold Broker.retarget
  split
  · exact h.modifySession _ _
  · exact h

theorem forwarded {transaction : Transaction} {payload : Bytes} {w : Option Nat}
    (h : s.Registered) (ht : s.Forwarded transaction payload w t) : t.Registered := by
  cases ht with
  | gone => exact h
  | live => exact (h.retarget _ _).send _ _ _

/-- The session that leaves owns no signing operation afterwards, unless its transaction is
active. -/
theorem drop (h : s.Registered) (hpositive : 0 ∉ s.sessions.keys) (id : Nat) (session : Session)
    (reason : Text) : (s.drop id session reason).Registered where
  upstream := h.upstream
  result := h.result
  requested := by
    intro hrequested
    simp only [Broker.drop] at hrequested ⊢
    split at hrequested
    · cases hrequested
    · next hsome => rw [if_neg hsome]; exact h.requested hrequested
  authorized := by
    intro hauthorized
    simp only [Broker.drop] at hauthorized ⊢
    split at hauthorized
    · cases hauthorized
    · next hsome => exact fun hnil => hsome (OrdMap.isEmpty_iff_keys.mpr hnil)
  signing := by
    intro hrunning op hop
    simp only [Broker.drop] at hop ⊢
    rw [OrdMap.keys_erase, List.mem_filter]
    split at hop
    · next hactive =>
      rcases h.signing hrunning op hop with hlive | howner
      · by_cases hid : op.owner = id
        · refine Or.inr ⟨hid ▸ hactive, ?_⟩
          intro hzero
          exact hpositive (hzero ▸ hlive)
        · exact Or.inl ⟨hlive, by simpa using hid⟩
      · exact Or.inr howner
    · -- the operation that is left is another session's
      unfold SigningLease.ownerGone at hop
      split at hop
      · cases hop
      · next hother =>
        have hid : op.owner ≠ id := by
          rintro rfl
          exact hother (by simp [SigningLease.owner, hop])
        exact (h.signing hrunning op hop).imp (fun hlive => ⟨hlive, by simpa using hid⟩) fun h => h

/-- Releasing a transaction whose write has completed. -/
theorem release (h : s.Registered) {transaction : Transaction} (hactive : s.active = some transaction)
    (hwritten : transaction.upstreamWriteId = none) : (s.release transaction.owner).Registered where
  upstream := by
    have hkeys := h.upstream
    rw [hactive] at hkeys
    exact hkeys.trans (by simp [hwritten, Broker.release])
  result := fun _ hx => by cases hx
  requested := h.requested
  authorized := h.authorized
  signing := by
    intro hrunning op hop
    left
    simp only [Broker.release] at hop ⊢
    split at hop
    · next hlive =>
      rcases h.signing hrunning op hop with hmem | ⟨howner, -⟩
      · exact hmem
      · have howns : transaction.owner = op.owner := by simpa [activeOwner, hactive] using howner
        exact howns ▸ OrdMap.contains_iff.mp hlive
    · unfold SigningLease.ownerGone at hop
      split at hop
      · cases hop
      · next hother =>
        refine (h.signing hrunning op hop).resolve_right fun hactive' => hother ?_
        have howns : transaction.owner = op.owner := by
          simpa [activeOwner, hactive] using hactive'.1
        simp [SigningLease.owner, hop, howns]

/-- A frame goes upstream when no write is outstanding there. -/
theorem sendUp (h : s.Registered) {transaction transaction' : Transaction}
    (hactive : s.active = some transaction) (hwritten : transaction.upstreamWriteId = none)
    (howner : transaction'.owner = transaction.owner)
    (hstep : transaction'.step ≠ .maintenanceResult) (payload : Bytes) :
    (s.sendUp payload transaction').Registered where
  upstream := by
    have hkeys := h.upstream
    rw [hactive, Option.bind_some, hwritten, Option.toList_none] at hkeys
    have hnew : s.nextWrite + 1 ∉ s.upstreamWrites.keys := by simp [hkeys]
    simp [Broker.sendUp, OrdMap.keys_insert_of_notMem hnew, hkeys]
  result := by
    intro x hx hresult
    obtain rfl := Option.some.inj hx
    exact absurd hresult hstep
  requested := h.requested
  authorized := h.authorized
  signing := by
    intro hrunning op hop
    refine (h.signing hrunning op hop).imp_right (And.imp_left fun hop' => ?_)
    simpa [activeOwner, Broker.sendUp, howner, hactive] using hop'

/-- The transaction that takes the place of another with the same owner. -/
theorem replace (h : s.Registered) {transaction transaction' : Transaction}
    (hactive : s.active = some transaction) (howner : transaction'.owner = transaction.owner)
    (hwritten : transaction'.upstreamWriteId = transaction.upstreamWriteId)
    (hresult : transaction'.step = .maintenanceResult → transaction'.upstreamWriteId = none) :
    Registered { s with active := some transaction' } :=
  { h with
    upstream := by simpa [hactive, hwritten] using h.upstream
    result := fun x hx hstep => by
      obtain rfl := Option.some.inj hx
      exact hresult hstep
    signing := fun hrunning op hop => by
      simpa [activeOwner, hactive, howner] using h.signing hrunning op hop }

/-- A reply changes the signing operation, not its owner. -/
theorem resign (h : s.Registered) {signing : SigningLease} (radio : CompanionRadioState)
    (hsigning : ∀ op, signing.operation = some op →
      ∃ op', s.signing.operation = some op' ∧ op'.owner = op.owner) :
    Registered { s with radio := radio, signing := signing } :=
  { h with
    signing := fun hrunning op hop => by
      obtain ⟨op', hop', howns⟩ := hsigning op hop
      exact howns ▸ h.signing hrunning op' hop' }

end Registered

/-- A reply settles the signing operation of its owner, and starts none. -/
theorem acceptance_owner {transaction : Transaction} {payload : Bytes} {now : Time}
    {radio radio' : CompanionRadioState} {signing signing' : SigningLease}
    (h : acceptance transaction payload now radio signing = .ok (radio', signing'))
    {op : SigningLease.Operation} (hop : signing'.operation = some op) :
    ∃ op', signing.operation = some op' ∧ op'.owner = op.owner := by
  cases acceptance_eq h with
  | dm | lease | leaseRejected | plain => exact ⟨op, hop, rfl⟩
  | signStart _ _ hok =>
    obtain ⟨op', hop', -, rfl⟩ := SigningLease.acceptedStart_eq hok
    exact ⟨op', hop', by rw [← Option.some.inj hop]⟩
  | signRejected => cases hop
  | signData _ hok =>
    obtain ⟨op', _, hop', -, ⟨-, rfl⟩ | ⟨-, -, rfl⟩ | ⟨-, -, rfl⟩⟩ :=
      SigningLease.dataResponse_eq hok
    · exact ⟨op', hop', by rw [← Option.some.inj hop]⟩
    · cases hop
    · exact ⟨op', hop', by rw [← Option.some.inj hop]⟩
  | signFinish _ hok =>
    obtain ⟨op', hop', -, ⟨-, rfl⟩ | ⟨-, rfl⟩⟩ := SigningLease.finishResponse_eq hok
    · cases hop
    · exact ⟨op', hop', by rw [← Option.some.inj hop]⟩

/-- A dispatched command continues the signing operation that is there, or its own. -/
theorem Reserves.signing_owner {owner : Nat} {command : Bytes} {descriptor : CommandDescriptor}
    {radio : CompanionRadioState} {signing : SigningLease}
    (h : s.Reserves owner command descriptor radio signing) {op : SigningLease.Operation}
    (hop : signing.operation = some op) : op.owner = owner ∨ s.signing.operation = some op := by
  have husable : ∀ {op' : SigningLease.Operation}, op'.usableBy owner = true → op'.owner = owner := by
    intro op' hop'
    simp only [SigningLease.Operation.usableBy, Bool.and_eq_true, beq_iff_eq] at hop'
    exact hop'.1.1.1.1
  cases h with
  | maintenance | dm | lease | plain => exact Or.inr hop
  | signing _ _ hsign =>
    left
    rcases hsign with ⟨-, hok⟩ | ⟨-, hok⟩ | ⟨-, hok⟩
    · rcases SigningLease.start_eq hok with ⟨hf, -⟩ | ⟨-, hstarted⟩
      · cases hf
      · rw [← Option.some.inj (hstarted.symm.trans hop)]
    · rcases SigningLease.beginData_eq hok with ⟨hf, -⟩ | ⟨-, op', _, -, hmine, -, -, rfl⟩
      · exact absurd rfl hf
      · obtain rfl := Option.some.inj hop
        exact (husable hmine : op'.owner = owner)
    · rcases SigningLease.beginFinish_eq hok with ⟨hf, -⟩ | ⟨-, op', -, hmine, rfl⟩
      · exact absurd rfl hf
      · obtain rfl := Option.some.inj hop
        exact (husable hmine : op'.owner = owner)

/-- A write that completes is no longer outstanding. -/
theorem Registered.written (h : s.Registered) {writeId : Nat} {f : Transaction → Transaction}
    (hf : ∀ x, s.active = some x → (f x).owner = x.owner ∧ (f x).step = x.step ∧
      (f x).upstreamWriteId = if x.upstreamWriteId = some writeId then none else x.upstreamWriteId) :
    Registered { s with
      upstreamWrites := s.upstreamWrites.erase writeId
      active := s.active.map f } := by
  have hupstream := h.upstream
  cases hactive : s.active with
  | none =>
    refine { h with upstream := ?_, result := fun _ hx => (nomatch hx), signing := ?_ }
    · simp [OrdMap.keys_erase, hupstream, hactive]
    · simpa [activeOwner, hactive] using h.signing
  | some x =>
    obtain ⟨howner, hstep, hwrite⟩ := hf x hactive
    refine { h with upstream := ?_, result := ?_, signing := ?_ }
    · rw [hactive, Option.bind_some] at hupstream
      simp only [OrdMap.keys_erase, hupstream, Option.map_some, Option.bind_some, hwrite]
      cases x.upstreamWriteId with
      | none => rfl
      | some w => by_cases hw : w = writeId <;> simp [hw]
    · intro y hy hresult
      obtain rfl := Option.some.inj hy
      have hnone := h.result x hactive (hstep ▸ hresult)
      simp [hwrite, hnone]
    · simpa [activeOwner, hactive, howner] using h.signing

/-- A dispatched transaction takes over, from none, and may reserve the signing operation. -/
theorem Registered.claim (h : s.Registered) {transaction : Transaction} {signing : SigningLease}
    (hidle : s.active = none) (hwritten : transaction.upstreamWriteId = none)
    (radio : CompanionRadioState)
    (hsigning : ∀ op, signing.operation = some op →
      op.owner ∈ s.sessions.keys ∨ s.signing.operation = some op) :
    (s.claim transaction radio signing).Registered :=
  { h with
    upstream := by
      have hkeys := h.upstream
      rw [hidle] at hkeys
      exact hkeys.trans (by simp [Broker.claim, hwritten])
    result := fun x hx _ => by
      obtain rfl := Option.some.inj hx
      exact hwritten
    signing := fun hrunning op hop => by
      rcases hsigning op hop with hlive | hop'
      · exact Or.inl hlive
      · refine Or.inl ((h.signing hrunning op hop').resolve_right ?_)
        simp [activeOwner, hidle] }

theorem Registered.enter (h : s.Registered) {id : Nat} (slotId : Option Nat) :
    (s.enter id slotId).Registered :=
  { h with
    authorized := fun _ hnil => by
      have hmem : id ∈ (s.enter id slotId).sessions.keys := OrdMap.mem_keys_insert.mpr (.inl rfl)
      rw [hnil] at hmem
      exact List.not_mem_nil hmem
    signing := fun hrunning op hop =>
      (h.signing hrunning op hop).imp_left fun hlive => OrdMap.mem_keys_insert.mpr (.inr hlive) }

theorem Registered.output (hs : s.Registered) (hwf : s.WF) (h : Output s t) : t.Registered := by
  cases h with
  | drop => exact hs.drop hwf.positive _ _ _
  | hint => exact (hs.send _ _ _).modifySession _ _

/-- A terminal reply, up to the transaction that takes it. -/
theorem Registered.answered {transaction : Transaction} {payload : Bytes} {w : Option Nat}
    {radio : CompanionRadioState} {signing : SigningLease} (h : s.Registered)
    (ht : s.Forwarded transaction payload w t)
    (haccept : acceptance transaction payload s.now s.radio s.signing = .ok (radio, signing)) :
    Registered { t with radio := radio, signing := signing } := by
  refine (h.forwarded ht).resign radio fun op hop => ?_
  rw [ht.frame.2.2.2.2.1]
  exact acceptance_owner haccept hop

theorem Registered.upstreamStep (hs : s.Registered) (h : Upstream s t) : t.Registered := by
  cases h with
  | popDispatched hrunning hidle hrequested hsessions hdescriptor htransaction =>
    subst htransaction
    have hpopping : Registered
        { s with drainRequested := false, popSequence := s.popSequence + 1 } :=
      { hs with requested := fun h => nomatch h }
    exact (hpopping.claim hidle rfl _ fun op hop => Or.inr hop).sendUp rfl rfl rfl (by simp) _
  | dispatched hidle h hforward hdescriptor hreserves htransaction =>
    subst htransaction
    refine ((hs.take _ _).claim hidle (by rfl) _ fun op hop => ?_).sendUp rfl rfl rfl
      (by dsimp only; split <;> simp) _
    refine (hreserves.signing_owner hop).imp_left fun howner => ?_
    rw [howner]
    simpa [Broker.take] using OrdMap.mem_keys_of_find? h.live
  | @setupRejected t _ _ _ h _ _ hwritten _ _ ht =>
    have hfreed : ∀ radio, Registered { t with radio := radio } := fun radio =>
      (hs.forwarded ht).resign radio fun op hop => ⟨op, hop, rfl⟩
    exact ((hfreed _).note _).release (ht.frame.2.1.trans h) hwritten
  | setupAccepted h _ _ hwritten =>
    exact (hs.note _).sendUp h hwritten (by rfl) (by simp) _
  | restored h _ _ hwritten => exact (hs.note _).release h hwritten
  | progressed h ht =>
    have hactive := ht.frame.2.1.trans h.active
    exact Registered.note ((hs.forwarded ht).replace hactive (by rfl) (by rfl) (by exact fun _ => h.written)) _
  | scopedReply h ht haccept =>
    have hactive := ht.frame.2.1.trans h.active
    exact ((hs.answered ht haccept).note _).sendUp hactive h.written (by rfl)
      (by simp) _
  | heldReply h ht haccept =>
    have hactive := ht.frame.2.1.trans h.active
    exact Registered.note
      ((hs.answered ht haccept).replace hactive (by rfl) (by rfl) (by exact fun _ => h.written)) _
  | finalReply h ht haccept =>
    have hactive := ht.frame.2.1.trans h.active
    exact ((hs.answered ht haccept).note _).release hactive h.written

theorem Registered.receives {id : Nat} {session : Session} (hs : s.Registered)
    (hpositive : 0 ∉ s.sessions.keys) (h : s.Receives id session t) : t.Registered := by
  cases h with
  | held => exact hs
  | served => exact ((hs.endSync _).send _ _ _).shiftInbox _ _ _
  | slow => exact hs.drop hpositive _ _ _

/-- **The registry agrees with itself in every state.** -/
theorem Stepwise.registered : Stepwise WF Registered where
  report := fun _ hs => { hs with }
  input := fun _ _ hs => hs.note _
  clock := fun _ _ hs => { hs with }
  idle := by
    intro s t _ h hs
    cases h with
    | poll | refuse | rotate | debtTouched | debtCleared => exact { hs with }
    | writtenUp =>
      refine hs.written fun x _ => ?_
      split <;> exact ⟨rfl, rfl, rfl⟩
    | writtenDown => exact hs.modifySession _ _
    | @proved transaction writeId hactive hwrite =>
      have hproved : Registered { s with
          upstreamWrites := s.upstreamWrites.erase writeId
          active := s.active.map (proveWrite · s.now) } := by
        refine hs.written fun x hx => ⟨rfl, rfl, ?_⟩
        obtain rfl := Option.some.inj (hactive.symm.trans hx)
        rw [if_pos hwrite]
        rfl
      rwa [hactive] at hproved
    | touched _ _ hactive =>
      have hresult := hs.result _ hactive
      exact hs.replace hactive (by rfl) (by rfl) (by exact hresult)
  output := fun hwf h hs => hs.output hwf h
  client := by
    intro s t hwf h hs
    cases h with
    | entered => exact hs.enter _
    | queued => exact { hs.modifySession _ _ with }
    | answered => exact (hs.take _ _).send _ _ _
    | selected => exact (((hs.take _ _).modifySession _ _).send _ _ _).note _
    | choked => exact (hs.take _ _).drop (by simpa [Broker.take] using hwf.positive) _ _ _
    | waits h =>
      refine { (hs.take _ _).modifySession _ _ with
        requested := fun _ => rfl
        authorized := fun _ hnil => ?_ }
      have hlive := OrdMap.mem_keys_of_find? h.live
      simp only [startSync, Broker.take, OrdMap.keys_modify] at hnil
      rw [hnil] at hlive
      exact List.not_mem_nil hlive
    | delivered => exact ((hs.take _ _).send _ _ _).shiftInbox _ _ _
    | syncExpired => exact (hs.endSync _).send _ _ _
    | broadcast => exact hs.send _ _ _
  radio := by
    intro s t _ h hs
    cases h with
    | leaseExpired | quarantineOver => exact { hs with }
    | confirmed | unmatched => exact { hs with }
    | signingExpired => exact { hs with signing := fun _ _ hop => by cases hop }
    | notified =>
      refine { hs with requested := fun hrequested => ?_ }
      rcases Bool.or_eq_true_iff.mp hrequested with h | h
      · exact hs.requested h
      · exact h
    | @matched _ _ remote =>
      have hfreed : Registered { s with radio := { s.radio with remote := remote } } := { hs with }
      exact (hfreed.send _ _ _).note _
  part := by
    intro s t hwf h hs
    cases h with
    | dropped => exact hs.drop hwf.positive _ _ _
    | released hactive hstep => exact hs.release hactive (hs.result _ hactive hstep)
    | writtenDown => exact hs.modifySession _ _
    | upstream h => exact hs.upstreamStep h
    | failed =>
      exact { hs with
        upstream := rfl
        result := fun _ hx => by cases hx
        signing := fun hrunning => by cases hrunning }
  took := by
    intro s transaction payload _ htakes hs
    refine { hs with upstream := ?_, result := fun _ hx => (by cases hx), signing := ?_ }
    · have hkeys := hs.upstream
      rw [htakes.active, Option.bind_some, htakes.written] at hkeys
      exact hkeys
    · intro hrunning op hop
      -- the internal inbox consumer signs nothing
      refine Or.inl ((hs.signing hrunning op hop).resolve_right fun hactive => hactive.2 ?_)
      simpa [activeOwner, htakes.active, htakes.owner] using hactive.1.symm
  pop := by
    intro s t transaction payload hwf hidle _ h hs
    cases h with
    | output h => exact hs.output hwf h
    | answered => exact (hs.endSync _).send _ _ _
    | duplicate | popped | orphaned => exact { hs with }
    | slotOffered => exact { hs with }
    | flooded => exact hs.drop hwf.positive _ _ _
    | @attachedOffered _ slotId _ _ _ _ _ _ _ ht =>
      have hoffered : (s.offerSlot slotId payload).Registered := { hs with }
      exact hoffered.receives hwf.positive ht
    | @offered _ id _ _ _ _ _ ht =>
      have hoffered : (s.offer id payload).Registered := { hs.modifySession _ _ with }
      exact hoffered.receives (by simpa [Broker.offer] using hwf.positive) ht
  closes := by
    intro s t transaction payload hwf h hs
    cases h with
    | settled =>
      refine { hs with requested := fun h => h, authorized := fun hagain hnil => ?_ }
      have hsome : (s.newerWork transaction && !s.sessions.isEmpty) = true := hagain
      have hempty : s.sessions.isEmpty = true := OrdMap.isEmpty_iff_keys.mpr hnil
      simp [hempty] at hsome
    | continued =>
      exact { hs with requested := fun h => (Bool.and_eq_true_iff.mp h).1 }

/-! ### The registry -/

/-- The registry of a running broker. -/
structure Registry (s : Broker) : Prop where
  /-- The rotation holds the internal inbox consumer and each live session once. -/
  order : s.order.Nodup ∧ ∀ id, id ∈ s.order ↔ id = 0 ∨ id ∈ s.sessions.keys
  slot : ∀ k slot id, s.dedicatedSlots.find? k = some slot →
    (slot.attachedSessionId = some id ↔
      ∃ session, s.sessions.find? id = some session ∧ session.dedicatedSlotId = some k)
  alone : ∀ i j x y k, s.sessions.find? i = some x → s.sessions.find? j = some y →
    x.dedicatedSlotId = some k → y.dedicatedSlotId = some k → i = j
  remote : ∀ owner, RemoteLease.owner s.radio.remote = some owner → owner ∈ s.sessions.keys
  signing : ∀ owner, s.signing.owner = some owner →
    owner ∈ s.sessions.keys ∨ s.activeOwner = some owner
  hint : ∀ id session w, s.sessions.find? id = some session →
    session.availabilityHintWriteId = some w → w ∈ session.writes.keys
  upstream : s.upstreamWrites.keys = [] ∨ ∃ transaction w, s.active = some transaction ∧
    transaction.upstreamWriteId = some w ∧ s.upstreamWrites.keys = [w]
  requested : s.drainRequested = true → s.drainAuthorized = true
  authorized : s.drainAuthorized = true → s.sessions.keys ≠ []
  writes : (writeIds s.log).Nodup

theorem Starts.registered (h : s.Starts) : s.Registered := by
  obtain ⟨epoch, selfKey, config, now, orphan, slots, radio, rfl⟩ := h.fresh
  exact
    { upstream := rfl
      result := fun _ hx => nomatch hx
      requested := fun h => nomatch h
      authorized := fun h => nomatch h
      signing := fun _ _ hop => nomatch hop }

theorem Run.wf (h : Run s₀ s) (hstart : s₀.Starts) : s.WF := hstart.wf.acts (h.acts hstart.wf)

theorem Reached.registered (h : Reached s₀ s) : s.Registered :=
  (Stepwise.registered.mono fun _ h => h.wf).holds Starts.registered h

theorem Run.registered (h : Run s₀ s) (hstart : s₀.Starts) : s.Registered :=
  (h.reached hstart).registered

/-- A slot and the session that it is attached to name each other. -/
theorem WF.attached_iff (h : s.WF) {k : Nat} {slot : DedicatedClientSlot}
    (hslot : s.dedicatedSlots.find? k = some slot) (id : Nat) :
    slot.attachedSessionId = some id ↔
      ∃ session, s.sessions.find? id = some session ∧ session.dedicatedSlotId = some k := by
  constructor
  · exact (h.slot k slot hslot).attached id
  · rintro ⟨session, hlive, hk⟩
    obtain ⟨slot', hslot', hattached⟩ := (h.session id session hlive).slot k hk
    obtain rfl := Option.some.inj (hslot.symm.trans hslot')
    exact hattached

/-- **The collections of a running broker agree with each other.** -/
theorem registry_agrees (hstart : s₀.Starts) (h : Run s₀ s) (hrunning : s.failed = false) :
    s.Registry where
  order := by
    have hwf := h.wf hstart
    have hnodup : (0 :: s.sessions.keys).Nodup :=
      List.nodup_cons.mpr ⟨hwf.positive, s.sessions.nodup_keys⟩
    exact ⟨hwf.order.nodup_iff.mpr hnodup, fun id => by rw [hwf.order.mem_iff, List.mem_cons]⟩
  slot := fun k slot id hslot => (h.wf hstart).attached_iff hslot id
  alone := by
    intro i j x y k hi hj hx hy
    have hwf := h.wf hstart
    -- the slot names both sessions
    obtain ⟨slot, hslot, hattached⟩ := (hwf.session i x hi).slot k hx
    have hattached' := (hwf.attached_iff hslot j).mpr ⟨y, hj, hy⟩
    exact Option.some.inj (hattached.symm.trans hattached')
  remote := by
    intro owner howner
    obtain ⟨r, hr, hr'⟩ := Option.bind_eq_some_iff.mp howner
    exact (h.wf hstart).lease.owner r owner hr hr'
  signing := by
    intro owner howner
    obtain ⟨op, hop, rfl⟩ := Option.map_eq_some_iff.mp howner
    exact ((h.registered hstart).signing hrunning op hop).imp_right And.left
  hint := fun id session w hlive => ((h.bounded hstart).session id session hlive).hint w
  upstream := by
    have hkeys := (h.registered hstart).upstream
    cases hactive : s.active with
    | none =>
      rw [hactive] at hkeys
      exact Or.inl hkeys
    | some transaction =>
      rw [hactive, Option.bind_some] at hkeys
      cases hwrite : transaction.upstreamWriteId with
      | none =>
        rw [hwrite] at hkeys
        exact Or.inl hkeys
      | some w =>
        rw [hwrite] at hkeys
        exact Or.inr ⟨transaction, w, rfl, hwrite, hkeys⟩
  requested := (h.registered hstart).requested
  authorized := (h.registered hstart).authorized
  writes := (h.issued hstart).increasing.imp fun hlt => Nat.ne_of_lt hlt

theorem registry_agrees_first : (first.after (.admission 1 none 1)).Registry :=
  registry_agrees first_starts (.call .start ⟨by decide, by decide, nofun, nofun⟩) (by decide)

end Broker

end MeshCoreTCPMux

import MeshCoreTCPMux.Broker.Bodies

/-!
# The broker's programs commute with changes of CLI bodies

One lemma for each program, in the order of the modules that define them.
-/

namespace MeshCoreTCPMux

open Protocol Program

namespace BodyMap

variable {f : BodyMap}

/-! ### Radio and signing state -/

@[simp] theorem expire_remote (lease : RemoteLease) (now : Time) :
    RemoteLease.expire (f.remote lease) now
      = ((RemoteLease.expire lease now).1, f.remote (RemoteLease.expire lease now).2) := by
  have hany : (f.remote lease).any (·.expired now) = lease.any (·.expired now) := by
    cases lease <;> rfl
  unfold RemoteLease.expire
  rw [hany]
  split <;> rfl

@[simp] theorem ownerGone_remote (lease : RemoteLease) (owner : Nat) :
    RemoteLease.ownerGone (f.remote lease) owner = f.remote (RemoteLease.ownerGone lease owner) := by
  cases lease with
  | none => rfl
  | some r =>
    simp only [RemoteLease.ownerGone, remote, Option.map_some]
    split <;> rfl

@[simp] theorem tentative_remote (lease : RemoteLease) :
    RemoteLease.tentative (f.remote lease) = RemoteLease.tentative lease := by
  cases lease <;> rfl

@[simp] theorem kind_remote (lease : RemoteLease) :
    RemoteLease.kind (f.remote lease) = RemoteLease.kind lease := by
  cases lease <;> rfl

@[simp] theorem command_remote (lease : RemoteLease) :
    RemoteLease.command (f.remote lease) = (RemoteLease.command lease).map f.command := by
  cases lease <;> rfl

@[simp] theorem owner_remote (lease : RemoteLease) :
    RemoteLease.owner (f.remote lease) = RemoteLease.owner lease := by
  cases lease <;> rfl

theorem acceptanceUnknown_remote (lease : RemoteLease) (deadline : Time) :
    RemoteLease.acceptanceUnknown (f.remote lease) deadline
      = f.outcome f.remote (RemoteLease.acceptanceUnknown lease deadline) := by
  cases lease with
  | none => rfl
  | some r =>
    simp only [RemoteLease.acceptanceUnknown, remote, Option.map_some]
    split <;> rfl

theorem quarantined_radio (radio : CompanionRadioState) (now : Time) :
    (f.radio radio).quarantined now
      = ((radio.quarantined now).1, f.radio (radio.quarantined now).2) := by
  obtain ⟨dmRing, lease, dedup, uncertainUntil, dmCursorUncertain⟩ := radio
  cases uncertainUntil with
  | none => rfl
  | some deadline =>
    simp only [CompanionRadioState.quarantined, BodyMap.radio]
    by_cases hearly : now < deadline
    · simp only [if_pos hearly]
    · simp only [if_neg hearly]
      by_cases hheld : (dmCursorUncertain && decide (0 < dmRing.pendingCount now)) = true
      · rw [if_pos hheld]
        exact if_pos hheld
      · rw [if_neg hheld]
        exact if_neg hheld

theorem commutes_quarantined (now : Time) :
    f.Commutes id (quarantined now) (quarantined now) := by
  refine .modifyGet (fun s _ => ?_) fun _ hs => ⟨hs.positive, hs.active, hs.debt⟩
  simp [broker, quarantined_radio]

theorem commutes_remoteOccupied (now : Time) :
    f.Commutes id (remoteOccupied now) (remoteOccupied now) := by
  refine .modifyGet (fun s _ => ?_) fun _ hs => ⟨hs.positive, hs.active, hs.debt⟩
  have hsome : (f.remote (RemoteLease.expire s.radio.remote now).2).isSome
      = (RemoteLease.expire s.radio.remote now).2.isSome := Option.isSome_map
  simp [broker, BodyMap.radio, RemoteLease.occupied, hsome]

theorem commutes_signingOccupied (now : Time) :
    f.Commutes id (signingOccupied now) (signingOccupied now) :=
  .modifyGet (fun _ _ => rfl) fun _ hs => ⟨hs.positive, hs.active, hs.debt⟩

/-! ### Removal, output and failure -/

theorem commutes_detach (key : Nat) (x : Session) :
    f.Commutes id (detach key x) (detach key (f.session x)) := by
  have hslot : (f.session x).dedicatedSlotId = x.dedicatedSlotId := rfl
  unfold detach
  rw [hslot]
  cases x.dedicatedSlotId with
  | none =>
    simp only [session, List.length_map]
    exact commutes_count _ _
  | some slotId =>
    refine .get_bind fun s _ => ?_
    simp only [dedicatedSlots_broker, OrdMap.find?_mapValues]
    cases s.dedicatedSlots.find? slotId with
    | none => exact .pure rfl
    | some y =>
      refine .bind (commutes_modifySlot slotId fun z => ?_) fun _ => .get_bind fun t _ => ?_
      · rw [apply_ite f.slot]
        rfl
      · refine commutes_diagnostic ?_
        simp [text, piece, broker, slot]

/-- What a removal calls next commutes on the transactions that the broker holds. -/
theorem commutes_removeWith {finish finish' : Transaction → BrokerM Unit}
    (hfinish : ∀ transaction, transaction.Described →
      f.Commutes id (finish transaction) (finish' (f.transaction transaction)))
    (key : Nat) (reason : Text) (category : Category) :
    f.Commutes id (removeWith finish key reason category)
      (removeWith finish' key (f.text reason) category) := by
  unfold removeWith
  refine .get_bind fun s _ => ?_
  simp only [sessions_broker, OrdMap.find?_mapValues]
  cases s.sessions.find? key with
  | none => exact .pure rfl
  | some x =>
    refine .bind (u := id) (.modify (fun t _ => ?_) fun t ht => ⟨?_, ht.active, ht.debt⟩) fun _ => ?_
    · simp only [broker, OrdMap.mapValues_erase]
    · intro hmem
      rw [OrdMap.keys_erase] at hmem
      exact ht.positive (List.mem_of_mem_filter hmem)
    refine .bind (commutes_count _ _) fun _ => .bind (commutes_detach key x) fun _ =>
      .get_bind fun t _ => .bind (commutes_setRemote ?_) fun _ => ?_
    · simp [broker, radio]
    refine .bind (commutes_modify (fun t => ?_) (fun _ => rfl) (fun _ => rfl) fun _ => rfl) fun _ => ?_
    · have hsigning := congrArg (fun owner => if owner = some key then t.signing
        else t.signing.ownerGone key) (activeOwner_broker (f := f) t)
      exact congrArg (fun signing => { f.broker t with signing := signing }) hsigning.symm
    refine .bind (commutes_modify (fun t => rfl) (fun _ => rfl) (fun _ => rfl) fun _ => rfl) fun _ =>
      .get_bind fun t _ => .bind (commutes_diagnostic ?_) fun _ =>
      .bind (commutes_perform rfl) fun _ => ?_
    · simp [session]
      simp [text, piece, broker]
    refine .bind (commutes_modify (fun t => ?_) (fun _ => rfl) (fun _ => rfl) fun _ => rfl) fun _ =>
      .get_bind fun t ht => ?_
    · simp only [broker, OrdMap.isEmpty_mapValues]
    cases hactive : t.active with
    | none =>
      simp only [active_broker, hactive, Option.map_none]
      exact .pure rfl
    | some transaction =>
      simp only [active_broker, hactive, Option.map_some]
      exact .ite Iff.rfl (fun _ => hfinish transaction (ht.active transaction hactive))
        fun _ => .pure rfl

theorem commutes_finishWith {fail fail' : Text → BrokerM Unit}
    (hfail : ∀ reason, f.Commutes id (fail reason) (fail' (f.text reason)))
    (transaction : Transaction) :
    f.Commutes id (finishWith fail transaction) (finishWith fail' (f.transaction transaction)) := by
  unfold finishWith
  refine .bind (u := id) (.modify (fun _ _ => rfl) fun _ ht => ht.idle)
    fun _ => .bind (commutes_modify (fun t => ?_) (fun _ => rfl) (fun _ => rfl) fun _ => rfl)
    fun _ => ?_
  · simp [broker, BodyMap.transaction]
  · refine .ite Iff.rfl (fun _ => ?_) fun _ => .pure rfl
    exact hfail ["maintenance operation completed"]

theorem commutes_preserveRadioUncertainty :
    f.Commutes id preserveRadioUncertainty preserveRadioUncertainty := by
  unfold preserveRadioUncertainty
  refine .get_bind fun s _ => ?_
  cases hactive : s.active with
  | none =>
    simp only [active_broker, hactive, Option.map_none]
    exact .pure rfl
  | some transaction =>
    simp only [active_broker, hactive, Option.map_some, BodyMap.transaction, plainDm_command]
    refine .ite Iff.rfl (fun _ => .ite Iff.rfl (fun _ => .get_bind fun t _ =>
      commutes_setRemote rfl) fun _ => .pure rfl) fun _ => .ite Iff.rfl (fun _ => ?_)
      fun _ => .pure rfl
    refine .get_bind fun t ht => .bind (.set rfl ⟨ht.positive, ht.active, ht.debt⟩) fun _ => ?_
    have hdiagnostic := @commutes_diagnostic f ["event=radio_state.quarantined epoch=", t.epoch,
      " minimum_until_ms=", .millis (t.radio.quarantine t.now t.config.radioUncertaintyTimeout
        (plainDm transaction.command)).1, " dm_cursor_uncertain=",
      toString (plainDm transaction.command), " ", .command transaction.command false] _ .warn rfl
    refine .ite ?_ (fun _ => ?_) fun _ => hdiagnostic
    · simp [CompanionRadioState.quarantine]
    refine .bind (commutes_ofExcept ?_) fun lease => .bind (commutes_setRemote rfl)
      fun _ => hdiagnostic
    exact acceptanceUnknown_remote ..

theorem commutes_removeFailed (key : Nat) : f.Commutes id (removeFailed key) (removeFailed key) :=
  commutes_removeWith (fun transaction _ => commutes_finishWith (fun _ => .pure rfl) transaction)
    key ["upstream epoch failed"] .normal

theorem commutes_failEpoch (reason : Text) :
    f.Commutes id (failEpoch reason) (failEpoch (f.text reason)) := by
  unfold failEpoch
  refine .get_bind fun s _ => .ite Iff.rfl (fun _ => .pure rfl) fun _ =>
    .bind commutes_preserveRadioUncertainty fun _ => ?_
  refine .bind (u := id) (.modify (fun t _ => ?_) fun t ht => ⟨ht.positive, ht.active, ?_⟩)
    fun _ => ?_
  · refine congrArg (fun debt => { f.broker t with responseDebt := debt }) ?_
    cases hdebt : t.responseDebt with
    | some transaction => simp [hdebt]
    | none =>
      simp only [responseDebt_broker, active_broker, hdebt, Option.map_none]
      cases t.active with
      | none => rfl
      | some transaction =>
        change Option.map f.transaction (if _ then _ else _) = if _ then _ else _
        rw [apply_ite (Option.map f.transaction)]
        rfl
  · intro transaction howed
    cases hdebt : t.responseDebt with
    | some transaction' =>
      rw [hdebt] at howed
      exact ht.debt transaction (hdebt.trans howed)
    | none =>
      rw [hdebt] at howed
      exact ht.active transaction (Option.filter_eq_some_iff.mp howed).1
  refine .bind (commutes_modify (fun t => rfl) (fun _ => rfl) (fun _ => rfl) fun _ => rfl)
    fun _ => .get_bind fun t _ => .bind (commutes_diagnostic (by simp; rfl)) fun _ =>
    .get_bind fun t _ => .bind (.forM (u := id) (by simp) fun key _ => commutes_removeFailed key)
    fun _ => ?_
  refine .bind (u := id) (.modify (fun _ _ => rfl) fun _ ht =>
      ⟨ht.positive, ht.idle.active, ht.debt⟩)
    fun _ => .get_bind fun t _ => .get_bind fun t' _ => .bind (commutes_diagnostic ?_) fun _ =>
    .get_bind fun t _ => commutes_perform rfl
  simp
  rfl

theorem commutes_finishTransaction (transaction : Transaction) :
    f.Commutes id (finishTransaction transaction) (finishTransaction (f.transaction transaction)) :=
  commutes_finishWith commutes_failEpoch transaction

theorem commutes_remove (key : Nat) (reason : Text) (category : Category) :
    f.Commutes id (remove key reason category) (remove key (f.text reason) category) :=
  commutes_removeWith (fun transaction _ => commutes_finishTransaction transaction)
    key reason category

theorem commutes_emit (key : Nat) {payload payload' : Bytes} {cause cause' : Cause}
    (hpayload : f.response payload = payload') (hcause : f.cause cause = cause') :
    f.Commutes id (emit key payload cause) (emit key payload' cause') := by
  unfold emit
  refine .get_bind fun s hs => ?_
  simp only [sessions_broker, OrdMap.find?_mapValues]
  cases hlive : s.sessions.find? key with
  | none => exact .pure rfl
  | some x =>
    refine .ite Iff.rfl (fun _ => .bind (commutes_remove key ["output queue overflow"] .normal)
      fun _ => .pure rfl) fun _ => ?_
    refine .bind (commutes_modify (fun _ => rfl) (fun _ => rfl) (fun _ => rfl) fun _ => rfl)
      fun _ => .bind (commutes_modifySession key fun _ => rfl) fun _ =>
      .bind (commutes_perform ?_) fun _ => .pure rfl
    have hkey : key ≠ 0 := by
      rintro rfl
      exact hs.positive (OrdMap.mem_keys_of_find? hlive)
    simp only [note, sendFrame, if_neg hkey, hpayload, hcause]
    rfl

theorem commutes_reject (key : Nat) (reason : UInt8) {detail : Text} (h : f.text detail = detail) :
    f.Commutes id (reject key reason detail) (reject key reason detail) := by
  unfold reject
  refine .bind (commutes_count _ _) fun _ => .get_bind fun s _ =>
    .bind (commutes_diagnostic ?_) fun _ => .bind (commutes_emit key ?_ rfl) fun _ => .pure rfl
  · simp [h]
    rfl
  · exact f.frame_cons_of_ne (by decide) _

theorem commutes_emitAvailabilityHint (key : Nat) :
    f.Commutes id (emitAvailabilityHint key) (emitAvailabilityHint key) := by
  unfold emitAvailabilityHint
  refine .get_bind fun s _ => ?_
  simp only [sessions_broker, OrdMap.find?_mapValues]
  cases s.sessions.find? key with
  | none => exact .pure rfl
  | some x =>
    refine .ite Iff.rfl (fun _ => ?_) fun _ => .pure rfl
    exact .bind (commutes_emit key (f.frame_cons_of_ne (by decide) _) rfl) fun _ =>
      commutes_modifySession key fun _ => rfl

theorem commutes_notifyAllSessions : f.Commutes id notifyAllSessions notifyAllSessions :=
  .get_bind fun _ _ => .forM (u := id) (by simp) fun key _ => commutes_emitAvailabilityHint key

theorem commutes_recordAvailabilityHint :
    f.Commutes id recordAvailabilityHint recordAvailabilityHint :=
  .bind (commutes_modify (fun _ => rfl) (fun _ => rfl) (fun _ => rfl) fun _ => rfl)
    fun _ => commutes_notifyAllSessions

theorem commutes_authorizeDrain : f.Commutes id authorizeDrain authorizeDrain :=
  .bind (commutes_modify (fun _ => rfl) (fun _ => rfl) (fun _ => rfl) fun _ => rfl)
    fun _ => .get_bind fun _ _ => .get_bind fun _ _ => commutes_diagnostic rfl

theorem text_timeoutReason (config : Config) (transaction : Transaction) (now : Time) :
    f.text (timeoutReason config transaction now)
      = timeoutReason config (f.transaction transaction) now := by
  simp only [timeoutReason, BodyMap.transaction, opcode_frame]
  rfl

theorem commutes_checkActiveDeadline (now : Time) :
    f.Commutes id (checkActiveDeadline now) (checkActiveDeadline now) := by
  unfold checkActiveDeadline
  refine .get_bind fun s hs => ?_
  cases hactive : s.active with
  | none =>
    simp only [active_broker, hactive, Option.map_none]
    exact .pure rfl
  | some transaction =>
    simp only [active_broker, hactive, Option.map_some]
    refine .ite Iff.rfl (fun _ => .pure rfl) fun _ => .ite Iff.rfl (fun _ => ?_) fun _ => .pure rfl
    refine .bind (u := id) (.modify (fun _ _ => rfl) fun t ht => ⟨ht.positive, ht.active, ?_⟩)
      fun _ => .bind (u := id) ?_ fun _ => .pure rfl
    · intro transaction' howed
      exact Option.some.inj howed ▸ hs.active transaction hactive
    · have hfail := commutes_failEpoch (f := f) (timeoutReason s.config transaction now)
      rwa [text_timeoutReason] at hfail

/-! ### The virtual inbox -/

/-- A complaint about the shape of a frame names its opcode and its length only. -/
theorem validateResponseShape_outcome (payload : Bytes) :
    validateResponseShape (f.response payload)
      = f.outcome id (validateResponseShape payload) := by
  rw [validateResponseShape_response]
  unfold validateResponseShape
  split
  · rfl
  split
  · rfl
  split <;> rfl

theorem downgradeInbox_response (item : Bytes) (targetVersion : UInt8) :
    downgradeInbox (f.response item) targetVersion
      = f.outcome f.response (downgradeInbox item targetVersion) := by
  unfold downgradeInbox
  rw [validateResponseShape_outcome]
  cases validateResponseShape item with
  | error e => rfl
  | ok _ =>
    simp only [outcome, opcode_frame, bind, Except.bind, pure, Except.pure]
    split
    · rfl
    split
    · next hop =>
      rw [response, f.frame_of_ne (show opcode item ≠ respCliReply by rw [hop]; decide)]
      exact congrArg Except.ok (f.frame_cons_of_ne (by decide) _).symm
    split
    · next hop =>
      rw [response, f.frame_of_ne (show opcode item ≠ respCliReply by rw [hop]; decide)]
      exact congrArg Except.ok (f.frame_cons_of_ne (by decide) _).symm
    · rfl

theorem commutes_deliverItem (key : Nat) : f.Commutes id (deliverItem key) (deliverItem key) := by
  unfold deliverItem
  refine .get_bind fun s _ => ?_
  simp only [sessions_broker, OrdMap.find?_mapValues]
  cases s.sessions.find? key with
  | none => exact .pure rfl
  | some x =>
    simp only [Option.map_some, inboxFor?_broker]
    cases s.inboxFor? x with
    | none => exact .throw rfl
    | some queue =>
      cases queue with
      | nil => exact .throw rfl
      | cons item rest =>
        simp only [Option.map_some, List.map_cons]
        refine .bind (commutes_ofExcept (downgradeInbox_response item x.targetVersion))
          fun visible => .bind (commutes_emit key rfl rfl) fun accepted =>
          .ite Iff.rfl (fun _ => ?_) fun _ => .pure rfl
        have hslot : (f.session x).dedicatedSlotId = x.dedicatedSlotId := rfl
        rw [hslot]
        cases x.dedicatedSlotId with
        | none =>
          refine commutes_modifySession key fun y => ?_
          simp [session]
        | some slotId =>
          refine .bind (commutes_modifySlot slotId fun y => ?_) fun _ => commutes_perform rfl
          simp [slot, DedicatedClientSlot.recordDelivery]

theorem commutes_enqueueMultiClient (payload : Bytes) (key : Nat) :
    f.Commutes id (enqueueMultiClient payload key)
      (enqueueMultiClient (f.response payload) key) := by
  unfold enqueueMultiClient
  refine .get_bind fun s _ => ?_
  simp only [sessions_broker, OrdMap.find?_mapValues]
  cases s.sessions.find? key with
  | none => exact .pure rfl
  | some x =>
    have hsync : (f.session x).sync = x.sync := rfl
    have hinbox : (f.session x).inbox = x.inbox.map f.response := rfl
    simp only [Option.map_some, hsync, hinbox, List.length_map, List.isEmpty_map]
    refine .ite Iff.rfl (fun _ => commutes_remove key ["inbox overflow"] .normal) fun _ =>
      .bind (commutes_modifySession key fun y => ?_) fun _ => .bind (commutes_perform rfl) fun _ =>
      .ite Iff.rfl (fun _ => ?_) fun _ => .ite Iff.rfl
        (fun _ => commutes_emitAvailabilityHint key) fun _ => .pure rfl
    · simp [session]
    · exact .bind (commutes_modifySession key fun _ => rfl) fun _ => commutes_deliverItem key

theorem commutes_warnDedicatedOverflow (slotId : Nat) (event : String) :
    f.Commutes id (warnDedicatedOverflow slotId event) (warnDedicatedOverflow slotId event) := by
  unfold warnDedicatedOverflow
  refine .get_bind fun s _ => .ite Iff.rfl (fun _ => ?_) fun _ => ?_
  · exact commutes_modify (fun _ => rfl) (fun _ => rfl) (fun _ => rfl) fun _ => rfl
  · refine .bind (commutes_modify (fun _ => rfl) (fun _ => rfl) (fun _ => rfl) fun _ => rfl)
      fun _ => commutes_diagnostic ?_
    have hdepth : ((f.broker s).dedicatedSlots.find? slotId).map (·.offlineQueue.length)
        = (s.dedicatedSlots.find? slotId).map (·.offlineQueue.length) := by
      simp only [dedicatedSlots_broker, OrdMap.find?_mapValues, Option.map_map, slot,
        Function.comp_def, List.length_map]
    rw [hdepth]
    rfl

theorem commutes_notifySlot (attached : Option Nat) (wasEmpty : Bool) :
    f.Commutes id (notifySlot attached wasEmpty) (notifySlot attached wasEmpty) := by
  cases attached with
  | none => exact .pure rfl
  | some key =>
    refine .get_bind fun s _ => ?_
    simp only [sessions_broker, OrdMap.find?_mapValues]
    cases s.sessions.find? key with
    | none => exact .pure rfl
    | some x =>
      refine .ite Iff.rfl (fun _ => .bind (commutes_modifySession key fun _ => rfl) fun _ =>
        commutes_deliverItem key) fun _ => .ite Iff.rfl
        (fun _ => commutes_emitAvailabilityHint key) fun _ => .pure rfl

theorem enqueueOffline_slot (x : DedicatedClientSlot) (payload : Bytes) (limit : Nat) :
    (f.slot x).enqueueOffline (f.response payload) limit
      = ((x.enqueueOffline payload limit).1, f.slot (x.enqueueOffline payload limit).2) := by
  have hfind : (x.offlineQueue.map f.response).findIdx? DedicatedClientSlot.channelMessage
      = x.offlineQueue.findIdx? DedicatedClientSlot.channelMessage := by
    rw [List.findIdx?_map]
    simp only [Function.comp_def, channelMessage_response]
  unfold DedicatedClientSlot.enqueueOffline
  simp only [slot, List.length_map, hfind]
  split
  · cases x.offlineQueue.findIdx? DedicatedClientSlot.channelMessage with
    | none => rfl
    | some i => simp [DedicatedClientSlot.append, List.eraseIdx_map]
  · simp [DedicatedClientSlot.append]

theorem commutes_offerSlot (payload : Bytes) (slotId : Nat) :
    f.Commutes id (offerSlot payload slotId) (offerSlot (f.response payload) slotId) := by
  unfold offerSlot
  refine .get_bind fun s _ => ?_
  simp only [dedicatedSlots_broker, OrdMap.find?_mapValues]
  cases s.dedicatedSlots.find? slotId with
  | none => exact .pure rfl
  | some x =>
    have hconfig : (f.broker s).config = s.config := rfl
    simp only [Option.map_some, enqueueOffline_slot, hconfig]
    refine .bind (commutes_modifySlot slotId fun _ => rfl) fun _ =>
      .bind (commutes_perform rfl) fun _ => ?_
    have hnotify := commutes_notifySlot (f := f)
      (x.enqueueOffline payload s.config.offlineQueueSize).2.attachedSessionId x.offlineQueue.isEmpty
    have hempty : (f.slot x).offlineQueue.isEmpty = x.offlineQueue.isEmpty := List.isEmpty_map
    rw [hempty]
    cases (x.enqueueOffline payload s.config.offlineQueueSize).1 with
    | newMessageDiscarded => exact commutes_warnDedicatedOverflow _ _
    | channelEvicted | added =>
      refine .ite Iff.rfl (fun _ => .bind (commutes_warnDedicatedOverflow _ _) fun _ => ?_)
        fun _ => ?_
      all_goals
        exact .ite Iff.rfl (fun _ => .bind (commutes_diagnostic rfl) fun _ => hnotify)
          fun _ => hnotify

theorem commutes_fanOutDedicated (payload : Bytes) :
    f.Commutes id (fanOutDedicated payload) (fanOutDedicated (f.response payload)) :=
  .get_bind fun _ _ => .forM (u := id) (by simp) fun slotId _ => commutes_offerSlot payload slotId

theorem commutes_answerNoMore (transaction : Transaction) (key : Nat) :
    f.Commutes id (answerNoMore transaction key)
      (answerNoMore (f.transaction transaction) key) := by
  unfold answerNoMore
  refine .get_bind fun s _ => ?_
  simp only [sessions_broker, OrdMap.find?_mapValues]
  cases s.sessions.find? key with
  | none => exact .pure rfl
  | some x =>
    have hsync : (f.session x).sync = x.sync := rfl
    simp only [Option.map_some, hsync]
    cases x.sync with
    | none => exact .pure rfl
    | some sync =>
      exact .ite Iff.rfl (fun _ => .bind (commutes_modifySession key fun _ => rfl) fun _ =>
        .bind (commutes_emit key (f.frame_cons_of_ne (by decide) _) rfl) fun _ => .pure rfl)
        fun _ => .pure rfl

theorem newerWork_broker (s : Broker) (transaction : Transaction) :
    (f.broker s).newerWork (f.transaction transaction) = s.newerWork transaction := by
  simp only [Broker.newerWork, sessions_broker, OrdMap.any_mapValues]
  rfl

theorem commutes_popEmpty (transaction : Transaction) :
    f.Commutes id (popEmpty transaction) (popEmpty (f.transaction transaction)) := by
  unfold popEmpty
  refine .get_bind fun s _ => .bind (.forM (u := id) (by simp) fun key _ =>
    commutes_answerNoMore transaction key) fun _ => .get_bind fun t _ => ?_
  have hempty : (f.broker t).sessions.isEmpty = t.sessions.isEmpty := OrdMap.isEmpty_mapValues ..
  simp only [newerWork_broker, hempty]
  refine .ite Iff.rfl (fun _ => ?_) fun _ => .bind (commutes_perform rfl) fun _ => ?_
  all_goals
    exact commutes_modify (fun _ => rfl) (fun _ => rfl) (fun _ => rfl) fun _ => rfl

theorem commutes_continueDrain : f.Commutes id continueDrain continueDrain := by
  refine commutes_modify (fun s => ?_) (fun _ => rfl) (fun _ => rfl) fun _ => rfl
  refine congrArg (fun requested => { f.broker s with drainRequested := requested }) ?_
  rw [sessions_broker, OrdMap.isEmpty_mapValues]
  rfl

theorem duplicate_response (d : ReceivedMessageDeduplicator) (payload : Bytes) :
    d.duplicate (f.response payload) = d.duplicate payload := by
  simp only [ReceivedMessageDeduplicator.duplicate, identity_response]

theorem commutes_isDuplicate (payload : Bytes) :
    f.Commutes id (isDuplicate payload) (isDuplicate (f.response payload)) := by
  refine .modifyGet (fun s _ => ?_) fun s hs => ?_
  · have hdedup : (f.broker s).radio.receivedMessageDeduplicator
        = s.radio.receivedMessageDeduplicator := rfl
    have hconfig : (f.broker s).config = s.config := rfl
    simp only [hdedup, hconfig, duplicate_response]
    split <;> rfl
  · simp only
    split
    · exact ⟨hs.positive, hs.active, hs.debt⟩
    · exact hs

theorem commutes_popItem (transaction : Transaction) (payload : Bytes) :
    f.Commutes id (popItem transaction payload)
      (popItem (f.transaction transaction) (f.response payload)) := by
  unfold popItem
  refine .bind (commutes_count _ _) fun _ => .bind (commutes_isDuplicate payload) fun duplicate =>
    .ite Iff.rfl (fun _ => ?_) fun _ => ?_
  · exact .bind (commutes_count _ _) fun _ => .get_bind fun _ _ => .get_bind fun _ _ =>
      .bind (commutes_diagnostic rfl) fun _ => .bind (commutes_perform rfl) fun _ =>
      commutes_continueDrain
  · refine .bind (commutes_perform rfl) fun _ => .bind (commutes_fanOutDedicated payload) fun _ =>
      .get_bind fun s _ => ?_
    simp only [multiClients_broker]
    refine .ite Iff.rfl (fun _ => ?_) fun _ => ?_
    · exact .bind (commutes_modify (fun _ => rfl) (fun _ => rfl) (fun _ => rfl) fun _ => rfl)
        fun _ => .bind (commutes_perform rfl) fun _ => commutes_continueDrain
    · exact .bind (.forM (u := id) (by simp) fun key _ => commutes_enqueueMultiClient payload key)
        fun _ => commutes_continueDrain

theorem commutes_popResult (transaction : Transaction) (payload : Bytes) :
    f.Commutes id (popResult transaction payload)
      (popResult (f.transaction transaction) (f.response payload)) :=
  .ite (by rw [opcode_frame]) (fun _ => commutes_popEmpty transaction)
    fun _ => commutes_popItem transaction payload

/-! ### Local heads -/

theorem commutes_shiftCommand (key : Nat) (command : Command) :
    f.Commutes id (shiftCommand key command) (shiftCommand key (f.queued command)) := by
  refine .bind (commutes_modifySession key fun x => ?_) fun _ => commutes_perform rfl
  simp [session]

theorem commutes_localSync (key : Nat) (now : Time) :
    f.Commutes id (localSync key now) (localSync key now) := by
  unfold localSync
  refine .get_bind fun s _ => ?_
  simp only [sessions_broker, OrdMap.find?_mapValues, Option.map_map, Function.comp_def,
    inboxFor?_broker]
  cases s.sessions.find? key with
  | none => exact .pure rfl
  | some x =>
    simp only [Option.map_some]
    cases s.inboxFor? x with
    | none => exact .throw rfl
    | some queue =>
      cases queue with
      | nil =>
        exact .bind (commutes_modifySession key fun _ => rfl) fun _ =>
          .bind (commutes_perform rfl) fun _ => .bind commutes_authorizeDrain fun _ => .pure rfl
      | cons item rest => exact .bind (commutes_deliverItem key) fun _ => .pure rfl

theorem commutes_localScope (key : Nat) (payload : Bytes) :
    f.Commutes id (localScope key payload) (localScope key (f.command payload)) := by
  refine .bind (commutes_modifySession key fun _ => rfl) fun _ =>
    .bind (commutes_emit key (f.frame_cons_of_ne (by decide) _) rfl) fun accepted =>
    .ite Iff.rfl (fun _ => commutes_perform rfl) fun _ => .pure rfl

theorem byteAt_command (payload : Bytes) :
    byteAt (f.command payload) 0 = byteAt payload 0 := by
  unfold byteAt
  rw [head?_frame]

theorem plain_byteAt (payload : Bytes) (offset : Nat) : f.Plain (byteAt payload offset) := by
  unfold byteAt
  split
  · exact .ok _
  · exact .error rfl

theorem commutes_localCommand (key : Nat) (command : Command) (now : Time) :
    f.Commutes id (localCommand key command now) (localCommand key (f.queued command) now) := by
  unfold localCommand
  refine .get_bind fun s _ => ?_
  simp only [queued, validateCommand_command, opcode_frame, byteAt_command]
  have hshift := commutes_shiftCommand (f := f) key command
  cases (validateCommand command.payload).reason with
  | some reason =>
    refine .bind hshift fun _ => .bind (commutes_ofExcept (plain_byteAt ..).symm) fun op =>
      .bind (commutes_reject key reason rfl) fun _ => .pure rfl
  | none =>
    refine .ite Iff.rfl (fun _ => .bind hshift fun _ => .bind (commutes_reject key _ rfl) fun _ =>
      .pure rfl) fun _ => ?_
    refine .ite Iff.rfl (fun _ => .bind hshift fun _ => commutes_localSync key now) fun _ => ?_
    refine .ite Iff.rfl (fun _ => .bind hshift fun _ => .bind (commutes_localScope key _) fun _ =>
      .pure rfl) fun _ => ?_
    refine .ite Iff.rfl (fun _ => ?_) fun _ => ?_
    · exact .bind hshift fun _ => .bind (commutes_count _ _) fun _ => .get_bind fun _ _ =>
        .bind (commutes_diagnostic rfl) fun _ =>
        .bind (commutes_emit key (f.frame_cons_of_ne (by decide) _) rfl) fun _ => .pure rfl
    refine .ite Iff.rfl (fun _ => .bind hshift fun _ => .bind (commutes_reject key _ rfl) fun _ =>
      .pure rfl) fun _ => ?_
    exact .ite Iff.rfl (fun _ => .bind hshift fun _ => .bind (commutes_reject key _ rfl) fun _ =>
      .pure rfl) fun _ => .pure rfl

theorem commutes_localCommands (key : Nat) (now : Time) (commands : List Command) :
    f.Commutes id (localCommands key now commands)
      (localCommands key now (commands.map f.queued)) := by
  induction commands with
  | nil => exact .pure rfl
  | cons command rest ih =>
    refine .bind (commutes_localCommand key command now) fun goesOn => .ite Iff.rfl (fun _ =>
      .get_bind fun s _ => .ite ?_ (fun _ => ih) fun _ => .pure rfl) fun _ => .pure rfl
    rw [sessions_broker, OrdMap.contains_mapValues]

theorem commutes_localTurn (now : Time) (key : Nat) :
    f.Commutes id (localTurn now key) (localTurn now key) := by
  unfold localTurn
  refine .get_bind fun s _ => ?_
  simp only [sessions_broker, OrdMap.find?_mapValues]
  cases s.sessions.find? key with
  | none => exact .pure rfl
  | some x =>
    refine .ite ?_ (fun _ => commutes_localCommands key now x.commands) fun _ => .pure rfl
    rw [activeOwner_broker]
    exact Iff.rfl

/-! ### Dispatch -/

theorem commutes_sendUpstream (payload : Bytes) (now : Time) (transaction : Transaction) :
    f.Commutes id (sendUpstream payload now transaction)
      (sendUpstream (f.command payload) now (f.transaction transaction)) :=
  .get_bind fun _ _ =>
    .bind (commutes_modify (fun _ => rfl) (fun _ => rfl) (fun _ => rfl) fun _ => rfl) fun _ =>
    .get_bind fun _ _ => .bind (commutes_perform rfl) fun _ => .bind (commutes_count _ _) fun _ =>
    .pure rfl

theorem forwarded_command (command : Bytes) :
    forwarded (f.command command) = f.outcome f.command (forwarded command) := by
  unfold forwarded
  rw [opcode_frame]
  split
  · next hop =>
    have hother : opcode command ≠ cmdRunCliCommand := by
      rw [hop]
      decide
    rw [BodyMap.command, f.frame_of_ne hother]
    unfold normalizeDeviceQuery
    split
    · refine congrArg Except.ok (f.frame_of_ne ?_).symm
      cases command with
      | nil => exact hother
      | cons op body => exact hother
    · rfl
  · rfl

theorem commutes_sendCommand (transaction : Transaction) (now : Time) :
    f.Commutes id (sendCommand transaction now) (sendCommand (f.transaction transaction) now) :=
  .bind (commutes_modifyActive (fun _ => rfl) fun _ h => h) fun _ =>
    .bind (commutes_ofExcept (forwarded_command transaction.command)) fun payload =>
    .bind (commutes_sendUpstream payload now { transaction with step := .command }) fun _ =>
    commutes_modifyActive (fun _ => rfl) fun _ h => h

theorem command_eq_defaultScope {scope : Bytes} :
    f.command scope = defaultScope ↔ scope = defaultScope :=
  f.frame_eq_iff (by decide)

theorem wrappingScope_broker (s : Broker) (owner : Nat) (descriptor : CommandDescriptor) :
    (f.broker s).wrappingScope owner descriptor
      = (s.wrappingScope owner descriptor).map f.command := by
  unfold Broker.wrappingScope
  simp only [sessions_broker, OrdMap.find?_mapValues]
  cases s.sessions.find? owner with
  | none => rfl
  | some x =>
    have hscope : (f.session x).scope = f.command x.scope := rfl
    simp only [Option.map_some, hscope, ne_eq, command_eq_defaultScope]
    split <;> rfl

theorem commutes_dispatch (owner : Nat) (command : Bytes) (now : Time)
    (popSequence generation : Nat) :
    f.Commutes id (dispatch owner command now popSequence generation)
      (dispatch owner (f.command command) now popSequence generation) := by
  unfold dispatch
  rw [descriptor_command]
  cases hdescriptor : descriptor command with
  | none => exact .throw rfl
  | some desc =>
    refine .get_bind fun s _ => ?_
    simp only [multiClients_broker]
    refine .bind (u := id) (.modify (fun _ _ => rfl) fun t ht => ⟨ht.positive, ?_, ht.debt⟩)
      fun _ => .bind (commutes_diagnostic rfl) fun _ => .bind (commutes_diagnostic rfl) fun _ => ?_
    · intro transaction hactive
      exact Option.some.inj hactive ▸ hdescriptor
    rw [wrappingScope_broker]
    cases s.wrappingScope owner desc with
    | none =>
      exact .bind (commutes_perform rfl) fun _ => commutes_sendCommand
        { owner, command, descriptor := desc, popSequence, started := now, progress := now,
          notificationGeneration := generation
          hadMultiClient := owner = 0 ∧ ¬ s.multiClients.isEmpty
          jobId := s.nextWrite + 1, maintenance := desc.flags.maintenance } now
    | some scope =>
      refine .bind (commutes_modifyActive (fun _ => rfl) fun _ _ => hdescriptor) fun _ =>
        .bind (commutes_perform rfl) fun _ => .bind (commutes_sendUpstream scope now
          { owner, command, descriptor := desc, popSequence, started := now, progress := now,
            notificationGeneration := generation
            hadMultiClient := owner = 0 ∧ ¬ s.multiClients.isEmpty
            jobId := s.nextWrite + 1, maintenance := desc.flags.maintenance
            step := .setup, isScoped := true }) fun _ => ?_
      exact commutes_modifyActive (fun _ => rfl) fun _ h => h

/-! ### Admission -/

theorem plain_readU32 (payload : Bytes) (offset : Nat) :
    f.Plain (LeaseParsing.readU32 payload offset) :=
  .ite (.error rfl) (.ok _)

theorem plain_requirePayload (payload : Bytes) (code : UInt8) (size : Nat) :
    f.Plain (LeaseParsing.requirePayload payload code size) :=
  .ite (.ok _) (.error rfl)

theorem plain_requireCommand (command : Bytes) (code : UInt8) (size : Nat) :
    f.Plain (LeaseParsing.requireCommand command code size) :=
  .ite (.error rfl) (.ok _)

theorem plain_classify (command : Bytes) : f.Plain (RemoteLease.classify command) := by
  have hpeer (offset : Nat) : f.Plain (RemoteLease.peerAt command offset) :=
    .ite (.error rfl) (.ok _)
  unfold RemoteLease.classify
  refine .ite (.bind (hpeer _) fun _ => .ok _) (.ite (.bind (hpeer _) fun _ => .ok _) (.ite
    (.ite (.error rfl) (.bind (plain_readU32 ..) fun _ => .bind (plain_readU32 ..) fun _ => .ok _))
    (.ite (.ite (.error rfl) (.bind (hpeer _) fun _ => .ok _)) ?_)))
  exact .ite (.bind (hpeer _) fun _ => .ok _) (.ite (.bind (hpeer _) fun _ => .ok _)
    (.ite (.bind (hpeer _) fun _ => .ok _) (.error rfl)))

/-- No command that opens a lease is a CLI command. -/
theorem reserve_remote (lease : RemoteLease) (owner : Nat) {command : Bytes} (now : Time)
    (h : f.command command = command) :
    RemoteLease.reserve (f.remote lease) owner command now
      = f.outcome (fun answer => (answer.1, f.remote answer.2))
        (RemoteLease.reserve lease owner command now) := by
  have hbusy : (f.remote (RemoteLease.expire lease now).2).isSome
      = (RemoteLease.expire lease now).2.isSome := Option.isSome_map
  unfold RemoteLease.reserve
  simp only [RemoteLease.occupied, expire_remote, hbusy]
  split
  · rfl
  split
  · rfl
  rw [(plain_classify command).outcome_bind]
  refine congrArg (fun k => RemoteLease.classify command >>= k) (funext fun answer => ?_)
  simp only [outcome, pure, Except.pure, remote, Option.map_some, h]

theorem plain_start (lease : SigningLease) (owner : Nat) (command : Bytes) (now : Time) :
    f.Plain (lease.start owner command now) :=
  .bind (plain_requireCommand ..) fun _ => .ite (.ok _) (.ok _)

theorem plain_beginData (lease : SigningLease) (owner : Nat) (command : Bytes) (now : Time) :
    f.Plain (lease.beginData owner command now) := by
  unfold SigningLease.beginData
  refine .ite (.error rfl) ?_
  simp only
  split
  · exact .ok _
  refine .ite (.ok _) ?_
  split
  · exact .error rfl
  · exact .ite (.error rfl) (.ite (.ok _) (.ok _))

theorem plain_beginFinish (lease : SigningLease) (owner : Nat) (command : Bytes) (now : Time) :
    f.Plain (lease.beginFinish owner command now) := by
  refine .bind (plain_requireCommand ..) fun _ => ?_
  simp only
  split
  · exact .ok _
  · exact .ite (.ok _) (.ok _)

/-- The leases are about commands other than the CLI's. -/
theorem command_of_lease {command : Bytes} {desc : CommandDescriptor}
    (hdescriptor : descriptor command = some desc) (hlease : desc.flags.remoteLease = true) :
    f.command command = command := by
  refine f.frame_of_ne fun hop => ?_
  obtain ⟨hmem, hcode⟩ := mem_descriptors hdescriptor
  have htable : ∀ d ∈ remoteTelemetry :: descriptors, d.opcode = cmdRunCliCommand →
      d.flags.remoteLease = false := by decide
  rw [htable desc hmem (hcode.trans hop)] at hlease
  cases hlease

theorem commutes_admissionReason (owner : Nat) {command : Bytes} {desc : CommandDescriptor}
    (now : Time) (hdescriptor : descriptor command = some desc) :
    f.Commutes id (admissionReason owner command desc now)
      (admissionReason owner (f.command command) desc now) := by
  unfold admissionReason
  simp only [opcode_frame, plainDm_command]
  have hsame {code : UInt8} (hop : opcode command = code) (hcode : code ≠ cmdRunCliCommand) :
      f.command command = command := f.frame_of_ne (hop ▸ hcode)
  refine .ite Iff.rfl (fun _ => .get_bind fun s _ => .map (u := id) ?_ fun _ => rfl) fun _ => ?_
  · refine .orM (.pure ?_) (.orM (commutes_quarantined now) (.orM (commutes_remoteOccupied now)
      (.orM (.map .get fun _ => rfl) (commutes_signingOccupied now))))
    simp
  refine .bind (.andM (.pure rfl) (.orM (commutes_quarantined now) (.map .get fun _ => rfl)))
    fun refused => .ite Iff.rfl (fun _ => .pure rfl) fun _ => ?_
  refine .ite Iff.rfl (fun hlease => ?_) fun _ => ?_
  · rw [command_of_lease hdescriptor hlease]
    refine .bind (commutes_quarantined now) fun refused => .ite Iff.rfl (fun _ => .pure rfl)
      fun _ => .get_bind fun s _ => ?_
    refine .bind (commutes_ofExcept (reserve_remote s.radio.remote owner now
      (command_of_lease hdescriptor hlease))) fun answer => .bind (commutes_setRemote rfl) fun _ =>
      .ite Iff.rfl (fun _ => ?_) fun _ => .pure rfl
    simp only [kind_remote]
    cases RemoteLease.kind answer.2 with
    | none => exact .throw rfl
    | some kind =>
      refine .get_bind fun s _ => .bind (commutes_diagnostic ?_) fun _ => .pure rfl
      simp only [text, List.map_cons, piece, command_of_lease hdescriptor hlease]
      rfl
  refine .ite Iff.rfl (fun hop => ?_) fun _ => .ite Iff.rfl (fun hop => ?_) fun _ =>
    .ite Iff.rfl (fun hop => ?_) fun _ => .pure rfl
  · rw [hsame hop (by decide)]
    exact .get_bind fun s _ => .bind (commutes_ofExcept (plain_start ..).symm) fun answer =>
      .bind (commutes_setSigning _) fun _ => .pure rfl
  · rw [hsame hop (by decide)]
    exact .get_bind fun s _ => .bind (commutes_ofExcept (plain_beginData ..).symm) fun answer =>
      .bind (commutes_setSigning _) fun _ => .pure rfl
  · rw [hsame hop (by decide)]
    exact .get_bind fun s _ => .bind (commutes_ofExcept (plain_beginFinish ..).symm) fun answer =>
      .bind (commutes_setSigning _) fun _ => .pure rfl

theorem commutes_admitCommand (owner : Nat) (command : Bytes) (now : Time) :
    f.Commutes id (admitCommand owner command now)
      (admitCommand owner (f.command command) now) := by
  unfold admitCommand
  rw [descriptor_command]
  cases hdescriptor : descriptor command with
  | none => exact .throw rfl
  | some desc =>
    refine .bind (commutes_admissionReason owner now hdescriptor) fun reason => ?_
    cases reason with
    | none => exact .pure rfl
    | some reason =>
      simp only [opcode_frame]
      exact .bind (commutes_reject owner reason rfl) fun _ => .pure rfl

/-! ### The schedule -/

theorem commutes_rotationTurn (key : Nat) (now : Time) :
    f.Commutes id (rotationTurn key now) (rotationTurn key now) := by
  unfold rotationTurn
  refine .get_bind fun s _ => .ite Iff.rfl (fun _ => .ite ?_ (fun _ => ?_) fun _ => .pure rfl)
    fun _ => ?_
  · rw [sessions_broker, OrdMap.isEmpty_mapValues]
    exact Iff.rfl
  · refine .bind (commutes_modify (fun _ => rfl) (fun _ => rfl) (fun _ => rfl) fun _ => rfl)
      fun _ => .get_bind fun t _ => .get_bind fun t' _ => .bind (u := id) ?_ fun _ => .pure rfl
    exact commutes_dispatch 0 [cmdSyncNextMessage] now t.popSequence t'.notificationGeneration
  simp only [sessions_broker, OrdMap.find?_mapValues]
  cases s.sessions.find? key with
  | none => exact .pure rfl
  | some x =>
    refine .ite Iff.rfl (fun _ => .pure rfl) fun _ => ?_
    have hcommands : (f.session x).commands = x.commands.map f.queued := rfl
    rw [hcommands]
    cases x.commands with
    | nil => exact .pure rfl
    | cons command rest =>
      refine .bind (commutes_shiftCommand key command) fun _ =>
        .bind (commutes_admitCommand key command.payload now) fun admitted =>
        .ite Iff.rfl (fun _ => ?_) fun _ => .pure rfl
      exact .bind (commutes_dispatch key command.payload now 0 0) fun _ => .pure rfl

theorem commutes_rotate (now : Time) (turns : Nat) :
    f.Commutes id (rotate now turns) (rotate now turns) := by
  induction turns with
  | zero => exact .pure rfl
  | succ turns ih =>
    refine .get_bind fun s _ => ?_
    have horder : (f.broker s).order = s.order := rfl
    rw [horder]
    cases s.order with
    | nil => exact .throw rfl
    | cons key rest =>
      exact .bind (commutes_modify (fun _ => rfl) (fun _ => rfl) (fun _ => rfl) fun _ => rfl)
        fun _ => .bind (commutes_rotationTurn key now) fun dispatched =>
        .ite Iff.rfl (fun _ => .pure rfl) fun _ => ih

theorem commutes_schedule (now : Time) : f.Commutes id (schedule now) (schedule now) := by
  unfold schedule
  refine .get_bind fun _ _ => .ite Iff.rfl (fun _ => .pure rfl) fun _ =>
    .bind (commutes_modify (fun _ => rfl) (fun _ => rfl) (fun _ => rfl) fun _ => rfl) fun _ =>
    .get_bind fun s _ => .ite ?_ (fun _ => .pure rfl) fun _ => .get_bind fun t _ =>
    .bind (.forM (u := id) (by simp) fun key _ => commutes_localTurn now key) fun _ =>
    .get_bind fun t _ => .ite ?_ (fun _ => .get_bind fun t _ => commutes_rotate now _)
    fun _ => .pure rfl
  · rw [underMaintenance_broker]
  · rw [active_broker, Option.isNone_map]

/-! ### Replies -/

theorem commutes_logResponse (transaction : Transaction) (payload : Bytes) (now : Time) :
    f.Commutes id (logResponse transaction payload now)
      (logResponse (f.transaction transaction) (f.response payload) now) := by
  unfold logResponse
  refine .get_bind fun s _ => ?_
  have hqueued : ((f.broker s).sessions.find? transaction.owner).map (·.commands.length)
      = (s.sessions.find? transaction.owner).map (·.commands.length) := by
    simp only [sessions_broker, OrdMap.find?_mapValues, Option.map_map, session,
      Function.comp_def, List.length_map]
  have howner : (f.transaction transaction).owner = transaction.owner := rfl
  have hlength : (f.transaction transaction).command.length = transaction.command.length :=
    f.length_frame ..
  simp only [howner, hqueued, hlength]
  exact .bind (commutes_diagnostic rfl) fun _ => commutes_diagnostic rfl

@[simp] theorem scopeReply_response (payload : Bytes) :
    scopeReply (f.response payload) = scopeReply payload := by
  have hok : f.response payload = [respOk] ↔ payload = [respOk] := f.frame_eq_iff (by decide)
  simp only [scopeReply, hok, length_frame, opcode_frame]

theorem commutes_scopeResponse (transaction : Transaction) (payload : Bytes) (now : Time) :
    f.Commutes id (scopeResponse transaction payload now)
      (scopeResponse (f.transaction transaction) (f.response payload) now) := by
  unfold scopeResponse
  simp only [scopeReply_response, opcode_frame]
  have hfinish : f.Commutes id (do perform (.replied payload now); finishTransaction transaction)
      (do
        perform (.replied (f.response payload) now)
        finishTransaction (f.transaction transaction)) :=
    .bind (commutes_perform rfl) fun _ => commutes_finishTransaction transaction
  have hreject : f.Commutes id
      (do
        let _ ← emit transaction.owner payload .reply
        perform (.replied payload now)
        finishTransaction transaction)
      (do
        let _ ← emit transaction.owner (f.response payload) .reply
        perform (.replied (f.response payload) now)
        finishTransaction (f.transaction transaction)) :=
    .bind (commutes_emit transaction.owner rfl rfl) fun _ => hfinish
  refine .ite Iff.rfl (fun _ => .throw_bind rfl) fun _ =>
    .bind (commutes_logResponse transaction payload now) fun _ =>
    .bind (commutes_modifyActive (fun _ => rfl) fun _ h => h) fun _ =>
    .ite Iff.rfl (fun _ => .ite Iff.rfl (fun _ => .ite Iff.rfl (fun _ => ?_) fun _ => hreject)
      fun _ => ?_) fun _ => .ite Iff.rfl (fun _ => .throw_bind rfl) fun _ => hfinish
  · exact .get_bind fun s _ => .bind (commutes_setRemote rfl) fun _ => hreject
  · exact .bind (commutes_perform rfl) fun _ =>
      commutes_sendCommand { transaction with progress := now } now

theorem plain_accepted (ring : DmRing) (sent : Bytes) (now : Time) :
    f.Plain (ring.accepted sent now) :=
  .bind (plain_requirePayload ..) fun _ => .bind (plain_readU32 ..) fun _ => .ite (.ok _)
    (.ite (.error rfl) (.bind (plain_readU32 ..) fun _ => .ok _))

theorem plain_confirm (ring : DmRing) (push : Bytes) : f.Plain (ring.confirm push) :=
  .bind (plain_requirePayload ..) fun _ => .bind (plain_readU32 ..) fun _ => .ok _

theorem accepted_remote (lease : RemoteLease) (sent : Bytes) (now : Time) :
    RemoteLease.accepted (f.remote lease) sent now
      = f.outcome f.remote (RemoteLease.accepted lease sent now) := by
  cases lease with
  | none => rfl
  | some r =>
    simp only [RemoteLease.accepted, remote, Option.map_some]
    split
    · rfl
    rw [(plain_requirePayload ..).outcome_bind]
    refine congrArg (fun k => LeaseParsing.requirePayload sent respSent 10 >>= k)
      (funext fun _ => ?_)
    by_cases hlong : sent.length < 6 + 4
    · split
      · simp only [LeaseParsing.readU32, if_pos hlong]
        rfl
      · by_cases hshort : sent.length < 2 + 4
        · simp only [LeaseParsing.readU32, if_pos hshort]
          rfl
        · simp only [LeaseParsing.readU32, if_neg hshort, if_pos hlong]
          rfl
    · have hshort : ¬ sent.length < 2 + 4 := by omega
      simp only [LeaseParsing.readU32, if_neg hshort, if_neg hlong]
      split <;> rfl

theorem plain_acceptedStart (lease : SigningLease) (response : Bytes) (now : Time) :
    f.Plain (lease.acceptedStart response now) := by
  unfold SigningLease.acceptedStart
  split
  · exact .error rfl
  · exact .ite (.error rfl) (.bind (plain_requirePayload ..) fun _ =>
      .bind (plain_readU32 ..) fun _ => .ok _)

theorem plain_validateOkOrErr (response : Bytes) (allowOk : Bool) :
    f.Plain (SigningLease.validateOkOrErr response allowOk) :=
  .ite (.error rfl) (.ite (.ok _) (.ite (.ok _) (.error rfl)))

theorem plain_dataResponse (lease : SigningLease) (response : Bytes) (now : Time) :
    f.Plain (lease.dataResponse response now) := by
  unfold SigningLease.dataResponse
  split
  · exact .error rfl
  split
  · exact .error rfl
  · exact .bind (plain_validateOkOrErr ..) fun _ => .ite (.ok _)
      (.bind (plain_byteAt ..) fun _ => .ite (.ok _) (.ok _))

theorem plain_finishResponse (lease : SigningLease) (response : Bytes) (now : Time) :
    f.Plain (lease.finishResponse response now) := by
  unfold SigningLease.finishResponse
  split
  · exact .error rfl
  · exact .ite (.error rfl) (.ite (.bind (plain_requirePayload ..) fun _ => .ok _)
      (.bind (plain_validateOkOrErr ..) fun _ => .bind (plain_byteAt ..) fun _ =>
        .ite (.ok _) (.ok _)))

theorem validateOkOrErr_cli (body : Bytes) (allowOk : Bool) :
    SigningLease.validateOkOrErr (respCliReply :: body) allowOk
      = .error (.argument ["unexpected signing response"]) := by
  have hok : respCliReply ≠ respOk := by decide
  have herr : respCliReply ≠ respErr := by decide
  simp [SigningLease.validateOkOrErr, hok, herr]

/-- A CLI reply does not answer a signing command. -/
theorem dataResponse_response (lease : SigningLease) (payload : Bytes) (now : Time) :
    lease.dataResponse (f.response payload) now = lease.dataResponse payload now := by
  refine f.blind (g := fun p => lease.dataResponse p now) (fun b b' _ => ?_) payload
  simp only [SigningLease.dataResponse, validateOkOrErr_cli]
  rfl

theorem finishResponse_response (lease : SigningLease) (payload : Bytes) (now : Time) :
    lease.finishResponse (f.response payload) now = lease.finishResponse payload now := by
  refine f.blind (g := fun p => lease.finishResponse p now) (fun b b' _ => ?_) payload
  simp only [SigningLease.finishResponse, validateOkOrErr_cli]
  rfl

theorem commutes_recordAcceptance (transaction : Transaction) (payload : Bytes) (now : Time) :
    f.Commutes id (recordAcceptance transaction payload now)
      (recordAcceptance (f.transaction transaction) (f.response payload) now) := by
  unfold recordAcceptance
  simp only [BodyMap.transaction, plainDm_command, opcode_frame]
  have hsame {code : UInt8} (hop : opcode payload = code) (hcode : code ≠ respCliReply) :
      f.response payload = payload := f.frame_of_ne (hop ▸ hcode)
  refine .ite Iff.rfl (fun hdm => ?_) fun _ => .ite Iff.rfl (fun _ =>
    .ite Iff.rfl (fun hsent => ?_) fun _ => ?_) fun _ => .ite Iff.rfl (fun _ =>
    .ite Iff.rfl (fun hstart => ?_) fun _ => ?_) fun _ => .ite Iff.rfl (fun _ => ?_) fun _ =>
    .ite Iff.rfl (fun _ => ?_) fun _ => .pure rfl
  · rw [hsame hdm.2 (by decide)]
    exact .get_bind fun s _ => .bind (commutes_ofExcept (plain_accepted ..).symm) fun ring =>
      commutes_modify (fun _ => rfl) (fun _ => rfl) (fun _ => rfl) fun _ => rfl
  · rw [hsame hsent (by decide)]
    refine .get_bind fun s _ => .bind (commutes_ofExcept (accepted_remote ..)) fun remote =>
      .bind (commutes_setRemote rfl) fun _ => ?_
    rw [kind_remote]
    cases RemoteLease.kind remote with
    | none => exact .throw rfl
    | some kind =>
      refine .get_bind fun t _ => commutes_diagnostic ?_
      simp only [text, List.map_cons, piece, hsame hsent (by decide)]
      rfl
  · exact .get_bind fun s _ => .bind (commutes_setRemote rfl) fun _ => .get_bind fun t _ =>
      commutes_diagnostic rfl
  · rw [hsame hstart (by decide)]
    exact .get_bind fun s _ => .bind (commutes_ofExcept (plain_acceptedStart ..).symm) fun _ =>
      commutes_setSigning _
  · exact .get_bind fun s _ => commutes_setSigning _
  · refine .get_bind fun s _ => .bind (commutes_ofExcept ?_) fun _ => commutes_setSigning _
    exact (dataResponse_response ..).trans (plain_dataResponse ..).symm
  · refine .get_bind fun s _ => .bind (commutes_ofExcept ?_) fun _ => commutes_setSigning _
    exact (finishResponse_response ..).trans (plain_finishResponse ..).symm

@[simp] theorem proveWrite_transaction (transaction : Transaction) (now : Time) :
    proveWrite (f.transaction transaction) now = f.transaction (proveWrite transaction now) := rfl

theorem contactsStep_response (transaction : Transaction) (payload : Bytes) :
    contactsStep (f.transaction transaction) (f.response payload)
      = f.outcome id (contactsStep transaction payload) := by
  have hplain : f.Plain (contactsStep transaction payload) :=
    .ite (.ite (.ite (.error rfl) (.ok _)) (.ite (.ok _) (.error rfl))) (.ok _)
  refine Eq.trans ?_ hplain.symm
  simp only [contactsStep, opcode_frame]
  rfl

/-- A client never sees another CLI body than the companion sent. -/
theorem visibleReply_response (payload : Bytes) :
    (if opcode payload = respDeviceInfo then downstreamDeviceInfo (f.response payload)
      else .ok (f.response payload))
      = f.outcome f.response
        (if opcode payload = respDeviceInfo then downstreamDeviceInfo payload else .ok payload) := by
  split
  · next hop =>
    have hsame : f.response payload = payload := f.frame_of_ne (by rw [hop]; decide)
    have hplain : f.Plain (validateDeviceInfo payload) :=
      .ite (.error rfl) (.ite (.error rfl) (.ok _))
    rw [hsame]
    unfold downstreamDeviceInfo
    rw [hplain.outcome_bind]
    refine congrArg (fun k => validateDeviceInfo payload >>= k) (funext fun actual => ?_)
    refine congrArg Except.ok (f.frame_of_ne ?_).symm
    cases payload with
    | nil => exact absurd hop (by decide)
    | cons op body =>
      have hcode : op = respDeviceInfo := hop
      subst hcode
      exact (show respDeviceInfo ≠ respCliReply by decide)
  · rfl

theorem commutes_forwardReply (transaction : Transaction) (payload : Bytes) :
    f.Commutes id (forwardReply transaction payload)
      (forwardReply (f.transaction transaction) (f.response payload)) := by
  unfold forwardReply
  simp only [opcode_frame]
  have hemit : f.Commutes id
      (ofExcept (if opcode payload = respDeviceInfo then downstreamDeviceInfo payload
        else .ok payload) >>= fun visible => emit transaction.owner visible .reply)
      (ofExcept (if opcode payload = respDeviceInfo then downstreamDeviceInfo (f.response payload)
        else .ok (f.response payload)) >>= fun visible => emit transaction.owner visible .reply) :=
    .bind (commutes_ofExcept (visibleReply_response payload)) fun visible =>
      commutes_emit transaction.owner rfl rfl
  refine .get_bind fun s _ => .ite ?_ (fun _ => .ite ?_ (fun hquery => ?_) fun _ => hemit)
    fun _ => .pure rfl
  · rw [sessions_broker, OrdMap.contains_mapValues]
    exact Iff.rfl
  · simp only [BodyMap.transaction, opcode_frame]
  · have hsame : f.command transaction.command = transaction.command :=
      f.frame_of_ne (by rw [hquery.1]; decide)
    have hbyte : f.Plain (byteAt transaction.command 1) := plain_byteAt ..
    simp only [BodyMap.transaction, hsame]
    exact .bind (commutes_ofExcept hbyte.symm) fun version =>
      .bind (commutes_modifySession _ fun _ => rfl) fun _ => hemit

theorem commutes_commandResponse (transaction : Transaction) (disposition : ResponseDisposition)
    (payload : Bytes) (now : Time) :
    f.Commutes id (commandResponse transaction disposition payload now)
      (commandResponse (f.transaction transaction) disposition (f.response payload) now) := by
  unfold commandResponse
  refine .bind (commutes_ofExcept (contactsStep_response transaction payload)) fun started =>
    .bind (commutes_modifyActive (fun _ => rfl) fun _ h => h) fun _ =>
    .bind (commutes_forwardReply transaction payload) fun writeId =>
    .bind (commutes_perform rfl) fun _ =>
    .bind (commutes_modifyActive (fun _ => rfl) fun _ h => h) fun _ =>
    .ite Iff.rfl (fun _ => .bind (commutes_recordAcceptance transaction payload now) fun _ =>
      .ite Iff.rfl (fun _ => ?_) fun _ => .ite Iff.rfl (fun _ => ?_) fun _ => ?_) fun _ => .pure rfl
  · have hsend := commutes_sendUpstream (f := f) defaultScope now
      { transaction with contactsStarted := started, progress := now, step := .restore }
    rw [command_eq_defaultScope.mpr rfl] at hsend
    exact .bind (commutes_modifyActive (fun _ => rfl) fun _ h => h) fun _ => .bind hsend fun _ =>
      commutes_modifyActive (fun _ => rfl) fun _ h => h
  · exact commutes_modifyActive (fun _ => rfl) fun _ h => h
  · exact commutes_finishTransaction transaction

theorem plain_validateResponse (desc : CommandDescriptor) (payload command : Bytes)
    (phase : Nat) : f.Plain (validateResponse desc payload command phase) := by
  have hshape : f.Plain (validateResponseShape payload) :=
    .ite (.error rfl) (.ite (.error rfl) (.ite (.ok _) (.error rfl)))
  have hecho : f.Plain (validateEcho desc payload command) :=
    .ite (.bind (plain_byteAt ..) fun _ => .bind (plain_byteAt ..) fun _ =>
        .ite (.error rfl) (.ok _))
      (.ite (.bind (plain_byteAt ..) fun _ => .bind (plain_byteAt ..) fun _ =>
        .ite (.error rfl) (.ok _)) (.ok _))
  unfold validateResponse
  exact .ite (.error rfl) (.ite (.error rfl) (.ite (.ite (.error rfl) (.ok _))
    (.ite (.error rfl) (.bind hshape fun _ => .ite (.error rfl) (.bind hecho fun _ => .ok _)))))

theorem validateResponse_transaction {transaction : Transaction} (h : transaction.Described)
    (payload : Bytes) :
    validateResponse (f.transaction transaction).descriptor (f.response payload)
        (f.transaction transaction).command (f.transaction transaction).phase
      = f.outcome id (validateResponse transaction.descriptor payload transaction.command
        transaction.phase) := by
  rw [validateResponse_response]
  exact (f.validateResponse_command h payload transaction.phase).trans
    (plain_validateResponse ..).symm

theorem commutes_commandStepResponse {transaction : Transaction} (h : transaction.Described)
    (payload : Bytes) (now : Time) :
    f.Commutes id (commandStepResponse transaction payload now)
      (commandStepResponse (f.transaction transaction) (f.response payload) now) := by
  unfold commandStepResponse
  simp only [opcode_frame]
  refine .bind (commutes_ofExcept (validateResponse_transaction h payload)) fun disposition =>
    .bind (commutes_modifyActive (fun _ => rfl) fun _ _ => h) fun _ => ?_
  have hrest : f.Commutes id
      (if transaction.owner = 0 then do
        if opcode payload = respErr then throw (.protocol ["internal inbox pop rejected"])
        modify fun s => { s with active := none }
        perform (.replied payload now)
        popResult { transaction with responseFrames := transaction.responseFrames + 1 } payload
      else commandResponse { transaction with responseFrames := transaction.responseFrames + 1 }
        disposition payload now)
      (if transaction.owner = 0 then do
        if opcode payload = respErr then throw (.protocol ["internal inbox pop rejected"])
        modify fun s => { s with active := none }
        perform (.replied (f.response payload) now)
        popResult { f.transaction transaction with
          responseFrames := transaction.responseFrames + 1 } (f.response payload)
      else commandResponse { f.transaction transaction with
        responseFrames := transaction.responseFrames + 1 } disposition (f.response payload) now) := by
    refine .ite Iff.rfl (fun _ => .ite Iff.rfl (fun _ => .throw_bind rfl) fun _ => ?_) fun _ => ?_
    · exact .bind (u := id) (.modify (fun _ _ => rfl) fun _ ht => ht.idle) fun _ =>
        .bind (commutes_perform rfl) fun _ => commutes_popResult _ payload
    · exact commutes_commandResponse _ disposition payload now
  exact .ite Iff.rfl (fun _ => .bind (commutes_logResponse _ payload now) fun _ => hrest)
    fun _ => hrest

/-- The reply of the active transaction in its step. -/
theorem commutes_stepResponse {transaction : Transaction} (h : transaction.Described)
    (payload : Bytes) (now : Time) :
    f.Commutes id
      (match transaction.step with
        | .setup | .restore => scopeResponse transaction payload now
        | .maintenanceResult => throw (.protocol ["ordinary response after maintenance result"])
        | .command => commandStepResponse transaction payload now)
      (match transaction.step with
        | .setup | .restore =>
          scopeResponse (f.transaction transaction) (f.response payload) now
        | .maintenanceResult => throw (.protocol ["ordinary response after maintenance result"])
        | .command =>
          commandStepResponse (f.transaction transaction) (f.response payload) now) := by
  cases transaction.step with
  | setup | restore => exact commutes_scopeResponse transaction payload now
  | maintenanceResult => exact .throw rfl
  | command => exact commutes_commandStepResponse h payload now

theorem commutes_transactionResponse (payload : Bytes) (now : Time) :
    f.Commutes id (transactionResponse payload now)
      (transactionResponse (f.response payload) now) := by
  unfold transactionResponse
  refine .get_bind fun s hs => ?_
  cases hactive : s.active with
  | none =>
    simp only [active_broker, hactive, Option.map_none]
    exact .throw rfl
  | some current =>
    have hcurrent := hs.active current hactive
    have hwrite : (f.transaction current).upstreamWriteId = current.upstreamWriteId := rfl
    simp only [active_broker, hactive, Option.map_some, hwrite, proveWrite_transaction]
    cases current.upstreamWriteId with
    | none => exact commutes_stepResponse hcurrent payload now
    | some writeId =>
      refine .bind (u := id) (.modify (fun _ _ => rfl) fun t ht => ⟨ht.positive, ?_, ht.debt⟩)
        fun _ => @commutes_stepResponse f (proveWrite current now) hcurrent payload now
      intro transaction htransaction
      exact Option.some.inj htransaction ▸ hcurrent

/-! ### Pushes -/

theorem commutes_selfTelemetryReply (payload : Bytes) :
    f.Commutes id (selfTelemetryReply payload) (selfTelemetryReply (f.response payload)) := by
  unfold selfTelemetryReply
  refine .get_bind fun s _ => ?_
  have hslice (payload : Bytes) (offset count : Nat) : f.Plain (sliceAt payload offset count) :=
    .ite (.ok _) (.error rfl)
  cases hactive : s.active with
  | none =>
    simp only [active_broker, hactive, Option.map_none]
    exact .pure rfl
  | some transaction =>
    simp only [active_broker, hactive, Option.map_some, BodyMap.transaction, opcode_frame,
      length_frame]
    refine .ite Iff.rfl (fun htelemetry => ?_) fun _ => .pure rfl
    rw [response, f.frame_of_ne (show opcode payload ≠ respCliReply by rw [htelemetry.1]; decide)]
    exact .bind (commutes_ofExcept (hslice ..).symm) fun reply => .get_bind fun t _ =>
      .bind (commutes_ofExcept (hslice ..).symm) fun key => .pure rfl

theorem commutes_broadcast (payload : Bytes) :
    f.Commutes id (broadcast payload) (broadcast (f.response payload)) :=
  .get_bind fun _ _ => .forM (u := id) (by simp) fun key _ =>
    .bind (commutes_emit key rfl rfl) fun _ => .pure rfl

theorem plain_matchesPush (r : RemoteLease.Reservation) (push : Bytes) :
    f.Plain (RemoteLease.matchesPush r push) := by
  have hpeer : f.Plain (RemoteLease.matchingPeer r push) := .ite (.error rfl) (.ok _)
  unfold RemoteLease.matchesPush
  cases r.kind with
  | login | status | telemetry | pathDiscovery => exact .ite hpeer (.ok _)
  | binary | anonymous =>
    exact .ite (.ite (.error rfl) (.bind (plain_readU32 ..) fun _ => .ok _)) (.ok _)
  | trace =>
    exact .ite (.ite (.error rfl) (.bind (plain_readU32 ..) fun _ =>
      .bind (plain_readU32 ..) fun _ => .ok _)) (.ok _)

theorem matchPush_remote (lease : RemoteLease) (push : Bytes) (now : Time) :
    RemoteLease.matchPush (f.remote lease) push now
      = f.outcome (fun answer => (answer.1, f.remote answer.2))
        (RemoteLease.matchPush lease push now) := by
  unfold RemoteLease.matchPush
  simp only [expire_remote]
  cases (RemoteLease.expire lease now).2 with
  | none => rfl
  | some r =>
    simp only [remote, Option.map_some]
    split
    · rfl
    change RemoteLease.matchesPush r push >>= _ = _
    rw [(plain_matchesPush r push).outcome_bind]
    refine congrArg (fun k => RemoteLease.matchesPush r push >>= k) (funext fun matched => ?_)
    cases matched <;> rfl

theorem commutes_resultPush {payload : Bytes} (h : opcode payload ∈ resultPushes) (now : Time) :
    f.Commutes id (resultPush payload now) (resultPush (f.response payload) now) := by
  have hsame : f.response payload = payload := by
    refine f.frame_of_ne fun hop => ?_
    rw [hop] at h
    revert h
    decide
  unfold resultPush
  refine .get_bind fun s _ => .bind (v := id) (commutes_ofExcept
    (v := fun answer => (answer.1, f.remote answer.2)) ?_) fun answer =>
    .bind (commutes_setRemote rfl) fun _ => ?_
  · rw [hsame]
    exact matchPush_remote ..
  simp only [radio_broker, remote_radio, kind_remote, owner_remote]
  cases answer.1 with
  | some owner =>
    exact .get_bind fun t _ => .bind (commutes_diagnostic rfl) fun _ => .get_bind fun t _ =>
      .bind (commutes_diagnostic rfl) fun _ => .bind (commutes_emit owner rfl rfl) fun _ =>
      commutes_perform rfl
  | none =>
    refine .bind (commutes_count _ _) fun _ => .get_bind fun t _ => .ite Iff.rfl (fun _ => ?_)
      fun _ => commutes_perform rfl
    refine .bind (commutes_modify (fun _ => rfl) (fun _ => rfl) (fun _ => rfl) fun _ => rfl)
      fun _ => .bind (commutes_diagnostic ?_) fun _ => commutes_perform rfl
    cases RemoteLease.owner s.radio.remote <;> rfl

theorem commutes_broadcastPush (payload : Bytes) (now : Time) :
    f.Commutes id (broadcastPush payload now) (broadcastPush (f.response payload) now) := by
  unfold broadcastPush
  simp only [opcode_frame]
  refine .ite Iff.rfl (fun _ => ?_) fun _ => ?_
  · refine .get_bind fun s _ => .get_bind fun t _ => .bind (commutes_diagnostic ?_) fun _ =>
      .get_bind fun t _ => .bind (commutes_diagnostic rfl) fun _ => commutes_broadcast payload
    rw [sessions_broker, OrdMap.size_mapValues]
    rfl
  · refine .bind (commutes_count _ _) fun _ => .get_bind fun s _ => .ite Iff.rfl (fun _ => ?_)
      fun _ => commutes_broadcast payload
    refine .bind (commutes_modify (fun _ => rfl) (fun _ => rfl) (fun _ => rfl) fun _ => rfl)
      fun _ => .bind (commutes_diagnostic ?_) fun _ => commutes_broadcast payload
    rw [sessions_broker, OrdMap.size_mapValues]
    rfl

theorem commutes_push (payload : Bytes) (now : Time) :
    f.Commutes id (push payload now) (push (f.response payload) now) := by
  unfold push
  simp only [opcode_frame]
  refine .ite Iff.rfl (fun _ => ?_) fun _ => .ite Iff.rfl (fun hconfirmed => ?_) fun _ =>
    .ite Iff.rfl (fun hresult => ?_) fun _ => commutes_broadcastPush payload now
  · exact .get_bind fun s _ => .bind (commutes_diagnostic rfl) fun _ =>
      commutes_recordAvailabilityHint
  · have hsame : f.response payload = payload := f.frame_of_ne (by rw [hconfirmed]; decide)
    refine .get_bind fun s _ => .bind (v := id) (commutes_ofExcept (v := id) ?_) fun answer => ?_
    · rw [hsame]
      exact (plain_confirm ..).symm
    refine .bind (commutes_modify (fun _ => rfl) (fun _ => rfl) (fun _ => rfl) fun _ => rfl)
      fun _ => .bind (commutes_perform rfl) fun _ => .get_bind fun t _ => .get_bind fun t' _ =>
      .bind (commutes_diagnostic ?_) fun _ => .get_bind fun t _ =>
      .bind (commutes_diagnostic rfl) fun _ => commutes_broadcast payload
    rw [sessions_broker, OrdMap.size_mapValues]
    rfl
  · exact .bind (commutes_selfTelemetryReply payload) fun reply => .ite Iff.rfl
      (fun _ => commutes_transactionResponse payload now) fun _ => commutes_resultPush hresult now

/-! ### The entry points -/

theorem commutes_attachSlot (key slotId : Nat) :
    f.Commutes id (attachSlot key slotId) (attachSlot key slotId) := by
  unfold attachSlot
  refine .get_bind fun s _ => ?_
  simp only [dedicatedSlots_broker, OrdMap.find?_mapValues]
  cases s.dedicatedSlots.find? slotId with
  | none => exact .throw rfl
  | some x =>
    have hattached : (f.slot x).attachedSessionId = x.attachedSessionId := rfl
    simp only [Option.map_some, hattached]
    have hattach : f.Commutes id
        (modifySlot slotId fun x => { x with attachedSessionId := some key })
        (modifySlot slotId fun x => { x with attachedSessionId := some key }) :=
      commutes_modifySlot slotId fun _ => rfl
    cases x.attachedSessionId with
    | none => exact hattach
    | some old => exact .bind (commutes_remove old _ _) fun _ => hattach

theorem commutes_greet (key : Nat) (dedicatedSlotId : Option Nat) :
    f.Commutes id (greet key dedicatedSlotId) (greet key dedicatedSlotId) := by
  have hhint := commutes_emitAvailabilityHint (f := f) key
  cases dedicatedSlotId with
  | some slotId =>
    refine .get_bind fun s _ => .get_bind fun t _ => .bind (commutes_diagnostic ?_) fun _ => hhint
    have hdepth : ((f.broker s).dedicatedSlots.find? slotId).map (·.offlineQueue.length)
        = (s.dedicatedSlots.find? slotId).map (·.offlineQueue.length) := by
      simp only [dedicatedSlots_broker, OrdMap.find?_mapValues, Option.map_map, slot,
        Function.comp_def, List.length_map]
    rw [hdepth]
    rfl
  | none =>
    refine .get_bind fun s _ => ?_
    simp only [orphan_broker]
    cases s.orphan with
    | none => exact hhint
    | some item =>
      exact .bind (commutes_modify (fun _ => rfl) (fun _ => rfl) (fun _ => rfl) fun _ => rfl)
        fun _ => .bind (commutes_enqueueMultiClient item key) fun _ => hhint

theorem commutes_admitSession {key : Nat} (hkey : key ≠ 0) (now : Time)
    (dedicatedSlotId : Option Nat) :
    f.Commutes id (admitSession key now dedicatedSlotId)
      (admitSession key now dedicatedSlotId) := by
  unfold admitSession
  refine .bind (commutes_modify (fun _ => rfl) (fun _ => rfl) (fun _ => rfl) fun _ => rfl)
    fun _ => .get_bind fun s _ => .ite ?_ (fun _ => commutes_perform rfl) fun _ => ?_
  · rw [underMaintenance_broker]
    exact Iff.rfl
  have hopen : f.Commutes id
      (do
        modify fun s => { s with
          sessions := s.sessions.insert key { dedicatedSlotId := dedicatedSlotId }
          order := s.order ++ [key] }
        count "connections"
        perform (.admitted key dedicatedSlotId)
        diagnostic ["event=session.admitted epoch=", (← get).epoch, " session=", key,
          " dedicated_slot_id=", orNone dedicatedSlotId, " sessions=", (← get).sessions.size]
        greet key dedicatedSlotId
        schedule now)
      (do
        modify fun s => { s with
          sessions := s.sessions.insert key { dedicatedSlotId := dedicatedSlotId }
          order := s.order ++ [key] }
        count "connections"
        perform (.admitted key dedicatedSlotId)
        diagnostic ["event=session.admitted epoch=", (← get).epoch, " session=", key,
          " dedicated_slot_id=", orNone dedicatedSlotId, " sessions=", (← get).sessions.size]
        greet key dedicatedSlotId
        schedule now) := by
    refine .bind (u := id) (.modify (fun t _ => ?_) fun t ht => ⟨?_, ht.active, ht.debt⟩) fun _ =>
      .bind (commutes_count _ _) fun _ => .bind (commutes_perform rfl) fun _ =>
      .get_bind fun t _ => .get_bind fun t' _ => .bind (commutes_diagnostic ?_) fun _ =>
      .bind (commutes_greet key dedicatedSlotId) fun _ => commutes_schedule now
    · have hfresh : f.session { dedicatedSlotId := dedicatedSlotId }
          = { dedicatedSlotId := dedicatedSlotId } := by
        simp [session, command_eq_defaultScope.mpr rfl]
      simp only [broker, OrdMap.mapValues_insert, hfresh]
    · intro hmem
      rcases OrdMap.mem_keys_insert.mp hmem with heq | hold
      · exact hkey heq.symm
      · exact ht.positive hold
    · rw [sessions_broker, OrdMap.size_mapValues]
      cases dedicatedSlotId <;> rfl
  cases dedicatedSlotId with
  | none => exact hopen
  | some slotId => exact .bind (commutes_attachSlot key slotId) fun _ => hopen

theorem commutes_clientFrame (key : Nat) (payload : Bytes) (now : Time) :
    f.Commutes id (clientFrame key payload now) (clientFrame key (f.command payload) now) := by
  unfold clientFrame
  refine .bind (commutes_modify (fun _ => rfl) (fun _ => rfl) (fun _ => rfl) fun _ => rfl)
    fun _ => .get_bind fun s _ => .ite Iff.rfl (fun _ => ?_) fun _ => .pure rfl
  simp only [sessions_broker, OrdMap.find?_mapValues]
  cases s.sessions.find? key with
  | none => exact .pure rfl
  | some x =>
    have hlength : (f.session x).commands.length = x.commands.length := List.length_map _
    simp only [Option.map_some, hlength, activeOwner_broker]
    refine .bind (commutes_count _ _) fun _ => .bind (commutes_diagnostic rfl) fun _ =>
      .bind (commutes_diagnostic rfl) fun _ => .ite Iff.rfl (fun _ => ?_) fun _ => ?_
    · exact .bind (commutes_remove key _ _) fun _ => commutes_schedule now
    · refine .bind (commutes_modifySession key fun y => ?_) fun _ =>
        .bind (commutes_perform rfl) fun _ => commutes_schedule now
      simp [session, queued]

theorem commutes_clientClosed (key : Nat) (now : Time) (reason : Text) (category : Category) :
    f.Commutes id (clientClosed key now reason category)
      (clientClosed key now (f.text reason) category) :=
  .bind (commutes_modify (fun _ => rfl) (fun _ => rfl) (fun _ => rfl) fun _ => rfl) fun _ =>
    .bind (commutes_remove key reason category) fun _ => commutes_schedule now

theorem commutes_written (key epoch writeId : Nat) (now : Time) :
    f.Commutes id (written key epoch writeId now) (written key epoch writeId now) := by
  unfold written
  refine .get_bind fun s hs => .ite Iff.rfl (fun _ => .ite Iff.rfl (fun _ => ?_) fun _ =>
    .ite ?_ (fun _ => ?_) fun _ => commutes_schedule now) fun _ => .pure rfl
  · refine .bind (commutes_modify (fun _ => rfl) (fun _ => rfl) (fun _ => rfl) fun _ => rfl)
      fun _ => .ite ?_ (fun _ => ?_) fun _ => commutes_schedule now
    · rw [active_broker, Option.any_map]
      exact Iff.rfl
    · exact .bind (commutes_modifyActive (fun _ => rfl) fun _ h => h) fun _ =>
        commutes_schedule now
  · rw [sessions_broker, OrdMap.contains_mapValues]
  · refine .bind (commutes_modifySession key fun _ => rfl) fun _ => ?_
    cases hactive : s.active with
    | none =>
      simp only [active_broker, hactive, Option.map_none]
      exact commutes_schedule now
    | some transaction =>
      simp only [active_broker, hactive, Option.map_some]
      exact .ite Iff.rfl (fun _ => .bind (commutes_finishTransaction transaction) fun _ =>
        commutes_schedule now) fun _ => commutes_schedule now

theorem commutes_writeFailed (key epoch : Nat) (reason : Text) (now : Time) :
    f.Commutes id (writeFailed key epoch reason now)
      (writeFailed key epoch (f.text reason) now) := by
  unfold writeFailed
  refine .get_bind fun s _ => .ite Iff.rfl (fun _ =>
    .bind (commutes_modify (fun _ => rfl) (fun _ => rfl) (fun _ => rfl) fun _ => rfl) fun _ =>
    .ite Iff.rfl (fun _ => ?_) fun _ => ?_) fun _ => .pure rfl
  · have hfail := commutes_failEpoch (f := f) (joined [["upstream write failed: "], reason])
    rwa [text_joined] at hfail
  · have hremove := commutes_remove (f := f) key (joined [["writer failed: "], reason]) .normal
    rw [text_joined] at hremove
    exact .bind hremove fun _ => commutes_schedule now

theorem commutes_receiveFrame (payload : Bytes) (now : Time) :
    f.Commutes id (receiveFrame payload now) (receiveFrame (f.response payload) now) := by
  unfold receiveFrame
  simp only [opcode_frame]
  refine .bind (commutes_modify (fun _ => rfl) (fun _ => rfl) (fun _ => rfl) fun _ => rfl)
    fun _ => .get_bind fun s _ => .ite Iff.rfl (fun _ => ?_) fun _ => .pure rfl
  refine .bind (commutes_checkActiveDeadline now) fun intime => .ite Iff.rfl (fun _ => ?_)
    fun _ => .pure rfl
  exact .bind (commutes_count _ _) fun _ =>
    .bind (commutes_ofExcept (validateResponseShape_outcome payload)) fun _ =>
    .ite Iff.rfl (fun _ => .bind (commutes_push payload now) fun _ => commutes_schedule now)
      fun _ => .bind (commutes_transactionResponse payload now) fun _ => commutes_schedule now

theorem commutes_upstreamFrame (payload : Bytes) (now : Time) :
    f.Commutes id (upstreamFrame payload now) (upstreamFrame (f.response payload) now) :=
  .tryCatch (commutes_receiveFrame payload now) fun e => by
    cases e with
    | protocol message => exact commutes_failEpoch message
    | argument | invalidState | index | key | nil | overflow => exact .throw rfl

theorem drainContactsStep_response (transaction : Transaction) (payload : Bytes) :
    drainContactsStep (f.transaction transaction) (f.response payload)
      = f.outcome id (drainContactsStep transaction payload) := by
  have hplain : f.Plain (drainContactsStep transaction payload) :=
    .ite (.ite (.ite (.error rfl) (.ok _)) (.ite (.error rfl) (.ok _))) (.ok _)
  refine Eq.trans ?_ hplain.symm
  simp only [drainContactsStep, opcode_frame]
  rfl

theorem commutes_drainUncertainFrame (payload : Bytes) (now : Time) :
    f.Commutes id (drainUncertainFrame payload now)
      (drainUncertainFrame (f.response payload) now) := by
  unfold drainUncertainFrame
  refine .get_bind fun s hs => ?_
  have hclear : f.Commutes id
      (do modify fun s => { s with responseDebt := none }; pure true : BrokerM Bool)
      (do modify fun s => { s with responseDebt := none }; pure true) :=
    .bind (u := id) (.modify (fun _ _ => rfl) fun t ht =>
      ⟨ht.positive, ht.active, fun _ howed => (nomatch howed)⟩) fun _ => .pure rfl
  cases hdebt : s.responseDebt with
  | none =>
    simp only [responseDebt_broker, hdebt, Option.map_none]
    exact .pure rfl
  | some transaction =>
    have hdescribed := hs.debt transaction hdebt
    simp only [responseDebt_broker, hdebt, Option.map_some, opcode_frame, scopeReply_response]
    refine .bind (commutes_ofExcept (validateResponseShape_outcome payload)) fun _ =>
      .ite Iff.rfl (fun _ => .bind (commutes_push payload now) fun _ => .pure rfl) fun _ =>
      .ite Iff.rfl (fun _ => .ite Iff.rfl (fun _ => .throw_bind rfl) fun _ =>
        .bind (commutes_logResponse transaction payload now) fun _ => hclear) fun _ => ?_
    refine .bind (commutes_ofExcept (validateResponse_transaction hdescribed payload))
      fun disposition => .bind (commutes_modifyDebt (fun _ => rfl) fun _ _ => hdescribed) fun _ =>
      .bind (commutes_logResponse _ payload now) fun _ =>
      .bind (commutes_ofExcept (drainContactsStep_response _ payload)) fun started =>
      .bind (commutes_modifyDebt (fun _ => rfl) fun _ _ => hdescribed) fun _ =>
      .ite Iff.rfl (fun _ => .ite Iff.rfl (fun _ => ?_) fun _ => hclear) fun _ => .pure rfl
    exact .bind (commutes_popResult _ payload) fun _ => hclear

theorem commutes_tickSession (now : Time) (entry : Nat × Session) :
    f.Commutes id (tickSession now entry) (tickSession now (entry.1, f.session entry.2)) := by
  obtain ⟨key, snapshot⟩ := entry
  unfold tickSession
  refine .get_bind fun s _ => ?_
  have hcurrent : ((f.broker s).sessions.find? key).getD (f.session snapshot)
      = f.session ((s.sessions.find? key).getD snapshot) := by
    rw [sessions_broker, OrdMap.find?_mapValues, Option.getD_map]
  simp only [hcurrent]
  generalize (s.sessions.find? key).getD snapshot = x
  refine .ite Iff.rfl (fun _ => commutes_remove key _ _) fun _ => ?_
  have hsync : (f.session x).sync = x.sync := rfl
  rw [hsync]
  cases x.sync with
  | none => exact .pure rfl
  | some sync =>
    exact .ite Iff.rfl (fun _ => .bind (commutes_modifySession key fun _ => rfl) fun _ =>
      commutes_reject key _ rfl) fun _ => .pure rfl

theorem commutes_expireRemote (now : Time) :
    f.Commutes id (expireRemote now) (expireRemote now) := by
  unfold expireRemote
  refine .get_bind fun s _ => ?_
  simp only [radio_broker, remote_radio, command_remote, expire_remote, owner_remote, kind_remote]
  cases RemoteLease.command s.radio.remote with
  | none => exact .pure rfl
  | some command =>
    refine .bind (commutes_setRemote rfl) fun _ => .ite Iff.rfl (fun _ => .get_bind fun t _ =>
      commutes_diagnostic ?_) fun _ => .pure rfl
    cases RemoteLease.owner s.radio.remote <;> rfl

theorem commutes_expireSigning (now : Time) :
    f.Commutes id (expireSigning now) (expireSigning now) := by
  unfold expireSigning
  refine .get_bind fun s _ => .ite ?_ (fun _ => .bind (commutes_setSigning _) fun _ =>
    .ite Iff.rfl (fun _ => commutes_diagnostic ?_) fun _ => .pure rfl) fun _ => .pure rfl
  · rw [active_broker, Option.any_map]
    exact Iff.rfl
  · have hsigning : (f.broker s).signing = s.signing := rfl
    rw [hsigning]
    cases s.signing.owner <;> rfl

theorem commutes_poll (now : Time) : f.Commutes id (poll now) (poll now) := by
  unfold poll
  refine .get_bind fun s _ => .ite ?_ (fun _ =>
    .bind (commutes_modify (fun _ => rfl) (fun _ => rfl) (fun _ => rfl) fun _ => rfl) fun _ =>
    commutes_notifyAllSessions) fun _ => .pure rfl
  rw [sessions_broker, OrdMap.isEmpty_mapValues]
  exact Iff.rfl

theorem commutes_tick (now : Time) : f.Commutes id (tick now) (tick now) := by
  unfold tick
  refine .bind (commutes_modify (fun _ => rfl) (fun _ => rfl) (fun _ => rfl) fun _ => rfl)
    fun _ => .get_bind fun s _ => .ite Iff.rfl (fun _ => ?_) fun _ => .pure rfl
  refine .bind (commutes_checkActiveDeadline now) fun intime => .ite Iff.rfl (fun _ => ?_)
    fun _ => .pure rfl
  refine .get_bind fun t _ => .ite Iff.rfl (fun _ => commutes_failEpoch _) fun _ =>
    .get_bind fun t _ => .bind (.forM rfl fun entry _ => commutes_tickSession now entry) fun _ => ?_
  exact .bind (commutes_expireRemote now) fun _ => .bind (commutes_expireSigning now) fun _ =>
    .bind (commutes_poll now) fun _ => commutes_schedule now

/-- **The broker commutes with changes of CLI bodies.** -/
theorem commutes_handle {event : Event}
    (hadmission : ∀ key slotId now, event = .admission key slotId now → key ≠ 0) :
    f.Commutes id (handle event) (handle (f.event event)) := by
  refine .bind (commutes_perform rfl) fun _ => ?_
  cases event with
  | admission key slotId now => exact commutes_admitSession (hadmission _ _ _ rfl) now slotId
  | clientFrame key payload now => exact commutes_clientFrame key payload now
  | clientClosed key now reason category => exact commutes_clientClosed key now reason category
  | written key epoch writeId now => exact commutes_written key epoch writeId now
  | writeFailed key epoch reason now => exact commutes_writeFailed key epoch reason now
  | upstreamFrame payload now => exact commutes_upstreamFrame payload now
  | tick now => exact commutes_tick now
  | failEpoch reason => exact commutes_failEpoch reason
  | drainUncertainFrame payload now =>
    exact .bind (commutes_drainUncertainFrame payload now) fun _ => .pure rfl

end BodyMap

end MeshCoreTCPMux

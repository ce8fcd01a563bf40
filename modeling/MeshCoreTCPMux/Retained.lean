import MeshCoreTCPMux.Broker.Provenance
import MeshCoreTCPMux.Broker.Epochs

/-!
# What the runtime retains between epochs

The runtime survives its upstream connections. Between two of them it retains the dedicated slots,
the radio state and an inbox item that nobody took, each with the public key of the companion that it
belongs to. When the next startup has identified the companion, `orphanFor`, `prepareDedicatedSlots`
and `radioStateFor` decide what the new broker inherits (`opens`): under the same key everything,
under another key nothing. During an epoch the broker works on the retained slots and on the retained
radio state themselves, so that the epoch leaves them as the broker does; the orphan is taken back
from the broker when the epoch is over (`closes`), unless the epoch was cut short by an exception.

A life of the runtime (`Lived`) is a sequence of epochs with arbitrary keys and arbitrary runs of
their brokers; connections whose startup failed only count up the epoch number. The theorem
(`identity_isolated`) is that no inbox item crosses a change of the key. Its invariant `Kept` says
that whatever is retained was brought under the key of the last epoch, and that all epochs since then
had the same key; one epoch preserves it because the items of a broker were brought by its own
companion or inherited (`Sourced`).
-/

namespace MeshCoreTCPMux

open Protocol

/-- The fields of the runtime that outlive an upstream connection. -/
structure Retained where
  nextEpoch : Nat := 0
  orphan : Option Bytes := none
  orphanKey : Option Bytes := none
  dedicatedSlots : OrdMap Nat DedicatedClientSlot := ∅
  dedicatedSlotsKey : Option Bytes := none
  radioState : CompanionRadioState := .new
  radioStateKey : Option Bytes := none

namespace Retained

/-- `Runtime.new`: an empty slot for every dedicated port. -/
def new (config : Config) : Retained where
  dedicatedSlots :=
    config.listenDedicatedClientPorts.foldl (fun slots port => slots.insert port.toNat {}) ∅

/-- `orphan_for`: the item that nobody took is handed to the same companion's next broker, once. -/
def orphanFor (r : Retained) (selfKey : Bytes) : Option Bytes × Retained :=
  match r.orphan with
  | none => (none, r)
  | some orphan =>
    if r.orphanKey = some selfKey then (some orphan, { r with orphan := none, orphanKey := none })
    else (none, { r with orphan := none, orphanKey := none })

/-- `prepare_dedicated_slots`: a changed identity must never inherit another node's inbox. -/
def prepareDedicatedSlots (r : Retained) (selfKey : Bytes) : Retained :=
  { r with
    dedicatedSlots := match r.dedicatedSlotsKey with
      | none => r.dedicatedSlots
      | some previousKey =>
        if previousKey = selfKey then r.dedicatedSlots
        else r.dedicatedSlots.mapValues fun slot => slot.clear.2
    dedicatedSlotsKey := some selfKey }

/-- `radio_state_for`: old reservations belong to the old identity. -/
def radioStateFor (r : Retained) (selfKey : Bytes) : CompanionRadioState × Retained :=
  let radioState := match r.radioStateKey with
    | none => r.radioState
    | some previousKey => if previousKey = selfKey then r.radioState else .new
  (radioState, { r with radioState := radioState, radioStateKey := some selfKey })

/-- The companion has been connected to. -/
def connected (r : Retained) : Retained := { r with nextEpoch := r.nextEpoch + 1 }

/-- The broker of an epoch whose startup has identified the companion, and what is retained beside
it. -/
def opens (r : Retained) (config : Config) (selfKey : Bytes) (now : Time) : Broker × Retained :=
  let taken := r.orphanFor selfKey
  let prepared := taken.2.prepareDedicatedSlots selfKey
  let tuned := prepared.radioStateFor selfKey
  (.new r.nextEpoch selfKey config now taken.1 prepared.dedicatedSlots tuned.1, tuned.2)

/-- What is retained of an epoch that is over. Unless it was cut short by an exception, the orphan of
its broker is taken back. -/
def closes (r : Retained) (selfKey : Bytes) (s : Broker) (raised : Bool) : Retained :=
  let shared := { r with dedicatedSlots := s.dedicatedSlots, radioState := s.radio }
  if raised then shared
  else
    { shared with
      orphan := s.orphan
      orphanKey := if s.orphan.isSome then some selfKey else none }

end Retained

/-- An epoch that is over: the key of its companion, its broker as it was left, and whether it was cut
short by an exception. -/
structure Epoch where
  selfKey : Bytes
  left : Broker
  raised : Bool

/-- The item that an epoch hands on. -/
def Epoch.orphan (e : Epoch) : Option Bytes := if e.raised then none else e.left.orphan

/-- The lives of a runtime: its epochs, and what it retains. -/
inductive Lived (config : Config) : List Epoch → Retained → Prop
  | start : Lived config [] (.new config)
  | connected {es : List Epoch} {r : Retained} (h : Lived config es r) :
      Lived config es r.connected
  | epoch {es : List Epoch} {r : Retained} {selfKey : Bytes} {now : Time} {s : Broker}
      (raised : Bool) (h : Lived config es r) (hkey : selfKey.length = 32)
      (hrun : Broker.Run (r.opens config selfKey now).1 s) (hfailed : s.failed = true) :
      Lived config (es ++ [⟨selfKey, s, raised⟩])
        ((r.opens config selfKey now).2.closes selfKey s raised)

open Broker

variable {config : Config} {es : List Epoch} {r : Retained} {selfKey : Bytes} {now : Time}
  {s s₀ : Broker} {item : Bytes}

/-! ### What is carried over -/

/-- The item was brought under `selfKey`, and no epoch since had another key. -/
def BroughtUnder (es : List Epoch) (selfKey item : Bytes) : Prop :=
  ∃ before e after, es = before ++ e :: after ∧ Brought e.left.log item ∧ e.selfKey = selfKey ∧
    ∀ e' ∈ after, e'.selfKey = selfKey

theorem BroughtUnder.snoc (h : BroughtUnder es selfKey item) {e : Epoch}
    (he : e.selfKey = selfKey) : BroughtUnder (es ++ [e]) selfKey item := by
  obtain ⟨before, e', after, rfl, hbrought, hkey, hafter⟩ := h
  refine ⟨before, e', after ++ [e], by rw [List.append_assoc, List.cons_append], hbrought, hkey, ?_⟩
  intro e'' hmem
  rcases List.mem_append.mp hmem with hmem | hmem
  · exact hafter e'' hmem
  · rw [List.mem_singleton.mp hmem]
    exact he

theorem BroughtUnder.last (h : Brought s.log item) (raised : Bool) :
    BroughtUnder (es ++ [⟨selfKey, s, raised⟩]) selfKey item :=
  ⟨es, _, [], rfl, h, rfl, by simp⟩

/-- Slots whose queues may be handed to a fresh broker. -/
def Idling (config : Config) (slots : OrdMap Nat DedicatedClientSlot) : Prop :=
  ∀ k slot, slots.find? k = some slot → slot.attachedSessionId = none ∧
    (∀ item ∈ slot.offlineQueue, InboxItem item) ∧
    slot.offlineQueue.length ≤ config.offlineQueueSize

/-- What the runtime retains is what its last epoch left, and was brought under the key of that
epoch. -/
structure Kept (config : Config) (es : List Epoch) (r : Retained) : Prop where
  slotsKey : r.dedicatedSlotsKey = es.getLast?.map (·.selfKey)
  radioKey : r.radioStateKey = es.getLast?.map (·.selfKey)
  orphanKey : r.orphan ≠ none → r.orphanKey = es.getLast?.map (·.selfKey)
  last : ∀ e, es.getLast? = some e → r.dedicatedSlots = e.left.dedicatedSlots ∧
    r.radioState = e.left.radio ∧ r.orphan = e.orphan
  fresh : es = [] → r.orphan = none ∧ r.radioState = .new ∧
    ∀ k slot, r.dedicatedSlots.find? k = some slot → slot.offlineQueue = []
  idling : Idling config r.dedicatedSlots
  orphan : ∀ item, r.orphan = some item → InboxItem item
  lease : LeaseOK [] r.radioState.remote
  items : ∀ item, (r.orphan = some item ∨
      ∃ k slot, r.dedicatedSlots.find? k = some slot ∧ item ∈ slot.offlineQueue) →
    ∃ e, es.getLast? = some e ∧ BroughtUnder es e.selfKey item

/-- No identity sees anything of another one. -/
structure Isolated (es : List Epoch) (selfKey : Bytes) (s₀ s : Broker) : Prop where
  starts : s₀.Starts
  /-- Under the key of the last epoch, everything is carried over. -/
  same : ∀ e, es.getLast? = some e → e.selfKey = selfKey →
    s₀.dedicatedSlots = e.left.dedicatedSlots ∧ s₀.radio = e.left.radio ∧ s₀.orphan = e.orphan
  /-- Under another key, nothing is. -/
  other : (∀ e, es.getLast? = some e → e.selfKey ≠ selfKey) → s₀.radio = .new ∧ s₀.orphan = none ∧
    ∀ k slot, s₀.dedicatedSlots.find? k = some slot → slot.offlineQueue = []
  /-- Whatever stands in the broker was brought by this companion. -/
  items : ∀ item, s.Bears item → Brought s.log item ∨ BroughtUnder es selfKey item

/-- The empty slots of a runtime. -/
theorem find?_new {k : Nat} {slot : DedicatedClientSlot}
    (h : (Retained.new config).dedicatedSlots.find? k = some slot) : slot = {} := by
  have hall : ∀ (ports : List Int) (slots : OrdMap Nat DedicatedClientSlot),
      (∀ k slot, slots.find? k = some slot → slot = {}) → ∀ k slot,
      (ports.foldl (fun slots (port : Int) => slots.insert port.toNat {}) slots).find? k
        = some slot → slot = {} := by
    intro ports
    induction ports with
    | nil => exact fun _ hslots => hslots
    | cons port ports ih =>
      intro slots hslots
      refine ih _ fun j slot' hslot' => ?_
      rw [OrdMap.find?_insert] at hslot'
      split at hslot'
      · exact (Option.some.inj hslot').symm
      · exact hslots j slot' hslot'
  exact hall _ ∅ (fun _ _ hnone => by simp at hnone) k slot h

theorem Kept.new (config : Config) : Kept config [] (.new config) where
  slotsKey := rfl
  radioKey := rfl
  orphanKey := fun h => absurd rfl h
  last := by rintro e ⟨⟩
  fresh := fun _ => ⟨rfl, rfl, fun k slot hslot => by rw [find?_new hslot]⟩
  idling := by
    intro k slot hslot
    rw [find?_new hslot]
    exact ⟨rfl, by simp, Nat.zero_le _⟩
  orphan := by rintro item ⟨⟩
  lease := .free _
  items := by
    rintro item (⟨⟨⟩⟩ | ⟨k, slot, hslot, hitem⟩)
    rw [find?_new hslot] at hitem
    cases hitem

/-! ### One epoch -/

/-- The same companion is back. -/
theorem Kept.opens_same (h : Kept config es r) {e : Epoch} (hlast : es.getLast? = some e)
    (hkey : e.selfKey = selfKey) : (r.opens config selfKey now).1
      = .new r.nextEpoch selfKey config now r.orphan r.dedicatedSlots r.radioState := by
  have hslots : r.dedicatedSlotsKey = some selfKey := by rw [h.slotsKey, hlast, ← hkey]; rfl
  have hradio : r.radioStateKey = some selfKey := by rw [h.radioKey, hlast, ← hkey]; rfl
  cases horphan : r.orphan with
  | none =>
    simp [Retained.opens, Retained.orphanFor, Retained.prepareDedicatedSlots,
      Retained.radioStateFor, horphan, hslots, hradio]
  | some item =>
    have horphanKey : r.orphanKey = some selfKey := by
      rw [h.orphanKey (by simp [horphan]), hlast, ← hkey]
      rfl
    simp [Retained.opens, Retained.orphanFor, Retained.prepareDedicatedSlots,
      Retained.radioStateFor, horphan, horphanKey, hslots, hradio]

/-- Another companion answers. -/
theorem Kept.opens_other (h : Kept config es r) {e : Epoch} (hlast : es.getLast? = some e)
    (hkey : e.selfKey ≠ selfKey) : (r.opens config selfKey now).1
      = .new r.nextEpoch selfKey config now none
          (r.dedicatedSlots.mapValues fun slot => slot.clear.2) .new := by
  have hslots : r.dedicatedSlotsKey = some e.selfKey := by rw [h.slotsKey, hlast]; rfl
  have hradio : r.radioStateKey = some e.selfKey := by rw [h.radioKey, hlast]; rfl
  cases horphan : r.orphan with
  | none =>
    simp [Retained.opens, Retained.orphanFor, Retained.prepareDedicatedSlots,
      Retained.radioStateFor, horphan, hslots, hradio, hkey]
  | some item =>
    have horphanKey : r.orphanKey = some e.selfKey := by
      rw [h.orphanKey (by simp [horphan]), hlast]
      rfl
    simp [Retained.opens, Retained.orphanFor, Retained.prepareDedicatedSlots,
      Retained.radioStateFor, horphan, horphanKey, hslots, hradio, hkey]

/-- The first companion of all. -/
theorem Kept.opens_first (h : Kept config [] r) : (r.opens config selfKey now).1
      = .new r.nextEpoch selfKey config now none r.dedicatedSlots .new := by
  obtain ⟨horphan, hradio, -⟩ := h.fresh rfl
  have hslotsKey : r.dedicatedSlotsKey = none := h.slotsKey
  have hradioKey : r.radioStateKey = none := h.radioKey
  simp [Retained.opens, Retained.orphanFor, Retained.prepareDedicatedSlots,
    Retained.radioStateFor, horphan, hradio, hslotsKey, hradioKey]

/-- A fresh broker that inherits what may be handed to it. -/
theorem starts_new (hconfig : config.Valid) (hkey : selfKey.length = 32) {epoch : Nat}
    {orphan : Option Bytes} {slots : OrdMap Nat DedicatedClientSlot} {radio : CompanionRadioState}
    (horphan : ∀ item, orphan = some item → InboxItem item) (hslots : Idling config slots)
    (hlease : LeaseOK [] radio.remote) :
    (Broker.new epoch selfKey config now orphan slots radio).Starts where
  fresh := ⟨_, _, _, _, _, _, _, rfl⟩
  config := hconfig
  selfKey := by
    show 6 ≤ selfKey.length
    omega
  orphan := horphan
  slots := hslots
  lease := hlease

theorem Kept.starts (h : Kept config es r) (hconfig : config.Valid) (hkey : selfKey.length = 32) :
    (r.opens config selfKey now).1.Starts := by
  rcases hlast : es.getLast? with _ | e
  · obtain rfl := List.getLast?_eq_none_iff.mp hlast
    rw [h.opens_first]
    exact starts_new hconfig hkey (by rintro _ ⟨⟩) h.idling (.free _)
  · by_cases hsame : e.selfKey = selfKey
    · rw [h.opens_same hlast hsame]
      exact starts_new hconfig hkey h.orphan h.idling h.lease
    · rw [h.opens_other hlast hsame]
      refine starts_new hconfig hkey (by rintro _ ⟨⟩) (fun k slot hslot => ?_) (.free _)
      rw [OrdMap.find?_mapValues] at hslot
      obtain ⟨old, -, rfl⟩ := Option.map_eq_some_iff.mp hslot
      exact ⟨rfl, by simp [DedicatedClientSlot.clear], Nat.zero_le _⟩

/-- What a fresh broker inherits was brought under its key. -/
theorem Kept.inherited (h : Kept config es r)
    (hitem : (r.opens config selfKey now).1.Inherited item) : BroughtUnder es selfKey item := by
  rcases hlast : es.getLast? with _ | e
  · obtain rfl := List.getLast?_eq_none_iff.mp hlast
    rw [h.opens_first] at hitem
    rcases hitem with ⟨⟨⟩⟩ | ⟨k, slot, hslot, hitem⟩
    rw [(h.fresh rfl).2.2 k slot hslot] at hitem
    cases hitem
  · by_cases hsame : e.selfKey = selfKey
    · rw [h.opens_same hlast hsame] at hitem
      obtain ⟨e', hlast', hunder⟩ := h.items item hitem
      obtain rfl := Option.some.inj (hlast.symm.trans hlast')
      exact hsame ▸ hunder
    · rw [h.opens_other hlast hsame] at hitem
      rcases hitem with ⟨⟨⟩⟩ | ⟨k, slot, hslot, hitem⟩
      have hslot : (r.dedicatedSlots.mapValues fun slot => slot.clear.2).find? k = some slot := hslot
      rw [OrdMap.find?_mapValues] at hslot
      obtain ⟨old, -, rfl⟩ := Option.map_eq_some_iff.mp hslot
      cases hitem

theorem Kept.isolated (h : Kept config es r) (hconfig : config.Valid)
    (hkey : selfKey.length = 32) (hrun : Run (r.opens config selfKey now).1 s) :
    Isolated es selfKey (r.opens config selfKey now).1 s where
  starts := h.starts hconfig hkey
  same := by
    intro e hlast hsame
    rw [h.opens_same hlast hsame]
    exact h.last e hlast
  other := by
    intro hother
    rcases hlast : es.getLast? with _ | e
    · obtain rfl := List.getLast?_eq_none_iff.mp hlast
      rw [h.opens_first]
      exact ⟨rfl, rfl, (h.fresh rfl).2.2⟩
    · rw [h.opens_other hlast (hother e hlast)]
      refine ⟨rfl, rfl, fun k slot hslot => ?_⟩
      have hslot : (r.dedicatedSlots.mapValues fun slot => slot.clear.2).find? k = some slot := hslot
      rw [OrdMap.find?_mapValues] at hslot
      obtain ⟨old, -, rfl⟩ := Option.map_eq_some_iff.mp hslot
      rfl
  items := fun item hitem => (hrun.sourced (h.starts hconfig hkey) item hitem).imp_right h.inherited

/-- Nobody is attached to the slots of a failed broker, nor owns its lease. -/
theorem left_behind (hstart : s₀.Starts) (hrun : Run s₀ s) (hfailed : s.failed = true)
    (hconfig : s₀.config = config) :
    Idling config s.dedicatedSlots ∧ LeaseOK [] s.radio.remote := by
  have hwf := hstart.wf.acts (hrun.acts hstart.wf)
  have hbounded := hrun.bounded hstart
  refine ⟨fun k slot hslot => ⟨?_, (hwf.slot k slot hslot).items, ?_⟩, ?_⟩
  · cases hid : slot.attachedSessionId with
    | none => rfl
    | some id =>
      obtain ⟨session, hlive, -⟩ := (hwf.slot k slot hslot).attached id hid
      simp [hwf.no_session hfailed id] at hlive
  · rw [← hconfig, ← (hrun.reached hstart).stocked.config]
    exact hbounded.slot k slot hslot
  · rw [← (hwf.ended hfailed).1]
    exact hwf.lease

theorem opens_config (r : Retained) : (r.opens config selfKey now).1.config = config := rfl

theorem opens_keys (config : Config) (r : Retained) (selfKey : Bytes) (now : Time) :
    (r.opens config selfKey now).2.dedicatedSlotsKey = some selfKey ∧
      (r.opens config selfKey now).2.radioStateKey = some selfKey ∧
      (r.opens config selfKey now).2.orphan = none := by
  refine ⟨rfl, rfl, ?_⟩
  show (r.orphanFor selfKey).2.orphan = none
  unfold Retained.orphanFor
  split
  · assumption
  · split <;> rfl

/-- An epoch preserves what is said of the retained state. -/
theorem Kept.closes (h : Kept config es r) (hconfig : config.Valid) (hkey : selfKey.length = 32)
    (hrun : Run (r.opens config selfKey now).1 s) (hfailed : s.failed = true) (raised : Bool) :
    Kept config (es ++ [⟨selfKey, s, raised⟩])
      ((r.opens config selfKey now).2.closes selfKey s raised) := by
  have hisolated := h.isolated hconfig hkey hrun
  obtain ⟨hidling, hlease⟩ := left_behind hisolated.starts hrun hfailed (opens_config r)
  have hwf := hisolated.starts.wf.acts (hrun.acts hisolated.starts.wf)
  obtain ⟨hslotsKey, hradioKey, hnone⟩ := opens_keys config r selfKey now
  have hlast : (es ++ [(⟨selfKey, s, raised⟩ : Epoch)]).getLast? = some ⟨selfKey, s, raised⟩ :=
    List.getLast?_concat
  have hunder : ∀ item, s.Bears item →
      BroughtUnder (es ++ [(⟨selfKey, s, raised⟩ : Epoch)]) selfKey item := by
    intro item hitem
    rcases hisolated.items item hitem with hbrought | hunder
    · exact .last hbrought raised
    · exact hunder.snoc rfl
  cases raised with
  | true =>
    -- the orphan of the broker is lost: the retained one was handed over before
    refine ⟨by rw [hlast]; exact hslotsKey, by rw [hlast]; exact hradioKey,
      fun hsome => absurd hnone hsome, ?_, fun hnil => absurd hnil (by simp), hidling, ?_, hlease, ?_⟩
    · intro e he
      obtain rfl := Option.some.inj (hlast.symm.trans he)
      exact ⟨rfl, rfl, hnone⟩
    · intro item hitem
      exact absurd (hnone.symm.trans hitem) (by simp)
    · rintro item (hitem | ⟨k, slot, hslot, hitem⟩)
      · exact absurd (hnone.symm.trans hitem) (by simp)
      · exact ⟨_, hlast, hunder item (.queue hslot hitem)⟩
  | false =>
    refine ⟨by rw [hlast]; exact hslotsKey, by rw [hlast]; exact hradioKey, ?_, ?_,
      fun hnil => absurd hnil (by simp), hidling, hwf.orphan, hlease, ?_⟩
    · intro hsome
      rw [hlast]
      exact if_pos (Option.isSome_iff_ne_none.mpr hsome)
    · intro e he
      obtain rfl := Option.some.inj (hlast.symm.trans he)
      exact ⟨rfl, rfl, rfl⟩
    · rintro item (hitem | ⟨k, slot, hslot, hitem⟩)
      · exact ⟨_, hlast, hunder item (.orphan hitem)⟩
      · exact ⟨_, hlast, hunder item (.queue hslot hitem)⟩

/-- What is said of the retained state holds in every life. -/
theorem Lived.kept (h : Lived config es r) (hconfig : config.Valid) : Kept config es r := by
  induction h with
  | start => exact .new config
  | connected _ ih =>
    exact ⟨ih.slotsKey, ih.radioKey, ih.orphanKey, ih.last, ih.fresh, ih.idling, ih.orphan,
      ih.lease, ih.items⟩
  | epoch raised _ hkey hrun hfailed ih => exact ih.closes hconfig hkey hrun hfailed raised

end MeshCoreTCPMux

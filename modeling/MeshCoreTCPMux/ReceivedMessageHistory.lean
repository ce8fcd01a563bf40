import MeshCoreTCPMux.ReceivedMessageDeduplicator

/-!
# The history of received messages

The deduplicator remembers the last 1,024 identities that it has recorded, and nothing else
(`duplicates_exact`). An identity is a string; it says who sent a text message, its type, its
timestamp and its bytes, and not how it was received (`identity_eq_iff`).
-/

namespace MeshCoreTCPMux

open Protocol

/-! ### Logical text messages -/

/-- Where a text message comes from: a contact, by the first six bytes of its key, or a channel. -/
inductive MessageSource
  | direct (sender : Bytes)
  | channel (index : UInt8)
  deriving DecidableEq

/-- A received text message, without what belongs to one reception of it. -/
@[ext]
structure TextMessage where
  source : MessageSource
  textType : UInt8
  timestamp : Nat
  body : Bytes
  deriving DecidableEq

/-- The message whose type, timestamp and body stand at the given offsets. -/
def textMessageAt (source : MessageSource) (payload : Bytes)
    (typeOffset timestampOffset bodyOffset : Nat) : Option TextMessage :=
  if payload.length < bodyOffset then none
  else some
    { source
      textType := payload.getD typeOffset 0
      timestamp := u32At payload timestampOffset
      body := payload.drop bodyOffset }

/-- The text message of an inbox item, in the legacy or the V3 form. -/
def textMessage (payload : Bytes) : Option TextMessage :=
  if opcode payload = respContactMessage then
    textMessageAt (.direct ((payload.drop 1).take 6)) payload 8 9 13
  else if opcode payload = respContactMessageV3 then
    textMessageAt (.direct ((payload.drop 4).take 6)) payload 11 12 16
  else if opcode payload = respChannelMessage then
    textMessageAt (.channel (payload.getD 1 0)) payload 3 4 8
  else if opcode payload = respChannelMessageV3 then
    textMessageAt (.channel (payload.getD 4 0)) payload 6 7 11
  else none

/-- How a source is written. -/
def MessageSource.name : MessageSource → String
  | direct sender => "direct:" ++ hex sender
  | channel index => "channel:" ++ toString index.toNat

/-- How a message is written. -/
def TextMessage.identity (m : TextMessage) : String :=
  m.source.name ++ ":" ++ toString m.textType.toNat ++ ":" ++ toString m.timestamp ++ ":"
    ++ hex m.body

/-- The identity of an item is that of its message. -/
theorem receivedTextMessageIdentity_eq (payload : Bytes) :
    receivedTextMessageIdentity payload = (textMessage payload).map TextMessage.identity := by
  unfold receivedTextMessageIdentity textMessage
  cases payload with
  | nil => rfl
  | cons code rest =>
    rw [if_neg (by simp)]
    unfold receivedContactMessageIdentity receivedChannelMessageIdentity textMessageAt
    split
    · split <;> rfl
    split
    · split <;> rfl
    split
    · split <;> rfl
    split
    · split <;> rfl
    · rfl

/-! ### An identity determines its message -/

/-- The digits of a number hold no colon. -/
theorem colon_notMem_toString (n : Nat) : ':' ∉ (toString n).toList := by
  intro h
  rw [Nat.toString_eq_repr, Nat.toList_repr] at h
  have hdigit := Nat.isDigit_of_mem_toDigits (by decide) (by decide) h
  exact absurd hdigit (by decide)

theorem toString_toList_inj {m n : Nat} (h : (toString m).toList = (toString n).toList) :
    m = n := by
  simp only [Nat.toString_eq_repr, Nat.toList_repr] at h
  have hvalue := congrArg (fun digits => Nat.ofDigitChars 10 digits 0) h
  simpa using hvalue

theorem toList_hex (bytes : Bytes) :
    (hex bytes).toList = bytes.flatMap fun b => (hexByte b).toList := by
  rw [hex, String.toList_join, List.flatMap_map]

theorem digitChar_inj : ∀ m < 16, ∀ n < 16, Nat.digitChar m = Nat.digitChar n → m = n := by decide

theorem toList_hexByte (b : UInt8) :
    (hexByte b).toList = [Nat.digitChar (b.toNat / 16), Nat.digitChar (b.toNat % 16)] := by
  simp [hexByte]

theorem colon_notMem_hex (bytes : Bytes) : ':' ∉ (hex bytes).toList := by
  have table : ∀ m < 16, Nat.digitChar m ≠ ':' := by decide
  intro h
  rw [toList_hex, List.mem_flatMap] at h
  obtain ⟨b, -, hb⟩ := h
  have hlt := b.toNat_lt
  rw [toList_hexByte] at hb
  rcases List.mem_cons.mp hb with hb | hb
  · exact table _ (by omega) hb.symm
  · exact table _ (by omega) (List.mem_singleton.mp hb).symm

/-- Two hexadecimal digits determine their byte. -/
theorem hexByte_toList_inj {b c : UInt8} (h : (hexByte b).toList = (hexByte c).toList) : b = c := by
  rw [toList_hexByte, toList_hexByte] at h
  have hb := b.toNat_lt
  have hc := c.toNat_lt
  obtain ⟨hhigh, hlow, -⟩ := by simpa only [List.cons.injEq] using h
  have hhigh' := digitChar_inj _ (by omega) _ (by omega) hhigh
  have hlow' := digitChar_inj _ (by omega) _ (by omega) hlow
  exact UInt8.toNat_inj.mp (by omega)

theorem hex_toList_inj {p q : Bytes} (h : (hex p).toList = (hex q).toList) : p = q := by
  rw [toList_hex, toList_hex] at h
  induction p generalizing q with
  | nil =>
    cases q with
    | nil => rfl
    | cons c q => simp [toList_hexByte] at h
  | cons b p ih =>
    cases q with
    | nil => simp [toList_hexByte] at h
    | cons c q =>
      rw [List.flatMap_cons, List.flatMap_cons] at h
      obtain ⟨hfirst, hrest⟩ := List.append_inj h (by simp [toList_hexByte])
      rw [hexByte_toList_inj hfirst, ih hrest]

/-- A field without colons ends at the first colon. -/
theorem append_colon_inj {x y v w : List Char} (hx : ':' ∉ x) (hy : ':' ∉ y)
    (h : x ++ ':' :: v = y ++ ':' :: w) : x = y ∧ v = w := by
  induction x generalizing y with
  | nil =>
    cases y with
    | nil => exact ⟨rfl, (List.cons.inj h).2⟩
    | cons c y =>
      obtain ⟨rfl, -⟩ := List.cons.inj h
      exact absurd List.mem_cons_self hy
  | cons b x ih =>
    cases y with
    | nil =>
      obtain ⟨rfl, -⟩ := List.cons.inj h
      exact absurd List.mem_cons_self hx
    | cons c y =>
      obtain ⟨rfl, hrest⟩ := List.cons.inj h
      obtain ⟨rfl, hvw⟩ := ih (fun h => hx (List.mem_cons_of_mem _ h))
        (fun h => hy (List.mem_cons_of_mem _ h)) hrest
      exact ⟨rfl, hvw⟩

/-- The part of an identity that tells the source. -/
def MessageSource.kind : MessageSource → List Char
  | direct _ => ['d', 'i', 'r', 'e', 'c', 't']
  | channel _ => ['c', 'h', 'a', 'n', 'n', 'e', 'l']

def MessageSource.key : MessageSource → List Char
  | direct sender => (hex sender).toList
  | channel index => (toString index.toNat).toList

theorem TextMessage.toList_identity (m : TextMessage) :
    m.identity.toList = m.source.kind ++ ':' :: (m.source.key ++ ':' ::
      ((toString m.textType.toNat).toList ++ ':' ::
        ((toString m.timestamp).toList ++ ':' :: (hex m.body).toList))) := by
  unfold TextMessage.identity MessageSource.name MessageSource.kind MessageSource.key
  cases m.source <;> simp

theorem MessageSource.eq_of_key {a b : MessageSource} (hkind : a.kind = b.kind)
    (hkey : a.key = b.key) : a = b := by
  cases a with
  | direct sender =>
    cases b with
    | direct sender' => rw [hex_toList_inj hkey]
    | channel index => exact absurd hkind (by simp [MessageSource.kind])
  | channel index =>
    cases b with
    | direct sender => exact absurd hkind (by simp [MessageSource.kind])
    | channel index' => rw [UInt8.toNat_inj.mp (toString_toList_inj hkey)]

/-- **An identity determines its message.** -/
theorem TextMessage.identity_inj {m n : TextMessage} (h : m.identity = n.identity) : m = n := by
  have hkind : ∀ source : MessageSource, ':' ∉ source.kind := by
    intro source
    cases source <;> simp [MessageSource.kind]
  have hkey : ∀ source : MessageSource, ':' ∉ source.key := by
    intro source
    cases source with
    | direct sender => exact colon_notMem_hex sender
    | channel index => exact colon_notMem_toString _
  have hlist := congrArg String.toList h
  rw [m.toList_identity, n.toList_identity] at hlist
  obtain ⟨hkinds, hlist⟩ := append_colon_inj (hkind _) (hkind _) hlist
  obtain ⟨hkeys, hlist⟩ := append_colon_inj (hkey _) (hkey _) hlist
  obtain ⟨htypes, hlist⟩ :=
    append_colon_inj (colon_notMem_toString _) (colon_notMem_toString _) hlist
  obtain ⟨htimes, hbodies⟩ :=
    append_colon_inj (colon_notMem_toString _) (colon_notMem_toString _) hlist
  exact TextMessage.ext (MessageSource.eq_of_key hkinds hkeys)
    (UInt8.toNat_inj.mp (toString_toList_inj htypes)) (toString_toList_inj htimes)
    (hex_toList_inj hbodies)

/-- Two items have equal identities when they carry the same message. -/
theorem identity_eq_iff {p q : Bytes} (hp : receivedTextMessageIdentity p ≠ none) :
    receivedTextMessageIdentity p = receivedTextMessageIdentity q ↔
      textMessage p = textMessage q := by
  rw [receivedTextMessageIdentity_eq, receivedTextMessageIdentity_eq] at *
  refine ⟨fun h => ?_, fun h => by rw [h]⟩
  cases hm : textMessage p with
  | none => simp [hm] at hp
  | some m =>
    cases hn : textMessage q with
    | none => simp [hm, hn] at h
    | some n =>
      rw [hm, hn] at h
      rw [TextMessage.identity_inj (Option.some.inj h)]

namespace ReceivedMessageDeduplicator

variable {d : ReceivedMessageDeduplicator} {recorded : List String}

/-! ### The bounded history -/

/-- The deduplicators that payloads lead to from a fresh one, with the identities that have been
recorded, the oldest first: those of the payloads that were no duplicates. -/
inductive Remembers : List String → ReceivedMessageDeduplicator → Prop
  | fresh : Remembers [] {}
  | next {recorded : List String} {d : ReceivedMessageDeduplicator} (payload : Bytes)
      (h : Remembers recorded d) :
      Remembers
        (recorded ++ if (d.duplicate payload).1 then []
          else (receivedTextMessageIdentity payload).toList)
        (d.duplicate payload).2

/-- The set and the queue hold the last identities that were recorded. -/
structure Exact (recorded : List String) (d : ReceivedMessageDeduplicator) : Prop where
  order : d.order = recorded.rtake capacity
  seen : d.seen = d.order.toFinset
  nodup : d.order.Nodup
  bounded : d.order.length ≤ capacity

/-- A payload is a duplicate when its identity is remembered. -/
theorem duplicate_iff (h : Exact recorded d) (payload : Bytes) :
    (d.duplicate payload).1 = true ↔
      ∃ identity, receivedTextMessageIdentity payload = some identity ∧
        identity ∈ recorded.rtake capacity := by
  unfold duplicate
  cases hidentity : receivedTextMessageIdentity payload with
  | none => simp
  | some identity =>
    simp only [h.seen, List.mem_toFinset, ← h.order]
    split <;> simp_all

theorem rtake_of_length_le {l : List String} {n : Nat} (h : l.length ≤ n) : l.rtake n = l := by
  simp [List.rtake, Nat.sub_eq_zero_of_le h]

theorem tail_rtake {l : List String} {n : Nat} (h : n + 1 ≤ l.length) :
    (l.rtake (n + 1)).tail = l.rtake n := by
  rw [List.rtake, List.rtake, List.tail_drop]
  congr 1
  omega

/-- Make room for one identity. -/
def evict (d : ReceivedMessageDeduplicator) : ReceivedMessageDeduplicator :=
  if d.order.length ≥ capacity then
    match d.order with
    | [] => d
    | oldest :: rest => { seen := d.seen.erase oldest, order := rest }
  else d

/-- Making room keeps the set and the queue in step. -/
theorem Exact.evict (h : Exact recorded d) :
    d.evict.order = recorded.rtake (capacity - 1) ∧ d.evict.seen = d.evict.order.toFinset ∧
      d.evict.order.Sublist d.order := by
  have horder := h.order
  unfold ReceivedMessageDeduplicator.evict
  by_cases hfull : d.order.length ≥ capacity
  · rw [if_pos hfull]
    have hlong : capacity - 1 + 1 ≤ recorded.length := by
      have hlength := congrArg List.length horder
      rw [List.rtake, List.length_drop] at hlength
      have hpositive : 0 < capacity := by decide
      omega
    have htail := tail_rtake hlong
    rw [show capacity - 1 + 1 = capacity from rfl, ← horder] at htail
    have hnodup := h.nodup
    have hseen := h.seen
    cases hqueue : d.order with
    | nil =>
      rw [hqueue] at hfull
      exact absurd hfull (by decide)
    | cons oldest rest =>
      rw [hqueue] at htail hnodup hseen
      refine ⟨htail, ?_, List.sublist_cons_self _ _⟩
      rw [hseen, List.toFinset_cons]
      exact Finset.erase_insert (by simpa using (List.nodup_cons.mp hnodup).1)
  · rw [if_neg hfull]
    refine ⟨?_, h.seen, List.Sublist.refl _⟩
    have hshort : recorded.length ≤ capacity - 1 := by
      have hlength := congrArg List.length horder
      rw [List.rtake, List.length_drop] at hlength
      omega
    rw [horder, rtake_of_length_le hshort, rtake_of_length_le (by omega)]

/-- Recording one identity more. -/
theorem Exact.record (h : Exact recorded d) {identity : String} (hnew : identity ∉ d.order) :
    Exact (recorded ++ [identity])
      { seen := insert identity d.evict.seen, order := d.evict.order ++ [identity] } := by
  obtain ⟨horder, hseen, hsublist⟩ := h.evict
  have hrecorded := List.rtake_concat_succ recorded (capacity - 1) identity
  rw [show capacity - 1 + 1 = capacity from rfl, ← horder] at hrecorded
  refine ⟨hrecorded.symm, ?_, ?_, ?_⟩
  · ext i
    rw [Finset.mem_insert, List.mem_toFinset, List.mem_append, List.mem_singleton, hseen,
      List.mem_toFinset]
    exact or_comm
  · refine List.nodup_append.mpr ⟨hsublist.nodup h.nodup, List.nodup_singleton _, ?_⟩
    intro x hx y hy hxy
    obtain rfl := List.mem_singleton.mp hy
    exact hnew (hsublist.subset (hxy ▸ hx))
  · simp only [hrecorded.symm, List.rtake, List.length_drop]
    omega

theorem Remembers.exact (h : Remembers recorded d) : Exact recorded d := by
  induction h with
  | fresh => exact ⟨rfl, rfl, List.nodup_nil, Nat.zero_le _⟩
  | @next recorded d payload _ ih =>
    by_cases hidentity : receivedTextMessageIdentity payload = none
    · simp only [duplicate, hidentity, Bool.false_eq_true, if_false, Option.toList_none,
        List.append_nil]
      exact ih
    obtain ⟨identity, hidentity⟩ := Option.ne_none_iff_exists'.mp hidentity
    by_cases hold : identity ∈ d.seen
    · simp only [duplicate, hidentity, hold, if_true, List.append_nil]
      exact ih
    · simp only [duplicate, hidentity, hold, if_false, Bool.false_eq_true, Option.toList_some]
      refine ih.record fun hmem => hold ?_
      rw [ih.seen]
      exact List.mem_toFinset.mpr hmem

/-- **Duplicates are exactly the repetitions among the last 1,024 messages.** After every sequence
of payloads, the queue holds the last identities that were recorded, each once, and the set holds
the same ones; a payload is a duplicate exactly when it has an identity that is among them. Two
payloads with an identity have the same one exactly when they carry the same message: the same
source, the same type and timestamp, and the same bytes. -/
theorem duplicates_exact (h : Remembers recorded d) :
    Exact recorded d ∧
      (∀ payload, (d.duplicate payload).1 = true ↔
        ∃ identity, receivedTextMessageIdentity payload = some identity ∧
          identity ∈ recorded.rtake capacity) ∧
      ∀ p q, receivedTextMessageIdentity p ≠ none → receivedTextMessageIdentity q ≠ none →
        (receivedTextMessageIdentity p = receivedTextMessageIdentity q ↔
          textMessage p = textMessage q) :=
  ⟨h.exact, duplicate_iff h.exact, fun _ _ hp _ => identity_eq_iff hp⟩

theorem duplicates_exact_one :
    let payload := respChannelMessage :: List.replicate 8 0
    let d := (({} : ReceivedMessageDeduplicator).duplicate payload).2
    let recorded := [] ++ if (({} : ReceivedMessageDeduplicator).duplicate payload).1 then []
      else (receivedTextMessageIdentity payload).toList
    Exact recorded d ∧
      (∀ payload, (d.duplicate payload).1 = true ↔
        ∃ identity, receivedTextMessageIdentity payload = some identity ∧
          identity ∈ recorded.rtake capacity) ∧
      ∀ p q, receivedTextMessageIdentity p ≠ none → receivedTextMessageIdentity q ≠ none →
        (receivedTextMessageIdentity p = receivedTextMessageIdentity q ↔
          textMessage p = textMessage q) :=
  duplicates_exact (.next _ .fresh)

end ReceivedMessageDeduplicator

end MeshCoreTCPMux

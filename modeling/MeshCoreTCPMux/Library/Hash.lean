import Mathlib

/-!
# Insertion-ordered maps

A finite map that remembers the order in which its keys were first inserted, as the hash tables of
several scripting languages do: a lookup goes by key, an iteration goes by insertion. The entries
are a list whose keys do not repeat, and the structure carries that fact, so an operation that would
break it cannot be written.

* `OrdMap.insert` replaces the value of a present key in place and appends a new key at the end;
* `OrdMap.modify` changes the value of a present key and ignores an absent one;
* `OrdMap.erase` drops a key.

The lemmas give each operation's effect on `find?` (what a reader of the map sees) and on `keys`
(what an iteration sees).
-/

universe u v

/-- A finite map with its keys in insertion order. -/
structure OrdMap (κ : Type u) (ν : Type v) where
  entries : List (κ × ν)
  nodup : (entries.map Prod.fst).Nodup

namespace OrdMap

variable {κ : Type u} {ν : Type v}

def empty : OrdMap κ ν := ⟨[], List.nodup_nil⟩

instance : EmptyCollection (OrdMap κ ν) := ⟨empty⟩

instance : Inhabited (OrdMap κ ν) := ⟨empty⟩

def keys (m : OrdMap κ ν) : List κ := m.entries.map Prod.fst

def values (m : OrdMap κ ν) : List ν := m.entries.map Prod.snd

def size (m : OrdMap κ ν) : Nat := m.entries.length

def isEmpty (m : OrdMap κ ν) : Bool := m.entries.isEmpty

/-- Whether some entry satisfies `p`. -/
def any (m : OrdMap κ ν) (p : κ → ν → Bool) : Bool := m.entries.any fun e => p e.1 e.2

section Lookup

variable [DecidableEq κ]

def find? (m : OrdMap κ ν) (k : κ) : Option ν := m.entries.lookup k

def contains (m : OrdMap κ ν) (k : κ) : Bool := (m.find? k).isSome

/-- Change the value of `k` in place; an absent key is ignored. -/
def modify (m : OrdMap κ ν) (k : κ) (f : ν → ν) : OrdMap κ ν where
  entries := m.entries.map fun e => if e.1 = k then (e.1, f e.2) else e
  nodup := by
    have h : (m.entries.map fun e => if e.1 = k then (e.1, f e.2) else e).map Prod.fst
        = m.entries.map Prod.fst := by
      rw [List.map_map]
      refine List.map_congr_left fun e _ => ?_
      by_cases he : e.1 = k <;> simp [he]
    rw [h]
    exact m.nodup

def erase (m : OrdMap κ ν) (k : κ) : OrdMap κ ν where
  entries := m.entries.filter fun e => e.1 ≠ k
  nodup := m.nodup.sublist (List.filter_sublist.map Prod.fst)

/-- Replace the value of a present key in place, append a new key at the end. -/
def insert (m : OrdMap κ ν) (k : κ) (v : ν) : OrdMap κ ν :=
  if h : k ∈ m.keys then m.modify k fun _ => v
  else
    { entries := m.entries ++ [(k, v)]
      nodup := by
        rw [List.map_append]
        refine List.Nodup.append m.nodup (List.nodup_singleton _) ?_
        simpa [List.disjoint_singleton, keys] using h }

end Lookup

/-! ### What an iteration sees -/

@[simp] theorem entries_empty : (∅ : OrdMap κ ν).entries = [] := rfl

@[simp] theorem keys_empty : (∅ : OrdMap κ ν).keys = [] := rfl

theorem nodup_keys (m : OrdMap κ ν) : m.keys.Nodup := m.nodup

@[simp] theorem length_keys (m : OrdMap κ ν) : m.keys.length = m.size := by simp [keys, size]

theorem isEmpty_iff_keys {m : OrdMap κ ν} : m.isEmpty = true ↔ m.keys = [] := by
  simp [isEmpty, keys]

theorem isEmpty_iff_size {m : OrdMap κ ν} : m.isEmpty = true ↔ m.size = 0 := by
  simp [isEmpty, size]

variable [DecidableEq κ]

@[simp] theorem keys_modify (m : OrdMap κ ν) (k : κ) (f : ν → ν) :
    (m.modify k f).keys = m.keys := by
  unfold keys modify
  rw [List.map_map]
  refine List.map_congr_left fun e _ => ?_
  by_cases he : e.1 = k <;> simp [he]

@[simp] theorem size_modify (m : OrdMap κ ν) (k : κ) (f : ν → ν) :
    (m.modify k f).size = m.size := by
  rw [← length_keys, keys_modify, length_keys]

@[simp] theorem isEmpty_modify (m : OrdMap κ ν) (k : κ) (f : ν → ν) :
    (m.modify k f).isEmpty = m.isEmpty := by
  rw [Bool.eq_iff_iff, isEmpty_iff_keys, isEmpty_iff_keys, keys_modify]

@[simp] theorem keys_erase (m : OrdMap κ ν) (k : κ) :
    (m.erase k).keys = m.keys.filter (· ≠ k) := by
  simp only [keys, erase, List.filter_map]
  rfl

/-- An absent key cannot be dropped. -/
theorem erase_of_notMem {m : OrdMap κ ν} {k : κ} (h : k ∉ m.keys) : m.erase k = m := by
  have hentries : m.entries.filter (fun e => e.1 ≠ k) = m.entries := by
    refine List.filter_eq_self.mpr fun e he => ?_
    simpa using fun hk : e.1 = k => h (hk ▸ List.mem_map_of_mem he)
  cases m
  simpa [OrdMap.erase] using hentries

theorem keys_insert_of_notMem {m : OrdMap κ ν} {k : κ} (h : k ∉ m.keys) (v : ν) :
    (m.insert k v).keys = m.keys ++ [k] := by
  unfold insert
  rw [dif_neg h]
  simp [keys]

theorem keys_insert_of_mem {m : OrdMap κ ν} {k : κ} (h : k ∈ m.keys) (v : ν) :
    (m.insert k v).keys = m.keys := by
  unfold insert
  rw [dif_pos h, keys_modify]

/-! ### What a reader sees -/

@[simp] theorem find?_empty (k : κ) : (∅ : OrdMap κ ν).find? k = none := rfl

private theorem lookup_isSome_iff {l : List (κ × ν)} {k : κ} :
    (l.lookup k).isSome = true ↔ k ∈ l.map Prod.fst := by
  induction l with
  | nil => simp
  | cons e l ih =>
    obtain ⟨j, v⟩ := e
    by_cases h : k = j
    · simp [List.lookup, h]
    · have hb : (k == j) = false := by simpa using h
      simp [List.lookup, hb, h, ih]

theorem find?_isSome {m : OrdMap κ ν} {k : κ} : (m.find? k).isSome = true ↔ k ∈ m.keys :=
  lookup_isSome_iff

theorem mem_keys_iff {m : OrdMap κ ν} {k : κ} : k ∈ m.keys ↔ ∃ v, m.find? k = some v := by
  rw [← find?_isSome, Option.isSome_iff_exists]

theorem mem_keys_of_find? {m : OrdMap κ ν} {k : κ} {v : ν} (h : m.find? k = some v) :
    k ∈ m.keys :=
  mem_keys_iff.mpr ⟨v, h⟩

theorem find?_eq_none {m : OrdMap κ ν} {k : κ} : m.find? k = none ↔ k ∉ m.keys := by
  rw [← find?_isSome, Bool.not_eq_true, Option.isSome_eq_false_iff, Option.isNone_iff_eq_none]

theorem contains_iff {m : OrdMap κ ν} {k : κ} : m.contains k = true ↔ k ∈ m.keys := find?_isSome

private theorem lookup_map_modify (l : List (κ × ν)) (k j : κ) (f : ν → ν) :
    (l.map fun e => if e.1 = k then (e.1, f e.2) else e).lookup j
      = if j = k then (l.lookup j).map f else l.lookup j := by
  induction l with
  | nil => simp
  | cons e l ih =>
    obtain ⟨i, v⟩ := e
    by_cases hik : i = k <;> by_cases hji : j = i
    · subst hik; subst hji; simp [List.lookup]
    · subst hik
      have hb : (j == i) = false := by simpa using hji
      simp [List.lookup, hb, hji, ih]
    · subst hji; simp [List.lookup, hik]
    · have hb : (j == i) = false := by simpa using hji
      simp [List.lookup, hik, hb, ih]

theorem find?_modify (m : OrdMap κ ν) (k j : κ) (f : ν → ν) :
    (m.modify k f).find? j = if j = k then (m.find? j).map f else m.find? j :=
  lookup_map_modify m.entries k j f

@[simp] theorem find?_modify_self (m : OrdMap κ ν) (k : κ) (f : ν → ν) :
    (m.modify k f).find? k = (m.find? k).map f := by
  rw [find?_modify, if_pos rfl]

/-- Changing the value of an absent key changes nothing. -/
theorem modify_of_find?_eq_none {m : OrdMap κ ν} {k : κ} (h : m.find? k = none) (f : ν → ν) :
    m.modify k f = m := by
  have hk : k ∉ m.keys := find?_eq_none.mp h
  obtain ⟨l, hl⟩ := m
  simp only [modify, mk.injEq]
  refine (List.map_congr_left fun e he => if_neg ?_).trans (List.map_id l)
  rintro rfl
  exact hk (List.mem_map_of_mem he)

/-- Changing the value of a key that is then erased changes nothing. -/
@[simp] theorem erase_modify (m : OrdMap κ ν) (k : κ) (f : ν → ν) :
    (m.modify k f).erase k = m.erase k := by
  obtain ⟨l, hl⟩ := m
  simp only [modify, erase, mk.injEq, List.filter_map]
  have hkey : ((fun e : κ × ν => decide (e.1 ≠ k)) ∘
      fun e : κ × ν => if e.1 = k then (e.1, f e.2) else e) = fun e => decide (e.1 ≠ k) := by
    funext e
    by_cases he : e.1 = k <;> simp [he]
  rw [hkey]
  refine (List.map_congr_left fun e he => if_neg ?_).trans (List.map_id _)
  exact of_decide_eq_true (List.mem_filter.mp he).2

@[simp] theorem modify_modify (m : OrdMap κ ν) (k : κ) (f g : ν → ν) :
    (m.modify k f).modify k g = m.modify k fun v => g (f v) := by
  obtain ⟨l, hl⟩ := m
  simp only [modify, mk.injEq, List.map_map]
  refine List.map_congr_left fun e _ => ?_
  by_cases he : e.1 = k <;> simp [he]

/-- Changing a value that was just inserted. -/
@[simp] theorem modify_insert (m : OrdMap κ ν) (k : κ) (v : ν) (f : ν → ν) :
    (m.insert k v).modify k f = m.insert k (f v) := by
  unfold insert
  split
  · simp
  · next hk =>
    have hsame : (m.modify k f).entries = m.entries := by
      refine (List.map_congr_left fun e he => if_neg ?_).trans (List.map_id _)
      rintro rfl
      exact hk (List.mem_map_of_mem he)
    simp only [modify] at hsame
    simp [modify, hsame]

theorem find?_modify_of_ne (m : OrdMap κ ν) {k j : κ} (f : ν → ν) (h : j ≠ k) :
    (m.modify k f).find? j = m.find? j := by
  rw [find?_modify, if_neg h]

private theorem lookup_filter_ne (l : List (κ × ν)) (k j : κ) :
    (l.filter fun e => e.1 ≠ k).lookup j = if j = k then none else l.lookup j := by
  induction l with
  | nil => simp
  | cons e l ih =>
    obtain ⟨i, v⟩ := e
    by_cases hik : i = k
    · subst hik
      by_cases hji : j = i
      · subst hji; simpa using ih
      · have hb : (j == i) = false := by simpa using hji
        simpa [List.lookup, hb, hji] using ih
    · by_cases hji : j = i
      · subst hji; simp [List.lookup, hik]
      · have hb : (j == i) = false := by simpa using hji
        simpa [List.lookup, hik, hb] using ih

theorem find?_erase (m : OrdMap κ ν) (k j : κ) :
    (m.erase k).find? j = if j = k then none else m.find? j :=
  lookup_filter_ne m.entries k j

@[simp] theorem find?_erase_self (m : OrdMap κ ν) (k : κ) : (m.erase k).find? k = none := by
  rw [find?_erase, if_pos rfl]

theorem find?_erase_of_ne (m : OrdMap κ ν) {k j : κ} (h : j ≠ k) :
    (m.erase k).find? j = m.find? j := by
  rw [find?_erase, if_neg h]

theorem find?_insert (m : OrdMap κ ν) (k j : κ) (v : ν) :
    (m.insert k v).find? j = if j = k then some v else m.find? j := by
  unfold insert
  split
  · next h =>
    rw [find?_modify]
    split
    · next hj =>
      obtain ⟨w, hw⟩ := mem_keys_iff.mp h
      rw [hj, hw]; rfl
    · rfl
  · next h =>
    have hnone : m.entries.lookup k = none := find?_eq_none.mpr h
    change (m.entries ++ [(k, v)]).lookup j = _
    rw [List.lookup_append]
    split
    · next hj => subst hj; simp [hnone, List.lookup]
    · next hj =>
      have hb : (j == k) = false := by simpa using hj
      simp [List.lookup, hb, find?]

@[simp] theorem find?_insert_self (m : OrdMap κ ν) (k : κ) (v : ν) :
    (m.insert k v).find? k = some v := by
  rw [find?_insert, if_pos rfl]

theorem find?_insert_of_ne (m : OrdMap κ ν) {k j : κ} (v : ν) (h : j ≠ k) :
    (m.insert k v).find? j = m.find? j := by
  rw [find?_insert, if_neg h]

/-- An entry of the list is what the lookup finds, since keys do not repeat. -/
theorem find?_of_mem {m : OrdMap κ ν} {k : κ} {v : ν} (h : (k, v) ∈ m.entries) :
    m.find? k = some v := by
  obtain ⟨l, hl⟩ := m
  unfold find?
  induction l with
  | nil => exact absurd h List.not_mem_nil
  | cons e l ih =>
    obtain ⟨j, w⟩ := e
    rw [List.map_cons, List.nodup_cons] at hl
    rcases List.mem_cons.mp h with heq | hmem
    · obtain ⟨rfl, rfl⟩ := Prod.mk.inj heq
      simp [List.lookup]
    · have hne : k ≠ j := by
        rintro rfl
        exact hl.1 (List.mem_map.mpr ⟨_, hmem, rfl⟩)
      have hb : (k == j) = false := by simpa using hne
      simpa [List.lookup, hb] using ih hl.2 hmem

/-- What holds of every value holds after a change that keeps it. -/
theorem forall_find?_modify {m : OrdMap κ ν} {k : κ} {f : ν → ν} {P : κ → ν → Prop}
    (h : ∀ j v, m.find? j = some v → P j v) (hf : ∀ v, m.find? k = some v → P k (f v)) :
    ∀ j v, (m.modify k f).find? j = some v → P j v := by
  intro j v hv
  rw [find?_modify] at hv
  split at hv
  · next hj =>
    subst hj
    obtain ⟨w, hw, rfl⟩ := Option.map_eq_some_iff.mp hv
    exact hf w hw
  · exact h j v hv

theorem forall_find?_erase {m : OrdMap κ ν} {P : κ → ν → Prop}
    (h : ∀ j v, m.find? j = some v → P j v) (k : κ) :
    ∀ j v, (m.erase k).find? j = some v → P j v := by
  intro j v hv
  rw [find?_erase] at hv
  split at hv
  · cases hv
  · exact h j v hv

theorem size_insert_le (m : OrdMap κ ν) (k : κ) (v : ν) : (m.insert k v).size ≤ m.size + 1 := by
  unfold insert
  split
  · rw [size_modify]
    exact Nat.le_succ _
  · simp [size]

theorem size_erase_le (m : OrdMap κ ν) (k : κ) : (m.erase k).size ≤ m.size :=
  List.length_filter_le _ _

theorem mem_keys_insert {m : OrdMap κ ν} {k j : κ} {v : ν} :
    j ∈ (m.insert k v).keys ↔ j = k ∨ j ∈ m.keys := by
  rw [mem_keys_iff, mem_keys_iff, find?_insert]
  split <;> simp [*]

/-- Only the value that is changed matters. -/
theorem modify_congr {m : OrdMap κ ν} {k : κ} {v : ν} (h : m.find? k = some v) {f g : ν → ν}
    (hfg : f v = g v) : m.modify k f = m.modify k g := by
  obtain ⟨l, hl⟩ := m
  simp only [modify, mk.injEq]
  refine List.map_congr_left fun e he => ?_
  split
  · next hk =>
    have hv : some e.2 = some v := (find?_of_mem (m := ⟨l, hl⟩) he).symm.trans (hk ▸ h)
    rw [Option.some.inj hv, hfg]
  · rfl

theorem mem_of_find? {m : OrdMap κ ν} {k : κ} {v : ν} (h : m.find? k = some v) :
    (k, v) ∈ m.entries := by
  obtain ⟨w, hw⟩ : ∃ w, (k, w) ∈ m.entries := by
    simpa [keys] using mem_keys_of_find? h
  rw [find?_of_mem hw, Option.some.injEq] at h
  rwa [← h]

theorem any_iff {m : OrdMap κ ν} {p : κ → ν → Bool} :
    m.any p = true ↔ ∃ k v, m.find? k = some v ∧ p k v = true := by
  simp only [any, List.any_eq_true, Prod.exists]
  constructor
  · rintro ⟨k, v, hm, hp⟩
    exact ⟨k, v, find?_of_mem hm, hp⟩
  · rintro ⟨k, v, hf, hp⟩
    exact ⟨k, v, mem_of_find? hf, hp⟩

/-! ### Weights -/

/-- The sum of a weight over all values. -/
def sum (m : OrdMap κ ν) (weight : ν → Nat) : Nat := (m.entries.map fun e => weight e.2).sum

/-- What is not at a key is left when the key goes. -/
theorem filter_entries_of_notMem {l : List (κ × ν)} {k : κ} (h : k ∉ l.map Prod.fst) :
    l.filter (fun e => e.1 ≠ k) = l := by
  refine List.filter_eq_self.mpr fun e he => ?_
  have hne : e.1 ≠ k := fun heq => h (heq ▸ List.mem_map_of_mem he)
  simpa using hne

theorem sum_erase {m : OrdMap κ ν} {k : κ} {x : ν} (weight : ν → Nat) (h : m.find? k = some x) :
    (m.erase k).sum weight + weight x = m.sum weight := by
  obtain ⟨l, hl⟩ := m
  simp only [sum, erase, find?] at h ⊢
  induction l with
  | nil => cases h
  | cons e l ih =>
    rw [List.map_cons, List.nodup_cons] at hl
    by_cases he : e.1 = k
    · subst he
      rw [List.lookup_cons_self, Option.some.injEq] at h
      subst h
      rw [List.filter_cons_of_neg (by simp), filter_entries_of_notMem hl.1, List.map_cons,
        List.sum_cons, Nat.add_comm]
    · have hb : (k == e.1) = false := by simpa using fun heq => he heq.symm
      rw [List.lookup_cons, hb] at h
      rw [List.filter_cons_of_pos (by simpa using he), List.map_cons, List.map_cons, List.sum_cons,
        List.sum_cons, Nat.add_assoc, ih hl.2 h]

theorem sum_modify {m : OrdMap κ ν} {k : κ} {x : ν} (weight : ν → Nat) (f : ν → ν)
    (h : m.find? k = some x) :
    (m.modify k f).sum weight + weight x = m.sum weight + weight (f x) := by
  have herase := sum_erase weight h
  have hmodify := sum_erase (m := m.modify k f) weight
    (show _ = some (f x) by rw [find?_modify_self, h]; rfl)
  rw [erase_modify] at hmodify
  omega

theorem sum_erase_le (m : OrdMap κ ν) (k : κ) (weight : ν → Nat) :
    (m.erase k).sum weight ≤ m.sum weight := by
  cases h : m.find? k with
  | some x =>
    have herase := sum_erase weight h
    omega
  | none =>
    have hk : k ∉ m.keys := fun hmem => by
      obtain ⟨x, hx⟩ := mem_keys_iff.mp hmem
      rw [h] at hx
      cases hx
    exact Nat.le_of_eq (congrArg (sum · weight) (erase_of_notMem hk))

theorem sum_modify_le (m : OrdMap κ ν) (k : κ) (weight : ν → Nat) {f : ν → ν}
    (hf : ∀ x, weight (f x) ≤ weight x) : (m.modify k f).sum weight ≤ m.sum weight := by
  cases h : m.find? k with
  | some x =>
    have hmodify := sum_modify weight f h
    have hx := hf x
    omega
  | none => exact Nat.le_of_eq (congrArg (sum · weight) (modify_of_find?_eq_none h f))

/-! ### Changing every value -/

def mapValues {μ : Type _} (m : OrdMap κ ν) (f : ν → μ) : OrdMap κ μ where
  entries := m.entries.map fun e => (e.1, f e.2)
  nodup := by
    rw [List.map_map]
    exact m.nodup

section MapValues
variable {μ : Type _} (m : OrdMap κ ν) (f : ν → μ)

omit [DecidableEq κ] in
@[simp] theorem mapValues_empty : (∅ : OrdMap κ ν).mapValues f = ∅ := rfl

omit [DecidableEq κ] in
@[simp] theorem keys_mapValues : (m.mapValues f).keys = m.keys := by
  simp only [keys, mapValues, List.map_map]
  rfl

omit [DecidableEq κ] in
@[simp] theorem size_mapValues : (m.mapValues f).size = m.size := List.length_map _

omit [DecidableEq κ] in
@[simp] theorem isEmpty_mapValues : (m.mapValues f).isEmpty = m.isEmpty := by
  simp [isEmpty, mapValues]

omit [DecidableEq κ] in
@[simp] theorem any_mapValues (p : κ → μ → Bool) :
    (m.mapValues f).any p = m.any fun k x => p k (f x) := by
  simp only [any, mapValues, List.any_map]
  rfl

@[simp] theorem find?_mapValues (k : κ) : (m.mapValues f).find? k = (m.find? k).map f := by
  simp only [find?, mapValues]
  induction m.entries with
  | nil => rfl
  | cons e l ih =>
    rw [List.map_cons, List.lookup_cons, List.lookup_cons]
    split
    · rfl
    · exact ih

@[simp] theorem contains_mapValues (k : κ) : (m.mapValues f).contains k = m.contains k := by
  simp [contains]

@[simp] theorem mapValues_erase (k : κ) : (m.erase k).mapValues f = (m.mapValues f).erase k := by
  simp only [erase, mapValues, mk.injEq, List.filter_map]
  rfl

theorem mapValues_modify (k : κ) {g : ν → ν} {g' : μ → μ} (h : ∀ x, f (g x) = g' (f x)) :
    (m.modify k g).mapValues f = (m.mapValues f).modify k g' := by
  simp only [modify, mapValues, mk.injEq, List.map_map]
  refine List.map_congr_left fun e _ => ?_
  simp only [Function.comp_apply]
  split
  · rw [h]
  · rfl

theorem mapValues_insert (k : κ) (x : ν) :
    (m.insert k x).mapValues f = (m.mapValues f).insert k (f x) := by
  by_cases h : k ∈ m.keys
  · have h' : k ∈ (m.mapValues f).keys := by rwa [keys_mapValues]
    rw [insert, dif_pos h, insert, dif_pos h']
    exact mapValues_modify m f k fun _ => rfl
  · have h' : k ∉ (m.mapValues f).keys := by rwa [keys_mapValues]
    rw [insert, dif_neg h, insert, dif_neg h']
    simp [mapValues]

theorem mapValues_eq_self {g : ν → ν} (h : ∀ k x, m.find? k = some x → g x = x) :
    m.mapValues g = m := by
  obtain ⟨l, hl⟩ := m
  simp only [mapValues, mk.injEq]
  refine (List.map_congr_left fun e he => ?_).trans (List.map_id l)
  rw [h e.1 e.2 (find?_of_mem (m := ⟨l, hl⟩) he)]
  rfl

end MapValues

end OrdMap

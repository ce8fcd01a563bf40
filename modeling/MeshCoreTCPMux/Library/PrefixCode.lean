import Mathlib

/-!
# Codes that end by themselves

An encoding into lists is prefix-free when a list that begins with the encoding of a value tells the
value and where its encoding ends. Such an encoding is injective, and no encoding is a truncation or
an extension of another one, so that a recogniser of the encodings accepts exactly one value's
encoding at a time.
-/

variable {α β : Type}

def PrefixFree (encode : α → List β) : Prop :=
  ∀ ⦃a b : α⦄ ⦃r r' : List β⦄, encode a ++ r = encode b ++ r' → a = b ∧ r = r'

namespace PrefixFree

variable {encode : α → List β}

theorem injective (h : PrefixFree encode) : Function.Injective encode := fun a b hab =>
  (h (show encode a ++ [] = encode b ++ [] by rw [hab])).1

theorem eq_of_isPrefix (h : PrefixFree encode) {a b : α} (hab : encode a <+: encode b) : a = b := by
  obtain ⟨r, hr⟩ := hab
  exact (h (hr.trans (List.append_nil _).symm)).1

/-- What recognises the encodings recognises one value at a time. -/
theorem existsUnique_iff (h : PrefixFree encode) {p : List β} :
    (∃! a, encode a = p) ↔ ∃ a, encode a = p := by
  refine ⟨ExistsUnique.exists, fun ⟨a, ha⟩ => ⟨a, ha, fun b hb => ?_⟩⟩
  exact h.injective (hb.trans ha.symm)

/-- No truncation and no extension of an encoding is an encoding. -/
theorem eq_of_comparable (h : PrefixFree encode) {a b : α}
    (hab : encode b <+: encode a ∨ encode a <+: encode b) : encode b = encode a :=
  congrArg encode (hab.elim h.eq_of_isPrefix fun hle => (h.eq_of_isPrefix hle).symm)

end PrefixFree

/-! ### Blocks of one size -/

/-- Lists of equally many blocks of one size are told apart by what they make up. -/
theorem flatten_inj {n : Nat} {l m : List (List β)} (hl : ∀ x ∈ l, x.length = n)
    (hm : ∀ x ∈ m, x.length = n) (hlength : l.length = m.length)
    (h : l.flatten = m.flatten) : l = m := by
  induction l generalizing m with
  | nil => exact (List.length_eq_zero_iff.mp hlength.symm).symm
  | cons x l ih =>
    cases m with
    | nil => cases hlength
    | cons y m =>
      have hsize : x.length = y.length :=
        (hl x List.mem_cons_self).trans (hm y List.mem_cons_self).symm
      obtain ⟨rfl, hrest⟩ := List.append_inj h hsize
      rw [ih (fun z hz => hl z (List.mem_cons_of_mem _ hz))
        (fun z hz => hm z (List.mem_cons_of_mem _ hz)) (Nat.succ.inj hlength) hrest]

theorem length_flatten_blocks {n : Nat} {l : List (List β)} (hl : ∀ x ∈ l, x.length = n) :
    l.flatten.length = l.length * n := by
  induction l with
  | nil => exact (Nat.zero_mul n).symm
  | cons x l ih =>
    rw [List.flatten_cons, List.length_append, hl x List.mem_cons_self,
      ih fun z hz => hl z (List.mem_cons_of_mem _ hz), List.length_cons, Nat.succ_mul, Nat.add_comm]

/-- A list of the size of `count` blocks consists of them. -/
theorem exists_flatten {n count : Nat} {p : List β} (h : p.length = count * n) :
    ∃ l : List (List β), l.length = count ∧ (∀ x ∈ l, x.length = n) ∧ l.flatten = p := by
  induction count generalizing p with
  | zero =>
    rw [Nat.zero_mul] at h
    exact ⟨[], rfl, fun _ hx => (List.not_mem_nil hx).elim, (List.length_eq_zero_iff.mp h).symm⟩
  | succ count ih =>
    rw [Nat.succ_mul] at h
    obtain ⟨l, hcount, hblocks, hflatten⟩ := ih (p := p.drop n) (by rw [List.length_drop]; omega)
    refine ⟨p.take n :: l, by rw [List.length_cons, hcount], fun x hx => ?_, ?_⟩
    · rcases List.mem_cons.mp hx with rfl | hx
      · rw [List.length_take]
        omega
      · exact hblocks x hx
    · rw [List.flatten_cons, hflatten, List.take_append_drop]

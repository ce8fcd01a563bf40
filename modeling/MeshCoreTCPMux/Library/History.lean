import Mathlib

/-!
# Histories

A history is a list of entries, the oldest first. A history is justified when each of its entries
is, by the entries before it; a state that is read off a history is a fold over it.
-/

namespace History

variable {α σ : Type}

/-- Every entry is justified by the entries before it. -/
def Justified (J : List α → α → Prop) (l : List α) : Prop :=
  ∀ past a future, l = past ++ a :: future → J past a

/-! ### Folds -/

/-- Entries that change nothing may be skipped. -/
theorem foldl_neutral {f : σ → α → σ} {l : List α} {x : σ} (h : ∀ a ∈ l, ∀ x, f x a = x) :
    l.foldl f x = x := by
  induction l with
  | nil => rfl
  | cons a l ih =>
    rw [List.foldl_cons, h a List.mem_cons_self]
    exact ih fun b hb => h b (List.mem_cons_of_mem _ hb)

variable {J K : List α → α → Prop} {l m : List α} {a b : α}

theorem Justified.nil : Justified J ([] : List α) :=
  fun past a future h => by simp at h

/-- Only the new entry needs a justification. -/
theorem Justified.snoc (h : Justified J l) (ha : J l a) : Justified J (l ++ [a]) := by
  intro past b future heq
  rcases List.eq_nil_or_concat future with rfl | ⟨front, last, rfl⟩
  · obtain ⟨rfl, hab⟩ := List.append_inj' heq rfl
    obtain rfl := (List.cons.inj hab).1
    exact ha
  · rw [List.concat_eq_append, ← List.cons_append, ← List.append_assoc] at heq
    exact h past b front (List.append_inj' heq rfl).1

theorem Justified.snoc₂ (h : Justified J l) (ha : J l a) (hb : J (l ++ [a]) b) :
    Justified J (l ++ [a] ++ [b]) :=
  (h.snoc ha).snoc hb

theorem Justified.of_append (h : Justified J (l ++ m)) : Justified J l :=
  fun past a future heq => h past a (future ++ m) (by rw [heq, List.append_assoc, List.cons_append])

theorem Justified.mono (h : Justified J l) (hJK : ∀ past a, J past a → K past a) :
    Justified K l :=
  fun past a future heq => hJK past a (h past a future heq)

theorem Justified.and (hJ : Justified J l) (hK : Justified K l) :
    Justified (fun past a => J past a ∧ K past a) l :=
  fun past a future heq => ⟨hJ past a future heq, hK past a future heq⟩

/-- Each new entry is justified by what stands before it. -/
theorem Justified.extend (h : Justified J l)
    (hm : ∀ front a back, m = front ++ a :: back → J (l ++ front) a) : Justified J (l ++ m) := by
  induction m using List.reverseRecOn with
  | nil => rwa [List.append_nil]
  | append_singleton m a ih =>
    rw [← List.append_assoc]
    refine Justified.snoc (ih fun front b back heq => ?_) (hm m a [] rfl)
    exact hm front b (back ++ [a]) (by rw [heq, List.append_assoc, List.cons_append])

/-- Entries that need no justification. -/
theorem Justified.append (h : Justified J l) (hm : ∀ past, ∀ a ∈ m, J past a) :
    Justified J (l ++ m) := by
  induction m generalizing l with
  | nil => rwa [List.append_nil]
  | cons a m ih =>
    rw [List.append_cons]
    exact ih (h.snoc (hm l a List.mem_cons_self)) fun past b hb =>
      hm past b (List.mem_cons_of_mem _ hb)

/-! ### Occurrences -/

/-- Some entry satisfies `J` with the entries before it. -/
def Occurs (J : List α → α → Prop) (l : List α) : Prop :=
  ∃ past a future, l = past ++ a :: future ∧ J past a

theorem Occurs.append (h : Occurs J l) (m : List α) : Occurs J (l ++ m) := by
  obtain ⟨past, a, future, rfl, ha⟩ := h
  exact ⟨past, a, future ++ m, by simp, ha⟩

theorem occurs_snoc : Occurs J (l ++ [a]) ↔ Occurs J l ∨ J l a := by
  constructor
  · rintro ⟨past, b, future, heq, hb⟩
    rcases List.eq_nil_or_concat future with rfl | ⟨front, last, rfl⟩
    · obtain ⟨rfl, hab⟩ := List.append_inj' heq rfl
      obtain rfl := (List.cons.inj hab).1
      exact .inr hb
    · rw [List.concat_eq_append, ← List.cons_append, ← List.append_assoc] at heq
      exact .inl ⟨past, b, front, (List.append_inj' heq rfl).1, hb⟩
  · rintro (h | h)
    · exact h.append [a]
    · exact ⟨l, a, [], rfl, h⟩

/-- Entries that satisfy `J` nowhere add no occurrence. -/
theorem occurs_append (hm : ∀ past, ∀ a ∈ m, ¬ J past a) : Occurs J (l ++ m) ↔ Occurs J l := by
  induction m generalizing l with
  | nil => rw [List.append_nil]
  | cons a m ih =>
    rw [List.append_cons, ih fun past b hb => hm past b (List.mem_cons_of_mem _ hb), occurs_snoc]
    exact or_iff_left (hm l a List.mem_cons_self)

end History

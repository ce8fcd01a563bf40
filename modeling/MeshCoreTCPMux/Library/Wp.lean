import Mathlib

/-!
# Weakest preconditions of programs with state and exceptions

A program is a value of `EStateM ε σ α`: it reads and writes a state `σ` and either returns or
raises, and what it wrote before it raised stays written. `wp m Q E s` says that `m`, started in
`s`, ends in `Q` when it returns and in `E` when it raises.

The rules follow the monad: one rule for each way of building a program. They are equivalences
tagged for `simp`, so that the precondition of a loop-free program is computed by rewriting. Calls
are treated by `wp_call`, which replaces a call by what its own specification says of it, and loops
over a list by `wp_forM`, which asks for an invariant indexed by the elements still to come.

Computations that raise without touching the state are values of `Except`; for them it is enough to
invert a return into the returns of its parts.
-/

/-! ### Pure computations that may raise -/

namespace Except

variable {ε α β : Type}

/-- A sequence returns exactly when its parts do. -/
@[simp] theorem bind_eq_ok {x : Except ε α} {f : α → Except ε β} {b : β} :
    x >>= f = .ok b ↔ ∃ a, x = .ok a ∧ f a = .ok b := by
  cases x <;> simp [bind, Except.bind]

@[simp] theorem map_eq_ok {x : Except ε α} {f : α → β} {b : β} :
    f <$> x = .ok b ↔ ∃ a, x = .ok a ∧ f a = b := by
  cases x <;> simp [Functor.map, Except.map]

@[simp] theorem pure_eq_ok {a b : α} : (pure a : Except ε α) = .ok b ↔ a = b := by
  simp [pure, Except.pure]

@[simp] theorem throw_eq_ok {e : ε} {b : α} : (throw e : Except ε α) = .ok b ↔ False := by
  simp [throw, throwThe, MonadExceptOf.throw]

end Except

namespace Program

variable {ε σ α β : Type}

/-- `m` run from `s` satisfies `Q` on return and `E` on a raise. -/
def wp (m : EStateM ε σ α) (Q : α → σ → Prop) (E : ε → σ → Prop) (s : σ) : Prop :=
  match m s with
  | .ok a t => Q a t
  | .error e t => E e t

/-- `m` run from `s` returns, and its result and final state satisfy `Q`. -/
def Returns (m : EStateM ε σ α) (s : σ) (Q : α → σ → Prop) : Prop :=
  wp m Q (fun _ _ => False) s

variable {Q : α → σ → Prop} {E : ε → σ → Prop} {s : σ}

theorem wp_mono {m : EStateM ε σ α} {Q' : α → σ → Prop} {E' : ε → σ → Prop}
    (h : wp m Q' E' s) (hQ : ∀ a t, Q' a t → Q a t) (hE : ∀ e t, E' e t → E e t) :
    wp m Q E s := by
  unfold wp at h ⊢
  split at h
  · exact hQ _ _ h
  · exact hE _ _ h

theorem wp_of_returns {m : EStateM ε σ α} {Q' : α → σ → Prop} (h : Returns m s Q')
    (hQ : ∀ a t, Q' a t → Q a t) : wp m Q E s :=
  wp_mono h hQ fun _ _ hf => hf.elim

theorem returns_iff {m : EStateM ε σ α} :
    Returns m s Q ↔ ∃ a t, m s = .ok a t ∧ Q a t := by
  unfold Returns wp
  cases m s with
  | ok a t => simp
  | error e t => simp

theorem Returns.mono {m : EStateM ε σ α} {Q' : α → σ → Prop} (h : Returns m s Q')
    (hQ : ∀ a t, Q' a t → Q a t) : Returns m s Q :=
  wp_of_returns h hQ

/-! ### Runs of sequences -/

theorem get_bind (f : σ → EStateM ε σ α) : (get >>= f) s = f s s := rfl

theorem modify_bind (g : σ → σ) (f : PUnit → EStateM ε σ α) :
    (modify g >>= f) s = f ⟨⟩ (g s) := rfl

theorem bind_of_ok {m : EStateM ε σ β} {f : β → EStateM ε σ α} {b : β} {t : σ}
    (h : m s = .ok b t) : (m >>= f) s = f b t := by
  change EStateM.bind m f s = _
  unfold EStateM.bind
  rw [h]

/-! ### The rules -/

@[simp] theorem wp_pure (a : α) : wp (pure a : EStateM ε σ α) Q E s ↔ Q a s := Iff.rfl

@[simp] theorem wp_bind (m : EStateM ε σ β) (f : β → EStateM ε σ α) :
    wp (m >>= f) Q E s ↔ wp m (fun b t => wp (f b) Q E t) E s := by
  change (match EStateM.bind m f s with | .ok a t => Q a t | .error e t => E e t) ↔ _
  unfold wp EStateM.bind
  cases m s <;> rfl

@[simp] theorem wp_map (m : EStateM ε σ β) (f : β → α) :
    wp (f <$> m) Q E s ↔ wp m (fun b t => Q (f b) t) E s := by
  change (match EStateM.map f m s with | .ok a t => Q a t | .error e t => E e t) ↔ _
  unfold wp EStateM.map
  cases m s <;> rfl

@[simp] theorem wp_get {Q : σ → σ → Prop} : wp (get : EStateM ε σ σ) Q E s ↔ Q s s := Iff.rfl

@[simp] theorem wp_set {Q : PUnit → σ → Prop} (t : σ) :
    wp (set t : EStateM ε σ PUnit) Q E s ↔ Q ⟨⟩ t := Iff.rfl

@[simp] theorem wp_modify {Q : PUnit → σ → Prop} (f : σ → σ) :
    wp (modify f : EStateM ε σ PUnit) Q E s ↔ Q ⟨⟩ (f s) := Iff.rfl

@[simp] theorem wp_modifyGet (f : σ → α × σ) :
    wp (modifyGet f : EStateM ε σ α) Q E s ↔ Q (f s).1 (f s).2 := Iff.rfl

@[simp] theorem wp_throw (e : ε) : wp (throw e : EStateM ε σ α) Q E s ↔ E e s := Iff.rfl

@[simp] theorem wp_tryCatch (m : EStateM ε σ α) (h : ε → EStateM ε σ α) :
    wp (tryCatch m h) Q E s ↔ wp m Q (fun e t => wp (h e) Q E t) s := by
  change (match EStateM.tryCatch m h s with | .ok a t => Q a t | .error e t => E e t) ↔ _
  unfold wp EStateM.tryCatch
  cases m s <;> rfl

@[simp] theorem wp_ite (c : Prop) [Decidable c] (a b : EStateM ε σ α) :
    wp (if c then a else b) Q E s ↔ if c then wp a Q E s else wp b Q E s := by
  split <;> rfl

@[simp] theorem wp_forM_nil {Q : PUnit → σ → Prop} (f : β → EStateM ε σ PUnit) :
    wp (([] : List β).forM f) Q E s ↔ Q ⟨⟩ s := Iff.rfl

@[simp] theorem wp_forM_cons {Q : PUnit → σ → Prop} (b : β) (l : List β)
    (f : β → EStateM ε σ PUnit) :
    wp ((b :: l).forM f) Q E s ↔ wp (f b) (fun _ t => wp (l.forM f) Q E t) E s :=
  wp_bind (f b) fun _ => l.forM f

/-- A disjunction that stops at its first true operand. -/
theorem wp_orM {Q : Bool → σ → Prop} (x y : EStateM ε σ Bool) :
    wp (x <||> y) Q E s ↔ wp x (fun b t => if b then Q true t else wp y Q E t) E s := by
  unfold orM
  rw [wp_bind]
  constructor <;> intro h <;> refine wp_mono h (fun b t hb => ?_) fun _ _ h => h
  all_goals cases b <;> exact hb

/-- A conjunction that stops at its first false operand. -/
theorem wp_andM {Q : Bool → σ → Prop} (x y : EStateM ε σ Bool) :
    wp (x <&&> y) Q E s ↔ wp x (fun b t => if b then wp y Q E t else Q false t) E s := by
  unfold andM
  rw [wp_bind]
  constructor <;> intro h <;> refine wp_mono h (fun b t hb => ?_) fun _ _ h => h
  all_goals cases b <;> exact hb

/-! ### Calls and loops -/

/-- A call, followed by the rest of the program, by what the callee's specification says. -/
theorem wp_call {m : EStateM ε σ β} {f : β → EStateM ε σ α} {R : β → σ → Prop}
    (h : Returns m s R) (hf : ∀ b t, R b t → wp (f b) Q E t) : wp (m >>= f) Q E s := by
  rw [wp_bind]
  exact wp_of_returns h hf

/-- **The loop rule.** `I rest` holds before the loop body runs on the elements `rest` still to
come, and the body takes `I (b :: rest)` to `I rest`. -/
theorem wp_forM (I : List β → σ → Prop) {l : List β} {f : β → EStateM ε σ PUnit}
    {Q : PUnit → σ → Prop} (hI : I l s)
    (hstep : ∀ b rest t, I (b :: rest) t → wp (f b) (fun _ u => I rest u) E t)
    (hend : ∀ t, I [] t → Q ⟨⟩ t) : wp (l.forM f) Q E s := by
  induction l generalizing s with
  | nil => exact hend s hI
  | cons b l ih =>
    rw [wp_forM_cons]
    exact wp_mono (hstep b l s hI) (fun _ _ h => ih h) fun _ _ h => h

end Program

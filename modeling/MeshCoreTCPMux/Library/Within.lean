import MeshCoreTCPMux.Library.Wp

/-!
# Programs within a relation

A program stays within a relation `R` between states when, from every state, it ends in a state that
`R` relates to the first one, whether it returns or raises; what it raises satisfies `E`. Where `R`
is reflexive and transitive this follows the monad, so that a bound on what a program changes is read
off what its parts change.
-/

/-! ### Pure computations -/

namespace Except

variable {ε α β : Type} {E : ε → Prop}

/-- What a computation raises satisfies `E`. -/
def Raises (E : ε → Prop) (x : Except ε α) : Prop := ∀ e, x = .error e → E e

namespace Raises

theorem ok (a : α) : Raises E (.ok a) := fun _ h => nomatch h

theorem pure (a : α) : Raises E (Pure.pure a : Except ε α) := fun _ h => nomatch h

theorem error {e : ε} (h : E e) : Raises (α := α) E (.error e) := fun _ heq => Except.error.inj heq ▸ h

theorem throw {e : ε} (h : E e) : Raises E (MonadExcept.throw e : Except ε α) :=
  fun _ heq => Except.error.inj heq ▸ h

theorem bind {x : Except ε α} {f : α → Except ε β} (hx : Raises E x) (hf : ∀ a, Raises E (f a)) :
    Raises E (x >>= f) := by
  cases x with
  | ok a => exact hf a
  | error e => exact fun _ heq => hx _ (congrArg Except.error (Except.error.inj heq))

theorem map {x : Except ε α} {f : α → β} (hx : Raises E x) : Raises E (f <$> x) := by
  cases x with
  | ok a => exact ok _
  | error e => exact fun _ heq => hx _ (congrArg Except.error (Except.error.inj heq))

theorem ite {c : Prop} [Decidable c] {x y : Except ε α} (hx : Raises E x) (hy : Raises E y) :
    Raises E (if c then x else y) := by
  split
  · exact hx
  · exact hy

end Raises

end Except

namespace Program

variable {ε σ α β : Type}

def Within (E : ε → Prop) (R : σ → σ → Prop) (m : EStateM ε σ α) : Prop :=
  ∀ s, wp m (fun _ t => R s t) (fun e t => E e ∧ R s t) s

namespace Within

variable {E F : ε → Prop} {R : σ → σ → Prop}

/-- What a program does from one state. -/
theorem ends {m : EStateM ε σ α} {Q : σ → Prop} {s : σ} (hm : Within E R m)
    (h : ∀ {t}, R s t → Q t) : wp m (fun _ t => Q t) (fun e t => E e ∧ Q t) s :=
  wp_mono (hm s) (fun _ _ => h) fun _ _ ⟨he, hst⟩ => ⟨he, h hst⟩

/-- A change of the state before a program. -/
theorem modify_bind {T U : σ → σ → Prop} {f : σ → σ} {g : PUnit → EStateM ε σ α}
    (hf : ∀ s, R s (f s)) (hg : Within E T (g ⟨⟩)) (h : ∀ {s t u}, R s t → T t u → U s u) :
    Within E U (modify f >>= g) := by
  intro s
  rw [wp_bind, wp_modify]
  exact hg.ends (h (hf s))

theorem modify {f : σ → σ} (h : ∀ s, R s (f s)) : Within E R (modify f : EStateM ε σ PUnit) := h

theorem modifyGet {f : σ → α × σ} (h : ∀ s, R s (f s).2) :
    Within E R (modifyGet f : EStateM ε σ α) := h

theorem mono {T : σ → σ → Prop} {m : EStateM ε σ α} (hm : Within E R m)
    (h : ∀ {s t}, R s t → T s t) : Within E T m :=
  fun _ => hm.ends h

/-- One program after another, where relations compose. -/
theorem comp {T U : σ → σ → Prop} {m : EStateM ε σ β} {f : β → EStateM ε σ α} (hm : Within E R m)
    (hf : ∀ b, Within E T (f b)) (hraise : ∀ {s t}, R s t → U s t)
    (h : ∀ {s t u}, R s t → T t u → U s u) : Within E U (m >>= f) := by
  intro s
  rw [wp_bind]
  exact wp_mono (hm s) (fun b t hst => (hf b).ends (h hst)) fun _ _ ⟨he, hst⟩ => ⟨he, hraise hst⟩

theorem bind [IsTrans σ R] {m : EStateM ε σ β} {f : β → EStateM ε σ α} (hm : Within E R m)
    (hf : ∀ b, Within E R (f b)) : Within E R (m >>= f) := hm.comp hf (fun h => h) (trans_of R)

theorem map {m : EStateM ε σ β} {f : β → α} (hm : Within E R m) : Within E R (f <$> m) := by
  intro s
  rw [wp_map]
  exact hm s

theorem ite {c : Prop} [Decidable c] {m n : EStateM ε σ α} (hm : c → Within E R m)
    (hn : ¬ c → Within E R n) : Within E R (if c then m else n) := by
  split
  · next h => exact hm h
  · next h => exact hn h

theorem get_bind {f : σ → EStateM ε σ α} (hf : ∀ s, Within E R (f s)) :
    Within E R (MonadState.get >>= f) := fun s => hf s s

/-- What a handler does to the errors that reach it. -/
theorem tryCatch [IsTrans σ R] {m : EStateM ε σ α} {h : ε → EStateM ε σ α} (hm : Within F R m)
    (hh : ∀ e, F e → Within E R (h e)) : Within E R (tryCatch m h) := by
  intro s
  rw [wp_tryCatch]
  exact wp_mono (hm s) (fun _ _ hst => hst) fun e _ ⟨he, hst⟩ => (hh e he).ends (trans_of R hst)

section Preorder
variable [Std.Refl R]

theorem pure (a : α) : Within E R (Pure.pure a : EStateM ε σ α) := fun s => refl_of R s

theorem throw {e : ε} (he : E e) : Within E R (MonadExcept.throw e : EStateM ε σ α) :=
  fun s => ⟨he, refl_of R s⟩

theorem get : Within E R (MonadState.get : EStateM ε σ σ) := fun s => refl_of R s

variable [IsTrans σ R]

theorem forM {l : List β} {f : β → EStateM ε σ PUnit} (hf : ∀ b ∈ l, Within E R (f b)) :
    Within E R (l.forM f) := by
  induction l with
  | nil => exact pure _
  | cons b l ih =>
    exact (hf b List.mem_cons_self).bind fun _ => ih fun c hc => hf c (List.mem_cons_of_mem _ hc)

theorem orM {m n : EStateM ε σ Bool} (hm : Within E R m) (hn : Within E R n) :
    Within E R (orM m n) :=
  hm.bind fun b => by
    cases b with
    | true => exact pure _
    | false => exact hn

theorem andM {m n : EStateM ε σ Bool} (hm : Within E R m) (hn : Within E R n) :
    Within E R (andM m n) :=
  hm.bind fun b => by
    cases b with
    | true => exact hn
    | false => exact pure _

end Preorder

end Within

end Program

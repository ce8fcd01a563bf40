import MeshCoreTCPMux.Library.Wp

/-!
# Programs in lockstep

A map `h` between states and a map `g` between errors relate two programs when the second, started in
the image of a state, does what the first does, up to these maps: it returns or raises with it, it
ends in the image of its final state, and a map `v` relates the values that they return. The states
of the first program may be assumed to satisfy an invariant `P`, which it then has to keep.

The rules follow the monad, like those for preconditions.
-/

namespace Program

variable {ε ε' σ τ α α' β β' : Type}

/-- `m'` does on images what `m` does. -/
def Lockstep (P : σ → Prop) (h : σ → τ) (g : ε → ε') (v : α → α') (m : EStateM ε σ α)
    (m' : EStateM ε' τ α') : Prop :=
  ∀ s, P s → match m s with
    | .ok a t => P t ∧ m' (h s) = .ok (v a) (h t)
    | .error e t => P t ∧ m' (h s) = .error (g e) (h t)

namespace Lockstep

variable {P : σ → Prop} {h : σ → τ} {g : ε → ε'} {v : α → α'} {u : β → β'}

theorem pure {a : α} {a' : α'} (ha : v a = a') :
    Lockstep P h g v (Pure.pure a) (Pure.pure a') :=
  fun _ hs => ⟨hs, ha ▸ rfl⟩

theorem throw {e : ε} {e' : ε'} (he : g e = e') :
    Lockstep P h g v (MonadExcept.throw e) (MonadExcept.throw e') :=
  fun _ hs => ⟨hs, he ▸ rfl⟩

/-- What follows an exception does not matter. -/
theorem throw_bind {e : ε} {e' : ε'} {f : β → EStateM ε σ α} {f' : β' → EStateM ε' τ α'}
    (he : g e = e') : Lockstep P h g v (MonadExcept.throw e >>= f) (MonadExcept.throw e' >>= f') :=
  fun _ hs => ⟨hs, he ▸ rfl⟩

theorem bind {m : EStateM ε σ β} {m' : EStateM ε' τ β'} {f : β → EStateM ε σ α}
    {f' : β' → EStateM ε' τ α'} (hm : Lockstep P h g u m m')
    (hf : ∀ b, Lockstep P h g v (f b) (f' (u b))) : Lockstep P h g v (m >>= f) (m' >>= f') := by
  intro s hs
  have hfirst := hm s hs
  change match EStateM.bind m f s with
    | .ok a t => P t ∧ EStateM.bind m' f' (h s) = .ok (v a) (h t)
    | .error e t => P t ∧ EStateM.bind m' f' (h s) = .error (g e) (h t)
  unfold EStateM.bind
  cases hrun : m s with
  | ok b t =>
    rw [hrun] at hfirst
    rw [hfirst.2]
    exact hf b t hfirst.1
  | error e t =>
    rw [hrun] at hfirst
    rw [hfirst.2]
    exact ⟨hfirst.1, rfl⟩

theorem get : Lockstep P h g h (MonadStateOf.get : EStateM ε σ σ) MonadStateOf.get :=
  fun _ hs => ⟨hs, rfl⟩

/-- The rest of a program knows the state and the invariant. -/
theorem get_bind {f : σ → EStateM ε σ α} {f' : τ → EStateM ε' τ α'}
    (hf : ∀ s, P s → Lockstep P h g v (f s) (f' (h s))) :
    Lockstep P h g v (MonadState.get >>= f) (MonadState.get >>= f') :=
  fun s hs => hf s hs s hs

theorem map {m : EStateM ε σ β} {m' : EStateM ε' τ β'} {f : β → α} {f' : β' → α'}
    (hm : Lockstep P h g u m m') (hf : ∀ b, v (f b) = f' (u b)) :
    Lockstep P h g v (f <$> m) (f' <$> m') := by
  intro s hs
  have hfirst := hm s hs
  change match EStateM.map f m s with
    | .ok a t => P t ∧ EStateM.map f' m' (h s) = .ok (v a) (h t)
    | .error e t => P t ∧ EStateM.map f' m' (h s) = .error (g e) (h t)
  unfold EStateM.map
  cases hrun : m s with
  | ok b t =>
    rw [hrun] at hfirst
    rw [hfirst.2]
    exact ⟨hfirst.1, by rw [hf]⟩
  | error e t =>
    rw [hrun] at hfirst
    rw [hfirst.2]
    exact ⟨hfirst.1, rfl⟩

theorem modify {f : σ → σ} {f' : τ → τ} (hf : ∀ s, P s → h (f s) = f' (h s))
    (hP : ∀ s, P s → P (f s)) :
    Lockstep P h g id (modify f : EStateM ε σ PUnit) (modify f' : EStateM ε' τ PUnit) :=
  fun s hs => ⟨hP s hs, by rw [hf s hs]; rfl⟩

theorem set {t : σ} {t' : τ} (ht : h t = t') (hP : P t) :
    Lockstep P h g id (set t : EStateM ε σ PUnit) (MonadStateOf.set t') :=
  fun _ _ => ⟨hP, by rw [ht]; rfl⟩

theorem modifyGet {f : σ → α × σ} {f' : τ → α' × τ}
    (hf : ∀ s, P s → f' (h s) = (v (f s).1, h (f s).2)) (hP : ∀ s, P s → P (f s).2) :
    Lockstep P h g v (modifyGet f : EStateM ε σ α) (modifyGet f') := by
  intro s hs
  refine ⟨hP s hs, ?_⟩
  change EStateM.Result.ok (f' (h s)).1 (f' (h s)).2 = _
  rw [hf s hs]

theorem ite {c c' : Prop} [Decidable c] [Decidable c'] {m n : EStateM ε σ α}
    {m' n' : EStateM ε' τ α'} (hc : c' ↔ c) (hm : c → Lockstep P h g v m m')
    (hn : ¬ c → Lockstep P h g v n n') :
    Lockstep P h g v (if c then m else n) (if c' then m' else n') := by
  by_cases h : c
  · rw [if_pos h, if_pos (hc.mpr h)]
    exact hm h
  · rw [if_neg h, if_neg (hc.not.mpr h)]
    exact hn h

theorem orM {m n : EStateM ε σ Bool} {m' n' : EStateM ε' τ Bool} (hm : Lockstep P h g id m m')
    (hn : Lockstep P h g id n n') : Lockstep P h g id (orM m n) (orM m' n') :=
  hm.bind fun b => by
    cases b with
    | true => exact Lockstep.pure rfl
    | false => exact hn

theorem andM {m n : EStateM ε σ Bool} {m' n' : EStateM ε' τ Bool} (hm : Lockstep P h g id m m')
    (hn : Lockstep P h g id n n') : Lockstep P h g id (andM m n) (andM m' n') :=
  hm.bind fun b => by
    cases b with
    | true => exact hn
    | false => exact Lockstep.pure rfl

theorem tryCatch {m : EStateM ε σ α} {m' : EStateM ε' τ α'} {k : ε → EStateM ε σ α}
    {k' : ε' → EStateM ε' τ α'} (hm : Lockstep P h g v m m')
    (hk : ∀ e, Lockstep P h g v (k e) (k' (g e))) :
    Lockstep P h g v (tryCatch m k) (tryCatch m' k') := by
  intro s hs
  have hfirst := hm s hs
  change match EStateM.tryCatch m k s with
    | .ok a t => P t ∧ EStateM.tryCatch m' k' (h s) = .ok (v a) (h t)
    | .error e t => P t ∧ EStateM.tryCatch m' k' (h s) = .error (g e) (h t)
  unfold EStateM.tryCatch
  cases hrun : m s with
  | ok a t =>
    rw [hrun] at hfirst
    rw [hfirst.2]
    exact ⟨hfirst.1, rfl⟩
  | error e t =>
    rw [hrun] at hfirst
    rw [hfirst.2]
    exact hk e t hfirst.1

/-- A loop over a list and one over its image. -/
theorem forM {l : List β} {l' : List β'} {f : β → EStateM ε σ PUnit} {f' : β' → EStateM ε' τ PUnit}
    (hl : l.map u = l') (hf : ∀ b ∈ l, Lockstep P h g id (f b) (f' (u b))) :
    Lockstep P h g id (l.forM f) (l'.forM f') := by
  subst hl
  induction l with
  | nil => exact Lockstep.pure rfl
  | cons b l ih =>
    refine (hf b List.mem_cons_self).bind fun _ => ?_
    exact ih fun c hc => hf c (List.mem_cons_of_mem _ hc)

end Lockstep

end Program

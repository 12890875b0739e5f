import SchemaEvolution.Rename.Propagate

/-!
# Computations that may fail

Settling renames and editing catalogs are computations with a state that may fail.

**What a computation returns** (`Returns`): a run from a state ends well, with a value and a state.
A sequence returns exactly if its parts do (`returns_bind_iff`).

**A run that returns nothing raises an error** (`Raises`). A sequence raises what its first failing
part does (`raises_bind_iff`).

**What a computation keeps** (`Keeps`): a relation that holds between the states before and after
every run, whether it ends well or not. If the relation is reflexive and transitive, a sequence
keeps what its parts keep.
-/

namespace SchemaEvolution

variable {ε σ α β : Type}

/-- From the state `s` the computation returns `a` and leaves the state `t`. -/
def Returns (x : ExceptT ε (StateM σ) α) (s : σ) (a : α) (t : σ) : Prop :=
  Id.run (x.run.run s) = (.ok a, t)

instance [DecidableEq σ] [DecidableEq α] {x : ExceptT ε (StateM σ) α} {s t : σ} {a : α} :
    Decidable (Returns x s a t) :=
  match h : Id.run (x.run.run s) with
  | (.ok b, u) => decidable_of_iff (b = a ∧ u = t) (by simp [Returns, h])
  | (.error _, _) => isFalse (by simp [Returns, h])

/-- From the state `s` the computation fails with the error `e` and leaves the state `t`. -/
def Raises (x : ExceptT ε (StateM σ) α) (s : σ) (e : ε) (t : σ) : Prop :=
  Id.run (x.run.run s) = (.error e, t)

/-- Every run of the computation keeps the relation between the states before and after. -/
def Keeps (R : σ → σ → Prop) (x : ExceptT ε (StateM σ) α) : Prop :=
  ∀ s, R s (Id.run (x.run.run s)).2

theorem Returns.unique {x : ExceptT ε (StateM σ) α} {s t u : σ} {a b : α} (h : Returns x s a t)
    (h' : Returns x s b u) : a = b :=
  Except.ok.inj (Prod.mk.inj (h.symm.trans h')).1

theorem Returns.unique_state {x : ExceptT ε (StateM σ) α} {s t u : σ} {a b : α}
    (h : Returns x s a t) (h' : Returns x s b u) : t = u :=
  (Prod.mk.inj (h.symm.trans h')).2

theorem returns_pure_iff {a b : α} {s t : σ} :
    Returns (pure a : ExceptT ε (StateM σ) α) s b t ↔ a = b ∧ s = t := by
  show (Except.ok a, s) = (Except.ok b, t) ↔ _
  simp

theorem returns_bind_iff {x : ExceptT ε (StateM σ) α} {f : α → ExceptT ε (StateM σ) β}
    {s u : σ} {b : β} :
    Returns (x >>= f) s b u ↔ ∃ a t, Returns x s a t ∧ Returns (f a) t b u := by
  unfold Returns
  rw [ExceptT.run_bind, StateT.run_bind, Id.run_bind]
  rcases Id.run (x.run.run s) with ⟨_ | a, t⟩
  · show (Except.error _, t) = (Except.ok b, u) ↔ _
    simp
  · simp only [Prod.mk.injEq, Except.ok.injEq]
    exact ⟨fun h => ⟨a, t, ⟨rfl, rfl⟩, h⟩, fun ⟨_, _, ⟨rfl, rfl⟩, h⟩ => h⟩

theorem returns_except_iff {x : Except ε α} {a : α} {s t : σ} :
    Returns (liftM x : ExceptT ε (StateM σ) α) s a t ↔ x = .ok a ∧ s = t := by
  show (x, s) = (Except.ok a, t) ↔ _
  simp

theorem returns_state_iff {x : StateM σ α} {a : α} {s t : σ} :
    Returns (liftM x : ExceptT ε (StateM σ) α) s a t ↔ Id.run (x.run s) = (a, t) := by
  show (Except.ok (Id.run (x.run s)).1, (Id.run (x.run s)).2) = (Except.ok a, t) ↔ _
  rw [Prod.mk.injEq, Except.ok.injEq, Prod.ext_iff]

theorem not_returns_throw {e : ε} {a : α} {s t : σ} :
    ¬Returns (throw e : ExceptT ε (StateM σ) α) s a t := by
  intro h
  cases (show (Except.error e, s) = (Except.ok a, t) from h)

theorem Returns.of_keeps {R : σ → σ → Prop} {x : ExceptT ε (StateM σ) α} {s t : σ} {a : α}
    (h : Returns x s a t) (hx : Keeps R x) : R s t := by
  have := hx s
  rwa [h] at this

section Raises

variable {x : ExceptT ε (StateM σ) α} {s t : σ} {e : ε}

theorem returns_or_raises (x : ExceptT ε (StateM σ) α) (s : σ) :
    (∃ a t, Returns x s a t) ∨ ∃ e t, Raises x s e t := by
  unfold Returns Raises
  rcases Id.run (x.run.run s) with ⟨e | a, t⟩
  · exact .inr ⟨e, t, rfl⟩
  · exact .inl ⟨a, t, rfl⟩

theorem not_raises_pure {a : α} : ¬Raises (pure a : ExceptT ε (StateM σ) α) s e t := by
  intro h
  cases (show (Except.ok a, s) = (Except.error e, t) from h)

theorem raises_throw_iff {e' : ε} :
    Raises (throw e' : ExceptT ε (StateM σ) α) s e t ↔ e' = e ∧ s = t := by
  show (Except.error e', s) = (Except.error e, t) ↔ _
  simp

theorem raises_except_iff {x : Except ε α} :
    Raises (liftM x : ExceptT ε (StateM σ) α) s e t ↔ x = .error e ∧ s = t := by
  show (x, s) = (Except.error e, t) ↔ _
  simp

theorem not_raises_state {x : StateM σ α} : ¬Raises (liftM x : ExceptT ε (StateM σ) α) s e t := by
  intro h
  cases (show (Except.ok (Id.run (x.run s)).1, (Id.run (x.run s)).2) = (Except.error e, t) from h)

theorem raises_bind_iff {f : α → ExceptT ε (StateM σ) β} {u : σ} :
    Raises (x >>= f) s e u ↔ Raises x s e u ∨ ∃ a t, Returns x s a t ∧ Raises (f a) t e u := by
  unfold Raises Returns
  rw [ExceptT.run_bind, StateT.run_bind, Id.run_bind]
  rcases Id.run (x.run.run s) with ⟨_ | a, t⟩
  · show (Except.error _, t) = (Except.error e, u) ↔ _
    simp
  · simp only [Prod.mk.injEq, Except.ok.injEq, reduceCtorEq, false_and, false_or]
    exact ⟨fun h => ⟨a, t, ⟨rfl, rfl⟩, h⟩, fun ⟨_, _, ⟨rfl, rfl⟩, h⟩ => h⟩

end Raises

section Keeps

variable {R : σ → σ → Prop}

theorem keeps_pure (hr : ∀ s, R s s) (a : α) : Keeps R (pure a : ExceptT ε (StateM σ) α) :=
  fun s => hr s

/-- A sequence keeps what its first part does, if the other part leaves it alone. -/
theorem keeps_bind_of {S : σ → σ → Prop} (ht : ∀ s t u, R s t → S t u → R s u)
    {x : ExceptT ε (StateM σ) α} {f : α → ExceptT ε (StateM σ) β} (hx : Keeps R x)
    (hf : ∀ a, Keeps S (f a)) : Keeps R (x >>= f) := by
  intro s
  have h := hx s
  rw [ExceptT.run_bind, StateT.run_bind, Id.run_bind]
  rcases hs : Id.run (x.run.run s) with ⟨_ | a, t⟩ <;> rw [hs] at h
  · exact h
  · exact ht _ _ _ h (hf a t)

theorem keeps_bind (ht : ∀ s t u, R s t → R t u → R s u) {x : ExceptT ε (StateM σ) α}
    {f : α → ExceptT ε (StateM σ) β} (hx : Keeps R x) (hf : ∀ a, Keeps R (f a)) :
    Keeps R (x >>= f) :=
  keeps_bind_of ht hx hf

theorem keeps_forM (hr : ∀ s, R s s) (ht : ∀ s t u, R s t → R t u → R s u)
    {f : α → ExceptT ε (StateM σ) PUnit} (hf : ∀ a, Keeps R (f a)) :
    ∀ xs : List α, Keeps R (xs.forM f)
  | [] => keeps_pure hr _
  | x :: xs => keeps_bind ht (hf x) fun _ => keeps_forM hr ht hf xs

end Keeps

end SchemaEvolution

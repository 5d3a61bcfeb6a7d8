import Mathlib.Data.List.Forall2

/-!
# Computations that may fail

When a sequence of computations succeeds, every one of them did. One computation with a state
repeats another if it goes through the same states to a converted result; this is kept by sequences.
-/

namespace TemplateCompiler

/-- A look-up passes over the entries of other keys. -/
theorem lookup_cons_of_ne {α : Type} {asked key : String} (other : asked ≠ key) (value : α)
    (rest : List (String × α)) : ((key, value) :: rest).lookup asked = rest.lookup asked := by
  rw [List.lookup_cons, beq_eq_false_iff_ne.mpr other]

section Except

variable {ε α β : Type}

/-- A sequence that succeeds has a first step that does. -/
theorem ok_of_bind {x : Except ε α} {f : α → Except ε β} {b : β} (done : x >>= f = .ok b) :
    ∃ a, x = .ok a ∧ f a = .ok b := by
  cases x with
  | error e => cases done
  | ok a => exact ⟨a, rfl, done⟩

theorem bind_eq_ok {x : Except ε α} {f : α → Except ε β} {b : β} :
    x >>= f = .ok b ↔ ∃ a, x = .ok a ∧ f a = .ok b := by
  refine ⟨ok_of_bind, ?_⟩
  rintro ⟨a, first, done⟩
  rw [first]
  exact done

/-- Converting a result neither makes nor breaks a success. -/
theorem map_eq_ok {x : Except ε α} {f : α → β} {b : β} :
    f <$> x = .ok b ↔ ∃ a, x = .ok a ∧ f a = b := by
  cases x with
  | error e =>
    constructor
    · intro done
      cases done
    · rintro ⟨a, done, _⟩
      cases done
  | ok a =>
    constructor
    · intro done
      exact ⟨a, rfl, Except.ok.inj done⟩
    · rintro ⟨a', same, rfl⟩
      rw [same]
      rfl

theorem forall₂_of_mapM {f : α → Except ε β} {xs : List α} {ys : List β}
    (done : xs.mapM f = .ok ys) : List.Forall₂ (fun x y => f x = .ok y) xs ys := by
  induction xs generalizing ys with
  | nil =>
    cases done
    exact .nil
  | cons x rest ih =>
    rw [List.mapM_cons] at done
    obtain ⟨y, first, done⟩ := ok_of_bind done
    obtain ⟨others, later, done⟩ := ok_of_bind done
    cases done
    exact .cons first (ih later)

/-- A list is gone through with success exactly if every item is. -/
theorem mapM_eq_ok {f : α → Except ε β} {xs : List α} {ys : List β} :
    xs.mapM f = .ok ys ↔ List.Forall₂ (fun x y => f x = .ok y) xs ys := by
  refine ⟨forall₂_of_mapM, fun each => ?_⟩
  induction each with
  | nil => rfl
  | cons first _ ih =>
    rw [List.mapM_cons, bind_eq_ok]
    exact ⟨_, first, bind_eq_ok.mpr ⟨_, ih, rfl⟩⟩

theorem exists_ok_of_mapM {f : α → Except ε β} {xs : List α} {ys : List β}
    (done : xs.mapM f = .ok ys) {x : α} (here : x ∈ xs) : ∃ y, f x = .ok y := by
  have each := forall₂_of_mapM done
  clear done
  induction each with
  | nil => cases here
  | cons first _ ih =>
    rcases List.mem_cons.mp here with rfl | later
    · exact ⟨_, first⟩
    · exact ih later

/-- What holds of every result of one item holds of all results. -/
theorem forall_of_mapM {f : α → Except ε β} {holds : β → Prop} {xs : List α} {ys : List β}
    (each : ∀ {x y}, f x = .ok y → holds y) (done : xs.mapM f = .ok ys) : ∀ y ∈ ys, holds y := by
  have paired := forall₂_of_mapM done
  clear done
  induction paired with
  | nil => simp
  | cons first _ ih => exact List.forall_mem_cons.mpr ⟨each first, ih⟩

end Except

section Stateful

variable {σ ε α β γ δ : Type}

/-- A sequence with a state that succeeds has a state in between. -/
theorem ok_of_step {x : StateT σ (Except ε) α} {f : α → StateT σ (Except ε) β} {s s' : σ} {b : β}
    (done : (x >>= f) s = .ok (b, s')) :
    ∃ a between, x s = .ok (a, between) ∧ f a between = .ok (b, s') := by
  obtain ⟨⟨a, between⟩, first, done⟩ := ok_of_bind done
  exact ⟨a, between, first, done⟩

/-- Whenever the first computation succeeds, so does the second, with the converted result and in
the same state. -/
def Repeats (convert : α → β) (x : StateT σ (Except ε) α) (y : StateT σ (Except ε) β) : Prop :=
  ∀ s a s', x s = .ok (a, s') → y s = .ok (convert a, s')

variable {convert : α → β} {finish : γ → δ}

theorem Repeats.pure {a : α} {b : β} (same : convert a = b) :
    Repeats convert (pure a : StateT σ (Except ε) α) (pure b) := by
  intro s a' s' done
  cases done
  rw [same]
  rfl

/-- Sequences repeat each other if their steps do. -/
theorem Repeats.bind {x : StateT σ (Except ε) α} {y : StateT σ (Except ε) β}
    {f : α → StateT σ (Except ε) γ} {g : β → StateT σ (Except ε) δ}
    (first : Repeats convert x y) (then_ : ∀ a, Repeats finish (f a) (g (convert a))) :
    Repeats finish (x >>= f) (y >>= g) := by
  intro s c s'' done
  obtain ⟨a, s', begun, done⟩ := ok_of_step done
  exact bind_eq_ok.mpr ⟨(convert a, s'), first s a s' begun, then_ a s' c s'' done⟩

theorem Repeats.throw (e : ε) (y : StateT σ (Except ε) β) :
    Repeats convert (throw e : StateT σ (Except ε) α) y := by
  intro s a s' done
  cases done

/-- A computation repeats itself. -/
theorem Repeats.refl (x : StateT σ (Except ε) α) : Repeats id x x :=
  fun _ _ _ done => done

end Stateful

end TemplateCompiler

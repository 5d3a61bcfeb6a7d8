import TemplateCompiler.SymbolTable

/-!
# Growing symbol tables

While slots are found for names, the table only grows: a slot, once given, is found again, and the
scopes stay as they are. A table that grew from another therefore answers every question that was
put to the other in the same way.
-/

namespace TemplateCompiler.SymbolTable

/-- A slot that the template is given: that of `this`, of a named argument or of a named block. -/
def IsGiven (t : SymbolTable) (slot : Nat) : Prop :=
  slot = 0 ∨ slot ∈ t.named.map Prod.snd ∨ slot ∈ t.blocks.map Prod.snd

instance (t : SymbolTable) (slot : Nat) : Decidable (t.IsGiven slot) :=
  inferInstanceAs (Decidable (_ ∨ _ ∨ _))

/-- One table keeps all that another says, and has the same scopes. -/
structure Grows (t t' : SymbolTable) : Prop where
  scopes : t'.scopes = t.scopes
  hasEval : t'.hasEval = t.hasEval
  symbols : t.symbols <+: t'.symbols
  upvars : t.upvars <+: t'.upvars
  named : ∀ name slot, t.named.lookup name = some slot → t'.named.lookup name = some slot
  blocks : ∀ name slot, t.blocks.lookup name = some slot → t'.blocks.lookup name = some slot
  /-- New slots come after the old ones. -/
  given : ∀ slot, t'.IsGiven slot → t.IsGiven slot ∨ t.symbols.length < slot

theorem Grows.refl (t : SymbolTable) : t.Grows t :=
  ⟨rfl, rfl, List.prefix_refl _, List.prefix_refl _, fun _ _ h => h, fun _ _ h => h,
    fun _ h => .inl h⟩

theorem Grows.trans {t t' t'' : SymbolTable} (first : t.Grows t') (second : t'.Grows t'') :
    t.Grows t'' where
  scopes := second.scopes.trans first.scopes
  hasEval := second.hasEval.trans first.hasEval
  symbols := first.symbols.trans second.symbols
  upvars := first.upvars.trans second.upvars
  named := fun name slot h => second.named name slot (first.named name slot h)
  blocks := fun name slot h => second.blocks name slot (first.blocks name slot h)
  given := by
    intro slot found
    rcases second.given slot found with old | new
    · exact first.given slot old
    · exact .inr (Nat.lt_of_le_of_lt first.symbols.length_le new)

/-- Which slot a name has depends on the scopes alone. -/
theorem get?_of_scopes {t t' : SymbolTable} (same : t'.scopes = t.scopes) (scope : Nat)
    (name : String) : t'.get? scope name = t.get? scope name := by
  simp only [get?, chain, same]

theorem evalInfo_of_scopes {t t' : SymbolTable} (same : t'.scopes = t.scopes) (scope : Nat) :
    t'.evalInfo scope = t.evalInfo scope := by
  simp only [evalInfo, chain, same]

theorem slots_of_scopes {t t' : SymbolTable} (same : t'.scopes = t.scopes) (scope : Nat) :
    t'.slots scope = t.slots scope := by
  simp only [slots, same]

theorem mem_of_lookup {entries : List (String × Nat)} {name : String} {slot : Nat}
    (found : entries.lookup name = some slot) : (name, slot) ∈ entries := by
  obtain ⟨before, after, rfl, _⟩ := List.lookup_eq_some_iff.mp found
  exact List.mem_append_right _ List.mem_cons_self

/-! ### Named arguments and blocks -/

theorem allocateNamed_grows (name : String) (t : SymbolTable) :
    t.Grows (t.allocateNamed name).2 := by
  unfold allocateNamed
  split
  · exact .refl t
  · refine ⟨rfl, rfl, List.prefix_append _ _, List.prefix_refl _,
      fun _ _ found => (List.prefix_append _ _).lookup_eq_some found, fun _ _ found => found,
      fun slot found => ?_⟩
    by_cases new : slot = t.symbols.length + 1
    · exact .inr (by omega)
    · exact .inl (by simpa [IsGiven, allocate, new] using found)

/-- An argument that was asked for is found again. -/
theorem allocateNamed_lookup (name : String) (t : SymbolTable) :
    (t.allocateNamed name).2.named.lookup name = some (t.allocateNamed name).1 := by
  unfold allocateNamed
  split
  · next found => exact found
  · next missing =>
    show (t.named ++ [(name, _)]).lookup name = _
    rw [List.lookup_append, missing]
    simp

theorem allocateBlock_grows (name : String) (t : SymbolTable) :
    t.Grows (t.allocateBlock name).2 := by
  unfold allocateBlock
  dsimp only
  split
  · exact .refl t
  · refine ⟨rfl, rfl, List.prefix_append _ _, List.prefix_refl _, fun _ _ found => found,
      fun _ _ found => (List.prefix_append _ _).lookup_eq_some found, fun slot found => ?_⟩
    by_cases new : slot = t.symbols.length + 1
    · exact .inr (by omega)
    · exact .inl (by simpa [IsGiven, allocate, new] using found)

/-- A block that was asked for is found again, the inverse block as `else`. -/
theorem allocateBlock_lookup (name : String) (t : SymbolTable) :
    (t.allocateBlock name).2.blocks.lookup (blockName name) = some (t.allocateBlock name).1 := by
  unfold allocateBlock
  dsimp only
  split
  · next found => exact found
  · next missing =>
    show (t.blocks ++ [(blockName name, _)]).lookup (blockName name) = _
    rw [List.lookup_append, missing]
    simp

/-! ### Free variables -/

theorem allocateFree_grows (name : String) (t : SymbolTable) :
    t.Grows (t.allocateFree name).2 := by
  unfold allocateFree
  split
  · exact .refl t
  · exact ⟨rfl, rfl, List.prefix_refl _, List.prefix_append _ _, fun _ _ found => found,
      fun _ _ found => found, fun _ found => .inl found⟩

theorem mem_allocateFree (name : String) (t : SymbolTable) :
    name ∈ (t.allocateFree name).2.upvars := by
  unfold allocateFree
  split
  · next found => exact found
  · exact List.mem_append_right _ List.mem_cons_self

theorem allocateFree_index (name : String) (t : SymbolTable) :
    (t.allocateFree name).2.upvars.idxOf name = (t.allocateFree name).1 := by
  unfold allocateFree
  split
  · rfl
  · next missing =>
    show (t.upvars ++ [name]).idxOf name = t.upvars.length
    simp [List.idxOf_append, missing]

/-- The index of a free variable is the same in every later table. -/
theorem Grows.idxOf {t t' : SymbolTable} (grows : t.Grows t') {name : String}
    (known : name ∈ t.upvars) : t'.upvars.idxOf name = t.upvars.idxOf name := by
  obtain ⟨more, same⟩ := grows.upvars
  simp [← same, List.idxOf_append, known]

end TemplateCompiler.SymbolTable

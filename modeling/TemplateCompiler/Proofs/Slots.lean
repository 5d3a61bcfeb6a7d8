import Mathlib.Data.List.Nodup
import TemplateCompiler.Proofs.Growth
import TemplateCompiler.Proofs.Layout
import TemplateCompiler.Proofs.Outcomes

/-!
# Slots of block params

Block params have slots of their own: no two scopes share a slot, and none is that of `this`, of an
argument or of a block. What can be read at run time from inside some blocks is, for every name
that one of them binds, a slot of the innermost such block. Which one of several slots it is, where
a block binds a name twice, is not said here.
-/

namespace TemplateCompiler

/-! ### Owners -/

namespace SymbolTable

/-- Block params share their slots with nothing else. -/
structure Separate (t : SymbolTable) : Prop where
  apart : ∀ {i j n : Nat}, n ∈ t.slots i → n ∈ t.slots j → i = j
  own : ∀ {i n : Nat}, n ∈ t.slots i → ¬t.IsGiven n

theorem mem_slots {t : SymbolTable} {i n : Nat} :
    n ∈ t.slots i ↔ ∃ scope, t.scopes[i]? = some scope ∧ n ∈ scope.slots := by
  rw [slots]
  cases t.scopes[i]? with
  | none => simp
  | some scope => simp

/-- While a template is planned, slots go to block params only, one after the other. -/
theorem Extends.numbered {t : SymbolTable} (extends_ : empty.Extends t) :
    t.scopes.flatMap Scope.slots = List.range' 1 t.symbols.length ∧ t.named = [] ∧
      t.blocks = [] := by
  induction extends_ with
  | refl => exact ⟨rfl, rfl, rfl⟩
  | @child t' _ parent names ih =>
    rw [child_eq]
    refine ⟨?_, ih.2⟩
    have next : List.range' 1 t'.symbols.length ++
        List.range' (1 + 1 * t'.symbols.length) names.length = _ := List.range'_append
    rw [List.flatMap_append, ih.1, List.flatMap_singleton, List.length_append, ← next,
      Nat.one_mul, Nat.add_comm 1]
  | eval _ ih => exact ih

/-- Different scopes have no slot in common. -/
theorem Extends.separate {t final : SymbolTable} (extends_ : empty.Extends t)
    (grows : t.Grows final) : final.Separate := by
  obtain ⟨numbered, noArgs, noBlocks⟩ := extends_.numbered
  have sameSlots : ∀ i, final.slots i = t.slots i := slots_of_scopes grows.scopes
  have inRange : ∀ {i n : Nat}, n ∈ t.slots i → 1 ≤ n ∧ n < 1 + t.symbols.length := by
    intro i n found
    obtain ⟨scope, at_, inside⟩ := mem_slots.mp found
    have among : n ∈ t.scopes.flatMap Scope.slots :=
      List.mem_flatMap.mpr ⟨scope, List.mem_of_getElem? at_, inside⟩
    rw [numbered] at among
    exact List.mem_range'_1.mp among
  refine ⟨?_, ?_⟩
  · intro i j n first second
    rw [sameSlots] at first second
    obtain ⟨scope, at_, inside⟩ := mem_slots.mp first
    obtain ⟨other, atOther, insideOther⟩ := mem_slots.mp second
    obtain ⟨known, rfl⟩ := List.getElem?_eq_some_iff.mp at_
    obtain ⟨knownOther, rfl⟩ := List.getElem?_eq_some_iff.mp atOther
    have distinct : (t.scopes.flatMap Scope.slots).Nodup := numbered ▸ List.nodup_range'
    have disjoint := List.pairwise_iff_getElem.mp (List.nodup_flatMap.mp distinct).2
    rcases Nat.lt_trichotomy i j with less | same | more
    · exact (disjoint i j known knownOther less inside insideOther).elim
    · exact same
    · exact (disjoint j i knownOther known more insideOther inside).elim
  · intro i n found given
    rw [sameSlots] at found
    obtain ⟨positive, bounded⟩ := inRange found
    rcases grows.given n given with old | new
    · have zero : n = 0 := by simpa [IsGiven, noArgs, noBlocks] using old
      omega
    · omega

/-! ### Names that are visible at run time -/

/-- Binding a name again changes that name only. -/
theorem lookup_rebind (name : String) (slot : Nat) (visible : List (String × Nat))
    (asked : String) :
    (rebind name slot visible).lookup asked =
      if asked = name then some slot else visible.lookup asked := by
  induction visible with
  | nil =>
    by_cases same : asked = name
    · simp [rebind, same]
    · simp [rebind, lookup_cons_of_ne same, same]
  | cons entry rest ih =>
    obtain ⟨known, old⟩ := entry
    by_cases here : known = name
    · subst here
      by_cases same : asked = known
      · simp [rebind, same]
      · simp [rebind, lookup_cons_of_ne same, same]
    · rw [rebind, if_neg here]
      by_cases same : asked = known
      · subst same
        rw [List.lookup_cons_self, List.lookup_cons_self, if_neg here]
      · rw [lookup_cons_of_ne same, lookup_cons_of_ne same, ih]

/-- A name that is bound again stays where it is. -/
theorem keys_rebind (name : String) (slot : Nat) (visible : List (String × Nat)) :
    (rebind name slot visible).map Prod.fst =
      if name ∈ visible.map Prod.fst then visible.map Prod.fst
      else visible.map Prod.fst ++ [name] := by
  induction visible with
  | nil => rfl
  | cons entry rest ih =>
    obtain ⟨known, old⟩ := entry
    by_cases here : known = name
    · simp [rebind, here]
    · have away : name ≠ known := Ne.symm here
      rw [rebind, if_neg here, List.map_cons, ih]
      by_cases later : name ∈ rest.map Prod.fst
      · simp only [later, List.map_cons, List.mem_cons, or_true, if_true]
      · simp only [later, away, List.map_cons, List.mem_cons, or_self, if_false, List.cons_append]

theorem nodup_rebind (name : String) (slot : Nat) {visible : List (String × Nat)}
    (distinct : (visible.map Prod.fst).Nodup) :
    ((rebind name slot visible).map Prod.fst).Nodup := by
  rw [keys_rebind]
  split
  · exact distinct
  · next missing => exact List.concat_eq_append ▸ distinct.concat missing

/-- Overwriting a list of bindings step by step leaves the last binding of every name. -/
theorem lookup_foldl_rebind (bindings visible : List (String × Nat)) (asked : String) :
    (bindings.foldl (fun visible (name, slot) => rebind name slot visible) visible).lookup asked =
      (bindings.reverse ++ visible).lookup asked := by
  induction bindings generalizing visible with
  | nil => rfl
  | cons binding rest ih =>
    obtain ⟨name, slot⟩ := binding
    rw [List.foldl_cons, ih, List.reverse_cons, List.append_assoc, List.lookup_append,
      List.lookup_append, lookup_rebind]
    by_cases same : asked = name
    · simp [same]
    · rw [if_neg same, List.singleton_append, lookup_cons_of_ne same]

theorem nodup_foldl_rebind (bindings visible : List (String × Nat))
    (distinct : (visible.map Prod.fst).Nodup) :
    ((bindings.foldl (fun visible (name, slot) => rebind name slot visible) visible).map
      Prod.fst).Nodup := by
  induction bindings generalizing visible with
  | nil => exact distinct
  | cons binding rest ih => exact ih _ (nodup_rebind binding.1 binding.2 distinct)

/-- In a list of entries with different names, every value is that of its name. -/
theorem map_lookup_keys {entries : List (String × Nat)}
    (distinct : (entries.map Prod.fst).Nodup) :
    (entries.map Prod.snd).map some =
      (entries.map Prod.fst).map fun name => entries.lookup name := by
  induction entries with
  | nil => rfl
  | cons entry rest ih =>
    obtain ⟨name, slot⟩ := entry
    obtain ⟨missing, later⟩ := List.nodup_cons.mp distinct
    have others : ((rest.map Prod.fst).map fun asked => ((name, slot) :: rest).lookup asked) =
        (rest.map Prod.fst).map fun asked => rest.lookup asked := by
      refine List.map_congr_left fun asked inside => lookup_cons_of_ne ?_ slot rest
      rintro rfl
      exact missing inside
    simp only [List.map_cons, List.lookup_cons_self, others, ih later]

theorem mem_values_iff_lookup {visible : List (String × Nat)}
    (distinct : (visible.map Prod.fst).Nodup) (slot : Nat) :
    slot ∈ visible.map Prod.snd ↔ ∃ name, visible.lookup name = some slot := by
  constructor
  · intro here
    have listed : some slot ∈ (visible.map Prod.fst).map fun name => visible.lookup name :=
      map_lookup_keys distinct ▸ List.mem_map_of_mem here
    obtain ⟨name, _, found⟩ := List.mem_map.mp listed
    exact ⟨name, found⟩
  · rintro ⟨name, found⟩
    exact List.mem_map.mpr ⟨_, mem_of_lookup found, rfl⟩

/-- A slot is listed exactly if some name is found there, the innermost scope first. -/
theorem mem_evalInfo {t : SymbolTable} {scope slot : Nat} :
    slot ∈ t.evalInfo scope ↔
      ∃ name, ((t.chain scope).flatMap fun s => (s.locals.zip s.slots).reverse).lookup name =
        some slot := by
  rw [evalInfo, mem_values_iff_lookup (nodup_foldl_rebind _ [] List.nodup_nil)]
  simp only [lookup_foldl_rebind, List.append_nil, List.reverse_flatMap, List.reverse_reverse]
  rfl

end SymbolTable

namespace Binder

theorem lookup_reverse_zip {names : List String} {slots : List Nat}
    (counted : slots.length = names.length) {name : String} (binds : names.contains name = true) :
    ∃ slot ∈ slots, (names.zip slots).reverse.lookup name = some slot := by
  cases found : (names.zip slots).reverse.lookup name with
  | none =>
    have keys : (names.zip slots).map Prod.fst = names :=
      List.map_fst_zip (Nat.le_of_eq counted.symm)
    have zipped : name ∈ (names.zip slots).map Prod.fst := by
      rw [keys]
      exact List.contains_iff_mem.mp binds
    obtain ⟨entry, inside, rfl⟩ := List.mem_map.mp zipped
    have missing := List.lookup_eq_none_iff.mp found entry (List.mem_reverse.mpr inside)
    simp at missing
  | some slot =>
    have inside := List.mem_reverse.mp (SymbolTable.mem_of_lookup found)
    exact ⟨slot, (List.of_mem_zip inside).2, rfl⟩

theorem lookup_reverse_zip_eq_none {names : List String} {slots : List Nat} {name : String}
    (free : ¬names.contains name = true) : (names.zip slots).reverse.lookup name = none := by
  refine List.lookup_eq_none_iff.mpr fun entry inside => ?_
  have known := (List.of_mem_zip (List.mem_reverse.mp inside)).1
  have other : name ≠ entry.1 := by
    rintro rfl
    exact free (List.contains_iff_mem.mpr known)
  simpa using other

/-- In the bindings around a place, from the inside, a name is found in the innermost block that
binds it. -/
theorem lookup_chain {table : SymbolTable} {enclosing : List Binder}
    (encloses : Encloses table.scopes enclosing) (name : String) :
    ((chain table enclosing).flatMap fun s => (s.locals.zip s.slots).reverse).lookup name =
      (innermost enclosing name).bind fun b =>
        (b.names.zip (table.slots b.scope)).reverse.lookup name := by
  induction enclosing with
  | nil => rfl
  | cons b rest ih =>
    rw [innermost_cons, chain, List.flatMap_cons, List.lookup_append]
    by_cases binds : b.names.contains name = true
    · obtain ⟨slot, _, found⟩ := lookup_reverse_zip encloses.1.scope_eq.1 binds
      rw [if_pos binds, Option.bind_some, found]
      rfl
    · rw [if_neg binds, lookup_reverse_zip_eq_none binds, Option.none_or]
      exact ih encloses.2

/-- What is visible at run time belongs to the innermost block that binds its name. -/
theorem innermost_of_mem_evalInfo {table : SymbolTable} {enclosing : List Binder} {slot : Nat}
    (encloses : Encloses table.scopes enclosing)
    (visible : slot ∈ table.evalInfo (current enclosing)) :
    ∃ name b, innermost enclosing name = some b ∧ slot ∈ table.slots b.scope := by
  obtain ⟨name, found⟩ := SymbolTable.mem_evalInfo.mp visible
  rw [chain_of_encloses encloses, lookup_chain encloses] at found
  obtain ⟨b, inner, found⟩ := Option.bind_eq_some_iff.mp found
  refine ⟨name, b, inner, ?_⟩
  have inside := List.mem_reverse.mp (SymbolTable.mem_of_lookup found)
  exact (List.of_mem_zip inside).2

/-- Every name that is bound is visible at run time. -/
theorem exists_mem_evalInfo {table : SymbolTable} {enclosing : List Binder} {name : String}
    {b : Binder} (encloses : Encloses table.scopes enclosing)
    (inner : innermost enclosing name = some b) :
    ∃ slot ∈ table.evalInfo (current enclosing), slot ∈ table.slots b.scope := by
  obtain ⟨among, binds⟩ := mem_of_innermost inner
  obtain ⟨parent, bound⟩ := encloses.bound_of_mem among
  obtain ⟨slot, inside, found⟩ := lookup_reverse_zip bound.scope_eq.1 binds
  refine ⟨slot, SymbolTable.mem_evalInfo.mpr ⟨name, ?_⟩, inside⟩
  rw [chain_of_encloses encloses, lookup_chain encloses, inner]
  exact found

end Binder

end TemplateCompiler

import TemplateCompiler.Proofs.Compilation
import TemplateCompiler.Proofs.NameSlots
import TemplateCompiler.Proofs.Slots

/-!
# Closed templates

A compiled template is closed when every slot that it reads is given to the template or is a
parameter of a block around the read. A template need not be: the block params of a component that
has named blocks can be read inside these blocks, yet no block has them as parameters. This is the
only exception, and it is said exactly which templates it concerns.
-/

namespace TemplateCompiler

open Template (Block Element TagKind)
open Wire (Read readsOf readsOfAll readsOfBlocks)

/-- A read that finds something: the slot is given to the template, or filled by a block around. -/
def Wire.Read.IsBound (table : SymbolTable) (r : Read) : Prop :=
  table.IsGiven r.slot ∨ r.slot ∈ r.parameters

instance (table : SymbolTable) (r : Read) : Decidable (r.IsBound table) :=
  inferInstanceAs (Decidable (_ ∨ _))

/-- Every read finds something. -/
def CompiledTemplate.IsClosed (table : SymbolTable) (c : CompiledTemplate) : Prop :=
  ∀ r ∈ c.reads, r.IsBound table

instance (table : SymbolTable) (c : CompiledTemplate) : Decidable (c.IsClosed table) :=
  inferInstanceAs (Decidable (∀ r ∈ c.reads, r.IsBound table))

/-- Whether a name is free, or else is passed on by the innermost block that binds it. -/
def Binder.isPassed (enclosing : List Binder) (name : String) : Bool :=
  ((innermost enclosing name).map Binder.passed).getD true

/-- Whether all names that a statement reads are passed on. -/
def Place.isPassed (p : Place) : Bool :=
  p.names.all (fun m => Binder.isPassed p.enclosing m.name) &&
    (!p.evaluates || p.enclosing.all fun b => b.names.all (Binder.isPassed p.enclosing))

/-! ### One place -/

namespace Binder

/-- The parameters of the blocks around a place, in the compiled template. -/
def parameters (table : SymbolTable) (enclosing : List Binder) : List Nat :=
  enclosing.flatMap fun b => if b.passed then table.slots b.scope else []

/-- The innermost of the blocks around a statement is the one that was opened last. -/
theorem Encloses.scope_le {scopes : List Scope} {enclosing : List Binder} {b : Binder}
    (encloses : Encloses scopes enclosing) (inside : b ∈ enclosing) :
    b.scope ≤ current enclosing := by
  induction enclosing with
  | nil => cases inside
  | cons first rest ih =>
    rcases List.mem_cons.mp inside with rfl | later
    · exact Nat.le_refl _
    · exact Nat.le_of_lt (Nat.lt_of_le_of_lt (ih encloses.2 later) encloses.1.older)

/-- Two blocks around one statement have different scopes. -/
theorem Encloses.eq_of_scope {scopes : List Scope} {enclosing : List Binder} {b b' : Binder}
    (encloses : Encloses scopes enclosing) (first : b ∈ enclosing) (second : b' ∈ enclosing)
    (same : b.scope = b'.scope) : b = b' := by
  induction enclosing with
  | nil => cases first
  | cons top rest ih =>
    have above : ∀ c ∈ rest, c.scope < top.scope := fun c inside =>
      Nat.lt_of_le_of_lt (encloses.2.scope_le inside) encloses.1.older
    rcases List.mem_cons.mp first with rfl | lower
    · rcases List.mem_cons.mp second with rfl | lower'
      · rfl
      · exact absurd same (Nat.ne_of_gt (above b' lower'))
    · rcases List.mem_cons.mp second with rfl | lower'
      · exact absurd same (Nat.ne_of_lt (above b lower))
      · exact ih encloses.2 lower lower'

variable {table : SymbolTable} {enclosing : List Binder}

/-- A block param that is visible from a place can be read there just if its block passes it on. -/
theorem isBound_iff_passed (separate : table.Separate) (encloses : Encloses table.scopes enclosing)
    {b : Binder} (among : b ∈ enclosing) {n : Nat} (slot : n ∈ table.slots b.scope) :
    (⟨n, parameters table enclosing⟩ : Read).IsBound table ↔ b.passed = true := by
  constructor
  · rintro (given | found)
    · exact (separate.own slot given).elim
    · obtain ⟨b', inside, found⟩ := List.mem_flatMap.mp found
      split at found
      · next passed =>
        rw [encloses.eq_of_scope among inside (separate.apart slot found)]
        exact passed
      · cases found
  · intro passed
    refine .inr (List.mem_flatMap.mpr ⟨b, among, ?_⟩)
    rw [if_pos passed]
    exact slot

/-- A name is passed if its innermost binder is, or if nothing binds it. -/
theorem isPassed_iff {name : String} :
    isPassed enclosing name = true ↔ ∀ b, innermost enclosing name = some b → b.passed = true := by
  rw [isPassed]
  cases innermost enclosing name <;> simp

end Binder

/-- A place is passed if every name read there is, and every visible name if it reads them all. -/
theorem Place.isPassed_iff (p : Place) : p.isPassed = true ↔
    (∀ m ∈ p.names, ∀ b, Binder.innermost p.enclosing m.name = some b → b.passed = true) ∧
      (p.evaluates = true →
        ∀ name b, Binder.innermost p.enclosing name = some b → b.passed = true) := by
  have all : (∀ b ∈ p.enclosing, ∀ name ∈ b.names, Binder.isPassed p.enclosing name = true) ↔
      ∀ name b, Binder.innermost p.enclosing name = some b → b.passed = true := by
    constructor
    · intro passed name b inner
      obtain ⟨among, binds⟩ := Binder.mem_of_innermost inner
      exact Binder.isPassed_iff.mp (passed b among name (List.contains_iff_mem.mp binds)) b inner
    · intro passed b _ name _
      exact Binder.isPassed_iff.mpr (passed name)
  simp only [isPassed, Bool.and_eq_true, List.all_eq_true, Bool.or_eq_true, Bool.not_eq_true',
    Binder.isPassed_iff, ← all]
  cases p.evaluates <;> simp

/-- The reads in one place find something just if all of its names are passed on. -/
theorem closed_place {table : SymbolTable} {enclosing : List Binder} (separate : table.Separate)
    (encloses : Binder.Encloses table.scopes enclosing) {slots : List Nat} {names : List Mention}
    {evaluates : Bool}
    (shows_ : Shows table (Binder.current enclosing) slots names evaluates) :
    (∀ r ∈ readsOf (Binder.parameters table enclosing) slots, r.IsBound table) ↔
      (⟨names, evaluates, enclosing⟩ : Place).isPassed = true := by
  rw [Place.isPassed_iff]
  simp only [readsOf, List.mem_map, forall_exists_index, and_imp, forall_apply_eq_imp_iff₂]
  constructor
  · intro closed
    -- A block with a slot that is read here passes it on, whichever way the slot is read.
    have passed : ∀ b ∈ enclosing, ∀ n ∈ table.slots b.scope, n ∈ slots → b.passed = true :=
      fun b among n slot found =>
        (Binder.isBound_iff_passed separate encloses among slot).mp (closed n found)
    refine ⟨fun m mentioned b inner => ?_, fun reads name b inner => ?_⟩
    · obtain ⟨n, at_⟩ := encloses.slot inner
      have slot := List.mem_of_getElem? at_
      refine passed b (Binder.mem_of_innermost inner).1 n slot
        ((shows_ n (separate.own slot)).mpr (.inl ⟨m, mentioned, ?_⟩))
      rw [Binder.get?_of_encloses encloses, inner]
      exact at_
    · obtain ⟨n, visible, slot⟩ := Binder.exists_mem_evalInfo encloses inner
      exact passed b (Binder.mem_of_innermost inner).1 n slot
        ((shows_ n (separate.own slot)).mpr (.inr ⟨reads, visible⟩))
  · rintro ⟨namesPassed, allPassed⟩ n found
    by_cases given : table.IsGiven n
    · exact .inl given
    -- The slot belongs to a name, which some block around binds and passes on.
    rcases (shows_ n given).mp found with ⟨m, mentioned, looked⟩ | ⟨reads, visible⟩
    · rw [Binder.get?_of_encloses encloses] at looked
      obtain ⟨b, inner, at_⟩ := Option.bind_eq_some_iff.mp looked
      exact (Binder.isBound_iff_passed separate encloses (Binder.mem_of_innermost inner).1
        (List.mem_of_getElem? at_)).mpr (namesPassed m mentioned b inner)
    · obtain ⟨name, b, inner, slot⟩ := Binder.innermost_of_mem_evalInfo encloses visible
      exact (Binder.isBound_iff_passed separate encloses (Binder.mem_of_innermost inner).1
        slot).mpr (allPassed reads name b inner)

/-! ### Outlines -/

/-- The names of a component are parameters just if it passes them on. -/
theorem Binder.parameters_cons (table : SymbolTable) (b : Binder) (rest : List Binder) :
    parameters table (b :: rest) =
      (if b.passed then table.slots b.scope else []) ++ parameters table rest :=
  List.flatMap_cons

/-- A self-closing element that is accepted has no content. -/
theorem children_of_selfClosing {kind : TagKind} {e : Element Outline}
    (done : Plan.checkElement kind e = .ok ()) (closed : e.selfClosing = true) :
    e.children = [] := by
  obtain ⟨_, _, done⟩ := ok_of_bind done
  obtain ⟨_, allowed, _⟩ := ok_of_bind done
  have empty := require_ok allowed
  rw [closed] at empty
  exact List.isEmpty_iff.mp empty

/-- A component reads, outside of its blocks, what its opening tag reads. -/
theorem closed_component {table : SymbolTable} {enclosing : List Binder}
    (separate : table.Separate) (encloses : Binder.Encloses table.scopes enclosing)
    {tag : Wire.Expression} {written : List Wire.Statement} {names : List Mention}
    (filed : ∀ s ∈ written, s.isAttribute = true ∨ s.arg?.isSome = true)
    (shows_ : Shows table (Binder.current enclosing)
      (tag.slots ++ written.flatMap Wire.Statement.slots) names false)
    (blocks : Option (List (String × Wire.InlineBlock Wire.Statement))) :
    (∀ r ∈ (Wire.Statement.component tag (written.filter Wire.Statement.isAttribute)
        (written.filterMap Wire.Statement.arg?) blocks).reads (Binder.parameters table enclosing),
      r.IsBound table) ↔
    (⟨names, false, enclosing⟩ : Place).isPassed = true ∧
      ∀ r ∈ readsOfBlocks (Binder.parameters table enclosing) (blocks.getD []),
        r.IsBound table := by
  have together : (∀ r ∈ readsOf (Binder.parameters table enclosing)
      (written.flatMap Wire.Statement.slots), r.IsBound table) ↔ _ :=
    (forall_congr' fun r => imp_congr_left (Wire.mem_reads_of_filed _ filed r)).symm
  rw [List.forall_mem_append] at together
  rw [← closed_place separate encloses shows_, Wire.readsOf_append, List.forall_mem_append,
    together]
  cases blocks with
  | none =>
    simp only [Wire.Statement.reads, Wire.readsOf_append, List.forall_mem_append, and_assoc,
      Option.getD_none, readsOfBlocks]
    simp
  | some blocks =>
    simp only [Wire.Statement.reads, Wire.readsOf_append, List.forall_mem_append, and_assoc,
      Option.getD_some]

section Outlines

variable (mode : Program.Mode) (rename : String → String) {table : SymbolTable}

mutual

/-- What an outline is translated to is closed just if its names are passed on. -/
theorem closed_outline (separate : table.Separate) (enclosing : List Binder)
    (encloses : Binder.Encloses table.scopes enclosing) : (o : Outline) →
      o.Laid table.scopes (Binder.current enclosing) →
      {list : List (Located Plan.Statement)} → o.plan rename = .ok list →
      ((∀ r ∈ readsOfAll (Binder.parameters table enclosing)
          (Direct.statement mode rename table (Binder.current enclosing) o), r.IsBound table) ↔
        ∀ p ∈ o.places rename enclosing, p.isPassed = true)
  | .mustache m, _, _, done => by
    rw [Outline.plan] at done
    obtain ⟨s, planned, done⟩ := ok_of_bind done
    have renders := renders_mustache planned
    have flat : (Direct.mustache mode table (Binder.current enclosing) m).isNested = false := by
      rw [← renders.value]
      exact flat_leaf _ _ _ _
    have shown : Shows table (Binder.current enclosing)
        (Direct.mustache mode table (Binder.current enclosing) m).slots m.mentions
        m.readsNames := by
      rw [← evaluates_mustache mode table (Binder.current enclosing), ← renders.value,
        evaluates_leaf, ← renders.mentions]
      exact shows_leaf mode renders.leaf
    rw [Direct.statement, Wire.readsOfAll_singleton, Wire.Statement.reads_of_flat flat,
      Outline.places, List.forall_mem_singleton]
    exact closed_place separate encloses shown
  | .text node, _, _, _ => by
    simp [Direct.statement, Wire.readsOfAll, Wire.Statement.reads, Wire.Statement.slots,
      Wire.Expression.slots, readsOf, Outline.places]
  | .comment node, _, _, _ => by
    simp [Direct.statement, Wire.readsOfAll, Wire.Statement.reads, Wire.Statement.slots, readsOf,
      Outline.places]
  | .hidden, _, _, _ => by simp [Direct.statement, Wire.readsOfAll, Outline.places]
  | .misplaced parent loc, _, _, done => by cases done
  | .invocation ⟨path, params, hash, program, inverse, loc⟩ inner other, laid, _, done => by
    rw [Outline.plan] at done
    obtain ⟨block, blockDone, done⟩ := ok_of_bind done
    obtain ⟨otherBlock, otherDone, done⟩ := ok_of_bind done
    obtain ⟨head, headDone, done⟩ := ok_of_bind done
    obtain ⟨positional, paramsDone, done⟩ := ok_of_bind done
    obtain ⟨keyed, hashDone, done⟩ := ok_of_bind done
    have first := renders_path headDone
    have listed := renders_params paramsDone
    have paired := renders_hash hashDone
    have shown : Shows table (Binder.current enclosing) _
        (Plan.mentionsOfCall head positional keyed) false :=
      shows_plannedCall mode head positional keyed
    rw [first.value, listed.value, paired.value, Plan.mentionsOfCall, first.mentions,
      listed.mentions, paired.mentions] at shown
    have here := closed_place separate encloses shown
    have inside := closed_inline separate enclosing encloses "default" inner program laid.1
      blockDone
    have inOther := closed_inverse separate enclosing encloses other inverse laid.2 otherDone
    have apart := Wire.readsOfBlocks_append (Binder.parameters table enclosing)
      [("default", Direct.inlineBlock mode rename table inner program)]
      (Direct.inverseBlock mode rename table other inverse)
    rw [List.singleton_append] at apart
    rw [Direct.statement, Wire.readsOfAll_singleton, Wire.Statement.reads, apart,
      List.forall_mem_append, List.forall_mem_append, Outline.places, List.forall_mem_append,
      List.forall_mem_append, List.forall_mem_singleton, here, inside, inOther]
    tauto
  | .inElement ⟨path, params, hash, ⟨body, names, bodyLoc⟩, inverse, loc⟩ inner cursor, laid, _,
      done => by
    rw [Outline.plan] at done
    obtain ⟨⟨destination, before⟩, destinationDone, done⟩ := ok_of_bind done
    obtain ⟨block, blockDone, done⟩ := ok_of_bind done
    obtain ⟨goes, beforeWhich, mentioned⟩ := renders_destination destinationDone
    have shown := shows_destination mode table (Binder.current enclosing) destination before
    rw [goes, beforeWhich, mentioned] at shown
    have here := closed_place separate encloses shown
    have inside := closed_inline separate enclosing encloses "default" inner
      ⟨body, names, bodyLoc⟩ laid blockDone
    rw [Direct.inlineBlock, readsOfBlocks, readsOfBlocks, List.append_nil] at inside
    rw [Direct.statement, Wire.readsOfAll_singleton, Direct.inlineBlock, Wire.Statement.reads,
      List.forall_mem_append, Outline.places, List.forall_mem_append, List.forall_mem_singleton,
      here, inside]
    exact and_comm
  | .element kind ⟨tag, attributes, modifiers, children, names, selfClosing, loc⟩, laid, _,
      done => by
    rw [Outline.plan] at done
    obtain ⟨_, _, done⟩ := ok_of_bind done
    obtain ⟨opened, openedDone, done⟩ := ok_of_bind done
    obtain ⟨content, contentDone, done⟩ := ok_of_bind done
    obtain ⟨opening, entries, _, _, written⟩ := renders_opening openedDone
    have here := closed_place separate encloses (shows_opening mode table _ written)
    have inside := closed_outlines separate enclosing encloses children laid.2 contentDone
    have filed := openingTag_filed mode table (Binder.current enclosing) kind
      ⟨tag, attributes, modifiers, children, names, selfClosing, loc⟩
    have start : (Direct.elementStart kind tag).reads (Binder.parameters table enclosing) = [] := by
      cases kind <;> rfl
    rw [Direct.statement]
    simp only [readsOfAll, Wire.readsOfAll_append, start, List.cons_append,
      Wire.readsOfAll_of_filed _ filed, List.forall_mem_append, here, inside, Outline.places,
      List.forall_mem_cons]
    simp [Wire.Statement.reads, readsOf, Wire.Statement.slots]
  | .component kind inner ⟨tag, attributes, modifiers, children, names, selfClosing, loc⟩, laid,
      _, done => by
    rw [Outline.plan] at done
    obtain ⟨_, checked, done⟩ := ok_of_bind done
    obtain ⟨opened, openedDone, done⟩ := ok_of_bind done
    obtain ⟨content, contentDone, done⟩ := ok_of_bind done
    obtain ⟨opening, entries, openingDone, _, written⟩ := renders_opening openedDone
    obtain ⟨component, bound, laidContent⟩ := laid
    obtain ⟨tagged, _, tagRenders⟩ := openStatement_of_component component openingDone
    have filed := openingTag_filed mode table (Binder.current enclosing) kind
      ⟨tag, attributes, modifiers, children, names, selfClosing, loc⟩
    have shown := (shows_planned mode tagged).append
      (shows_opening mode table (Binder.current enclosing) written)
    rw [tagRenders.value, tagRenders.mentions] at shown
    rw [Direct.statement, Wire.readsOfAll_singleton, closed_component separate encloses filed shown,
      Outline.places, List.forall_mem_cons]
    refine and_congr_right fun _ => ?_
    -- What is left is the content: none, named blocks, or a block that takes the block params.
    by_cases closed : selfClosing = true
    · have none : children = [] := children_of_selfClosing checked closed
      subst none
      simp [closed, readsOfBlocks, Outline.placesOfAll]
    by_cases named : children.any Outline.isNamed = true
    · rw [if_pos named] at laidContent
      have inside := closed_named separate
        (⟨inner, names, !children.any Outline.isNamed⟩ :: enclosing) ⟨bound, encloses⟩ children
        laidContent contentDone
      rw [Binder.parameters_cons, named] at inside
      rw [if_neg closed, if_pos named, named]
      exact inside
    · rw [if_neg named] at laidContent
      have inside := closed_outlines separate
        (⟨inner, names, !children.any Outline.isNamed⟩ :: enclosing) ⟨bound, encloses⟩ children
        laidContent contentDone
      rw [Bool.not_eq_true] at named
      rw [Binder.parameters_cons, named] at inside
      rw [if_neg closed, named, if_neg Bool.false_ne_true, Option.getD_some, readsOfBlocks,
        readsOfBlocks, List.append_nil]
      exact inside
  | .namedBlock _ _, laid, _, _ => laid.elim

theorem closed_outlines (separate : table.Separate) (enclosing : List Binder)
    (encloses : Binder.Encloses table.scopes enclosing) : (list : List Outline) →
      Outline.LaidAll table.scopes (Binder.current enclosing) list →
      {planned : List (Located Plan.Statement)} → Outline.planAll rename list = .ok planned →
      ((∀ r ∈ readsOfAll (Binder.parameters table enclosing)
          (Direct.statements mode rename table (Binder.current enclosing) list), r.IsBound table) ↔
        ∀ p ∈ Outline.placesOfAll rename enclosing list, p.isPassed = true)
  | [], _, _, _ => by simp [Direct.statements, Wire.readsOfAll, Outline.placesOfAll]
  | s :: rest, laid, _, done => by
    rw [Outline.planAll] at done
    obtain ⟨first, firstDone, done⟩ := ok_of_bind done
    obtain ⟨others, restDone, done⟩ := ok_of_bind done
    rw [Direct.statements, Wire.readsOfAll_append, List.forall_mem_append, Outline.placesOfAll,
      List.forall_mem_append, closed_outline separate enclosing encloses s laid.1 firstDone,
      closed_outlines separate enclosing encloses rest laid.2 restDone]

theorem closed_inline (separate : table.Separate) (enclosing : List Binder)
    (encloses : Binder.Encloses table.scopes enclosing) (name : String) (inner : Nat) :
    (block : Block Outline) →
      Outline.LaidBlock table.scopes (Binder.current enclosing) inner block →
      {planned : Plan.NamedBlock (Located Plan.Statement)} →
      Outline.planBlock rename name inner block = .ok planned →
      ((∀ r ∈ readsOfBlocks (Binder.parameters table enclosing)
          [(name, Direct.inlineBlock mode rename table inner block)], r.IsBound table) ↔
        ∀ p ∈ Outline.placesOfBlock rename enclosing inner block, p.isPassed = true)
  | ⟨body, names, loc⟩, laid, _, done => by
    rw [Outline.planBlock] at done
    obtain ⟨content, contentDone, done⟩ := ok_of_bind done
    have inside := closed_outlines separate (⟨inner, names, true⟩ :: enclosing)
      ⟨laid.1, encloses⟩ body laid.2 contentDone
    rw [Binder.parameters_cons] at inside
    rw [Direct.inlineBlock, readsOfBlocks, readsOfBlocks, List.append_nil]
    exact inside

theorem closed_inverse (separate : table.Separate) (enclosing : List Binder)
    (encloses : Binder.Encloses table.scopes enclosing) (inner : Nat) :
    (inverse : Option (Block Outline)) →
      Outline.LaidInverse table.scopes (Binder.current enclosing) inner inverse →
      {planned : Option (Plan.NamedBlock (Located Plan.Statement))} →
      Outline.planInverse rename inner inverse = .ok planned →
      ((∀ r ∈ readsOfBlocks (Binder.parameters table enclosing)
          (Direct.inverseBlock mode rename table inner inverse), r.IsBound table) ↔
        ∀ p ∈ Outline.placesOfInverse rename enclosing inner inverse, p.isPassed = true)
  | none, _, _, _ => by simp [Direct.inverseBlock, readsOfBlocks, Outline.placesOfInverse]
  | some block, laid, _, done => by
    rw [Outline.planInverse] at done
    obtain ⟨planned, blockDone, done⟩ := ok_of_bind done
    exact closed_inline separate enclosing encloses "else" inner block laid blockDone

theorem closed_named (separate : table.Separate) (enclosing : List Binder)
    (encloses : Binder.Encloses table.scopes enclosing) : (list : List Outline) →
      Outline.LaidNamed table.scopes (Binder.current enclosing) list →
      {planned : List (Located Plan.Statement)} → Outline.planAll rename list = .ok planned →
      ((∀ r ∈ readsOfBlocks (Binder.parameters table enclosing)
          (Direct.namedBlocks mode rename table list), r.IsBound table) ↔
        ∀ p ∈ Outline.placesOfAll rename enclosing list, p.isPassed = true)
  | [], _, _, _ => by simp [Direct.namedBlocks, readsOfBlocks, Outline.placesOfAll]
  | s :: rest, laid, _, done => by
    rw [Outline.planAll] at done
    obtain ⟨first, firstDone, done⟩ := ok_of_bind done
    obtain ⟨others, restDone, done⟩ := ok_of_bind done
    rw [Direct.namedBlocks, Wire.readsOfBlocks_append, List.forall_mem_append, Outline.placesOfAll,
      List.forall_mem_append, closed_amongNamed separate enclosing encloses s laid.1 firstDone,
      closed_named separate enclosing encloses rest laid.2 restDone]

theorem closed_amongNamed (separate : table.Separate) (enclosing : List Binder)
    (encloses : Binder.Encloses table.scopes enclosing) : (o : Outline) →
      o.LaidAmongNamed table.scopes (Binder.current enclosing) →
      {list : List (Located Plan.Statement)} → o.plan rename = .ok list →
      ((∀ r ∈ readsOfBlocks (Binder.parameters table enclosing)
          (Direct.namedBlock mode rename table o), r.IsBound table) ↔
        ∀ p ∈ o.places rename enclosing, p.isPassed = true)
  | .namedBlock inner ⟨tag, attributes, modifiers, children, names, selfClosing, loc⟩, laid, _,
      done => by
    rw [Outline.plan] at done
    obtain ⟨_, _, done⟩ := ok_of_bind done
    obtain ⟨content, contentDone, done⟩ := ok_of_bind done
    have inside := closed_outlines separate (⟨inner, names, true⟩ :: enclosing)
      ⟨laid.1, encloses⟩ children laid.2 contentDone
    rw [Binder.parameters_cons] at inside
    rw [Direct.namedBlock, readsOfBlocks, readsOfBlocks, List.append_nil]
    exact inside
  | .hidden, _, _, _ => by simp [Direct.namedBlock, readsOfBlocks, Outline.places]
  | .misplaced parent loc, _, _, done => by cases done
  | .mustache _, laid, _, _ => laid.elim
  | .text _, laid, _, _ => laid.elim
  | .comment _, laid, _, _ => laid.elim
  | .invocation _ _ _, laid, _, _ => laid.elim
  | .inElement _ _ _, laid, _, _ => laid.elim
  | .element _ _, laid, _, _ => laid.elim
  | .component _ _ _, laid, _, _ => laid.elim

end

end Outlines

/-! ### Templates -/

/-- A compiled template is closed just if none of its names belongs to a component that has named
blocks, and nothing of such a component is visible where names are read at run time. -/
theorem isClosed_iff_names_passed (o : Options) (t : Template) (compiled : CompiledTemplate)
    (done : t.compile o = .ok compiled) :
    ∃ program, t.program o = .ok program ∧
      (compiled.IsClosed program.table ↔ ∀ p ∈ t.places o.rename, p.isPassed = true) := by
  obtain ⟨plan, stream, table, compiles⟩ := compiles_of_compile done
  refine ⟨_, compiles.program_eq, ?_⟩
  rw [compiles.compile_eq] at done
  cases done
  have sameScopes := compiles.grows.scopes
  have separate : table.Separate := compiles.scopes.separate compiles.grows
  have root : Binder.Encloses table.scopes [] := sameScopes ▸ compiles.root
  have laid : Outline.LaidAll table.scopes SymbolTable.rootScope (Outline.ofTemplate t) :=
    sameScopes ▸ compiles.laid
  exact closed_outlines o.mode o.rename separate [] root (Outline.ofTemplate t) laid
    compiles.outlined

/-- A component with block params and a named block that has a block param of the same name. All
that is visible inside is read at run time. -/
def shadowedParam : Template :=
  .of [.wrap "Panel" ["x"] [.wrap ":body" ["x"] [.append "x", .append "debugger"]]]

/-- A block param that an inner block binds again is passed by the inner block. -/
theorem isClosed_iff_names_passed_shadowedParam :
    ∃ compiled program, shadowedParam.compile .default = .ok compiled ∧
      shadowedParam.program .default = .ok program ∧
      (compiled.IsClosed program.table ↔
        ∀ p ∈ shadowedParam.places Options.default.rename, p.isPassed = true) ∧
      compiled.IsClosed program.table := by
  have accepted : (shadowedParam.compile .default).isOk = true := by decide +kernel
  have passed : ∀ p ∈ shadowedParam.places Options.default.rename, p.isPassed = true := by
    decide +kernel
  cases done : shadowedParam.compile .default with
  | error failure =>
    rw [done] at accepted
    cases accepted
  | ok compiled =>
    obtain ⟨program, resolved, closed⟩ :=
      isClosed_iff_names_passed .default shadowedParam compiled done
    exact ⟨compiled, program, rfl, resolved, closed, closed.mpr passed⟩

/-- A named block that shows a block param of the component around it. -/
def lostParam : Template := .of [.wrap "Foo" ["x"] [.wrap ":a" [] [.append "x"]]]

/-- The only read in the compiled template is one of slot 1. No block around it has a parameter,
and the slot belongs to no argument and no block. -/
theorem lostParam_not_isClosed :
    ∃ compiled program, lostParam.compile .default = .ok compiled ∧
      lostParam.program .default = .ok program ∧ compiled.reads = [⟨1, []⟩] ∧
      ¬compiled.IsClosed program.table := by
  have checked : (match lostParam.compile .default, lostParam.program .default with
      | .ok compiled, .ok program =>
        decide (compiled.reads = [⟨1, []⟩]) && !decide (compiled.IsClosed program.table)
      | _, _ => false) = true := by decide +kernel
  split at checked
  · next compiled program done resolved =>
    rw [Bool.and_eq_true, Bool.not_eq_true', decide_eq_true_eq, decide_eq_false_iff_not] at checked
    exact ⟨compiled, program, done, resolved, checked.1, checked.2⟩
  · cases checked

end TemplateCompiler

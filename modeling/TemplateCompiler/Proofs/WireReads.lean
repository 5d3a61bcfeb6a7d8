import TemplateCompiler.Wire.Basic

/-!
# Slots that a compiled template reads

Every slot that is read in a compiled template, with the parameters of the blocks around the read.
The runtime fills the slots of a block's parameters when it enters the block, so these are the slots
of block params that can be relied on there.
-/

namespace TemplateCompiler.Wire

mutual

/-- The slots that an expression reads. -/
def Expression.slots : Expression → List Nat
  | .getSymbol slot => [slot]
  | .getPath head _ => head.slots
  | .concat parts => slotsOfList parts
  | .call head params hash => head.slots ++ (slotsOfList params ++ slotsOfHash hash)
  | .hasBlock block | .hasBlockParams block => block.slots
  | .undefined | .value _ | .getFree _ | .getContextualFree _ _ => []

def slotsOfList : List Expression → List Nat
  | [] => []
  | e :: rest => e.slots ++ slotsOfList rest

def slotsOfHash : List (String × Expression) → List Nat
  | [] => []
  | (_, e) :: rest => e.slots ++ slotsOfHash rest

end

/-- A slot that is read, and the parameters of all blocks around it. -/
structure Read where
  slot : Nat
  parameters : List Nat
deriving DecidableEq

/-- The slots that a statement without other statements inside reads. One that reads names at run
time reads all that it lists. -/
def Statement.slots : Statement → List Nat
  | .append value | .trustingAppend value | .attr _ _ value _ | .staticArg _ value
  | .dynamicArg _ value => value.slots
  | .modifier head params hash => head.slots ++ (slotsOfList params ++ slotsOfHash hash)
  | .attrSplat slot => [slot]
  | .yield slot params => slot :: slotsOfList params
  | .partialTemplate name evalInfo => name.slots ++ evalInfo
  | .debugger evalInfo => evalInfo
  | _ => []

def readsOf (parameters slots : List Nat) : List Read := slots.map (⟨·, parameters⟩)

mutual

/-- What a statement and its content read, inside blocks with the given parameters. -/
def Statement.reads (parameters : List Nat) : Statement → List Read
  | .block head params hash blocks =>
    readsOf parameters (head.slots ++ (slotsOfList params ++ slotsOfHash hash)) ++
      readsOfBlocks parameters blocks
  | .component tag attrs args none =>
    readsOf parameters (tag.slots ++ slotsOfHash args) ++ readsOfAll parameters attrs
  | .component tag attrs args (some blocks) =>
    readsOf parameters (tag.slots ++ slotsOfHash args) ++ readsOfAll parameters attrs ++
      readsOfBlocks parameters blocks
  | .inElement ⟨statements, own⟩ _ destination before =>
    readsOf parameters (destination.slots ++ (before.map Expression.slots).getD []) ++
      readsOfAll (own ++ parameters) statements
  | s => readsOf parameters s.slots

def readsOfAll (parameters : List Nat) : List Statement → List Read
  | [] => []
  | s :: rest => s.reads parameters ++ readsOfAll parameters rest

/-- What the bodies of blocks read, where the parameters of each come on top. -/
def readsOfBlocks (parameters : List Nat) : List (String × InlineBlock Statement) → List Read
  | [] => []
  | (_, ⟨statements, own⟩) :: rest =>
    readsOfAll (own ++ parameters) statements ++ readsOfBlocks parameters rest

end

theorem readsOf_append (parameters xs ys : List Nat) :
    readsOf parameters (xs ++ ys) = readsOf parameters xs ++ readsOf parameters ys :=
  List.map_append

theorem readsOfAll_append (parameters : List Nat) (xs ys : List Statement) :
    readsOfAll parameters (xs ++ ys) = readsOfAll parameters xs ++ readsOfAll parameters ys := by
  induction xs with
  | nil => rfl
  | cons s rest ih => simp only [List.cons_append, readsOfAll, ih, List.append_assoc]

theorem readsOfAll_singleton (parameters : List Nat) (s : Statement) :
    readsOfAll parameters [s] = s.reads parameters := by
  rw [readsOfAll, readsOfAll, List.append_nil]

theorem readsOfBlocks_append (parameters : List Nat)
    (xs ys : List (String × InlineBlock Statement)) :
    readsOfBlocks parameters (xs ++ ys) =
      readsOfBlocks parameters xs ++ readsOfBlocks parameters ys := by
  induction xs with
  | nil => rfl
  | cons block rest ih => simp only [List.cons_append, readsOfBlocks, ih, List.append_assoc]

namespace Statement

/-- Whether a statement reads names at run time. -/
def evaluates : Statement → Bool
  | .partialTemplate _ _ | .debugger _ => true
  | _ => false

/-- Whether a statement has statements inside. -/
def isNested : Statement → Bool
  | .block _ _ _ _ | .component _ _ _ _ | .inElement _ _ _ _ => true
  | _ => false

theorem reads_of_flat {s : Statement} (flat : s.isNested = false) (parameters : List Nat) :
    s.reads parameters = readsOf parameters s.slots := by
  cases s with
  | block head params hash blocks => cases flat
  | component tag attrs args blocks => cases flat
  | inElement block guid destination before => cases flat
  | _ => rfl

/-- What may stand in an opening tag has nothing inside and reads no names at run time. -/
theorem of_filed {s : Statement} (filed : s.isAttribute = true ∨ s.arg?.isSome = true) :
    s.isNested = false ∧ s.evaluates = false := by
  cases s with
  | attr kind name value space => exact ⟨rfl, rfl⟩
  | attrSplat slot => exact ⟨rfl, rfl⟩
  | modifier head params hash => exact ⟨rfl, rfl⟩
  | staticArg name value => exact ⟨rfl, rfl⟩
  | dynamicArg name value => exact ⟨rfl, rfl⟩
  | _ => rcases filed with h | h <;> cases h

theorem arg?_of_isAttribute {s : Statement} (attribute_ : s.isAttribute = true) :
    s.arg? = none := by
  cases s with
  | attr kind name value space => rfl
  | attrSplat slot => rfl
  | modifier head params hash => rfl
  | _ => cases attribute_

theorem of_arg? {s : Statement} {entry : String × Expression} (argument : s.arg? = some entry) :
    s.isAttribute = false ∧ s.slots = entry.2.slots := by
  cases s with
  | staticArg name value =>
    cases argument
    exact ⟨rfl, rfl⟩
  | dynamicArg name value =>
    cases argument
    exact ⟨rfl, rfl⟩
  | _ => cases argument

end Statement

theorem readsOfAll_of_filed {written : List Statement} (parameters : List Nat)
    (filed : ∀ s ∈ written, s.isAttribute = true ∨ s.arg?.isSome = true) :
    readsOfAll parameters written = readsOf parameters (written.flatMap Statement.slots) := by
  induction written with
  | nil => rfl
  | cons s rest ih =>
    have flat := (Statement.of_filed (filed s List.mem_cons_self)).1
    rw [readsOfAll, ih fun t found => filed t (List.mem_cons_of_mem s found), List.flatMap_cons,
      readsOf_append, Statement.reads_of_flat flat]

/-- Attributes and arguments read the same whether they are kept together or apart. -/
theorem mem_reads_of_filed {written : List Statement} (parameters : List Nat)
    (filed : ∀ s ∈ written, s.isAttribute = true ∨ s.arg?.isSome = true) (r : Read) :
    r ∈ readsOf parameters (slotsOfHash (written.filterMap Statement.arg?)) ++
      readsOfAll parameters (written.filter Statement.isAttribute) ↔
    r ∈ readsOf parameters (written.flatMap Statement.slots) := by
  rw [List.mem_append]
  induction written with
  | nil => simp [readsOf, slotsOfHash, readsOfAll]
  | cons s rest ih =>
    have later := ih fun t found => filed t (List.mem_cons_of_mem s found)
    have here := filed s List.mem_cons_self
    rw [List.flatMap_cons, readsOf_append, List.mem_append, ← later]
    rcases here with attribute_ | argument
    · rw [List.filterMap_cons_none (Statement.arg?_of_isAttribute attribute_),
        List.filter_cons_of_pos attribute_, readsOfAll, List.mem_append,
        Statement.reads_of_flat (Statement.of_filed (.inl attribute_)).1]
      exact or_left_comm
    · obtain ⟨entry, argument⟩ := Option.isSome_iff_exists.mp argument
      obtain ⟨noAttribute, same⟩ := Statement.of_arg? argument
      have skipped : ¬s.isAttribute = true := by simp [noAttribute]
      rw [List.filterMap_cons_some argument, List.filter_cons_of_neg skipped, slotsOfHash,
        readsOf_append, List.mem_append, same]
      exact or_assoc

end TemplateCompiler.Wire

namespace TemplateCompiler

def CompiledTemplate.reads (c : CompiledTemplate) : List Wire.Read :=
  Wire.readsOfAll [] c.statements

end TemplateCompiler

import TemplateCompiler.Wire.Basic

/-!
# Parts of compiled templates

All parts of an expression or a statement at any depth, and the change of all of them at once.
Parts are listed before what is inside them, in the order in which they are written out. What is
changed is changed from the inside out.
-/

namespace TemplateCompiler.Wire

/-- Trees with a list of all their parts are built from the inside out. -/
theorem induction_of_parts {α : Type} {parts inner : α → List α}
    (parts_eq : ∀ a, parts a = a :: (inner a).flatMap parts) {motive : α → Prop}
    (step : ∀ a, (∀ part ∈ inner a, motive part) → motive a) (a : α) : motive a := by
  induction counted : (parts a).length using Nat.strongRecOn generalizing a with
  | ind n ih =>
    refine step a fun part inside => ih _ ?_ part rfl
    have fewer : (parts part).Sublist ((inner a).flatMap parts) :=
      List.sublist_flatten_of_mem (List.mem_map_of_mem inside)
    rw [← counted, parts_eq a]
    exact Nat.lt_succ_of_le fewer.length_le

/-! ### Expressions -/

mutual

/-- An expression and all expressions inside it. -/
def Expression.parts : Expression → List Expression
  | .getPath head tail => .getPath head tail :: head.parts
  | .concat list => .concat list :: partsOfList list
  | .call head params hash =>
    .call head params hash :: (head.parts ++ (partsOfList params ++ partsOfHash hash))
  | .hasBlock block => .hasBlock block :: block.parts
  | .hasBlockParams block => .hasBlockParams block :: block.parts
  | e => [e]

def partsOfList : List Expression → List Expression
  | [] => []
  | e :: rest => e.parts ++ partsOfList rest

def partsOfHash : List (String × Expression) → List Expression
  | [] => []
  | (_, e) :: rest => e.parts ++ partsOfHash rest

end

/-- The expressions directly inside an expression. -/
def Expression.inner : Expression → List Expression
  | .getPath head _ => [head]
  | .concat list => list
  | .call head params hash => head :: (params ++ hash.map Prod.snd)
  | .hasBlock block | .hasBlockParams block => [block]
  | _ => []

theorem partsOfList_eq_flatMap (list : List Expression) :
    partsOfList list = list.flatMap Expression.parts := by
  induction list with
  | nil => rfl
  | cons e rest ih => rw [partsOfList, ih, List.flatMap_cons]

theorem partsOfHash_eq_flatMap (hash : List (String × Expression)) :
    partsOfHash hash = (hash.map Prod.snd).flatMap Expression.parts := by
  induction hash with
  | nil => rfl
  | cons entry rest ih => rw [partsOfHash, ih, List.map_cons, List.flatMap_cons]

/-- The parts of an expression are itself and the parts of what is inside. -/
theorem Expression.parts_eq (e : Expression) : e.parts = e :: e.inner.flatMap parts := by
  cases e <;> simp [parts, inner, partsOfList_eq_flatMap, partsOfHash_eq_flatMap]

/-- What an expression has from those directly inside it, all expressions have. -/
theorem Expression.induction {motive : Expression → Prop}
    (step : ∀ e, (∀ part ∈ e.inner, motive part) → motive e) (e : Expression) : motive e :=
  induction_of_parts Expression.parts_eq step e

mutual

/-- Applies `f` to an expression after it was applied to all expressions inside. -/
def Expression.everywhere (f : Expression → Expression) : Expression → Expression
  | .getPath head tail => f (.getPath (head.everywhere f) tail)
  | .concat list => f (.concat (everywhereInList f list))
  | .call head params hash =>
    f (.call (head.everywhere f) (everywhereInList f params) (everywhereInHash f hash))
  | .hasBlock block => f (.hasBlock (block.everywhere f))
  | .hasBlockParams block => f (.hasBlockParams (block.everywhere f))
  | e => f e

def everywhereInList (f : Expression → Expression) : List Expression → List Expression
  | [] => []
  | e :: rest => e.everywhere f :: everywhereInList f rest

def everywhereInHash (f : Expression → Expression) :
    List (String × Expression) → List (String × Expression)
  | [] => []
  | (key, e) :: rest => (key, e.everywhere f) :: everywhereInHash f rest

end

theorem everywhereInList_eq_map (f : Expression → Expression) (list : List Expression) :
    everywhereInList f list = list.map (Expression.everywhere f) := by
  induction list with
  | nil => rfl
  | cons e rest ih => rw [everywhereInList, ih, List.map_cons]

theorem everywhereInHash_eq_map (f : Expression → Expression) (hash : List (String × Expression)) :
    everywhereInHash f hash = hash.map fun entry => (entry.1, entry.2.everywhere f) := by
  induction hash with
  | nil => rfl
  | cons entry rest ih => rw [everywhereInHash, ih, List.map_cons]

theorem map_eq_self {α : Type} {f : α → α} {list : List α} (kept : ∀ a ∈ list, f a = a) :
    list.map f = list :=
  (List.map_congr_left kept).trans (List.map_id list)

theorem mapValues_eq_self {α : Type} {f : α → α} {entries : List (String × α)}
    (kept : ∀ a ∈ entries.map Prod.snd, f a = a) :
    (entries.map fun entry => (entry.1, f entry.2)) = entries :=
  map_eq_self fun entry here => by rw [kept entry.2 (List.mem_map_of_mem here)]

theorem arguments_eq_self {f : Expression → Expression} {head : Expression}
    {params : List Expression} {hash : List (String × Expression)}
    (kept : ∀ k ∈ head :: (params ++ hash.map Prod.snd), f k = k) :
    f head = head ∧ params.map f = params ∧
      (hash.map fun entry => (entry.1, f entry.2)) = hash := by
  obtain ⟨first, others⟩ := List.forall_mem_cons.mp kept
  obtain ⟨positional, named⟩ := List.forall_mem_append.mp others
  exact ⟨first, map_eq_self positional, mapValues_eq_self named⟩

/-- A change that leaves every part as it is leaves the expression as it is. -/
theorem Expression.everywhere_eq_self {f : Expression → Expression} {e : Expression}
    (kept : ∀ part ∈ e.parts, f part = part) : e.everywhere f = e := by
  induction e using Expression.induction with
  | step e ih =>
  rw [e.parts_eq] at kept
  obtain ⟨own, below⟩ := List.forall_mem_cons.mp kept
  have part : ∀ k ∈ e.inner, k.everywhere f = k := fun k here =>
    ih k here fun k' deeper => below k' (List.mem_flatMap.mpr ⟨k, here, deeper⟩)
  cases e with
  | getPath head tail => rw [everywhere, part head List.mem_cons_self, own]
  | concat list =>
    have list_kept : list.map (Expression.everywhere f) = list := map_eq_self part
    rw [everywhere, everywhereInList_eq_map, list_kept, own]
  | call head params hash =>
    obtain ⟨head_kept, params_kept, hash_kept⟩ := arguments_eq_self part
    rw [everywhere, everywhereInList_eq_map, everywhereInHash_eq_map, head_kept, params_kept,
      hash_kept, own]
  | hasBlock block => rw [everywhere, part block List.mem_cons_self, own]
  | hasBlockParams block => rw [everywhere, part block List.mem_cons_self, own]
  | _ => exact own

/-! ### Statements -/

namespace Statement

/-- The expressions of a statement, without those of the statements inside it. -/
def expressions : Statement → List Expression
  | .append value | .trustingAppend value | .attr _ _ value _ | .staticArg _ value
  | .dynamicArg _ value => [value]
  | .modifier head params hash | .block head params hash _ =>
    head :: (params ++ hash.map Prod.snd)
  | .component tag _ args _ => tag :: args.map Prod.snd
  | .yield _ params => params
  | .partialTemplate name _ => [name]
  | .inElement _ _ destination insertBefore => destination :: insertBefore.toList
  | _ => []

/-- The blocks of a statement, without those of the statements inside it. -/
def blocks : Statement → List (InlineBlock Statement)
  | .block _ _ _ table => table.map Prod.snd
  | .component _ _ _ table => (table.getD []).map Prod.snd
  | .inElement body _ _ _ => [body]
  | _ => []

/-- The attributes and modifiers that a component is given. -/
def attributes : Statement → List Statement
  | .component _ attrs _ _ => attrs
  | _ => []

/-- The statements directly inside a statement. -/
def inner (s : Statement) : List Statement :=
  s.attributes ++ s.blocks.flatMap InlineBlock.statements

end Statement

mutual

/-- A statement and all statements inside it. -/
def Statement.parts : Statement → List Statement
  | .block head params hash blocks => .block head params hash blocks :: partsOfBlocks blocks
  | .component tag attrs args none => .component tag attrs args none :: partsOfAll attrs
  | .component tag attrs args (some blocks) =>
    .component tag attrs args (some blocks) :: (partsOfAll attrs ++ partsOfBlocks blocks)
  | .inElement ⟨statements, parameters⟩ guid destination insertBefore =>
    .inElement ⟨statements, parameters⟩ guid destination insertBefore :: partsOfAll statements
  | s => [s]

def partsOfAll : List Statement → List Statement
  | [] => []
  | s :: rest => s.parts ++ partsOfAll rest

def partsOfBlocks : List (String × InlineBlock Statement) → List Statement
  | [] => []
  | (_, ⟨statements, _⟩) :: rest => partsOfAll statements ++ partsOfBlocks rest

end

theorem partsOfAll_eq_flatMap (statements : List Statement) :
    partsOfAll statements = statements.flatMap Statement.parts := by
  induction statements with
  | nil => rfl
  | cons s rest ih => rw [partsOfAll, ih, List.flatMap_cons]

theorem partsOfBlocks_eq_flatMap (blocks : List (String × InlineBlock Statement)) :
    partsOfBlocks blocks =
      ((blocks.map Prod.snd).flatMap InlineBlock.statements).flatMap Statement.parts := by
  induction blocks with
  | nil => rfl
  | cons entry rest ih =>
    rw [partsOfBlocks, ih, partsOfAll_eq_flatMap, List.map_cons, List.flatMap_cons,
      List.flatMap_append]

theorem Statement.parts_eq (s : Statement) : s.parts = s :: s.inner.flatMap parts := by
  cases s with
  | component tag attrs args table =>
    cases table <;>
      simp [parts, inner, attributes, blocks, partsOfAll_eq_flatMap, partsOfBlocks_eq_flatMap]
  | _ => simp [parts, inner, attributes, blocks, partsOfAll_eq_flatMap, partsOfBlocks_eq_flatMap]

/-- A property holds of all statements if it passes from what is inside to the whole. -/
theorem Statement.induction {motive : Statement → Prop}
    (step : ∀ s, (∀ part ∈ s.inner, motive part) → motive s) (s : Statement) : motive s :=
  induction_of_parts Statement.parts_eq step s

mutual

/-- Applies `f` to the expressions of a statement and `g` to the statement, after both were applied
to all statements inside. -/
def Statement.everywhere (f : Expression → Expression) (g : Statement → Statement) :
    Statement → Statement
  | .append value => g (.append (f value))
  | .trustingAppend value => g (.trustingAppend (f value))
  | .comment value => g (.comment value)
  | .modifier head params hash =>
    g (.modifier (f head) (params.map f) (hash.map fun entry => (entry.1, f entry.2)))
  | .block head params hash blocks =>
    g (.block (f head) (params.map f) (hash.map fun entry => (entry.1, f entry.2))
      (everywhereInBlocks f g blocks))
  | .component tag attrs args none =>
    g (.component (f tag) (everywhereInAll f g attrs) (args.map fun entry => (entry.1, f entry.2))
      none)
  | .component tag attrs args (some blocks) =>
    g (.component (f tag) (everywhereInAll f g attrs) (args.map fun entry => (entry.1, f entry.2))
      (some (everywhereInBlocks f g blocks)))
  | .openElement tag => g (.openElement tag)
  | .openElementWithSplat tag => g (.openElementWithSplat tag)
  | .flushElement => g .flushElement
  | .closeElement => g .closeElement
  | .attr kind name value space => g (.attr kind name (f value) space)
  | .staticArg name value => g (.staticArg name (f value))
  | .dynamicArg name value => g (.dynamicArg name (f value))
  | .attrSplat slot => g (.attrSplat slot)
  | .yield slot params => g (.yield slot (params.map f))
  | .partialTemplate name evalInfo => g (.partialTemplate (f name) evalInfo)
  | .debugger evalInfo => g (.debugger evalInfo)
  | .inElement ⟨statements, parameters⟩ guid destination insertBefore =>
    g (.inElement ⟨everywhereInAll f g statements, parameters⟩ guid (f destination)
      (insertBefore.map f))

def everywhereInAll (f : Expression → Expression) (g : Statement → Statement) :
    List Statement → List Statement
  | [] => []
  | s :: rest => s.everywhere f g :: everywhereInAll f g rest

def everywhereInBlocks (f : Expression → Expression) (g : Statement → Statement) :
    List (String × InlineBlock Statement) → List (String × InlineBlock Statement)
  | [] => []
  | (name, ⟨statements, parameters⟩) :: rest =>
    (name, ⟨everywhereInAll f g statements, parameters⟩) :: everywhereInBlocks f g rest

end

theorem everywhereInAll_eq_map (f : Expression → Expression) (g : Statement → Statement)
    (statements : List Statement) :
    everywhereInAll f g statements = statements.map (Statement.everywhere f g) := by
  induction statements with
  | nil => rfl
  | cons s rest ih => rw [everywhereInAll, ih, List.map_cons]

def InlineBlock.everywhere (f : Expression → Expression) (g : Statement → Statement)
    (block : InlineBlock Statement) : InlineBlock Statement :=
  ⟨everywhereInAll f g block.statements, block.parameters⟩

theorem everywhereInBlocks_eq_map (f : Expression → Expression) (g : Statement → Statement)
    (blocks : List (String × InlineBlock Statement)) :
    everywhereInBlocks f g blocks = blocks.map fun entry => (entry.1, entry.2.everywhere f g) := by
  induction blocks with
  | nil => rfl
  | cons entry rest ih =>
    rw [everywhereInBlocks, ih, List.map_cons]
    rfl

section Unchanged

variable {f : Expression → Expression} {g : Statement → Statement}

theorem InlineBlock.everywhere_eq_self {block : InlineBlock Statement}
    (kept : ∀ s ∈ block.statements, s.everywhere f g = s) : block.everywhere f g = block := by
  rw [InlineBlock.everywhere, everywhereInAll_eq_map, map_eq_self kept]

theorem Statement.everywhere_eq_self {s : Statement}
    (kept : ∀ part ∈ s.parts, g part = part ∧ ∀ e ∈ part.expressions, f e = e) :
    s.everywhere f g = s := by
  induction s using Statement.induction with
  | step s ih =>
  rw [s.parts_eq] at kept
  obtain ⟨⟨own, shown⟩, below⟩ := List.forall_mem_cons.mp kept
  have part : ∀ k ∈ s.inner, k.everywhere f g = k := fun k here =>
    ih k here fun k' deeper => below k' (List.mem_flatMap.mpr ⟨k, here, deeper⟩)
  have attrs_kept : s.attributes.map (Statement.everywhere f g) = s.attributes :=
    map_eq_self fun k here => part k (List.mem_append_left _ here)
  have body : ∀ b ∈ s.blocks, b.everywhere f g = b := fun b here =>
    InlineBlock.everywhere_eq_self fun k deeper =>
      part k (List.mem_append_right _ (List.mem_flatMap.mpr ⟨b, here, deeper⟩))
  cases s with
  | append value | trustingAppend value | attr kind name value space | staticArg name value
  | dynamicArg name value => rw [everywhere, shown value List.mem_cons_self, own]
  | modifier head params hash =>
    obtain ⟨head_kept, params_kept, hash_kept⟩ := arguments_eq_self shown
    rw [everywhere, head_kept, params_kept, hash_kept, own]
  | block head params hash table =>
    obtain ⟨head_kept, params_kept, hash_kept⟩ := arguments_eq_self shown
    have table_kept : everywhereInBlocks f g table = table :=
      (everywhereInBlocks_eq_map ..).trans (mapValues_eq_self body)
    rw [everywhere, head_kept, params_kept, hash_kept, table_kept, own]
  | component tag attrs args table =>
    obtain ⟨tag_kept, args_shown⟩ := List.forall_mem_cons.mp shown
    have given : everywhereInAll f g attrs = attrs := (everywhereInAll_eq_map ..).trans attrs_kept
    cases table with
    | none => rw [everywhere, tag_kept, given, mapValues_eq_self args_shown, own]
    | some table =>
      have table_kept : everywhereInBlocks f g table = table :=
        (everywhereInBlocks_eq_map ..).trans (mapValues_eq_self body)
      rw [everywhere, tag_kept, given, mapValues_eq_self args_shown, table_kept, own]
  | yield slot params =>
    have params_kept : params.map f = params := map_eq_self shown
    rw [everywhere, params_kept, own]
  | partialTemplate name evalInfo => rw [everywhere, shown name List.mem_cons_self, own]
  | inElement content guid destination insertBefore =>
    have content_kept : content.everywhere f g = content := body content List.mem_cons_self
    have before_kept : insertBefore.map f = insertBefore := by
      cases insertBefore with
      | none => rfl
      | some before => exact congrArg some (shown before (List.mem_cons_of_mem _ List.mem_cons_self))
    show g (.inElement (content.everywhere f g) guid (f destination) (insertBefore.map f)) = _
    rw [content_kept, shown destination List.mem_cons_self, before_kept, own]
  | _ => exact own

end Unchanged

end TemplateCompiler.Wire

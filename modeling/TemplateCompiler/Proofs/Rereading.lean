import Mathlib.Data.List.Basic
import TemplateCompiler.Proofs.Direct
import TemplateCompiler.Proofs.WireTree

/-!
# Reading free variables in another way

A function that changes how free variables are read, and nothing else, can be applied to every
expression of a compiled template. Where it takes one mode to another, it takes the direct
translation in the one mode to that in the other. Of the changed template all expressions come from
the function.
-/

namespace TemplateCompiler

namespace Wire

def Expression.isFree : Expression → Bool
  | .getFree _ | .getContextualFree _ _ => true
  | _ => false

/-- The same statement, with `f` applied to all its expressions, at any depth. -/
def Statement.reread (f : Expression → Expression) (s : Statement) : Statement :=
  s.everywhere (Expression.everywhere f) id

def InlineBlock.reread (f : Expression → Expression) (block : InlineBlock Statement) :
    InlineBlock Statement :=
  ⟨block.statements.map (Statement.reread f), block.parameters⟩

def rereadTable (f : Expression → Expression) (table : List (String × InlineBlock Statement)) :
    List (String × InlineBlock Statement) :=
  table.map fun entry => (entry.1, entry.2.reread f)

def rereadHash (f : Expression → Expression) (hash : List (String × Expression)) :
    List (String × Expression) :=
  hash.map fun entry => (entry.1, entry.2.everywhere f)

end Wire

/-- All expressions of a compiled template, at any depth. -/
def CompiledTemplate.expressions (c : CompiledTemplate) : List Wire.Expression :=
  (Wire.partsOfAll c.statements).flatMap fun s => s.expressions.flatMap Wire.Expression.parts

/-! ### Translation -/

namespace Wire

theorem Expression.everywhere_concat (f : Expression → Expression) (list : List Expression) :
    (concat list).everywhere f = f (.concat (list.map (everywhere f))) := by
  rw [everywhere, everywhereInList_eq_map]

theorem Expression.everywhere_call (f : Expression → Expression) (head : Expression)
    (params : List Expression) (hash : List (String × Expression)) :
    (call head params hash).everywhere f =
      f (.call (head.everywhere f) (params.map (everywhere f)) (rereadHash f hash)) := by
  rw [everywhere, everywhereInList_eq_map, everywhereInHash_eq_map]
  rfl

theorem everywhereInBlocks_eq_reread (f : Expression → Expression)
    (table : List (String × InlineBlock Statement)) :
    everywhereInBlocks (Expression.everywhere f) id table = rereadTable f table := by
  rw [everywhereInBlocks_eq_map]
  refine List.map_congr_left fun entry _ => ?_
  rw [InlineBlock.everywhere, everywhereInAll_eq_map]
  rfl

namespace Statement

variable (f : Expression → Expression)

theorem reread_block (head : Expression) (params : List Expression)
    (hash : List (String × Expression)) (table : List (String × InlineBlock Statement)) :
    (block head params hash table).reread f = .block (head.everywhere f)
      (params.map (Expression.everywhere f)) (rereadHash f hash) (rereadTable f table) := by
  rw [reread, everywhere, everywhereInBlocks_eq_reread]
  rfl

theorem reread_component (tag : Expression) (attrs : List Statement)
    (args : List (String × Expression)) (table : Option (List (String × InlineBlock Statement))) :
    (component tag attrs args table).reread f = .component (tag.everywhere f)
      (attrs.map (reread f)) (rereadHash f args) (table.map (rereadTable f)) := by
  cases table with
  | none =>
    rw [reread, everywhere, everywhereInAll_eq_map]
    rfl
  | some table =>
    rw [reread, everywhere, everywhereInAll_eq_map, everywhereInBlocks_eq_reread]
    rfl

theorem reread_inElement (body : InlineBlock Statement) (guid : String) (destination : Expression)
    (insertBefore : Option Expression) :
    (inElement body guid destination insertBefore).reread f = .inElement (body.reread f) guid
      (destination.everywhere f) (insertBefore.map (Expression.everywhere f)) := by
  rw [reread, everywhere, everywhereInAll_eq_map]
  rfl

theorem isAttribute_reread (s : Statement) : (s.reread f).isAttribute = s.isAttribute := by
  cases s with
  | component tag attrs args table =>
    rw [reread_component]
    rfl
  | _ => rfl

theorem arg?_reread (s : Statement) :
    (s.reread f).arg? = s.arg?.map fun entry => (entry.1, entry.2.everywhere f) := by
  cases s with
  | component tag attrs args table =>
    rw [reread_component]
    rfl
  | _ => rfl

end Statement

end Wire

namespace Direct

open Plan (BlockTest Keyword)
open Template (Attribute AttributeValue Block ConcatPart Element Mustache Pair Path TagKind)
open Wire (rereadHash rereadTable)

/-- A free variable as it is read in a mode. -/
def free (mode : Program.Mode) (index : Nat) (context : Context) : Wire.Expression :=
  if mode.strict then .getFree index else .getContextualFree index context

/-- Reads free variables in another mode, and changes nothing else. -/
structure Rereads (f : Wire.Expression → Wire.Expression) (mode mode' : Program.Mode) : Prop where
  free : ∀ index context, f (free mode index context) = Direct.free mode' index context
  other : ∀ e : Wire.Expression, e.isFree = false → f e = e

variable {f : Wire.Expression → Wire.Expression} {mode mode' : Program.Mode}

theorem append_reread (trusting : Bool) (value : Wire.Expression) :
    (append trusting value).reread f = append trusting (value.everywhere f) := by
  cases trusting <;> rfl

namespace Rereads

section Expressions

variable {table : SymbolTable} {scope : Nat}

theorem read (rereads : Rereads f mode mode') (name : String) (context : Context) :
    (Direct.read mode table scope name context).everywhere f =
      Direct.read mode' table scope name context := by
  have atoms : ∀ index, (Direct.free mode index context).everywhere f =
      f (Direct.free mode index context) := by
    intro index
    unfold Direct.free
    split <;> rfl
  unfold Direct.read
  split
  · exact rereads.other _ rfl
  · exact (atoms _).trans (rereads.free _ context)

theorem follow (rereads : Rereads f mode mode') (head : Wire.Expression) (tail : List String) :
    (Direct.follow head tail).everywhere f = Direct.follow (head.everywhere f) tail := by
  unfold Direct.follow
  split
  · rfl
  · exact rereads.other _ rfl

theorem path (rereads : Rereads f mode mode') (context : Context) (p : Path) :
    (Direct.path mode table scope context p).everywhere f =
      Direct.path mode' table scope context p := by
  have slot : ∀ n, (Wire.Expression.getSymbol n).everywhere f = .getSymbol n :=
    fun n => rereads.other _ rfl
  unfold Direct.path
  split
  · rw [rereads.follow, slot]
  · split
    · exact rereads.other _ rfl
    · rw [rereads.follow]
      split
      · rw [slot]
      · rw [rereads.read]

theorem blockTest (rereads : Rereads f mode mode') (test : BlockTest) (target : String) :
    (Direct.blockTest table test target).everywhere f = Direct.blockTest table test target := by
  have slot : ∀ n, f (.getSymbol n) = .getSymbol n := fun n => rereads.other _ rfl
  cases test <;> simp only [Direct.blockTest, Wire.Expression.everywhere, slot] <;>
    exact rereads.other _ rfl

mutual

/-- The value of an expression, reread, is its value in the other mode. -/
theorem expression (rereads : Rereads f mode mode') (context : Context) :
    (e : Template.Expression) →
    (Direct.expression mode table scope context e).everywhere f =
      Direct.expression mode' table scope context e
  | .path p => rereads.path context p
  | .call callee params ⟨named, _⟩ _ => by
    rw [Direct.expression, Direct.expression]
    split
    · exact rereads.blockTest _ _
    · rw [Wire.Expression.everywhere_call, rereads.path, rereads.expressions params,
        rereads.pairs named]
      exact rereads.other _ rfl
  | .literal value _ => by
    rw [Direct.expression, Direct.expression]
    cases value <;> exact rereads.other _ rfl

theorem expressions (rereads : Rereads f mode mode') : (list : List Template.Expression) →
    (Direct.expressions mode table scope list).map (Wire.Expression.everywhere f) =
      Direct.expressions mode' table scope list
  | [] => rfl
  | e :: rest => by
    rw [Direct.expressions, Direct.expressions, List.map_cons, rereads.expression .expression e,
      rereads.expressions rest]

theorem pairs (rereads : Rereads f mode mode') : (list : List (Pair Template.Expression)) →
    rereadHash f (Direct.pairs mode table scope list) = Direct.pairs mode' table scope list
  | [] => rfl
  | ⟨key, value, _⟩ :: rest => by
    have others := rereads.pairs rest
    rw [Direct.pairs, Direct.pairs, ← others, ← rereads.expression .expression value]
    rfl

end

/-! ### Opening tags -/

theorem call (rereads : Rereads f mode mode') (p : Path) (params : List Template.Expression)
    (hash : Template.Hash Template.Expression) :
    (Wire.Expression.call (Direct.path mode table scope .callHead p)
      (Direct.expressions mode table scope params)
      (Direct.pairs mode table scope hash.pairs)).everywhere f =
    .call (Direct.path mode' table scope .callHead p) (Direct.expressions mode' table scope params)
      (Direct.pairs mode' table scope hash.pairs) := by
  rw [Wire.Expression.everywhere_call, rereads.path, rereads.expressions, rereads.pairs]
  exact rereads.other _ rfl

theorem attributeMustache (rereads : Rereads f mode mode') (m : Mustache) :
    (Direct.attributeMustache mode table scope m).everywhere f =
      Direct.attributeMustache mode' table scope m := by
  obtain ⟨path, params, hash, trusting, loc⟩ := m
  cases path with
  | path p =>
    simp only [Direct.attributeMustache]
    split
    · exact rereads.blockTest _ _
    · split
      · exact rereads.call p params hash
      · exact rereads.path _ p
  | call callee inner keyed span => exact rereads.expression _ _
  | literal value span => exact rereads.expression _ _

theorem attributeValue (rereads : Rereads f mode mode') (value : AttributeValue) :
    (Direct.attributeValue mode table scope value).everywhere f =
      Direct.attributeValue mode' table scope value := by
  cases value with
  | text node => exact rereads.other _ rfl
  | mustache m => exact rereads.attributeMustache m
  | concat parts loc =>
    have each : ∀ part ∈ parts, (Direct.concatPart mode table scope part).everywhere f =
        Direct.concatPart mode' table scope part := by
      intro part _
      cases part with
      | text node => exact rereads.other _ rfl
      | mustache m => exact rereads.attributeMustache m
    simp only [Direct.attributeValue, Wire.Expression.everywhere_concat, List.map_map]
    rw [rereads.other _ rfl]
    exact congrArg Wire.Expression.concat (List.map_congr_left each)

theorem attributeStatement (rereads : Rereads f mode mode') (kind : TagKind) (a : Attribute) :
    (Direct.attributeStatement mode table scope kind a).reread f =
      Direct.attributeStatement mode' table scope kind a := by
  simp only [Direct.attributeStatement, ← rereads.attributeValue a.value]
  split
  · split <;> rfl
  · split <;> rfl

theorem modifier (rereads : Rereads f mode mode') (m : Template.Modifier) :
    (Direct.modifier mode table scope m).reread f = Direct.modifier mode' table scope m := by
  rw [Direct.modifier, Direct.modifier, ← rereads.path, ← rereads.expressions, ← rereads.pairs]
  rfl

theorem openingTag (rereads : Rereads f mode mode') {σ : Type} (kind : TagKind) (e : Element σ) :
    (Direct.openingTag mode table scope kind e).map (Wire.Statement.reread f) =
      Direct.openingTag mode' table scope kind e := by
  rw [Direct.openingTag, Direct.openingTag, List.map_append, List.map_map, List.map_map]
  congr 1
  · exact List.map_congr_left fun a _ => rereads.attributeStatement kind a
  · exact List.map_congr_left fun m _ => rereads.modifier m

theorem attributes (rereads : Rereads f mode mode') {σ : Type} (kind : TagKind) (e : Element σ) :
    ((Direct.openingTag mode table scope kind e).filter Wire.Statement.isAttribute).map
      (Wire.Statement.reread f) =
    (Direct.openingTag mode' table scope kind e).filter Wire.Statement.isAttribute := by
  rw [← rereads.openingTag, List.filter_map]
  congr 1
  exact List.filter_congr fun s _ => (s.isAttribute_reread f).symm

theorem arguments (rereads : Rereads f mode mode') {σ : Type} (kind : TagKind) (e : Element σ) :
    rereadHash f ((Direct.openingTag mode table scope kind e).filterMap Wire.Statement.arg?) =
      (Direct.openingTag mode' table scope kind e).filterMap Wire.Statement.arg? := by
  rw [← rereads.openingTag, List.filterMap_map, rereadHash, List.map_filterMap]
  exact List.filterMap_congr fun s _ => (s.arg?_reread f).symm

theorem tagExpression (rereads : Rereads f mode mode') {σ : Type} (rename : String → String)
    (kind : TagKind) (e : Element σ) :
    (Direct.tagExpression mode table scope rename kind e).everywhere f =
      Direct.tagExpression mode' table scope rename kind e := by
  cases kind with
  | component => exact rereads.read _ _
  | dynamicTag p => exact rereads.path _ p
  | _ => exact rereads.other _ rfl

/-! ### Mustaches -/

theorem onlyExpression (rereads : Rereads f mode mode') (params : List Template.Expression) :
    (Direct.onlyExpression mode table scope params).everywhere f =
      Direct.onlyExpression mode' table scope params := by
  unfold Direct.onlyExpression
  split
  · exact rereads.expression _ _
  · exact rereads.other _ rfl

theorem lastValue (rereads : Rereads f mode mode') (named : List (Pair Template.Expression)) :
    (Direct.lastValue mode table scope named).map (Wire.Expression.everywhere f) =
      Direct.lastValue mode' table scope named := by
  rw [Direct.lastValue, Direct.lastValue, Option.map_map]
  exact congrArg (Option.map · _) (funext fun pair => rereads.expression _ pair.value)

theorem mustacheValue (rereads : Rereads f mode mode') (p : Path) (m : Mustache) :
    (Direct.mustacheValue mode table scope p m).everywhere f =
      Direct.mustacheValue mode' table scope p m := by
  unfold Direct.mustacheValue
  split
  · exact rereads.blockTest _ _
  · split
    · exact rereads.call p m.params m.hash
    · exact rereads.path _ p

/-- The statement of a mustache, reread, is its statement in the other mode. -/
theorem mustache (rereads : Rereads f mode mode') (m : Mustache) :
    (Direct.mustache mode table scope m).reread f = Direct.mustache mode' table scope m := by
  obtain ⟨path, params, hash, trusting, loc⟩ := m
  cases path with
  | path p =>
    simp only [Direct.mustache]
    cases Keyword.ofPath? p with
    | none => rw [append_reread, rereads.mustacheValue]
    | some keyword =>
      cases keyword with
      | yield =>
        rw [← rereads.expressions]
        rfl
      | partialTemplate =>
        rw [← rereads.onlyExpression]
        rfl
      | debugger => rfl
  | call callee inner keyed span =>
    simp only [Direct.mustache]
    rw [append_reread, rereads.expression]
  | literal value span =>
    simp only [Direct.mustache]
    rw [append_reread, rereads.expression]

end Expressions

/-! ### Statements -/

variable {rename : String → String} {table : SymbolTable}

mutual

/-- The statements of an outline, reread, are its statements in the other mode. -/
theorem statement (rereads : Rereads f mode mode') : (o : Outline) → (scope : Nat) →
    (Direct.statement mode rename table scope o).map (Wire.Statement.reread f) =
      Direct.statement mode' rename table scope o
  | .mustache m, scope => by
    rw [Direct.statement, Direct.statement, ← rereads.mustache]
    rfl
  | .text _, _ => by
    rw [Direct.statement, Direct.statement]
    exact congrArg (fun value => [Wire.Statement.append value]) (rereads.other _ rfl)
  | .comment _, _ => rfl
  | .hidden, _ => rfl
  | .misplaced _ _, _ => rfl
  | .invocation ⟨head, params, hash, program, inverse, _⟩ programScope inverseScope, scope => by
    rw [Direct.statement, Direct.statement, List.map_singleton, Wire.Statement.reread_block,
      rereads.path, rereads.expressions, rereads.pairs, ← rereads.inlineBlock program,
      ← rereads.inverseBlock inverse]
    rfl
  | .inElement ⟨_, params, hash, program, _, _⟩ blockScope cursor, scope => by
    rw [Direct.statement, Direct.statement, List.map_singleton, Wire.Statement.reread_inElement,
      rereads.onlyExpression, rereads.lastValue, rereads.inlineBlock program]
  | .element kind ⟨tag, attributes, modifiers, children, blockParams, selfClosing, loc⟩,
      scope => by
    have start : (elementStart kind tag).reread f = elementStart kind tag := by
      cases kind <;> rfl
    simp only [Direct.statement, ← rereads.openingTag, ← rereads.statements children,
      List.map_append, List.map_cons, start]
    rfl
  | .component kind inner ⟨tag, attributes, modifiers, children, blockParams, selfClosing, loc⟩,
      scope => by
    rw [Direct.statement, Direct.statement, List.map_singleton, Wire.Statement.reread_component]
    simp only [rereads.tagExpression, rereads.attributes, rereads.arguments]
    split
    · rfl
    · split
      · rw [← rereads.namedBlocks children]
        rfl
      · rw [← rereads.statements children]
        rfl
  | .namedBlock _ _, _ => rfl

theorem statements (rereads : Rereads f mode mode') : (list : List Outline) → (scope : Nat) →
    (Direct.statements mode rename table scope list).map (Wire.Statement.reread f) =
      Direct.statements mode' rename table scope list
  | [], _ => rfl
  | o :: rest, scope => by
    rw [Direct.statements, Direct.statements, List.map_append, rereads.statement o,
      rereads.statements rest]

theorem inlineBlock (rereads : Rereads f mode mode') : (block : Block Outline) → (scope : Nat) →
    (Direct.inlineBlock mode rename table scope block).reread f =
      Direct.inlineBlock mode' rename table scope block
  | ⟨body, _, _⟩, scope => by
    rw [Direct.inlineBlock, Direct.inlineBlock, ← rereads.statements body]
    rfl

theorem inverseBlock (rereads : Rereads f mode mode') : (inverse : Option (Block Outline)) →
    (scope : Nat) →
    rereadTable f (Direct.inverseBlock mode rename table scope inverse) =
      Direct.inverseBlock mode' rename table scope inverse
  | none, _ => rfl
  | some block, scope => by
    rw [Direct.inverseBlock, Direct.inverseBlock, ← rereads.inlineBlock block]
    rfl

theorem namedBlocks (rereads : Rereads f mode mode') : (list : List Outline) →
    rereadTable f (Direct.namedBlocks mode rename table list) =
      Direct.namedBlocks mode' rename table list
  | [] => rfl
  | o :: rest => by
    rw [Direct.namedBlocks, Direct.namedBlocks, ← rereads.namedBlock o, ← rereads.namedBlocks rest]
    exact List.map_append

theorem namedBlock (rereads : Rereads f mode mode') : (o : Outline) →
    rereadTable f (Direct.namedBlock mode rename table o) =
      Direct.namedBlock mode' rename table o
  | .namedBlock scope ⟨tag, _, _, children, _, _, _⟩ => by
    rw [Direct.namedBlock, Direct.namedBlock, ← rereads.statements children]
    rfl
  | .mustache _ => rfl
  | .text _ => rfl
  | .comment _ => rfl
  | .hidden => rfl
  | .misplaced _ _ => rfl
  | .invocation _ _ _ => rfl
  | .inElement _ _ _ => rfl
  | .element _ _ => rfl
  | .component _ _ _ => rfl

end

end Rereads

end Direct

/-! ### Expressions that were changed -/

namespace Wire

variable {f : Expression → Expression}

/-- A change made everywhere is made at the top last, to parts that were changed before. -/
theorem Expression.everywhere_eq (f : Expression → Expression) (e : Expression) :
    ∃ changed, e.everywhere f = f changed ∧ changed.inner = e.inner.map (everywhere f) := by
  cases e with
  | concat list => exact ⟨_, everywhere_concat f list, rfl⟩
  | call head params hash =>
    refine ⟨_, everywhere_call f head params hash, ?_⟩
    simp [inner, rereadHash]
  | _ => exact ⟨_, rfl, rfl⟩

/-- Where `f` leaves alone what is inside an expression, all parts of a changed expression come from
`f`. -/
theorem Expression.of_mem_parts_everywhere (alone : ∀ e, (f e).inner = e.inner)
    {e part : Expression} (inside : part ∈ (e.everywhere f).parts) : ∃ old, part = f old := by
  induction e using Expression.induction with
  | step e ih =>
  obtain ⟨changed, same, within⟩ := e.everywhere_eq f
  rw [same, (f changed).parts_eq, alone, within] at inside
  rcases List.mem_cons.mp inside with rfl | deeper
  · exact ⟨changed, rfl⟩
  · obtain ⟨_, here, deeper⟩ := List.mem_flatMap.mp deeper
    obtain ⟨k, found, rfl⟩ := List.mem_map.mp here
    exact ih k found deeper

theorem statements_rereadTable (table : List (String × InlineBlock Statement)) :
    ((rereadTable f table).map Prod.snd).flatMap InlineBlock.statements =
      ((table.map Prod.snd).flatMap InlineBlock.statements).map (Statement.reread f) := by
  induction table with
  | nil => rfl
  | cons entry rest ih =>
    rw [rereadTable, List.map_cons, List.map_cons, List.flatMap_cons, List.map_cons,
      List.flatMap_cons, List.map_append, ← ih]
    rfl

theorem Statement.inner_reread (s : Statement) :
    (s.reread f).inner = s.inner.map (Statement.reread f) := by
  cases s with
  | block head params hash table =>
    rw [reread_block]
    exact statements_rereadTable table
  | component tag attrs args table =>
    rw [reread_component]
    cases table with
    | none => simp [inner, attributes, blocks]
    | some table => simp [inner, attributes, blocks, statements_rereadTable]
  | inElement body guid destination insertBefore =>
    rw [reread_inElement]
    simp [inner, attributes, blocks, InlineBlock.reread]
  | _ => rfl

theorem Statement.expressions_reread (s : Statement) :
    (s.reread f).expressions = s.expressions.map (Expression.everywhere f) := by
  cases s with
  | modifier head params hash => simp [reread, everywhere, expressions]
  | block head params hash table => simp [reread_block, expressions, rereadHash]
  | component tag attrs args table => simp [reread_component, expressions, rereadHash]
  | inElement body guid destination insertBefore =>
    rw [reread_inElement]
    cases insertBefore <;> rfl
  | _ => rfl

/-- Every statement inside a reread one is a reread one. -/
theorem Statement.of_mem_parts_reread {s part : Statement} (inside : part ∈ (s.reread f).parts) :
    ∃ old : Statement, part = old.reread f := by
  induction s using Statement.induction with
  | step s ih =>
  rw [(s.reread f).parts_eq, inner_reread] at inside
  rcases List.mem_cons.mp inside with rfl | deeper
  · exact ⟨s, rfl⟩
  · obtain ⟨_, here, deeper⟩ := List.mem_flatMap.mp deeper
    obtain ⟨k, within, rfl⟩ := List.mem_map.mp here
    exact ih k within deeper

end Wire

/-- All expressions of a template come from the function that was applied to them. -/
theorem CompiledTemplate.of_mem_expressions {f : Wire.Expression → Wire.Expression}
    (alone : ∀ e, (f e).inner = e.inner) {c : CompiledTemplate} {list : List Wire.Statement}
    (reread : c.statements = list.map (Wire.Statement.reread f)) {e : Wire.Expression}
    (inside : e ∈ c.expressions) : ∃ old, e = f old := by
  obtain ⟨part, within, inside⟩ := List.mem_flatMap.mp inside
  obtain ⟨shown, here, inside⟩ := List.mem_flatMap.mp inside
  rw [reread, Wire.partsOfAll_eq_flatMap] at within
  obtain ⟨_, listed, within⟩ := List.mem_flatMap.mp within
  obtain ⟨s, _, rfl⟩ := List.mem_map.mp listed
  obtain ⟨old, rfl⟩ := Wire.Statement.of_mem_parts_reread within
  rw [Wire.Statement.expressions_reread] at here
  obtain ⟨e', _, rfl⟩ := List.mem_map.mp here
  exact Wire.Expression.of_mem_parts_everywhere alone inside

end TemplateCompiler

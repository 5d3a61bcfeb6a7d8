import Mathlib.Data.List.Nodup
import TemplateCompiler.Proofs.Compilation
import TemplateCompiler.Proofs.Slots
import TemplateCompiler.Proofs.Sites

/-!
# Block params in tables and blocks

A template that is planned has a symbol for each of its block params, in the order in which they
stand in the source, and no other symbols. In the compiled template no slot is a parameter of two
blocks, or twice a parameter of one.

Scopes are numbered in the order of the source, which is also the order of the blocks in the
compiled template. Some blocks are missing there, as the block params of a component with named
blocks are no parameters of anything.
-/

namespace TemplateCompiler

namespace Template

mutual

/-- All block params in a statement: those of an element before those in its children, and those of
a block before those in its `else` block. -/
def Statement.allBlockParams : Statement → List String
  | .block ⟨_, _, _, program, inverse, _⟩ => paramsOfBlock program ++ paramsOfInverse inverse
  | .element ⟨_, _, _, children, names, _, _⟩ => names ++ paramsOfAll children
  | .mustache _ | .text _ | .comment _ | .mustacheComment _ => []

def paramsOfAll : List Statement → List String
  | [] => []
  | s :: rest => s.allBlockParams ++ paramsOfAll rest

def paramsOfBlock : Block Statement → List String
  | ⟨body, names, _⟩ => names ++ paramsOfAll body

def paramsOfInverse : Option (Block Statement) → List String
  | none => []
  | some block => paramsOfBlock block

end

end Template

def Template.allBlockParams (t : Template) : List String := paramsOfAll t.body

namespace Plan

open Template (Block BlockNode Element paramsOfAll paramsOfBlock paramsOfInverse)

/-! ### Symbols of a plan -/

/-- A check that is made while planning leaves the progress as it is. -/
theorem ok_of_lift {α β : Type} {planned : Planned α} {f : α → Planning β} {p p' : Progress}
    {b : β} (done : (monadLift planned >>= f) p = .ok (b, p')) :
    ∃ a, planned = .ok a ∧ f a p = .ok (b, p') := by
  cases planned with
  | error r => cases done
  | ok a => exact ⟨a, rfl, done⟩

/-- Asking which names are bound is answered by the current scope, and changes nothing. -/
theorem ok_of_isLocal {bound : String → Bool} {p p' : Progress}
    (asked : isLocal p = .ok (bound, p')) :
    bound = p.table.has p.scopes.current ∧ p = p' := by
  unfold isLocal at asked
  dsimp only at asked
  split at asked
  · cases asked
    exact ⟨rfl, rfl⟩
  · cases asked

/-- Planning has added symbols with some names. -/
def Adds (names : List String) (p p' : Progress) : Prop :=
  p'.table.symbols = p.table.symbols ++ names

theorem Adds.none (p : Progress) : Adds [] p p := (List.append_nil _).symm

theorem Adds.trans {names others : List String} {p p' p'' : Progress} (first : Adds names p p')
    (second : Adds others p' p'') : Adds (names ++ others) p p'' := by
  rw [Adds, second, first, List.append_assoc]

/-- A new scope adds its names to the symbols, and is the only thing that does. -/
theorem adds_of_newScope {names : List String} {scope : Nat} {p p' : Progress}
    (done : newScope names p = .ok (scope, p')) : Adds names p p' := by
  rw [newScope, SymbolTable.child_eq] at done
  cases done
  rfl

theorem adds_of_exitScope {u : Unit} {p p' : Progress} (done : exitScope p = .ok (u, p')) :
    Adds [] p p' := by
  rw [exitScope] at done
  split at done
  · cases done
  · cases done
    exact .none p

/-- Content adds the same in a scope that is entered for it and left again. -/
theorem adds_of_scoped {α β : Type} {names : List String} {x : Planning α} {f : α → β}
    {inner : Nat} {p p' : Progress} {b : β}
    (inside : ∀ {a q q'}, x q = .ok (a, q') → Adds names q q')
    (done : (do enterScope inner; let a ← x; exitScope; return f a) p = .ok (b, p')) :
    Adds names p p' := by
  have entered : enterScope inner p = .ok ((), { p with scopes := p.scopes.push inner }) := rfl
  rw [bind_of_ok entered] at done
  obtain ⟨a, q, content, done⟩ := ok_of_step done
  obtain ⟨_, q', left, done⟩ := ok_of_step done
  cases done
  have added := inside content
  have closed := added.trans (adds_of_exitScope left)
  rwa [List.append_nil] at closed

/-- An `in-element` block that is accepted has no `else` block. -/
theorem inverse_of_planDestination {σ : Type} {b : BlockNode σ}
    {goes : Located Expression × Option (Located Expression)}
    (done : planDestination b = .ok goes) : b.inverse = none := by
  unfold planDestination at done
  split at done
  · obtain ⟨_, _, done⟩ := ok_of_bind done
    obtain ⟨_, allowed, _⟩ := ok_of_bind done
    exact Option.isNone_iff_eq_none.mp (require_ok allowed)
  · cases done

/-- A plain element that is accepted binds no names. -/
theorem blockParams_of_plain {σ : Type} {kind : Template.TagKind} {e : Element σ}
    (done : checkElement kind e = .ok ()) (plain : ¬kind.isComponentLike = true) :
    e.blockParams = [] := by
  obtain ⟨_, _, done⟩ := ok_of_bind done
  obtain ⟨_, _, done⟩ := ok_of_bind done
  have allowed := require_ok done
  rw [Bool.not_eq_true] at plain
  rw [plain, Bool.false_or] at allowed
  exact List.isEmpty_iff.mp allowed

/-- Beside named blocks stands only what has no names. -/
theorem adds_of_besideNamed {quiet : Bool} {component : String} {loc : Span}
    {list : List (Located Statement)} {p p' : Progress}
    (done : (do
      require quiet (.contentBesideNamedBlocks component loc)
      return ([] : List (Located Statement)) : Planning _) p = .ok (list, p')) :
    quiet = true ∧ Adds [] p p' := by
  obtain ⟨_, allowed, done⟩ := ok_of_lift done
  cases done
  exact ⟨require_ok allowed, .none p⟩

variable (rename : String → String)

/-- A component, whichever way its content is planned. -/
theorem adds_of_component {σ : Type} {kind : Template.TagKind} {e : Element σ}
    {x : Planning (List (Located Statement))} {inside : List String}
    {list : List (Located Statement)} {p p' : Progress}
    (content : ∀ {a q q'}, x q = .ok (a, q') → Adds inside q q')
    (done : (do
      let inner ← newScope e.blockParams
      let opening ← planOpening rename kind e (some inner)
      enterScope inner
      let content ← x
      exitScope
      return opening ++ content ++ [(⟨closeStatement kind, e.loc⟩ : Located Statement)]) p =
        .ok (list, p')) :
    Adds (e.blockParams ++ inside) p p' := by
  obtain ⟨inner, q, created, done⟩ := ok_of_step done
  obtain ⟨opening, _, done⟩ := ok_of_lift done
  exact (adds_of_newScope created).trans (adds_of_scoped content done)

mutual

/-- What is planned for a statement adds the block params of the statement. -/
theorem adds_of_planStatement : (s : Template.Statement) →
    {list : List (Located Statement)} → {p p' : Progress} →
    planStatement rename s p = .ok (list, p') → Adds s.allBlockParams p p'
  | .mustache m, _, p, p', done => by
    rw [planStatement] at done
    obtain ⟨s, _, done⟩ := ok_of_lift done
    dsimp only at done
    split at done <;> cases done <;> exact .none _
  | .text _, _, p, _, done => by
    cases done
    exact .none p
  | .comment _, _, p, _, done => by
    cases done
    exact .none p
  | .mustacheComment _, _, p, _, done => by
    cases done
    exact .none p
  | .block ⟨path, params, hash, program, inverse, loc⟩, _, p, p', done => by
    rw [planStatement] at done
    split at done
    · obtain ⟨⟨destination, before⟩, planned, done⟩ := ok_of_lift done
      obtain ⟨guid, q, counted, done⟩ := ok_of_step done
      cases counted
      obtain ⟨block, q', blockDone, done⟩ := ok_of_step done
      cases done
      have noInverse : inverse = none := inverse_of_planDestination planned
      subst noInverse
      have inside := adds_of_planBlock "default" program blockDone
      rw [Template.Statement.allBlockParams, paramsOfInverse, List.append_nil]
      exact inside
    · obtain ⟨block, q, blockDone, done⟩ := ok_of_step done
      obtain ⟨other, q', otherDone, done⟩ := ok_of_step done
      obtain ⟨head, _, done⟩ := ok_of_lift done
      obtain ⟨list, _, done⟩ := ok_of_lift done
      obtain ⟨named, _, done⟩ := ok_of_lift done
      cases done
      exact (adds_of_planBlock "default" program blockDone).trans
        (adds_of_planInverse inverse otherDone)
  | .element ⟨tag, attributes, modifiers, children, names, selfClosing, loc⟩, _, p, p', done => by
    rw [planStatement] at done
    obtain ⟨bound, q, asked, done⟩ := ok_of_step done
    obtain ⟨-, rfl⟩ := ok_of_isLocal asked
    dsimp only at done
    obtain ⟨_, checked, done⟩ := ok_of_lift done
    split at done
    · next component =>
      split at done
      · exact adds_of_component rename
          (e := ⟨tag, attributes, modifiers, children, names, selfClosing, loc⟩)
          (adds_of_planNamedBlocks tag children) done
      · exact adds_of_component rename
          (e := ⟨tag, attributes, modifiers, children, names, selfClosing, loc⟩)
          (adds_of_planStatements children) done
    · next plain =>
      obtain ⟨opening, _, done⟩ := ok_of_lift done
      obtain ⟨content, q, contentDone, done⟩ := ok_of_step done
      cases done
      have noParams : names = [] := blockParams_of_plain checked plain
      subst noParams
      exact adds_of_planStatements children contentDone

theorem adds_of_planStatements : (list : List Template.Statement) →
    {planned : List (Located Statement)} → {p p' : Progress} →
    planStatements rename list p = .ok (planned, p') → Adds (paramsOfAll list) p p'
  | [], _, p, _, done => by
    cases done
    exact .none p
  | s :: rest, _, p, p', done => by
    rw [planStatements] at done
    obtain ⟨first, q, firstDone, done⟩ := ok_of_step done
    obtain ⟨others, q', restDone, done⟩ := ok_of_step done
    cases done
    exact (adds_of_planStatement s firstDone).trans (adds_of_planStatements rest restDone)

theorem adds_of_planBlock (name : String) : (block : Block Template.Statement) →
    {planned : NamedBlock (Located Statement)} → {p p' : Progress} →
    planBlock rename name block p = .ok (planned, p') → Adds (paramsOfBlock block) p p'
  | ⟨body, names, loc⟩, _, p, p', done => by
    rw [planBlock] at done
    obtain ⟨inner, q, created, done⟩ := ok_of_step done
    exact (adds_of_newScope created).trans (adds_of_scoped (adds_of_planStatements body) done)

theorem adds_of_planInverse : (inverse : Option (Block Template.Statement)) →
    {planned : Option (NamedBlock (Located Statement))} → {p p' : Progress} →
    planInverse rename inverse p = .ok (planned, p') → Adds (paramsOfInverse inverse) p p'
  | none, _, p, _, done => by
    cases done
    exact .none p
  | some block, _, p, p', done => by
    rw [planInverse] at done
    obtain ⟨planned, q, blockDone, done⟩ := ok_of_step done
    cases done
    exact adds_of_planBlock "else" block blockDone

theorem adds_of_planNamedBlocks (component : String) : (list : List Template.Statement) →
    {planned : List (Located Statement)} → {p p' : Progress} →
    planNamedBlocks rename component list p = .ok (planned, p') → Adds (paramsOfAll list) p p'
  | [], _, p, _, done => by
    cases done
    exact .none p
  | s :: rest, _, p, p', done => by
    rw [planNamedBlocks] at done
    obtain ⟨first, q, firstDone, done⟩ := ok_of_step done
    obtain ⟨others, q', restDone, done⟩ := ok_of_step done
    cases done
    exact (adds_of_planNamedBlock component s firstDone).trans
      (adds_of_planNamedBlocks component rest restDone)

theorem adds_of_planNamedBlock (component : String) : (s : Template.Statement) →
    {list : List (Located Statement)} → {p p' : Progress} →
    planNamedBlock rename component s p = .ok (list, p') → Adds s.allBlockParams p p'
  | .element ⟨tag, attributes, modifiers, children, names, selfClosing, loc⟩, _, p, p', done => by
    rw [planNamedBlock] at done
    split at done
    · obtain ⟨_, _, done⟩ := ok_of_lift done
      obtain ⟨inner, q, created, done⟩ := ok_of_step done
      exact (adds_of_newScope created).trans (adds_of_scoped (adds_of_planStatements children) done)
    · cases done
  | .mustache m, _, _, _, done => (adds_of_besideNamed done).2
  | .block b, _, _, _, done => by
    have quiet : isNothing (.block b) = true := (adds_of_besideNamed done).1
    cases quiet
  | .text node, _, _, _, done => (adds_of_besideNamed done).2
  | .comment node, _, _, _, done => (adds_of_besideNamed done).2
  | .mustacheComment node, _, _, _, done => (adds_of_besideNamed done).2

end

/-- After planning, the symbols are the block params of the template in source order. -/
theorem symbols_of_plan {o : Options} {t : Template} {plan : Plan} (done : t.plan o = .ok plan) :
    plan.table.symbols = t.allBlockParams := by
  rw [Template.plan, ofTemplate] at done
  obtain ⟨⟨body, progress⟩, planned, done⟩ := ok_of_bind done
  dsimp only at done
  split at done
  · cases done
    exact adds_of_planStatements o.rename t.body planned
  · cases done

end Plan

/-! ### Parameters of blocks -/

namespace Wire

mutual

/-- The parameters of all blocks in a statement, those of a block before those in its content. -/
def Statement.parameters : Statement → List Nat
  | .block _ _ _ blocks => parametersOfBlocks blocks
  | .component _ attrs _ none => parametersOfAll attrs
  | .component _ attrs _ (some blocks) => parametersOfAll attrs ++ parametersOfBlocks blocks
  | .inElement ⟨statements, own⟩ _ _ _ => own ++ parametersOfAll statements
  | _ => []

def parametersOfAll : List Statement → List Nat
  | [] => []
  | s :: rest => s.parameters ++ parametersOfAll rest

def parametersOfBlocks : List (String × InlineBlock Statement) → List Nat
  | [] => []
  | (_, ⟨statements, own⟩) :: rest =>
    own ++ parametersOfAll statements ++ parametersOfBlocks rest

end

def InlineBlock.allParameters (block : InlineBlock Statement) : List Nat :=
  block.parameters ++ parametersOfAll block.statements

theorem parametersOfBlocks_cons (name : String) (block : InlineBlock Statement)
    (rest : List (String × InlineBlock Statement)) :
    parametersOfBlocks ((name, block) :: rest) = block.allParameters ++ parametersOfBlocks rest :=
  rfl

theorem parametersOfAll_append (xs ys : List Statement) :
    parametersOfAll (xs ++ ys) = parametersOfAll xs ++ parametersOfAll ys := by
  induction xs with
  | nil => rfl
  | cons s rest ih => simp only [List.cons_append, parametersOfAll, ih, List.append_assoc]

theorem parametersOfBlocks_append (xs ys : List (String × InlineBlock Statement)) :
    parametersOfBlocks (xs ++ ys) = parametersOfBlocks xs ++ parametersOfBlocks ys := by
  induction xs with
  | nil => rfl
  | cons block rest ih => simp only [List.cons_append, parametersOfBlocks, ih, List.append_assoc]

theorem Statement.parameters_of_flat {s : Statement} (flat : s.isNested = false) :
    s.parameters = [] := by
  cases s with
  | block head params hash blocks => cases flat
  | component tag attrs args blocks => cases flat
  | inElement block guid destination before => cases flat
  | _ => rfl

theorem parametersOfAll_of_flat {list : List Statement} (flat : ∀ s ∈ list, s.isNested = false) :
    parametersOfAll list = [] := by
  induction list with
  | nil => rfl
  | cons s rest ih =>
    rw [parametersOfAll, Statement.parameters_of_flat (flat s List.mem_cons_self),
      ih fun t found => flat t (List.mem_cons_of_mem s found)]
    rfl

end Wire

def CompiledTemplate.parameters (c : CompiledTemplate) : List Nat :=
  Wire.parametersOfAll c.statements

namespace Outline

open Template (Block Element TagKind)
open Wire (parametersOfAll parametersOfBlocks)

/-- Parameters come from scopes with consecutive numbers, each used once at most and in the order
of the numbers. -/
def Drawn (table : SymbolTable) (c next : Count) (parameters : List Nat) : Prop :=
  ∃ n, next.scopes = c.scopes + n ∧
    parameters.Sublist ((List.range' c.scopes n).flatMap table.slots)

namespace Drawn

variable {table : SymbolTable} {c between next : Count} {parameters later : List Nat}

theorem none (c : Count) : Drawn table c c [] := ⟨0, rfl, List.nil_sublist _⟩

/-- What two pieces draw, one after the other, is drawn by both together. -/
theorem append (first : Drawn table c between parameters)
    (second : Drawn table between next later) : Drawn table c next (parameters ++ later) := by
  obtain ⟨n, counted, inside⟩ := first
  obtain ⟨m, counted', inside'⟩ := second
  refine ⟨n + m, by omega, ?_⟩
  rw [← List.range'_append_1, List.flatMap_append, ← counted]
  exact inside.append inside'

/-- A scope whose names are parameters, and its content. -/
theorem scope (content : Drawn table c.scope next parameters) :
    Drawn table c next (table.slots c.scopes ++ parameters) := by
  have own : Drawn table c c.scope (table.slots c.scopes) := by
    refine ⟨1, rfl, ?_⟩
    rw [List.range'_one, List.flatMap_singleton]
  exact own.append content

theorem fewer (drawn : Drawn table c next parameters) (sublist : later.Sublist parameters) :
    Drawn table c next later := by
  obtain ⟨n, counted, inside⟩ := drawn
  exact ⟨n, counted, sublist.trans inside⟩

/-- A scope whose names are not parameters. -/
theorem skip (content : Drawn table c.scope next parameters) : Drawn table c next parameters :=
  content.scope.fewer (List.sublist_append_right _ _)

end Drawn

variable (mode : Program.Mode) (rename : String → String) (table : SymbolTable)

/-- What a component draws from, whichever way its content is translated. -/
theorem parameters_component (scope inner : Nat) (kind : TagKind) (e : Element Outline) :
    parametersOfAll (Direct.statement mode rename table scope (.component kind inner e)) =
      if e.selfClosing then []
      else if e.children.any isNamed then
        parametersOfBlocks (Direct.namedBlocks mode rename table e.children)
      else
        table.slots inner ++
          parametersOfAll (Direct.statements mode rename table inner e.children) := by
  obtain ⟨tag, attributes, modifiers, children, names, selfClosing, loc⟩ := e
  have flat := flat_openingTag mode table scope kind
    (⟨tag, attributes, modifiers, children, names, selfClosing, loc⟩ : Element Outline)
  have attrs : parametersOfAll ((Direct.openingTag mode table scope kind
      (⟨tag, attributes, modifiers, children, names, selfClosing, loc⟩ :
        Element Outline)).filter Wire.Statement.isAttribute) = [] :=
    Wire.parametersOfAll_of_flat fun s found => flat s (List.mem_of_mem_filter found)
  rw [Direct.statement, parametersOfAll, parametersOfAll, List.append_nil]
  cases selfClosing with
  | true => exact attrs
  | false =>
    simp only [Bool.false_eq_true, if_false]
    split
    · rw [Wire.Statement.parameters, attrs, List.nil_append]
    · rw [Wire.Statement.parameters, attrs, List.nil_append, parametersOfBlocks, parametersOfBlocks,
        List.append_nil]

/-- A plain element passes no parameters but those of its content. -/
theorem parameters_element (scope : Nat) (kind : TagKind) (e : Element Outline) :
    parametersOfAll (Direct.statement mode rename table scope (.element kind e)) =
      parametersOfAll (Direct.statements mode rename table scope e.children) := by
  have start : (Direct.elementStart kind e.tag).parameters = [] := by cases kind <;> rfl
  have tag := Wire.parametersOfAll_of_flat (flat_openingTag mode table scope kind e)
  rw [Direct.statement]
  simp only [Wire.parametersOfAll_append, List.cons_append, parametersOfAll, start, tag,
    Wire.Statement.parameters, List.nil_append, List.append_nil]

mutual

/-- The blocks that a statement is translated to have scopes of their own. -/
theorem drawn_ofStatement (enclosing : List Binder) (c : Count) (scope : Nat) :
    (s : Template.Statement) →
    Drawn table c (ofStatement enclosing c s).2
      (parametersOfAll (Direct.statement mode rename table scope (ofStatement enclosing c s).1))
  | .mustache m => by
    have flat := flat_mustache mode table scope m
    have none : parametersOfAll [Direct.mustache mode table scope m] = [] :=
      Wire.parametersOfAll_of_flat (List.forall_mem_singleton.mpr flat)
    rw [ofStatement, Direct.statement, none]
    exact .none c
  | .text _ => .none c
  | .comment _ => .none c
  | .mustacheComment _ => .none c
  | .block ⟨path, params, hash, program, inverse, loc⟩ => by
    rw [ofStatement]
    split
    · rw [Direct.statement, parametersOfAll, parametersOfAll, List.append_nil]
      exact drawn_ofBlock enclosing ⟨c.scopes, c.cursors + 1⟩ program
    · rw [Direct.statement, parametersOfAll, parametersOfAll, List.append_nil,
        Wire.Statement.parameters, Wire.parametersOfBlocks_cons]
      exact (drawn_ofBlock enclosing c program).append (drawn_ofInverse enclosing _ inverse)
  | .element ⟨tag, attributes, modifiers, children, names, selfClosing, loc⟩ => by
    rw [ofStatement]
    dsimp only
    split
    · rw [parameters_component]
      cases named : children.any Plan.isNamedBlock with
      | true =>
        simp only [if_true, ofNamedBlocks_any, named]
        have content := drawn_ofNamedBlocks (⟨c.scopes, names, !true⟩ :: enclosing) c.scope tag
          children
        split
        · exact content.skip.fewer (List.nil_sublist _)
        · exact content.skip
      | false =>
        simp only [Bool.false_eq_true, if_false, ofStatements_any]
        have content := drawn_ofStatements (⟨c.scopes, names, !false⟩ :: enclosing) c.scope
          c.scopes children
        split
        · exact content.skip.fewer (List.nil_sublist _)
        · exact content.scope
    · rw [parameters_element]
      exact drawn_ofStatements enclosing c scope children

theorem drawn_ofStatements (enclosing : List Binder) (c : Count) (scope : Nat) :
    (list : List Template.Statement) →
    Drawn table c (ofStatements enclosing c list).2
      (parametersOfAll
        (Direct.statements mode rename table scope (ofStatements enclosing c list).1))
  | [] => .none c
  | s :: rest => by
    rw [ofStatements, Direct.statements, Wire.parametersOfAll_append]
    exact (drawn_ofStatement enclosing c scope s).append
      (drawn_ofStatements enclosing _ scope rest)

theorem drawn_ofBlock (enclosing : List Binder) (c : Count) : (block : Block Template.Statement) →
    Drawn table c (ofBlock enclosing c block).2
      (Direct.inlineBlock mode rename table c.scopes (ofBlock enclosing c block).1).allParameters
  | ⟨body, names, _⟩ =>
    (drawn_ofStatements (⟨c.scopes, names, true⟩ :: enclosing) c.scope c.scopes body).scope

theorem drawn_ofInverse (enclosing : List Binder) (c : Count) :
    (inverse : Option (Block Template.Statement)) →
    Drawn table c (ofInverse enclosing c inverse).2
      (parametersOfBlocks
        (Direct.inverseBlock mode rename table c.scopes (ofInverse enclosing c inverse).1))
  | none => .none c
  | some block => by
    rw [ofInverse, Direct.inverseBlock, Wire.parametersOfBlocks_cons, parametersOfBlocks,
      List.append_nil]
    exact drawn_ofBlock enclosing c block

theorem drawn_ofNamedBlocks (enclosing : List Binder) (c : Count) (component : String) :
    (list : List Template.Statement) →
    Drawn table c (ofNamedBlocks enclosing c component list).2
      (parametersOfBlocks
        (Direct.namedBlocks mode rename table (ofNamedBlocks enclosing c component list).1))
  | [] => .none c
  | s :: rest => by
    rw [ofNamedBlocks, Direct.namedBlocks, Wire.parametersOfBlocks_append]
    exact (drawn_ofNamedBlock enclosing c component s).append
      (drawn_ofNamedBlocks enclosing _ component rest)

theorem drawn_ofNamedBlock (enclosing : List Binder) (c : Count) (component : String) :
    (s : Template.Statement) →
    Drawn table c (ofNamedBlock enclosing c component s).2
      (parametersOfBlocks
        (Direct.namedBlock mode rename table (ofNamedBlock enclosing c component s).1))
  | .element ⟨tag, attributes, modifiers, children, names, selfClosing, loc⟩ => by
    rw [ofNamedBlock]
    split
    · rw [Direct.namedBlock, parametersOfBlocks, parametersOfBlocks, List.append_nil]
      exact (drawn_ofStatements (⟨c.scopes, names, true⟩ :: enclosing) c.scope c.scopes
        children).scope
    · exact .none c
  | .mustache _ => .none c
  | .block _ => .none c
  | .text node => by
    rw [ofNamedBlock]
    · split <;> exact .none c
    · simp
  | .comment _ => .none c
  | .mustacheComment _ => .none c

end

end Outline

namespace SymbolTable

/-- Every slot of a scope is the slot of some symbol. -/
theorem Extends.mem_slots_range {t : SymbolTable} (extends_ : empty.Extends t) {i n : Nat}
    (found : n ∈ t.slots i) : 1 ≤ n ∧ n ≤ t.symbols.length := by
  obtain ⟨scope, at_, inside⟩ := mem_slots.mp found
  have among : n ∈ t.scopes.flatMap Scope.slots :=
    List.mem_flatMap.mpr ⟨scope, List.mem_of_getElem? at_, inside⟩
  rw [extends_.numbered.1, List.mem_range'_1] at among
  omega

/-- No slot is handed out twice to the scopes with some numbers. -/
theorem Extends.nodup_slots {t : SymbolTable} (extends_ : empty.Extends t) {numbers : List Nat}
    (distinct : numbers.Nodup) : (numbers.flatMap t.slots).Nodup := by
  have separate := extends_.separate (.refl t)
  rw [List.nodup_flatMap]
  constructor
  · intro i _
    have distinctSlots : (t.scopes.flatMap Scope.slots).Nodup :=
      extends_.numbered.1 ▸ List.nodup_range'
    rw [slots]
    cases at_ : t.scopes[i]? with
    | none => exact List.nodup_nil
    | some scope => exact (List.nodup_flatMap.mp distinctSlots).1 scope (List.mem_of_getElem? at_)
  · refine distinct.imp fun {i j} other => ?_
    intro n here there
    exact other (separate.apart here there)

end SymbolTable

namespace Compiles

variable {o : Options} {t : Template} {plan : Plan} {stream : List Program.Traced}
  {table : SymbolTable}

/-- The parameters of all blocks in the compiled template are distinct slots of block params. -/
theorem parameters (compiles : Compiles o t plan stream table) :
    (Wire.parametersOfAll (Direct.statements o.mode o.rename table SymbolTable.rootScope
      (Outline.ofTemplate t))).Nodup ∧
    ∀ slot ∈ Wire.parametersOfAll (Direct.statements o.mode o.rename table SymbolTable.rootScope
      (Outline.ofTemplate t)), 1 ≤ slot ∧ slot ≤ t.allBlockParams.length := by
  obtain ⟨n, _, sublist⟩ := Outline.drawn_ofStatements o.mode o.rename table [] ⟨1, 0⟩
    SymbolTable.rootScope t.body
  have same : table.slots = plan.table.slots :=
    funext (SymbolTable.slots_of_scopes compiles.grows.scopes)
  rw [same] at sublist
  refine ⟨sublist.nodup (compiles.scopes.nodup_slots List.nodup_range'), fun slot found => ?_⟩
  obtain ⟨i, _, inside⟩ := List.mem_flatMap.mp (sublist.subset found)
  rw [← Plan.symbols_of_plan compiles.planned]
  exact compiles.scopes.mem_slots_range inside

end Compiles

end TemplateCompiler

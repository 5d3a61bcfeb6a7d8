import TemplateCompiler.Plan.Basic
import TemplateCompiler.Program.Basic
import TemplateCompiler.Proofs.WireTree

/-!
# Taking trust back

A value in triple curly braces is trusted: it is shown without escaping. Here all trust is taken
back, in a template and in each of its later forms. A template without triple curly braces stays as
it is, and a compiled template then has no statement that trusts a value.
-/

namespace TemplateCompiler

/-! ### Templates -/

namespace Template

def Mustache.untrust (m : Mustache) : Mustache := { m with trusting := false }

def ConcatPart.untrust : ConcatPart → ConcatPart
  | .text node => .text node
  | .mustache m => .mustache m.untrust

def AttributeValue.untrust : AttributeValue → AttributeValue
  | .text node => .text node
  | .mustache m => .mustache m.untrust
  | .concat parts loc => .concat (parts.map ConcatPart.untrust) loc

def Attribute.untrust (a : Attribute) : Attribute := { a with value := a.value.untrust }

mutual

/-- The same statement with every mustache in double curly braces. -/
def Statement.untrust : Statement → Statement
  | .mustache m => .mustache m.untrust
  | .block ⟨path, params, hash, program, inverse, loc⟩ =>
    .block ⟨path, params, hash, untrustBlock program, untrustInverse inverse, loc⟩
  | .element ⟨tag, attributes, modifiers, children, blockParams, selfClosing, loc⟩ =>
    .element ⟨tag, attributes.map Attribute.untrust, modifiers, untrustAll children, blockParams,
      selfClosing, loc⟩
  | .text node => .text node
  | .comment node => .comment node
  | .mustacheComment node => .mustacheComment node

def untrustAll : List Statement → List Statement
  | [] => []
  | s :: rest => s.untrust :: untrustAll rest

def untrustBlock : Block Statement → Block Statement
  | ⟨body, params, loc⟩ => ⟨untrustAll body, params, loc⟩

def untrustInverse : Option (Block Statement) → Option (Block Statement)
  | none => none
  | some block => some (untrustBlock block)

end

def untrust (t : Template) : Template := ⟨untrustAll t.body, t.loc⟩

def ConcatPart.mustaches : ConcatPart → List Mustache
  | .text _ => []
  | .mustache m => [m]

def AttributeValue.mustaches : AttributeValue → List Mustache
  | .text _ => []
  | .mustache m => [m]
  | .concat parts _ => parts.flatMap ConcatPart.mustaches

mutual

/-- The mustaches of a statement, at any depth. -/
def Statement.mustaches : Statement → List Mustache
  | .mustache m => [m]
  | .block ⟨_, _, _, program, inverse, _⟩ => mustachesOfBlock program ++ mustachesOfInverse inverse
  | .element ⟨_, attributes, _, children, _, _, _⟩ =>
    attributes.flatMap (fun a => a.value.mustaches) ++ mustachesOfAll children
  | .text _ | .comment _ | .mustacheComment _ => []

def mustachesOfAll : List Statement → List Mustache
  | [] => []
  | s :: rest => s.mustaches ++ mustachesOfAll rest

def mustachesOfBlock : Block Statement → List Mustache
  | ⟨body, _, _⟩ => mustachesOfAll body

def mustachesOfInverse : Option (Block Statement) → List Mustache
  | none => []
  | some block => mustachesOfBlock block

end

def mustaches (t : Template) : List Mustache := mustachesOfAll t.body

theorem Mustache.untrust_eq_self {m : Mustache} (escaped : m.trusting = false) : m.untrust = m := by
  rw [untrust, ← escaped]

theorem AttributeValue.untrust_eq_self {value : AttributeValue}
    (escaped : ∀ m ∈ value.mustaches, m.trusting = false) : value.untrust = value := by
  cases value with
  | text node => rfl
  | mustache m => rw [untrust, Mustache.untrust_eq_self (escaped m List.mem_cons_self)]
  | concat parts loc =>
    have kept : parts.map ConcatPart.untrust = parts := Wire.map_eq_self fun part here => by
      cases part with
      | text node => rfl
      | mustache m =>
        rw [ConcatPart.untrust, Mustache.untrust_eq_self (escaped m ?_)]
        exact List.mem_flatMap.mpr ⟨_, here, List.mem_cons_self⟩
    rw [untrust, kept]

mutual

/-- A statement without trusting mustaches is untrusted already. -/
theorem Statement.untrust_eq_self : (s : Statement) →
    (∀ m ∈ s.mustaches, m.trusting = false) → s.untrust = s
  | .mustache m, escaped => by
    rw [Statement.untrust, Mustache.untrust_eq_self (escaped m List.mem_cons_self)]
  | .block ⟨path, params, hash, program, inverse, loc⟩, escaped => by
    obtain ⟨inProgram, inInverse⟩ := List.forall_mem_append.mp escaped
    rw [Statement.untrust, untrustBlock_eq_self program inProgram,
      untrustInverse_eq_self inverse inInverse]
  | .element ⟨tag, attributes, modifiers, children, blockParams, selfClosing, loc⟩, escaped => by
    obtain ⟨inAttributes, inChildren⟩ := List.forall_mem_append.mp escaped
    have kept : attributes.map Attribute.untrust = attributes := Wire.map_eq_self fun a here => by
      rw [Attribute.untrust, AttributeValue.untrust_eq_self fun m found => inAttributes m ?_]
      exact List.mem_flatMap.mpr ⟨a, here, found⟩
    rw [Statement.untrust, kept, untrustAll_eq_self children inChildren]
  | .text _, _ => rfl
  | .comment _, _ => rfl
  | .mustacheComment _, _ => rfl

theorem untrustAll_eq_self : (list : List Statement) →
    (∀ m ∈ mustachesOfAll list, m.trusting = false) → untrustAll list = list
  | [], _ => rfl
  | s :: rest, escaped => by
    obtain ⟨first, others⟩ := List.forall_mem_append.mp escaped
    rw [untrustAll, Statement.untrust_eq_self s first, untrustAll_eq_self rest others]

theorem untrustBlock_eq_self : (block : Block Statement) →
    (∀ m ∈ mustachesOfBlock block, m.trusting = false) → untrustBlock block = block
  | ⟨body, params, loc⟩, escaped => by rw [untrustBlock, untrustAll_eq_self body escaped]

theorem untrustInverse_eq_self : (inverse : Option (Block Statement)) →
    (∀ m ∈ mustachesOfInverse inverse, m.trusting = false) → untrustInverse inverse = inverse
  | none, _ => rfl
  | some block, escaped => by rw [untrustInverse, untrustBlock_eq_self block escaped]

end

/-- A template without triple curly braces has no trust to be taken back. -/
theorem untrust_eq_self {t : Template} (escaped : ∀ m ∈ t.mustaches, m.trusting = false) :
    t.untrust = t := by
  rw [untrust, untrustAll_eq_self t.body escaped]

end Template

/-! ### Plans and programs -/

namespace AttributeKind

def isTrusting : AttributeKind → Bool
  | .trustingDynamic | .trustingComponent => true
  | _ => false

def untrust : AttributeKind → AttributeKind
  | .trustingDynamic => .dynamic
  | .trustingComponent => .component
  | kind => kind

theorem isTrusting_untrust (kind : AttributeKind) : kind.untrust.isTrusting = false := by
  cases kind <;> rfl

end AttributeKind

namespace Plan

mutual

def Statement.untrust : Statement → Statement
  | .appendTrusted value => .append value
  | .attr kind name space value => .attr kind.untrust name space value
  | .invokeBlock head params hash program inverse =>
    .invokeBlock head params hash (untrustBlock program) (untrustInverse inverse)
  | .inElement destination insertBefore guid block =>
    .inElement destination insertBefore guid (untrustBlock block)
  | s => s

def untrustAll : List (Located Statement) → List (Located Statement)
  | [] => []
  | ⟨s, span⟩ :: rest => ⟨s.untrust, span⟩ :: untrustAll rest

def untrustBlock : NamedBlock (Located Statement) → NamedBlock (Located Statement)
  | ⟨name, scope, body, span⟩ => ⟨name, scope, untrustAll body, span⟩

def untrustInverse :
    Option (NamedBlock (Located Statement)) → Option (NamedBlock (Located Statement))
  | none => none
  | some block => some (untrustBlock block)

end

def untrust (plan : Plan) : Plan := ⟨untrustAll plan.body, plan.table⟩

def untrustLocated (s : Located Statement) : Located Statement := ⟨s.value.untrust, s.span⟩

theorem untrustAll_eq_map (list : List (Located Statement)) :
    untrustAll list = list.map untrustLocated := by
  induction list with
  | nil => rfl
  | cons s rest ih =>
    rw [untrustAll, ih, List.map_cons]
    rfl

theorem untrustAll_append (xs ys : List (Located Statement)) :
    untrustAll (xs ++ ys) = untrustAll xs ++ untrustAll ys := by
  simp only [untrustAll_eq_map, List.map_append]

end Plan

namespace Program

def Op.untrust : Op → Op
  | .trustingAppend => .append
  | .attr kind name space => .attr kind.untrust name space
  | op => op

def untrustOps (ops : List (Located Op)) : List (Located Op) :=
  ops.map fun op => ⟨op.value.untrust, op.span⟩

theorem untrustOps_append (xs ys : List (Located Op)) :
    untrustOps (xs ++ ys) = untrustOps xs ++ untrustOps ys :=
  List.map_append

def untrust (program : Program) : Program := ⟨untrustOps program.ops, program.table⟩

end Program

/-! ### Compiled templates -/

namespace Wire

namespace Statement

def isTrusting : Statement → Bool
  | .trustingAppend _ => true
  | .attr kind _ _ _ => kind.isTrusting
  | _ => false

/-- The statement itself, without the statements inside it. -/
def untrustOne : Statement → Statement
  | .trustingAppend value => .append value
  | .attr kind name value space => .attr kind.untrust name value space
  | s => s

/-- A statement and all statements inside it. -/
def untrust (s : Statement) : Statement := s.everywhere id untrustOne

end Statement

def InlineBlock.untrust (block : InlineBlock Statement) : InlineBlock Statement :=
  ⟨block.statements.map Statement.untrust, block.parameters⟩

def untrustTable (table : List (String × InlineBlock Statement)) :
    List (String × InlineBlock Statement) :=
  table.map fun entry => (entry.1, entry.2.untrust)

theorem everywhereInBlocks_eq_untrust (table : List (String × InlineBlock Statement)) :
    everywhereInBlocks id Statement.untrustOne table = untrustTable table := by
  rw [everywhereInBlocks_eq_map]
  refine List.map_congr_left fun entry _ => ?_
  rw [InlineBlock.everywhere, everywhereInAll_eq_map]
  rfl

theorem statements_untrustTable (table : List (String × InlineBlock Statement)) :
    ((untrustTable table).map Prod.snd).flatMap InlineBlock.statements =
      ((table.map Prod.snd).flatMap InlineBlock.statements).map Statement.untrust := by
  induction table with
  | nil => rfl
  | cons entry rest ih =>
    rw [untrustTable, List.map_cons, List.map_cons, List.flatMap_cons, List.map_cons,
      List.flatMap_cons, List.map_append, ← ih]
    rfl

namespace Statement

theorem untrust_modifier (head : Expression) (params : List Expression)
    (hash : List (String × Expression)) :
    (modifier head params hash).untrust = .modifier head params hash := by
  simp [untrust, everywhere, untrustOne]

theorem untrust_yield (slot : Nat) (params : List Expression) :
    (yield slot params).untrust = .yield slot params := by
  simp [untrust, everywhere, untrustOne]

theorem untrust_block (head : Expression) (params : List Expression)
    (hash : List (String × Expression)) (table : List (String × InlineBlock Statement)) :
    (block head params hash table).untrust = .block head params hash (untrustTable table) := by
  simp [untrust, everywhere, untrustOne, everywhereInBlocks_eq_untrust]

theorem untrust_component (tag : Expression) (attrs : List Statement)
    (args : List (String × Expression)) (table : Option (List (String × InlineBlock Statement))) :
    (component tag attrs args table).untrust =
      .component tag (attrs.map untrust) args (table.map untrustTable) := by
  cases table <;>
    simp [untrust, everywhere, untrustOne, everywhereInBlocks_eq_untrust, everywhereInAll_eq_map]

theorem untrust_inElement (body : InlineBlock Statement) (guid : String) (destination : Expression)
    (insertBefore : Option Expression) :
    (inElement body guid destination insertBefore).untrust =
      .inElement body.untrust guid destination insertBefore := by
  simp [untrust, everywhere, untrustOne, everywhereInAll_eq_map, InlineBlock.untrust]

/-- The statements inside an untrusted one are untrusted. -/
theorem inner_untrust (s : Statement) : s.untrust.inner = s.inner.map untrust := by
  cases s with
  | block head params hash table =>
    rw [untrust_block]
    exact statements_untrustTable table
  | component tag attrs args table =>
    rw [untrust_component]
    cases table with
    | none => simp [inner, attributes, blocks]
    | some table => simp [inner, attributes, blocks, statements_untrustTable]
  | inElement body guid destination insertBefore =>
    rw [untrust_inElement]
    simp [inner, attributes, blocks, InlineBlock.untrust]
  | _ => rfl

theorem isTrusting_untrust (s : Statement) : s.untrust.isTrusting = false := by
  cases s with
  | attr kind name value space => exact kind.isTrusting_untrust
  | component tag attrs args table => cases table <;> rfl
  | _ => rfl

/-- Once trust has been taken back, no statement trusts a value, at any depth. -/
theorem isTrusting_of_mem_parts_untrust {s part : Statement} (inside : part ∈ s.untrust.parts) :
    part.isTrusting = false := by
  induction s using Statement.induction with
  | step s ih =>
  rw [s.untrust.parts_eq, inner_untrust] at inside
  rcases List.mem_cons.mp inside with rfl | deeper
  · exact isTrusting_untrust s
  · obtain ⟨_, here, deeper⟩ := List.mem_flatMap.mp deeper
    obtain ⟨k, within, rfl⟩ := List.mem_map.mp here
    exact ih k within deeper

end Statement

end Wire

end TemplateCompiler

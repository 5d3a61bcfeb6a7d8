import TemplateCompiler.Plan.OfTemplate

/-!
# Valid templates

Which templates are in order, said by recursion on the template. The names of the blocks around a
statement are all that has to be known of its surroundings: they decide what an element is.

Validity speaks of everything that is written in a template. Three things are not looked at when the
template is planned: the value of `...attributes`, all attributes `type` of an element but the last,
and the arguments of a mustache whose head is no path. They are listed here, and a template is valid
exactly if what is left without them is valid and each of them is valid by itself.
-/

namespace TemplateCompiler

namespace Template

/-! ### Expressions -/

/-- Only `this` may stand without a name after it. -/
def Path.isValid (p : Path) : Bool := p.isThis || !p.parts.isEmpty

def Path.isBlockTest (p : Path) : Bool :=
  p.written == "has-block" || p.written == "has-block-params"

def Expression.isText : Expression → Bool
  | .literal (.string _) _ => true
  | _ => false

/-- The arguments of a test for a block: its name at most. -/
def namesBlock (params : List Expression) (named : List (Pair Expression)) : Bool :=
  named.isEmpty && params.length ≤ 1 && params.all Expression.isText

mutual

def Expression.isValid : Expression → Bool
  | .path p => p.isValid
  | .call callee params ⟨named, _⟩ _ =>
    if callee.isBlockTest then namesBlock params named
    else callee.isValid && paramsAreValid params && pairsAreValid named
  | .literal _ _ => true

def paramsAreValid : List Expression → Bool
  | [] => true
  | e :: rest => e.isValid && paramsAreValid rest

def pairsAreValid : List (Pair Expression) → Bool
  | [] => true
  | ⟨_, value, _⟩ :: rest => value.isValid && pairsAreValid rest

end

def callIsValid (head : Path) (params : List Expression) (named : List (Pair Expression)) : Bool :=
  head.isValid && paramsAreValid params && pairsAreValid named

/-! ### Opening tags -/

def Mustache.arguments (m : Mustache) : List Expression := m.params ++ m.hash.pairs.map Pair.value

/-- A mustache as a value. With arguments, a path at its head is a plain name. -/
def Mustache.isValidValue (m : Mustache) : Bool :=
  match m.path with
  | .path p =>
    if p.isBlockTest then namesBlock m.params m.hash.pairs
    else if m.params.isEmpty && m.hash.pairs.isEmpty then p.isValid
    else p.isSimple && callIsValid p m.params m.hash.pairs
  | other => other.isValid && m.arguments.all Expression.isValid

def ConcatPart.isValid : ConcatPart → Bool
  | .text _ => true
  | .mustache m => m.isValidValue

def AttributeValue.isValid : AttributeValue → Bool
  | .text _ => true
  | .mustache m => m.isValidValue
  | .concat parts _ => parts.all ConcatPart.isValid

/-- An attribute on an element of some kind. Only some kinds take arguments. -/
def Attribute.isValid (kind : TagKind) (a : Attribute) : Bool :=
  (!startsWith a.name '@' || kind.hasComponentFeatures) && a.value.isValid

def Modifier.isValid (m : Modifier) : Bool := callIsValid m.path m.params m.hash.pairs

/-! ### Statements -/

/-- A `yield` goes to the default block, or to one that is named as a text. -/
def yieldsToBlock : List (Pair Expression) → Bool
  | [] => true
  | [⟨key, value, _⟩] => key == "to" && value.isText
  | _ => false

def Mustache.isValid (m : Mustache) : Bool :=
  match m.path with
  | .path p =>
    if p.written == "yield" then yieldsToBlock m.hash.pairs && paramsAreValid m.params
    else if p.written == "partial" then
      m.params.length == 1 && m.hash.pairs.isEmpty && !m.trusting && paramsAreValid m.params
    else if p.written == "debugger" then m.hash.pairs.isEmpty && m.params.isEmpty
    else if p.isBlockTest then namesBlock m.params m.hash.pairs
    else callIsValid p m.params m.hash.pairs
  | other => other.isValid && m.arguments.all Expression.isValid

/-- What stands in an element apart from its content. -/
def Element.isValidOpening {σ : Type} (kind : TagKind) (e : Element σ) : Bool :=
  !startsWith e.tag ':' && (!e.selfClosing || e.children.isEmpty) &&
    (kind.isComponentLike || e.blockParams.isEmpty) && e.attributes.all (Attribute.isValid kind) &&
    e.modifiers.all Modifier.isValid

/-- An `in-element` block apart from its content. -/
def BlockNode.isValidInElement {σ : Type} (b : BlockNode σ) : Bool :=
  b.params.length == 1 && paramsAreValid b.params &&
    b.hash.pairs.all (·.key == "insertBefore") && pairsAreValid b.hash.pairs && b.inverse.isNone

mutual

/-- A statement where some names are visible. -/
def Statement.isValid (visible : List String) : Statement → Bool
  | .mustache m => m.isValid
  | .text _ | .comment _ | .mustacheComment _ => true
  | .block ⟨path, params, hash, program, inverse, loc⟩ =>
    if path.written == "in-element" then
      BlockNode.isValidInElement
          (⟨path, params, hash, program, inverse, loc⟩ : BlockNode Statement) &&
        blockIsValid visible program
    else
      callIsValid path params hash.pairs && blockIsValid visible program &&
        inverseIsValid visible inverse
  | .element ⟨tag, attributes, modifiers, children, names, selfClosing, loc⟩ =>
    let e : Element Statement := ⟨tag, attributes, modifiers, children, names, selfClosing, loc⟩
    let kind := e.kind visible.contains
    e.isValidOpening kind &&
      if kind.isComponentLike then
        if children.any Plan.isNamedBlock then namedAreValid (names ++ visible) children
        else areValid (names ++ visible) children
      else areValid visible children

def areValid (visible : List String) : List Statement → Bool
  | [] => true
  | s :: rest => s.isValid visible && areValid visible rest

def blockIsValid (visible : List String) : Block Statement → Bool
  | ⟨body, names, _⟩ => areValid (names ++ visible) body

def inverseIsValid (visible : List String) : Option (Block Statement) → Bool
  | none => true
  | some block => blockIsValid visible block

/-- The content of a component with named blocks: these, and nothing else that shows. -/
def namedAreValid (visible : List String) : List Statement → Bool
  | [] => true
  | s :: rest => s.isValidNamed visible && namedAreValid visible rest

def Statement.isValidNamed (visible : List String) : Statement → Bool
  | .element ⟨tag, attributes, modifiers, children, names, _, _⟩ =>
    startsWith tag ':' && attributes.isEmpty && modifiers.isEmpty &&
      areValid (names ++ visible) children
  | .text node => Text.isBlankText node.chars
  | .comment _ | .mustacheComment _ => true
  | .mustache _ | .block _ => false

end

/-- A template that is in order. Outside of all blocks no names are visible. -/
def isValid (t : Template) : Bool := areValid [] t.body

/-! ### What is overlooked -/

/-- Something in a template that planning does not look at. -/
inductive Overlooked where
  | value (written : AttributeValue)
  | argument (e : Expression)

def Overlooked.isValid : Overlooked → Bool
  | .value written => written.isValid
  | .argument e => e.isValid

/-- Only a path is called on the arguments that stand after it. -/
def Mustache.seen : Mustache → Mustache
  | ⟨.path p, params, hash, trusting, loc⟩ => ⟨.path p, params, hash, trusting, loc⟩
  | ⟨head, _, hash, trusting, loc⟩ => ⟨head, [], ⟨[], hash.loc⟩, trusting, loc⟩

def Mustache.overlooked : Mustache → List Overlooked
  | ⟨.path _, _, _, _, _⟩ => []
  | m => m.arguments.map .argument

def ConcatPart.seen : ConcatPart → ConcatPart
  | .text node => .text node
  | .mustache m => .mustache m.seen

def ConcatPart.overlooked : ConcatPart → List Overlooked
  | .text _ => []
  | .mustache m => m.overlooked

def AttributeValue.seen : AttributeValue → AttributeValue
  | .text node => .text node
  | .mustache m => .mustache m.seen
  | .concat parts loc => .concat (parts.map ConcatPart.seen) loc

def AttributeValue.overlooked : AttributeValue → List Overlooked
  | .text _ => []
  | .mustache m => m.overlooked
  | .concat parts _ => parts.flatMap ConcatPart.overlooked

/-- Of `...attributes` only the name is seen. -/
def Attribute.seen (a : Attribute) : Attribute :=
  if a.name = splattributes then { a with value := .text ⟨"", a.loc⟩ }
  else { a with value := a.value.seen }

def Attribute.overlooked (a : Attribute) : List Overlooked :=
  if a.name = splattributes then [.value a.value] else a.value.overlooked

/-- Whether an attribute is a `type`, with another one among those that follow it. -/
def Attribute.isReplaced (a : Attribute) (rest : List Attribute) : Bool :=
  a.name == "type" && rest.any (·.name == "type")

def seenAttributes : List Attribute → List Attribute
  | [] => []
  | a :: rest => if a.isReplaced rest then seenAttributes rest else a.seen :: seenAttributes rest

def overlookedInAttributes : List Attribute → List Overlooked
  | [] => []
  | a :: rest =>
    (if a.isReplaced rest then [.value a.value] else a.overlooked) ++ overlookedInAttributes rest

mutual

/-- A statement without all that planning overlooks. -/
def Statement.seen : Statement → Statement
  | .mustache m => .mustache m.seen
  | .block ⟨path, params, hash, program, inverse, loc⟩ =>
    .block ⟨path, params, hash, seenBlock program, seenInverse inverse, loc⟩
  | .element ⟨tag, attributes, modifiers, children, names, selfClosing, loc⟩ =>
    .element ⟨tag, seenAttributes attributes, modifiers, seenAll children, names, selfClosing, loc⟩
  | .text node => .text node
  | .comment node => .comment node
  | .mustacheComment node => .mustacheComment node

def seenAll : List Statement → List Statement
  | [] => []
  | s :: rest => s.seen :: seenAll rest

def seenBlock : Block Statement → Block Statement
  | ⟨body, names, loc⟩ => ⟨seenAll body, names, loc⟩

def seenInverse : Option (Block Statement) → Option (Block Statement)
  | none => none
  | some block => some (seenBlock block)

end

def Element.seen (e : Element Statement) : Element Statement :=
  { e with attributes := seenAttributes e.attributes, children := seenAll e.children }

mutual

/-- All that planning overlooks in a statement. -/
def Statement.overlooked : Statement → List Overlooked
  | .mustache m => m.overlooked
  | .block ⟨_, _, _, program, inverse, _⟩ =>
    overlookedInBlock program ++ overlookedInInverse inverse
  | .element ⟨_, attributes, _, children, _, _, _⟩ =>
    overlookedInAttributes attributes ++ overlookedInAll children
  | .text _ | .comment _ | .mustacheComment _ => []

def overlookedInAll : List Statement → List Overlooked
  | [] => []
  | s :: rest => s.overlooked ++ overlookedInAll rest

def overlookedInBlock : Block Statement → List Overlooked
  | ⟨body, _, _⟩ => overlookedInAll body

def overlookedInInverse : Option (Block Statement) → List Overlooked
  | none => []
  | some block => overlookedInBlock block

end

def seen (t : Template) : Template := ⟨seenAll t.body, t.loc⟩

def overlooked (t : Template) : List Overlooked := overlookedInAll t.body

/-! ### What is left -/

theorem all_isValid_argument (arguments : List Expression) :
    (arguments.map Overlooked.argument).all Overlooked.isValid =
      arguments.all Expression.isValid := List.all_map

/-- A mustache as a value is valid if what is seen of it is, and what is overlooked. -/
theorem Mustache.isValidValue_eq (m : Mustache) :
    m.isValidValue = (m.seen.isValidValue && m.overlooked.all Overlooked.isValid) := by
  obtain ⟨head, params, hash, trusting, loc⟩ := m
  cases head with
  | path p => exact (Bool.and_true _).symm
  | call | literal =>
    simp only [isValidValue, seen, overlooked, all_isValid_argument]
    exact congrArg (· && _) (Bool.and_true _).symm

/-- A mustache is valid if what is seen and what is overlooked are. -/
theorem Mustache.isValid_eq (m : Mustache) :
    m.isValid = (m.seen.isValid && m.overlooked.all Overlooked.isValid) := by
  obtain ⟨head, params, hash, trusting, loc⟩ := m
  cases head with
  | path p => exact (Bool.and_true _).symm
  | call | literal =>
    simp only [isValid, seen, overlooked, all_isValid_argument]
    exact congrArg (· && _) (Bool.and_true _).symm

theorem all_and_flatMap {α : Type} (xs : List α) {valid left : α → Bool}
    {found : α → List Overlooked}
    (each : ∀ x, valid x = (left x && (found x).all Overlooked.isValid)) :
    xs.all valid = (xs.all left && (xs.flatMap found).all Overlooked.isValid) := by
  induction xs with
  | nil => rfl
  | cons x rest ih =>
    simp only [List.all_cons, List.flatMap_cons, List.all_append, each, ih]
    ac_rfl

theorem AttributeValue.isValid_eq (value : AttributeValue) :
    value.isValid = (value.seen.isValid && value.overlooked.all Overlooked.isValid) := by
  cases value with
  | text node => rfl
  | mustache m => exact m.isValidValue_eq
  | concat parts loc =>
    simp only [isValid, seen, overlooked, List.all_map]
    refine all_and_flatMap parts fun part => ?_
    cases part with
    | text node => rfl
    | mustache m => exact m.isValidValue_eq

/-- `...attributes` is no argument. -/
theorem startsWith_splattributes : startsWith splattributes '@' = false := by decide

theorem Attribute.isValid_eq (kind : TagKind) (a : Attribute) :
    a.isValid kind = (a.seen.isValid kind && a.overlooked.all Overlooked.isValid) := by
  unfold Attribute.isValid Attribute.seen Attribute.overlooked
  by_cases splat : a.name = splattributes
  · simp [splat, startsWith_splattributes, AttributeValue.isValid, Overlooked.isValid]
  · simp only [splat, if_false]
    rw [AttributeValue.isValid_eq a.value, Bool.and_assoc]

/-- An attribute that is replaced is no argument, so only its value matters. -/
theorem Attribute.isValid_of_isReplaced {a : Attribute} {rest : List Attribute}
    (replaced : a.isReplaced rest = true) (kind : TagKind) : a.isValid kind = a.value.isValid := by
  have named : a.name = "type" := beq_iff_eq.mp (Bool.and_eq_true_iff.mp replaced).1
  have plain : startsWith "type" '@' = false := by decide
  rw [isValid, named, plain]
  rfl

/-- Attributes are valid if what is seen and what is overlooked of them are. -/
theorem all_attributes_eq (kind : TagKind) (attributes : List Attribute) :
    attributes.all (Attribute.isValid kind) =
      ((seenAttributes attributes).all (Attribute.isValid kind) &&
        (overlookedInAttributes attributes).all Overlooked.isValid) := by
  induction attributes with
  | nil => rfl
  | cons a rest ih =>
    rw [List.all_cons, ih, seenAttributes, overlookedInAttributes, List.all_append]
    cases replaced : a.isReplaced rest with
    | true =>
      simp only [if_true, Attribute.isValid_of_isReplaced replaced, List.all_cons, List.all_nil,
        Overlooked.isValid, Bool.and_true]
      ac_rfl
    | false =>
      simp only [Bool.false_eq_true, if_false, List.all_cons, Attribute.isValid_eq kind a]
      ac_rfl

/-! ### What stays as it is -/

theorem Attribute.name_seen (a : Attribute) : a.seen.name = a.name := by
  unfold Attribute.seen
  split <;> rfl

/-- The last attribute of a name is seen, whatever the name. -/
theorem any_name_seenAttributes (name : String) (attributes : List Attribute) :
    (seenAttributes attributes).any (·.name == name) = attributes.any (·.name == name) := by
  induction attributes with
  | nil => rfl
  | cons a rest ih =>
    rw [seenAttributes, List.any_cons]
    cases replaced : a.isReplaced rest with
    | true =>
      obtain ⟨typed, again⟩ := Bool.and_eq_true_iff.mp replaced
      rw [if_pos rfl, ih]
      by_cases same : a.name = name
      · rw [← same, beq_iff_eq.mp typed, again, Bool.or_true]
      · rw [beq_false_of_ne same, Bool.false_or]
    | false => simp [Attribute.name_seen, ih]

theorem isEmpty_seenAttributes (attributes : List Attribute) :
    (seenAttributes attributes).isEmpty = attributes.isEmpty := by
  cases attributes with
  | nil => rfl
  | cons a rest =>
    rw [seenAttributes]
    cases replaced : a.isReplaced rest with
    | false => rfl
    | true =>
      have again := (Bool.and_eq_true_iff.mp replaced).2
      rw [← any_name_seenAttributes] at again
      cases left : seenAttributes rest with
      | nil =>
        rw [left] at again
        cases again
      | cons => rfl

/-- What an element is does not depend on anything overlooked. -/
theorem Element.kind_seen (isLocal : String → Bool) (e : Element Statement) :
    e.seen.kind isLocal = e.kind isLocal := by
  have splat : e.seen.hasSplat = e.hasSplat := any_name_seenAttributes splattributes e.attributes
  unfold Element.kind
  rw [splat]
  rfl

theorem isEmpty_seenAll (list : List Statement) : (seenAll list).isEmpty = list.isEmpty := by
  cases list <;> rfl

theorem any_isNamedBlock_seenAll (list : List Statement) :
    (seenAll list).any Plan.isNamedBlock = list.any Plan.isNamedBlock := by
  induction list with
  | nil => rfl
  | cons s rest ih =>
    have same : Plan.isNamedBlock s.seen = Plan.isNamedBlock s := by cases s <;> rfl
    rw [seenAll, List.any_cons, List.any_cons, same, ih]

theorem isNone_seenInverse (inverse : Option (Block Statement)) :
    (seenInverse inverse).isNone = inverse.isNone := by
  cases inverse <;> rfl

/-! ### Statements and templates -/

theorem Element.isValidOpening_eq (kind : TagKind) (e : Element Statement) :
    e.isValidOpening kind =
      (e.seen.isValidOpening kind &&
        (overlookedInAttributes e.attributes).all Overlooked.isValid) := by
  simp only [isValidOpening, Element.seen, isEmpty_seenAll, all_attributes_eq kind e.attributes]
  ac_rfl

mutual

/-- A statement is valid if what is seen of it is, and all that is overlooked in it. -/
theorem Statement.isValid_eq (visible : List String) : (s : Statement) →
    s.isValid visible = (s.seen.isValid visible && s.overlooked.all Overlooked.isValid)
  | .mustache m => m.isValid_eq
  | .text _ => rfl
  | .comment _ => rfl
  | .mustacheComment _ => rfl
  | .block ⟨path, params, hash, program, inverse, loc⟩ => by
    rw [Statement.seen, Statement.overlooked, Statement.isValid, Statement.isValid,
      blockIsValid_eq visible program, List.all_append]
    by_cases moved : path.written = "in-element"
    · simp only [moved, beq_self_eq_true, if_true, BlockNode.isValidInElement, isNone_seenInverse]
      cases inverse with
      | none => simp only [overlookedInInverse, List.all_nil, Bool.and_true, Bool.and_assoc]
      | some block => simp
    · simp only [beq_false_of_ne moved, Bool.false_eq_true, if_false,
        inverseIsValid_eq visible inverse]
      ac_rfl
  | .element ⟨tag, attributes, modifiers, children, names, selfClosing, loc⟩ => by
    have kinds := Element.kind_seen visible.contains
      ⟨tag, attributes, modifiers, children, names, selfClosing, loc⟩
    rw [Statement.seen, Statement.overlooked, Statement.isValid, Statement.isValid,
      List.all_append]
    dsimp only [Element.seen] at kinds ⊢
    rw [kinds, any_isNamedBlock_seenAll, Element.isValidOpening_eq, namedAreValid_eq _ children,
      areValid_eq _ children, areValid_eq _ children, Element.seen]
    split
    · split <;> ac_rfl
    · ac_rfl

theorem areValid_eq (visible : List String) : (list : List Statement) →
    areValid visible list =
      (areValid visible (seenAll list) && (overlookedInAll list).all Overlooked.isValid)
  | [] => rfl
  | s :: rest => by
    rw [seenAll, overlookedInAll, areValid, areValid, Statement.isValid_eq visible s,
      areValid_eq visible rest, List.all_append]
    ac_rfl

theorem blockIsValid_eq (visible : List String) : (block : Block Statement) →
    blockIsValid visible block =
      (blockIsValid visible (seenBlock block) &&
        (overlookedInBlock block).all Overlooked.isValid)
  | ⟨body, names, _⟩ => areValid_eq (names ++ visible) body

theorem inverseIsValid_eq (visible : List String) : (inverse : Option (Block Statement)) →
    inverseIsValid visible inverse =
      (inverseIsValid visible (seenInverse inverse) &&
        (overlookedInInverse inverse).all Overlooked.isValid)
  | none => rfl
  | some block => blockIsValid_eq visible block

theorem namedAreValid_eq (visible : List String) : (list : List Statement) →
    namedAreValid visible list =
      (namedAreValid visible (seenAll list) && (overlookedInAll list).all Overlooked.isValid)
  | [] => rfl
  | s :: rest => by
    rw [seenAll, overlookedInAll, namedAreValid, namedAreValid, Statement.isValidNamed_eq visible s,
      namedAreValid_eq visible rest, List.all_append]
    ac_rfl

theorem Statement.isValidNamed_eq (visible : List String) : (s : Statement) →
    s.isValidNamed visible = (s.seen.isValidNamed visible && s.overlooked.all Overlooked.isValid)
  | .mustache _ => rfl
  | .block _ => rfl
  | .text _ => (Bool.and_true _).symm
  | .comment _ => rfl
  | .mustacheComment _ => rfl
  | .element ⟨tag, attributes, modifiers, children, names, _, _⟩ => by
    rw [Statement.seen, Statement.overlooked, Statement.isValidNamed, Statement.isValidNamed,
      areValid_eq _ children, isEmpty_seenAttributes]
    cases attributes with
    | nil => simp only [overlookedInAttributes, List.nil_append, Bool.and_assoc]
    | cons a rest => simp

end

/-- A template is valid exactly if what is seen of it is valid, and all that is overlooked. -/
theorem isValid_iff_seen (t : Template) :
    t.isValid = true ↔ t.seen.isValid = true ∧ ∀ part ∈ t.overlooked, part.isValid = true := by
  rw [isValid, areValid_eq, Bool.and_eq_true_iff, List.all_eq_true]
  rfl

end Template

end TemplateCompiler

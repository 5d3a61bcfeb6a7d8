import TemplateCompiler.Compile
import TemplateCompiler.Proofs.Outline

/-!
# Direct translation

The compiled form of a template read off its outline, by recursion on the tree. Nothing is pushed,
popped or allocated: the finished symbol table is only looked up. Where a template would be rejected
the translation still says something, which is of no use to anyone.
-/

namespace TemplateCompiler.Direct

open Template (Attribute AttributeValue Block ConcatPart Element Modifier Mustache Pair Path
  TagKind)
open Plan (BlockTest Keyword)
open Wire (InlineBlock)

section Expressions

variable (mode : Program.Mode) (table : SymbolTable) (scope : Nat)

def argSlot (name : String) : Nat := (table.named.lookup name).getD 0

/-- The slot of a block that the template was given. The inverse block is filed as `else`. -/
def blockSlot (name : String) : Nat :=
  (table.blocks.lookup (if name = "inverse" then "else" else name)).getD 0

/-- A bare name: the slot that it has in the scope, or else a free variable. -/
def read (name : String) (context : Context) : Wire.Expression :=
  match table.get? scope name with
  | some slot => .getSymbol slot
  | none =>
    if mode.strict then .getFree (table.upvars.idxOf name)
    else .getContextualFree (table.upvars.idxOf name) context

def follow (head : Wire.Expression) (tail : List String) : Wire.Expression :=
  if tail.isEmpty then head else .getPath head tail

def path (context : Context) (p : Path) : Wire.Expression :=
  if p.isThis then follow (.getSymbol 0) p.parts
  else
    match p.parts with
    | [] => .undefined
    | first :: tail =>
      follow (if p.isArg then .getSymbol (argSlot table first)
        else read mode table scope first context) tail

def literal : Literal → Wire.Expression
  | .string text => .value (.string text)
  | .boolean value => .value (.boolean value)
  | .number value => .value (.number value)
  | .null => .value .null
  | .undefined => .undefined

/-- The block that a block test asks for. -/
def testTarget (params : List Template.Expression) : String :=
  match params with
  | [.literal (.string target) _] => target
  | _ => "default"

def blockTest (test : BlockTest) (target : String) : Wire.Expression :=
  match test with
  | .hasBlock => .hasBlock (.getSymbol (blockSlot table target))
  | .hasBlockParams => .hasBlockParams (.getSymbol (blockSlot table target))

mutual

def expression (context : Context) : Template.Expression → Wire.Expression
  | .path p => path mode table scope context p
  | .call callee params ⟨named, _⟩ _ =>
    match BlockTest.ofPath? callee with
    | some test => blockTest table test (testTarget params)
    | none => .call (path mode table scope .callHead callee) (expressions params) (pairs named)
  | .literal value _ => literal value

def expressions : List Template.Expression → List Wire.Expression
  | [] => []
  | e :: rest => expression .expression e :: expressions rest

/-- Named arguments, in source order, each key with its own value. -/
def pairs : List (Pair Template.Expression) → List (String × Wire.Expression)
  | [] => []
  | ⟨key, value, _⟩ :: rest => (key, expression .expression value) :: pairs rest

end

/-! ### Opening tags -/

def attributeMustache (m : Mustache) : Wire.Expression :=
  match m.path with
  | .path p =>
    match BlockTest.ofPath? p with
    | some test => blockTest table test (testTarget m.params)
    | none =>
      if Plan.hasArguments m.params m.hash then
        .call (path mode table scope .callHead p) (expressions mode table scope m.params)
          (pairs mode table scope m.hash.pairs)
      else path mode table scope (if p.isSimple then .appendSingleId else .expression) p
  | other => expression mode table scope .expression other

def concatPart : ConcatPart → Wire.Expression
  | .text node => .value (.string node.chars)
  | .mustache m => attributeMustache mode table scope m

def attributeValue : AttributeValue → Wire.Expression
  | .text node => .value (.string node.chars)
  | .mustache m => attributeMustache mode table scope m
  | .concat parts _ => .concat (parts.map (concatPart mode table scope))

/-- Whether the value of an attribute is written as a constant. -/
def isConstant : AttributeValue → Bool
  | .text _ => true
  | .mustache m => m.path.literal?.isSome
  | .concat _ _ => false

def attributeStatement (kind : TagKind) (a : Attribute) : Wire.Statement :=
  let value := attributeValue mode table scope a.value
  if Template.startsWith a.name '@' then
    if isConstant a.value then .staticArg a.name value else .dynamicArg a.name value
  else if a.name = Template.splattributes then .attrSplat (blockSlot table "attrs")
  else
    .attr (Plan.attributeKind (isConstant a.value) (Plan.isTrusting a.value)
      kind.hasComponentFeatures) a.name value (Plan.attributeNamespace? a.name)

def modifier (m : Modifier) : Wire.Statement :=
  .modifier (path mode table scope .modifierHead m.path) (expressions mode table scope m.params)
    (pairs mode table scope m.hash.pairs)

/-- The start of a plain element. -/
def elementStart (kind : TagKind) (tag : String) : Wire.Statement :=
  match kind with
  | .dynamic => .openElementWithSplat tag
  | _ => .openElement tag

/-- The attributes that are set: all that are not named `type`, and then the last one that is. -/
def setAttributes (attributes : List Attribute) : List Attribute :=
  attributes.filter (·.name != "type") ++ (attributes.reverse.find? (·.name == "type")).toList

/-- What stands in an opening tag: attributes and arguments, then modifiers. -/
def openingTag {σ : Type} (kind : TagKind) (e : Element σ) : List Wire.Statement :=
  (setAttributes e.attributes).map (attributeStatement mode table scope kind) ++
    e.modifiers.map (modifier mode table scope)

/-- The component that a tag stands for. -/
def tagExpression {σ : Type} (rename : String → String) (kind : TagKind) (e : Element σ) :
    Wire.Expression :=
  match kind with
  | .component => read mode table scope (rename e.tag) .componentHead
  | .dynamicTag p => path mode table scope .componentHead p
  | _ => .undefined

/-! ### Mustaches -/

def yieldTarget (named : List (Pair Template.Expression)) : String :=
  match named with
  | [⟨_, .literal (.string target) _, _⟩] => target
  | _ => "default"

/-- The only one of some arguments. -/
def onlyExpression (params : List Template.Expression) : Wire.Expression :=
  match params with
  | [e] => expression mode table scope .expression e
  | _ => .undefined

/-- The last of some named arguments. -/
def lastValue (named : List (Pair Template.Expression)) : Option Wire.Expression :=
  named.getLast?.map fun pair => expression mode table scope .expression pair.value

def mustacheValue (p : Path) (m : Mustache) : Wire.Expression :=
  match BlockTest.ofPath? p with
  | some test => blockTest table test (testTarget m.params)
  | none =>
    if Plan.hasArguments m.params m.hash then
      .call (path mode table scope .callHead p) (expressions mode table scope m.params)
        (pairs mode table scope m.hash.pairs)
    else
      path mode table scope
        (if 1 < p.parts.length || p.isArg then .expression else .appendSingleId) p

def append (trusting : Bool) (value : Wire.Expression) : Wire.Statement :=
  if trusting then .trustingAppend value else .append value

def mustache (m : Mustache) : Wire.Statement :=
  match m.path with
  | .path p =>
    match Keyword.ofPath? p with
    | some .yield =>
      .yield (blockSlot table (yieldTarget m.hash.pairs)) (expressions mode table scope m.params)
    | some .partialTemplate =>
      .partialTemplate (onlyExpression mode table scope m.params) (table.evalInfo scope)
    | some .debugger => .debugger (table.evalInfo scope)
    | none => append m.trusting (mustacheValue mode table scope p m)
  | other => append m.trusting (expression mode table scope .expression other)

end Expressions

/-! ### Statements -/

variable (mode : Program.Mode) (rename : String → String) (table : SymbolTable)

mutual

/-- The statements for one outline in a scope. -/
def statement (scope : Nat) : Outline → List Wire.Statement
  | .mustache m => [mustache mode table scope m]
  | .text node => [.append (.value (.string node.chars))]
  | .comment node => [.comment node.value]
  | .hidden => []
  | .misplaced _ _ => []
  | .invocation ⟨head, params, hash, program, inverse, _⟩ programScope inverseScope =>
    [.block (path mode table scope .blockHead head) (expressions mode table scope params)
      (pairs mode table scope hash.pairs)
      (("default", inlineBlock programScope program) :: inverseBlock inverseScope inverse)]
  | .inElement ⟨_, params, hash, program, _, _⟩ blockScope cursor =>
    [.inElement (inlineBlock blockScope program) s!"%cursor:{cursor}%"
      (onlyExpression mode table scope params) (lastValue mode table scope hash.pairs)]
  | .element kind ⟨tag, attributes, modifiers, children, blockParams, selfClosing, loc⟩ =>
    let e : Element Outline :=
      ⟨tag, attributes, modifiers, children, blockParams, selfClosing, loc⟩
    elementStart kind tag :: openingTag mode table scope kind e ++ [.flushElement] ++
      statements scope children ++ [.closeElement]
  | .component kind inner ⟨tag, attributes, modifiers, children, blockParams, selfClosing, loc⟩ =>
    let e : Element Outline :=
      ⟨tag, attributes, modifiers, children, blockParams, selfClosing, loc⟩
    let opening := openingTag mode table scope kind e
    [.component (tagExpression mode table scope rename kind e)
      (opening.filter Wire.Statement.isAttribute) (opening.filterMap Wire.Statement.arg?)
      (if selfClosing then none
      else if children.any Outline.isNamed then some (namedBlocks children)
      else some [("default", ⟨statements inner children, table.slots inner⟩)])]
  | .namedBlock _ _ => []

def statements (scope : Nat) : List Outline → List Wire.Statement
  | [] => []
  | s :: rest => statement scope s ++ statements scope rest

/-- A block with its parameters. -/
def inlineBlock (scope : Nat) : Block Outline → InlineBlock Wire.Statement
  | ⟨body, _, _⟩ => ⟨statements scope body, table.slots scope⟩

def inverseBlock (scope : Nat) :
    Option (Block Outline) → List (String × InlineBlock Wire.Statement)
  | none => []
  | some block => [("else", inlineBlock scope block)]

/-- The blocks that a component is passed by name, in source order. -/
def namedBlocks : List Outline → List (String × InlineBlock Wire.Statement)
  | [] => []
  | s :: rest => namedBlock s ++ namedBlocks rest

def namedBlock : Outline → List (String × InlineBlock Wire.Statement)
  | .namedBlock scope ⟨tag, _, _, children, _, _, _⟩ =>
    [(Outline.blockTitle tag, ⟨statements scope children, table.slots scope⟩)]
  | _ => []

end

/-! ### The tables and orders of the stages -/

/-- Blocks are filed under the names of the symbol table. -/
theorem blockSlot_eq (name : String) :
    blockSlot table name = (table.blocks.lookup (SymbolTable.blockName name)).getD 0 := rfl

/-- Assembly reads constants the same way. -/
theorem literal_eq (value : Literal) : literal value = Assembly.Machine.literalExpression value := by
  cases value <;> rfl

/-- Planning goes through the attributes in the order in which they are set. -/
theorem setAttributes_eq (attributes : List Attribute) :
    setAttributes attributes = Plan.attributeOrder attributes := by
  rw [setAttributes, Plan.attributeOrder, List.getLast?_eq_head?_reverse, ← List.filter_reverse,
    List.head?_filter]

end TemplateCompiler.Direct

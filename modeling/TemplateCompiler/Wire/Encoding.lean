import TemplateCompiler.Json.Basic
import TemplateCompiler.Wire.Basic

/-!
Compiled templates as JSON. A statement, and an expression that is not a plain value, is an array
that starts with its opcode. Empty arguments are `null`, and common attribute names are sent as
numbers.
-/

namespace TemplateCompiler.Wire

/-- Attribute names that are sent as their index in this list. -/
def commonAttributes : List String := ["class", "id", "value", "name", "type", "style", "href"]

/-- An attribute name, by its index if it is common. -/
def encodeAttributeName (name : String) : Json :=
  if name ∈ commonAttributes then .ofNat (commonAttributes.idxOf name) else .string name

/-- A statement or expression from its opcode and operands. -/
def tuple (op : Opcode) (operands : List Json) : Json :=
  .array (.ofNat op.code :: operands)

/-- A number without fraction is sent without a fraction; a number that is not finite is lost. -/
def encodeNumber (d : Double) : Json :=
  match d.integer? with
  | some n => .ofInt n
  | none => if d.isFinite then .number (.double d) else .null

def Value.encode : Value → Json
  | .string s => .string s
  | .number d => encodeNumber d
  | .boolean b => .bool b
  | .null => .null

/-- A list of arguments that were encoded already. -/
def listOrNull (items : List Json) : Json :=
  if items.isEmpty then .null else .array items

mutual

def Expression.encode : Expression → Json
  | .undefined => tuple .undefined []
  | .value v => v.encode
  | .getSymbol slot => tuple .getSymbol [.ofNat slot]
  | .getFree index => tuple .getFree [.ofNat index]
  | .getContextualFree index context => tuple (.ofContext context) [.ofNat index]
  | .getPath head tail => tuple .getPath [head.encode, .strings tail]
  | .concat parts => tuple .concat [listOrNull (encodeExpressions parts)]
  | .call head params hash =>
    tuple .call [head.encode, listOrNull (encodeExpressions params), encodeHash hash]
  | .hasBlock block => tuple .hasBlock [block.encode]
  | .hasBlockParams block => tuple .hasBlockParams [block.encode]

def encodeExpressions : List Expression → List Json
  | [] => []
  | e :: rest => e.encode :: encodeExpressions rest

def encodeValues : List (String × Expression) → List Json
  | [] => []
  | (_, e) :: rest => e.encode :: encodeValues rest

/-- Named arguments as a list of keys and a list of values. -/
def encodeHash : List (String × Expression) → Json
  | [] => .null
  | (key, e) :: rest =>
    .array [.strings (key :: rest.map Prod.fst), .array (e.encode :: encodeValues rest)]

end

def encodeParams (params : List Expression) : Json := listOrNull (encodeExpressions params)

/-- A block from its encoded statements; the members are in key order. -/
def blockObject (statements : List Json) (parameters : List Nat) : Json :=
  .object [("parameters", .nats parameters), ("statements", .array statements)]

/-- Named blocks as a list of names and a list of encoded bodies. -/
def blockTable (names : List String) (bodies : List Json) : Json :=
  .array [.strings names, .array bodies]

mutual

def Statement.encode : Statement → Json
  | .append value => tuple .append [value.encode]
  | .trustingAppend value => tuple .trustingAppend [value.encode]
  | .comment value => tuple .comment [.string value]
  | .modifier head params hash =>
    tuple .modifier [head.encode, encodeParams params, encodeHash hash]
  | .block head params hash blocks =>
    tuple .block
      [head.encode, encodeParams params, encodeHash hash,
        blockTable (blocks.map Prod.fst) (encodeBodies blocks)]
  | .component tag attrs args none =>
    tuple .component [tag.encode, .array (encodeStatements attrs), encodeHash args, .null]
  | .component tag attrs args (some blocks) =>
    tuple .component
      [tag.encode, .array (encodeStatements attrs), encodeHash args,
        blockTable (blocks.map Prod.fst) (encodeBodies blocks)]
  | .openElement tag => tuple .openElement [.string tag]
  | .openElementWithSplat tag => tuple .openElementWithSplat [.string tag]
  | .flushElement => tuple .flushElement []
  | .closeElement => tuple .closeElement []
  | .attr kind name value space =>
    tuple (.ofAttribute kind)
      (encodeAttributeName name :: value.encode :: space.toList.map .string)
  | .staticArg name value => tuple .staticArg [.string name, value.encode]
  | .dynamicArg name value => tuple .dynamicArg [.string name, value.encode]
  | .attrSplat slot => tuple .attrSplat [.ofNat slot]
  | .yield slot params => tuple .yield [.ofNat slot, encodeParams params]
  | .partialTemplate name evalInfo => tuple .partialTemplate [name.encode, .nats evalInfo]
  | .debugger evalInfo => tuple .debugger [.nats evalInfo]
  | .inElement ⟨statements, parameters⟩ guid destination insertBefore =>
    tuple .inElement
      (blockObject (encodeStatements statements) parameters ::
        .string guid :: destination.encode :: insertBefore.toList.map Expression.encode)

def encodeStatements : List Statement → List Json
  | [] => []
  | s :: rest => s.encode :: encodeStatements rest

def encodeBodies : List (String × InlineBlock Statement) → List Json
  | [] => []
  | (_, ⟨statements, parameters⟩) :: rest =>
    blockObject (encodeStatements statements) parameters :: encodeBodies rest

end

def InlineBlock.encode (block : InlineBlock Statement) : Json :=
  blockObject (encodeStatements block.statements) block.parameters

def encodeBlocks (blocks : List (String × InlineBlock Statement)) : Json :=
  blockTable (blocks.map Prod.fst) (encodeBodies blocks)

end TemplateCompiler.Wire

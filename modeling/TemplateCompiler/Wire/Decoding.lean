import TemplateCompiler.Wire.Encoding

/-!
Compiled templates from JSON. Operands are read from left to right, and the first that does not fit
is the one complained about. Nested tuples are read with a bound on their depth, which the depth of
the JSON value gives.
-/

namespace TemplateCompiler.Wire

/-- What is wrong with a value in its place. -/
inductive Malformation where
  | notTuple
  | emptyTuple
  | opcodeNotInteger
  | missingOperand
  | tooManyOperands
  | notSlot
  | notSlots
  | notString
  | notParams
  | notHash
  | notPathTail
  | notAttributes
  | notBlockTable
  | noStatements
  | noParameters
  | unknownAttribute
  | objectExpression
deriving DecidableEq

def Malformation.text : Malformation → String
  | .notTuple => "expected an opcode tuple"
  | .emptyTuple => "empty opcode tuple"
  | .opcodeNotInteger => "opcodes are integers"
  | .missingOperand => "missing operand"
  | .tooManyOperands => "too many operands"
  | .notSlot => "expected a symbol"
  | .notSlots => "expected a list of symbols"
  | .notString => "expected a string"
  | .notParams => "expected params"
  | .notHash => "expected a hash"
  | .notPathTail => "expected a path tail"
  | .notAttributes => "expected component attributes"
  | .notBlockTable => "expected a block table"
  | .noStatements => "blocks have statements"
  | .noParameters => "blocks have parameters"
  | .unknownAttribute => "unknown attribute index"
  | .objectExpression => "objects are not expressions"

inductive DecodeError where
  | unknownOpcode (code : Nat)
  /-- A known opcode where it cannot stand. -/
  | unexpectedOpcode (op : Opcode)
  | malformed (what : Malformation)
deriving DecidableEq

def DecodeError.message : DecodeError → String
  | .unknownOpcode code => s!"unknown opcode {code}"
  | .unexpectedOpcode op => s!"unexpected opcode {op.name}"
  | .malformed what => "malformed wire format: " ++ what.text

abbrev Decoded := Except DecodeError

variable {α : Type}

def malformed (what : Malformation) : Decoded α := .error (.malformed what)

/-! ### Operands -/

/-- A computation that takes operands off the front of a tuple. -/
abbrev Operands := StateT (List Json) Decoded

namespace Operands

/-- The next operand, read by `decode`. -/
def next (decode : Json → Decoded α) : Operands α := fun operands =>
  match operands with
  | [] => malformed .missingOperand
  | operand :: rest => do
    let value ← decode operand
    pure (value, rest)

/-- The next operand if there is one. -/
def next? (decode : Json → Decoded α) : Operands (Option α) := fun operands =>
  match operands with
  | [] => pure (none, [])
  | operand :: rest => do
    let value ← decode operand
    pure (some value, rest)

/-- Runs on all operands of a tuple. -/
def complete (read : Operands α) (operands : List Json) : Decoded α := do
  let (value, rest) ← read operands
  if rest.isEmpty then pure value else malformed .tooManyOperands

end Operands

/-- The opcode of a tuple, and its operands. -/
def openTuple : Json → Decoded (Opcode × List Json)
  | .array [] => malformed .emptyTuple
  | .array (first :: operands) =>
    match first.nat? with
    | none => malformed .opcodeNotInteger
    | some code =>
      match Opcode.ofCode? code with
      | none => .error (.unknownOpcode code)
      | some op => .ok (op, operands)
  | _ => malformed .notTuple

/-! ### Scalars and lists -/

def decodeSlot (json : Json) : Decoded Nat :=
  match json.nat? with
  | some n => if n < Nat.pow 2 32 then .ok n else malformed .notSlot
  | none => malformed .notSlot

def decodeString : Json → Decoded String
  | .string s => .ok s
  | _ => malformed .notString

/-- The items of an array, each read by `decode`. -/
def decodeList (what : Malformation) (decode : Json → Decoded α) : Json → Decoded (List α)
  | .array items => items.mapM decode
  | _ => malformed what

def decodeSlots : Json → Decoded (List Nat) := decodeList .notSlots decodeSlot

/-- Two arrays of the same length. -/
def openPair (what : Malformation) : Json → Decoded (List (Json × Json))
  | .array [.array keys, .array values] =>
    if keys.length = values.length then .ok (keys.zip values) else malformed what
  | _ => malformed what

def decodeEntry (decode : Json → Decoded α) (entry : Json × Json) : Decoded (String × α) := do
  let key ← decodeString entry.1
  let value ← decode entry.2
  pure (key, value)

/-- An attribute name, which may be an index into the common ones. -/
def decodeAttributeName : Json → Decoded String
  | .number n =>
    match (Json.number n).nat? with
    | none => malformed .unknownAttribute
    | some index =>
      match commonAttributes[index]? with
      | some name => .ok name
      | none => malformed .unknownAttribute
  | json => decodeString json

/-! ### Expressions -/

def decodeParamsWith (expression : Json → Decoded Expression) : Json → Decoded (List Expression)
  | .null => .ok []
  | json => decodeList .notParams expression json

def decodeHashWith (expression : Json → Decoded Expression) :
    Json → Decoded (List (String × Expression))
  | .null => .ok []
  | json => do
    let entries ← openPair .notHash json
    entries.mapM (decodeEntry expression)

/-- The operands of an expression, given a reader for expressions inside. -/
def expressionOperands (inner : Json → Decoded Expression) (op : Opcode) : Operands Expression :=
  match op with
  | .undefined => pure .undefined
  | .getSymbol => return .getSymbol (← .next decodeSlot)
  | .getFree => return .getFree (← .next decodeSlot)
  | .getPath => do
    let head ← .next inner
    let tail ← .next (decodeList .notPathTail decodeString)
    pure (.getPath head tail)
  | .concat => return .concat (← .next (decodeParamsWith inner))
  | .call => do
    let head ← .next inner
    let params ← .next (decodeParamsWith inner)
    let hash ← .next (decodeHashWith inner)
    pure (.call head params hash)
  | .hasBlock => return .hasBlock (← .next inner)
  | .hasBlockParams => return .hasBlockParams (← .next inner)
  | other =>
    match other.context? with
    | some context => return .getContextualFree (← .next decodeSlot) context
    | none => throw (.unexpectedOpcode other)

def decodeExpressionWith (inner : Json → Decoded Expression) : Json → Decoded Expression
  | .null => .ok (.value .null)
  | .bool b => .ok (.value (.boolean b))
  | .number n => .ok (.value (.number n.toDouble))
  | .string s => .ok (.value (.string s))
  | .object _ => malformed .objectExpression
  | .array items => do
    let (op, operands) ← openTuple (.array items)
    (expressionOperands inner op).complete operands

/-- Reads expressions nested so deep at most. -/
def decodeExpressionTo : Nat → Json → Decoded Expression
  | 0 => decodeExpressionWith fun _ => malformed .notTuple
  | depth + 1 => decodeExpressionWith (decodeExpressionTo depth)

def decodeExpression (json : Json) : Decoded Expression := decodeExpressionTo json.depth json

def decodeParams : Json → Decoded (List Expression) := decodeParamsWith decodeExpression

def decodeHash : Json → Decoded (List (String × Expression)) := decodeHashWith decodeExpression

/-! ### Statements -/

/-- A block, given a reader for statements inside. Other members are ignored. -/
def decodeBlockWith (inner : Json → Decoded Statement) (json : Json) :
    Decoded (InlineBlock Statement) := do
  let statements ←
    match json.member? "statements" with
    | some (.array items) => items.mapM inner
    | _ => malformed .noStatements
  let parameters ←
    match json.member? "parameters" with
    | some (.array items) => items.mapM decodeSlot
    | _ => malformed .noParameters
  pure ⟨statements, parameters⟩

def decodeBlocksWith (inner : Json → Decoded Statement) (json : Json) :
    Decoded (List (String × InlineBlock Statement)) := do
  let entries ← openPair .notBlockTable json
  entries.mapM (decodeEntry (decodeBlockWith inner))

/-- The blocks of a component, which a self-closing one does not have. -/
def decodeComponentBlocksWith (inner : Json → Decoded Statement) :
    Json → Decoded (Option (List (String × InlineBlock Statement)))
  | .null => .ok none
  | json => return some (← decodeBlocksWith inner json)

/-- The operands of a statement, given a reader for statements inside. -/
def statementOperands (inner : Json → Decoded Statement) (op : Opcode) : Operands Statement :=
  match op with
  | .append => return .append (← .next decodeExpression)
  | .trustingAppend => return .trustingAppend (← .next decodeExpression)
  | .comment => return .comment (← .next decodeString)
  | .modifier => do
    let head ← .next decodeExpression
    let params ← .next decodeParams
    let hash ← .next decodeHash
    pure (.modifier head params hash)
  | .block => do
    let head ← .next decodeExpression
    let params ← .next decodeParams
    let hash ← .next decodeHash
    let blocks ← .next (decodeBlocksWith inner)
    pure (.block head params hash blocks)
  | .component => do
    let tag ← .next decodeExpression
    let attrs ← .next (decodeList .notAttributes inner)
    let args ← .next decodeHash
    let blocks ← .next (decodeComponentBlocksWith inner)
    pure (.component tag attrs args blocks)
  | .openElement => return .openElement (← .next decodeString)
  | .openElementWithSplat => return .openElementWithSplat (← .next decodeString)
  | .flushElement => pure .flushElement
  | .closeElement => pure .closeElement
  | .staticArg => do
    let name ← .next decodeString
    let value ← .next decodeExpression
    pure (.staticArg name value)
  | .dynamicArg => do
    let name ← .next decodeString
    let value ← .next decodeExpression
    pure (.dynamicArg name value)
  | .attrSplat => return .attrSplat (← .next decodeSlot)
  | .yield => do
    let slot ← .next decodeSlot
    let params ← .next decodeParams
    pure (.yield slot params)
  | .partialTemplate => do
    let name ← .next decodeExpression
    let evalInfo ← .next decodeSlots
    pure (.partialTemplate name evalInfo)
  | .debugger => return .debugger (← .next decodeSlots)
  | .inElement => do
    let block ← .next (decodeBlockWith inner)
    let guid ← .next decodeString
    let destination ← .next decodeExpression
    let insertBefore ← .next? decodeExpression
    pure (.inElement block guid destination insertBefore)
  | other =>
    match other.attribute? with
    | some kind => do
      let name ← .next decodeAttributeName
      let value ← .next decodeExpression
      let space ← .next? decodeString
      pure (.attr kind name value space)
    | none => throw (.unexpectedOpcode other)

def decodeStatementWith (inner : Json → Decoded Statement) (json : Json) : Decoded Statement := do
  let (op, operands) ← openTuple json
  (statementOperands inner op).complete operands

/-- Reads statements nested so deep at most. -/
def decodeStatementTo : Nat → Json → Decoded Statement
  | 0 => decodeStatementWith fun _ => malformed .notTuple
  | depth + 1 => decodeStatementWith (decodeStatementTo depth)

def decodeStatement (json : Json) : Decoded Statement := decodeStatementTo json.depth json

def decodeBlock (json : Json) : Decoded (InlineBlock Statement) :=
  decodeBlockWith decodeStatement json

end TemplateCompiler.Wire

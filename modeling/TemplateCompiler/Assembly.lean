import TemplateCompiler.Defect
import TemplateCompiler.Program.Basic
import TemplateCompiler.Wire.Basic

/-!
The machine that turns a program into a compiled template. Operations on expressions work on a stack
of operands; operations on statements add to the container that was opened last. A component
collects attributes and arguments until its content starts.
-/

namespace TemplateCompiler.Assembly

open Wire (Expression Statement InlineBlock)

inductive Operand where
  | expression (value : Expression)
  | params (list : List Expression)
  | hash (pairs : List (String × Expression))
  | string (value : String)

def Operand.kind : Operand → OperandKind
  | .expression _ => .expression
  | .params _ => .params
  | .hash _ => .hash
  | .string _ => .string

/-- A block that is open, or has ended and waits for its invocation. -/
structure NamedBlock where
  name : String
  block : InlineBlock Statement

/-- A component whose closing tag is still to come. -/
structure Component where
  tag : Expression
  selfClosing : Bool
  parameters : List Nat
  attrs : List Statement
  args : List (String × Expression)
  body : List Statement
  named : List (String × InlineBlock Statement)
  /-- Whether its content has started. -/
  flushed : Bool

namespace Component

def start (tag : Expression) (selfClosing : Bool) (parameters : List Nat) : Component :=
  ⟨tag, selfClosing, parameters, [], [], [], [], false⟩

/-- Adds a statement: to the content once that has started, else to attributes and arguments. -/
def add (s : Statement) (c : Component) : Except Defect Component :=
  if c.flushed then .ok { c with body := c.body ++ [s] }
  else
    match s with
    | .staticArg name value | .dynamicArg name value =>
      .ok { c with args := c.args ++ [(name, value)] }
    | s =>
      if s.isAttribute then .ok { c with attrs := c.attrs ++ [s] }
      else .error (.beforeContent s.name)

/-- The blocks of a component. Named blocks take the place of other content. -/
def blocks (c : Component) : Option (List (String × InlineBlock Statement)) :=
  if c.selfClosing then none
  else if c.named.isEmpty then some [("default", ⟨c.body, c.parameters⟩)]
  else some c.named

def finish (c : Component) : Statement := .component c.tag c.attrs c.args c.blocks

end Component

/-- What statements can be collected in, inside a template. -/
inductive Container where
  | named (block : NamedBlock)
  | component (component : Component)

namespace Container

def kind : Container → ContainerKind
  | .named _ => .named
  | .component _ => .component

def add (s : Statement) : Container → Except Defect Container
  | .named ⟨name, ⟨statements, parameters⟩⟩ => .ok (.named ⟨name, ⟨statements ++ [s], parameters⟩⟩)
  | .component c => (c.add s).map .component

end Container

structure Machine where
  /-- The operands, the last one first. -/
  operands : List Operand
  /-- The statements of the template itself. -/
  template : List Statement
  /-- The containers that are open, the innermost first. -/
  opened : List Container
  /-- The blocks that have ended and wait for their invocation, the last one first. -/
  finished : List NamedBlock

abbrev Assembling := StateT Machine (Except Defect)

namespace Machine

def initial : Machine := ⟨[], [], [], []⟩

/-! ### Operands -/

def push (operand : Operand) : Assembling Unit :=
  modify fun m => { m with operands := operand :: m.operands }

def pushExpression (e : Expression) : Assembling Unit := push (.expression e)

/-- Takes the last operand, which must be of a kind. -/
def pop {α : Type} (wanted : OperandKind) (view : Operand → Option α) : Assembling α := fun m =>
  match m.operands with
  | [] => .error (.missingOperand wanted)
  | operand :: rest =>
    match view operand with
    | some a => .ok (a, { m with operands := rest })
    | none => .error (.wrongOperand wanted operand.kind)

def popExpression : Assembling Expression :=
  pop .expression fun
    | .expression e => some e
    | _ => none

def popParams : Assembling (List Expression) :=
  pop .params fun
    | .params list => some list
    | _ => none

def popHash : Assembling (List (String × Expression)) :=
  pop .hash fun
    | .hash pairs => some pairs
    | _ => none

def popString : Assembling String :=
  pop .string fun
    | .string s => some s
    | _ => none

/-- Takes expressions; the last operand becomes the first of them. -/
def popExpressions : Nat → Assembling (List Expression)
  | 0 => return []
  | count + 1 => do
    let first ← popExpression
    let rest ← popExpressions count
    return first :: rest

/-- Takes keys with their values; the last operand becomes the first key. -/
def popPairs : Nat → Assembling (List (String × Expression))
  | 0 => return []
  | count + 1 => do
    let key ← popString
    let value ← popExpression
    let rest ← popPairs count
    return (key, value) :: rest

/-! ### Containers -/

/-- Adds a statement to the innermost container. -/
def add (s : Statement) : Assembling Unit := fun m =>
  match m.opened with
  | [] => .ok ((), { m with template := m.template ++ [s] })
  | container :: rest => do
    let container ← container.add s
    pure ((), { m with opened := container :: rest })

def openContainer (container : Container) : Assembling Unit :=
  modify fun m => { m with opened := container :: m.opened }

def closeContainer : Assembling Container := fun m =>
  match m.opened with
  | [] => .error .templateClosed
  | container :: rest => .ok (container, { m with opened := rest })

/-- Starts the content of a component, or else ends the opening tag of an element. -/
def flush : Assembling Unit := do
  match (← get).opened with
  | .component c :: rest =>
    if c.flushed then add .flushElement
    else modify fun m => { m with opened := .component { c with flushed := true } :: rest }
  | _ => add .flushElement

def closeComponent : Assembling Unit := do
  match ← closeContainer with
  | .component c => add c.finish
  | other => throw (.notComponent other.kind)

/-- Gives a named block to the component around it. -/
def addNamed (block : NamedBlock) : Assembling Unit := do
  match (← get).opened with
  | .component c :: rest =>
    let c := { c with named := c.named ++ [(block.name, block.block)] }
    modify fun m => { m with opened := .component c :: rest }
  | other :: _ => throw (.noOpenComponent other.kind)
  | [] => throw (.noOpenComponent .template)

def closeNamedBlock : Assembling Unit := do
  match ← closeContainer with
  | .named block => addNamed block
  | other => throw (.notNamedBlock other.kind)

def endBlock : Assembling Unit := do
  match ← closeContainer with
  | .named block => modify fun m => { m with finished := block :: m.finished }
  | other => throw (.notBlock other.kind)

/-- Takes the block that ended last. -/
def takeBlock : Assembling (InlineBlock Statement) := fun m =>
  match m.finished with
  | [] => .error .missingBlock
  | block :: rest => .ok (block.block, { m with finished := rest })

/-! ### Operations -/

def literalExpression : Literal → Expression
  | .string value => .value (.string value)
  | .number value => .value (.number value)
  | .boolean value => .value (.boolean value)
  | .null => .value .null
  | .undefined => .undefined

/-- Takes the head, the positional and the named arguments of a call. -/
def popCall : Assembling (Expression × List Expression × List (String × Expression)) := do
  let head ← popExpression
  let params ← popParams
  let hash ← popHash
  return (head, params, hash)

/-- What one operation does. -/
def apply : Program.Op → Assembling Unit
  | .literal value => pushExpression (literalExpression value)
  | .getSymbol slot => pushExpression (.getSymbol slot)
  | .getFree index => pushExpression (.getFree index)
  | .getFreeWithContext index context => pushExpression (.getContextualFree index context)
  | .getPath tail => do pushExpression (.getPath (← popExpression) tail)
  | .concat => do pushExpression (.concat (← popParams))
  | .call => do
    let (head, params, hash) ← popCall
    pushExpression (.call head params hash)
  | .hasBlock slot => pushExpression (.hasBlock (.getSymbol slot))
  | .hasBlockParams slot => pushExpression (.hasBlockParams (.getSymbol slot))
  | .prepareArray count => do push (.params (← popExpressions count))
  | .prepareObject count => do push (.hash (← popPairs count))
  | .pushString value => push (.string value)
  | .append => do add (.append (← popExpression))
  | .trustingAppend => do add (.trustingAppend (← popExpression))
  | .comment value => add (.comment value)
  | .openElement tag => add (.openElement tag)
  | .openElementWithSplat tag => add (.openElementWithSplat tag)
  | .openComponent selfClosing parameters => do
    openContainer (.component (.start (← popExpression) selfClosing parameters))
  | .openNamedBlock name parameters | .startBlock name parameters =>
    openContainer (.named ⟨name, ⟨[], parameters⟩⟩)
  | .flushElement => flush
  | .closeElement => add .closeElement
  | .closeComponent => closeComponent
  | .closeNamedBlock => closeNamedBlock
  | .attr kind name space => do add (.attr kind name (← popExpression) space)
  | .staticArg name => do add (.staticArg name (← popExpression))
  | .dynamicArg name => do add (.dynamicArg name (← popExpression))
  | .attrSplat slot => add (.attrSplat slot)
  | .modifier => do
    let (head, params, hash) ← popCall
    add (.modifier head params hash)
  | .endBlock => endBlock
  | .invokeBlock hasInverse => do
    let default ← takeBlock
    let inverse ← if hasInverse then some <$> takeBlock else pure none
    let (head, params, hash) ← popCall
    add (.block head params hash (("default", default) :: (inverse.map ("else", ·)).toList))
  | .yield slot => do add (.yield slot (← popParams))
  | .partialTemplate slots => do add (.partialTemplate (← popExpression) slots)
  | .debugger slots => add (.debugger slots)
  | .inElement guid hasInsertBefore => do
    let insertBefore ← if hasInsertBefore then some <$> popExpression else pure none
    let destination ← popExpression
    let block ← takeBlock
    add (.inElement block guid destination insertBefore)

/-- Carries out one operation. No statement may leave operands behind. -/
def step (op : Program.Op) : Assembling Unit := do
  apply op
  unless op.isExpression || (← get).operands.isEmpty do
    throw .operandsBetweenStatements

def run : List (Located Program.Op) → Assembling Unit
  | [] => return ()
  | op :: rest => do
    step op.value
    run rest

/-- The statements of the template, once everything has been used and closed. -/
def result (m : Machine) : Except Defect (List Statement) :=
  if !m.operands.isEmpty then .error .operandsLeft
  else if !m.finished.isEmpty then .error .blocksUnconsumed
  else if !m.opened.isEmpty then .error (.blocksOpen m.opened.length)
  else .ok m.template

end Machine

def assemble (p : Program) : Except Defect CompiledTemplate := do
  let (_, machine) ← (Machine.run p.ops).run .initial
  let statements ← machine.result
  pure ⟨p.table.symbols, p.table.upvars, p.table.hasEval, statements⟩

end TemplateCompiler.Assembly

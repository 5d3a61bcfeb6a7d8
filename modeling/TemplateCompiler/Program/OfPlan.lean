import TemplateCompiler.Defect
import TemplateCompiler.Program.Expression
import TemplateCompiler.Stack

/-!
Operations for planned statements. The statements of a plan open and close scopes one after the
other, so the scopes that are open are kept on a stack.
-/

namespace TemplateCompiler.Program

/-- The names found so far, and the scopes that are open. -/
structure Names where
  table : SymbolTable
  scopes : Stack Nat

abbrev Resolving := StateT Names (Except Defect)

def enterScope (scope : Nat) : Resolving Unit :=
  modify fun names => { names with scopes := names.scopes.push scope }

def exitScope : Resolving Unit := fun names =>
  match names.scopes.pop? with
  | none => .error .noScope
  | some (_, scopes) => .ok ((), { names with scopes := scopes })

/-- Runs a function of the current scope, which must be one of the table's, on the table. -/
def naming {α : Type} (f : Nat → StateM SymbolTable α) : Resolving α := fun names =>
  let scope := names.scopes.current
  if scope < names.table.scopes.length then
    let (a, table) := f scope names.table
    .ok (a, { names with table := table })
  else .error .unknownScope

def slotsOf (scope : Nat) : Resolving (List Nat) := fun names =>
  match names.table.scopes[scope]? with
  | some found => .ok (found.slots, names)
  | none => .error .unknownScope

/-- The slots of the names that can be read at run time. -/
def evalInfo : Resolving (List Nat) := naming fun scope table => (table.evalInfo scope, table)

mutual

def ofStatement (mode : Mode) : Located Plan.Statement → Resolving (List (Located Op))
  | ⟨s, span⟩ => ofStatementAt mode span s

def ofStatementAt (mode : Mode) (span : Span) : Plan.Statement → Resolving (List (Located Op))
  | .append value => do
    let value ← naming (ofExpression mode · value)
    return value ++ [⟨.append, span⟩]
  | .appendTrusted value => do
    let value ← naming (ofExpression mode · value)
    return value ++ [⟨.trustingAppend, span⟩]
  | .comment value => return [⟨.comment value, span⟩]
  | .openElement tag => return [⟨.openElement tag, span⟩]
  | .openElementWithSplat tag => return [⟨.openElementWithSplat tag, span⟩]
  | .openComponent tag selfClosing scope => do
    let tag ← naming (ofExpression mode · tag)
    let parameters ← slotsOf scope
    return tag ++ [⟨.openComponent selfClosing parameters, span⟩]
  | .openNamedBlock name scope => do
    let parameters ← slotsOf scope
    enterScope scope
    return [⟨.openNamedBlock name parameters, span⟩]
  | .flushElement scope => do
    scope.forM enterScope
    return [⟨.flushElement, span⟩]
  | .closeElement => return [⟨.closeElement, span⟩]
  | .closeComponent | .closeDynamicComponent => do
    exitScope
    return [⟨.closeComponent, span⟩]
  | .closeNamedBlock => do
    exitScope
    return [⟨.closeNamedBlock, span⟩]
  | .attr kind name space value => do
    let value ← naming (ofExpression mode · value)
    return value ++ [⟨.attr kind name space, span⟩]
  | .arg name value => do
    let op := if value.value.isLiteral then Op.staticArg name else Op.dynamicArg name
    let value ← naming (ofExpression mode · value)
    return value ++ [⟨op, span⟩]
  | .attrSplat => do
    let slot ← naming fun _ => SymbolTable.allocateBlock "attrs"
    return [⟨.attrSplat slot, span⟩]
  | .modifier head params hash => do
    let operands ← naming (ofCall mode · head params hash)
    return operands ++ [⟨.modifier, span⟩]
  | .invokeBlock head params hash program inverse => do
    let other ← ofInverse mode inverse
    let default ← ofBlock mode program
    let operands ← naming (ofCall mode · head params hash)
    return other ++ default ++ operands ++ [⟨.invokeBlock inverse.isSome, span⟩]
  | .yield target params => do
    let params ← naming (ofParams mode · params)
    let slot ← naming fun _ => SymbolTable.allocateBlock target
    return params ++ [⟨.yield slot, span⟩]
  | .partialTemplate name => do
    let name ← naming (ofExpression mode · name)
    let slots ← evalInfo
    return name ++ [⟨.partialTemplate slots, span⟩]
  | .debugger => do
    let slots ← evalInfo
    return [⟨.debugger slots, span⟩]
  | .inElement destination insertBefore guid block => do
    let block ← ofBlock mode block
    let destination ← naming (ofExpression mode · destination)
    let before ←
      match insertBefore with
      | none => pure []
      | some value => naming (ofExpression mode · value)
    return block ++ destination ++ before ++ [⟨.inElement guid insertBefore.isSome, span⟩]

def ofStatements (mode : Mode) : List (Located Plan.Statement) → Resolving (List (Located Op))
  | [] => return []
  | s :: rest => do
    let first ← ofStatement mode s
    let others ← ofStatements mode rest
    return first ++ others

/-- The operations for a block in its scope. -/
def ofBlock (mode : Mode) :
    Plan.NamedBlock (Located Plan.Statement) → Resolving (List (Located Op))
  | ⟨name, scope, body, span⟩ => do
    let parameters ← slotsOf scope
    enterScope scope
    let body ← ofStatements mode body
    exitScope
    return ⟨.startBlock name parameters, span⟩ :: body ++ [⟨.endBlock, span⟩]

def ofInverse (mode : Mode) :
    Option (Plan.NamedBlock (Located Plan.Statement)) → Resolving (List (Located Op))
  | none => return []
  | some block => ofBlock mode block

end

/-- Finds a slot for every name of a plan. -/
def ofPlan (mode : Mode) (plan : Plan) : Except Defect Program := do
  let (ops, names) ← (ofStatements mode plan.body).run ⟨plan.table, .singleton SymbolTable.rootScope⟩
  if names.scopes.size = 1 then pure ⟨ops, names.table⟩ else throw .unbalancedScopes

end TemplateCompiler.Program

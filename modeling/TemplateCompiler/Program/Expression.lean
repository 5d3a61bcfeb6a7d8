import TemplateCompiler.Plan.Basic
import TemplateCompiler.Program.Basic

/-!
Operations for planned expressions. Names become slots here, on first use, so the table is state;
the scope that an expression stands in does not change within it.

Arguments are pushed in reverse, named ones before positional ones: what is taken first is pushed
last.
-/

namespace TemplateCompiler.Program

open Template (Pair)

/-- Operations that are found while names get their slots. -/
abbrev Naming := StateM SymbolTable (List (Located Op))

/-- How free variables are read. -/
structure Mode where
  /-- Without a context. -/
  strict : Bool

def freeOp (mode : Mode) (index : Nat) (context : Context) : Op :=
  if mode.strict then .getFree index else .getFreeWithContext index context

/-- A name bound by a block, or else a free variable. -/
def variableOp (mode : Mode) (scope : Nat) (name : String) (context : Context) :
    StateM SymbolTable Op := fun table =>
  match table.get? scope name with
  | some slot => (.getSymbol slot, table)
  | none =>
    let (index, table) := table.allocateFree name
    (freeOp mode index context, table)

mutual

/-- The operations that leave the value of an expression. -/
def ofExpression (mode : Mode) (scope : Nat) : Located Plan.Expression → Naming
  | ⟨e, span⟩ => ofExpressionAt mode scope span e

def ofExpressionAt (mode : Mode) (scope : Nat) (span : Span) : Plan.Expression → Naming
  | .literal value => return [⟨.literal value, span⟩]
  | .path head tail => do
    let head ← ofExpression mode scope head
    return head ++ [⟨.getPath tail, span⟩]
  | .arg name => do
    let slot ← SymbolTable.allocateNamed name
    return [⟨.getSymbol slot, span⟩]
  | .self => return [⟨.getSymbol 0, span⟩]
  | .variable name context => do
    let op ← variableOp mode scope name context
    return [⟨op, span⟩]
  | .hasBlock target => do
    let slot ← SymbolTable.allocateBlock target
    return [⟨.hasBlock slot, span⟩]
  | .hasBlockParams target => do
    let slot ← SymbolTable.allocateBlock target
    return [⟨.hasBlockParams slot, span⟩]
  | .concat ⟨list, listSpan⟩ => do
    let parts ← ofReversed mode scope list
    return parts ++ [⟨.prepareArray list.length, listSpan⟩, ⟨.concat, span⟩]
  | .call head ⟨list, listSpan⟩ ⟨pairs, hashSpan⟩ => do
    let hash ← ofReversedPairs mode scope pairs
    let params ← ofReversed mode scope list
    let head ← ofExpression mode scope head
    return hash ++ [⟨.prepareObject pairs.length, hashSpan⟩] ++
      (params ++ [⟨.prepareArray list.length, listSpan⟩]) ++ head ++ [⟨.call, span⟩]

/-- The operations for expressions, from the last to the first. -/
def ofReversed (mode : Mode) (scope : Nat) : List (Located Plan.Expression) → Naming
  | [] => return []
  | e :: rest => do
    let others ← ofReversed mode scope rest
    let first ← ofExpression mode scope e
    return others ++ first

/-- The operations for keys and values, from the last pair to the first. -/
def ofReversedPairs (mode : Mode) (scope : Nat) : List (Pair (Located Plan.Expression)) → Naming
  | [] => return []
  | ⟨key, value, span⟩ :: rest => do
    let others ← ofReversedPairs mode scope rest
    let first ← ofExpression mode scope value
    return others ++ first ++ [⟨.pushString key, span⟩]

end

def ofParams (mode : Mode) (scope : Nat) (params : Plan.Params (Located Plan.Expression)) :
    Naming := do
  let list ← ofReversed mode scope params.list
  return list ++ [⟨.prepareArray params.list.length, params.span⟩]

def ofHash (mode : Mode) (scope : Nat) (hash : Template.Hash (Located Plan.Expression)) :
    Naming := do
  let pairs ← ofReversedPairs mode scope hash.pairs
  return pairs ++ [⟨.prepareObject hash.pairs.length, hash.loc⟩]

/-- The operands of a call: named arguments, positional arguments and head. -/
def ofCall (mode : Mode) (scope : Nat) (head : Located Plan.Expression)
    (params : Plan.Params (Located Plan.Expression))
    (hash : Template.Hash (Located Plan.Expression)) : Naming := do
  let hash ← ofHash mode scope hash
  let params ← ofParams mode scope params
  let head ← ofExpression mode scope head
  return hash ++ params ++ head

end TemplateCompiler.Program

import TemplateCompiler.Program.OfPlan
import TemplateCompiler.Proofs.PlanTrace

/-!
# Operations with a record of scopes

The operations of a plan once more. Those that read a bare name are marked with the name and with
the scope that it was looked up in. Leaving the marks out gives the operations back, so the marks
are those of the computation that finds them.
-/

namespace TemplateCompiler.Program

open Template (Pair)

/-- An operation, with a mark if it reads a bare name. -/
abbrev Traced := Located Op × Option Sighting

abbrev Tracing := StateM SymbolTable (List Traced)

def unmarked (op : Op) (span : Span) : Traced := (⟨op, span⟩, none)

def erase (stream : List Traced) : List (Located Op) := stream.map Prod.fst

/-- The marks, each with the operation that it is on. -/
def lookups (stream : List Traced) : List (Sighting × Op) :=
  stream.filterMap fun (op, mark) => mark.map (·, op.value)

@[simp] theorem erase_nil : erase [] = [] := rfl

@[simp] theorem erase_cons (op : Traced) (stream : List Traced) :
    erase (op :: stream) = op.1 :: erase stream := rfl

@[simp] theorem erase_append (xs ys : List Traced) : erase (xs ++ ys) = erase xs ++ erase ys :=
  List.map_append

@[simp] theorem lookups_append (xs ys : List Traced) :
    lookups (xs ++ ys) = lookups xs ++ lookups ys :=
  List.filterMap_append

/-! ### Expressions -/

mutual

def traceExpression (mode : Mode) (scope : Nat) : Located Plan.Expression → Tracing
  | ⟨e, span⟩ => traceExpressionAt mode scope span e

def traceExpressionAt (mode : Mode) (scope : Nat) (span : Span) : Plan.Expression → Tracing
  | .literal value => return [unmarked (.literal value) span]
  | .path head tail => do
    let head ← traceExpression mode scope head
    return head ++ [unmarked (.getPath tail) span]
  | .arg name => do
    let slot ← SymbolTable.allocateNamed name
    return [unmarked (.getSymbol slot) span]
  | .self => return [unmarked (.getSymbol 0) span]
  | .variable name context => do
    let op ← variableOp mode scope name context
    return [(⟨op, span⟩, some ⟨scope, name, context⟩)]
  | .hasBlock target => do
    let slot ← SymbolTable.allocateBlock target
    return [unmarked (.hasBlock slot) span]
  | .hasBlockParams target => do
    let slot ← SymbolTable.allocateBlock target
    return [unmarked (.hasBlockParams slot) span]
  | .concat ⟨list, listSpan⟩ => do
    let parts ← traceReversed mode scope list
    return parts ++ [unmarked (.prepareArray list.length) listSpan, unmarked .concat span]
  | .call head ⟨list, listSpan⟩ ⟨pairs, hashSpan⟩ => do
    let hash ← traceReversedPairs mode scope pairs
    let params ← traceReversed mode scope list
    let head ← traceExpression mode scope head
    return hash ++ [unmarked (.prepareObject pairs.length) hashSpan] ++
      (params ++ [unmarked (.prepareArray list.length) listSpan]) ++ head ++ [unmarked .call span]

def traceReversed (mode : Mode) (scope : Nat) : List (Located Plan.Expression) → Tracing
  | [] => return []
  | e :: rest => do
    let others ← traceReversed mode scope rest
    let first ← traceExpression mode scope e
    return others ++ first

def traceReversedPairs (mode : Mode) (scope : Nat) :
    List (Pair (Located Plan.Expression)) → Tracing
  | [] => return []
  | ⟨key, value, span⟩ :: rest => do
    let others ← traceReversedPairs mode scope rest
    let first ← traceExpression mode scope value
    return others ++ first ++ [unmarked (.pushString key) span]

end

def traceParams (mode : Mode) (scope : Nat) (params : Plan.Params (Located Plan.Expression)) :
    Tracing := do
  let list ← traceReversed mode scope params.list
  return list ++ [unmarked (.prepareArray params.list.length) params.span]

def traceHash (mode : Mode) (scope : Nat) (hash : Template.Hash (Located Plan.Expression)) :
    Tracing := do
  let pairs ← traceReversedPairs mode scope hash.pairs
  return pairs ++ [unmarked (.prepareObject hash.pairs.length) hash.loc]

def traceCall (mode : Mode) (scope : Nat) (head : Located Plan.Expression)
    (params : Plan.Params (Located Plan.Expression))
    (hash : Template.Hash (Located Plan.Expression)) : Tracing := do
  let hash ← traceHash mode scope hash
  let params ← traceParams mode scope params
  let head ← traceExpression mode scope head
  return hash ++ params ++ head

/-! ### Statements -/

mutual

def traceStatement (mode : Mode) : Located Plan.Statement → Resolving (List Traced)
  | ⟨s, span⟩ => traceStatementAt mode span s

def traceStatementAt (mode : Mode) (span : Span) : Plan.Statement → Resolving (List Traced)
  | .append value => do
    let value ← naming (traceExpression mode · value)
    return value ++ [unmarked .append span]
  | .appendTrusted value => do
    let value ← naming (traceExpression mode · value)
    return value ++ [unmarked .trustingAppend span]
  | .comment value => return [unmarked (.comment value) span]
  | .openElement tag => return [unmarked (.openElement tag) span]
  | .openElementWithSplat tag => return [unmarked (.openElementWithSplat tag) span]
  | .openComponent tag selfClosing scope => do
    let tag ← naming (traceExpression mode · tag)
    let parameters ← slotsOf scope
    return tag ++ [unmarked (.openComponent selfClosing parameters) span]
  | .openNamedBlock name scope => do
    let parameters ← slotsOf scope
    enterScope scope
    return [unmarked (.openNamedBlock name parameters) span]
  | .flushElement scope => do
    scope.forM enterScope
    return [unmarked .flushElement span]
  | .closeElement => return [unmarked .closeElement span]
  | .closeComponent | .closeDynamicComponent => do
    exitScope
    return [unmarked .closeComponent span]
  | .closeNamedBlock => do
    exitScope
    return [unmarked .closeNamedBlock span]
  | .attr kind name space value => do
    let value ← naming (traceExpression mode · value)
    return value ++ [unmarked (.attr kind name space) span]
  | .arg name value => do
    let op := if value.value.isLiteral then Op.staticArg name else Op.dynamicArg name
    let value ← naming (traceExpression mode · value)
    return value ++ [unmarked op span]
  | .attrSplat => do
    let slot ← naming fun _ => SymbolTable.allocateBlock "attrs"
    return [unmarked (.attrSplat slot) span]
  | .modifier head params hash => do
    let operands ← naming (traceCall mode · head params hash)
    return operands ++ [unmarked .modifier span]
  | .invokeBlock head params hash program inverse => do
    let other ← traceInverse mode inverse
    let default ← traceBlock mode program
    let operands ← naming (traceCall mode · head params hash)
    return other ++ default ++ operands ++ [unmarked (.invokeBlock inverse.isSome) span]
  | .yield target params => do
    let params ← naming (traceParams mode · params)
    let slot ← naming fun _ => SymbolTable.allocateBlock target
    return params ++ [unmarked (.yield slot) span]
  | .partialTemplate name => do
    let name ← naming (traceExpression mode · name)
    let slots ← evalInfo
    return name ++ [unmarked (.partialTemplate slots) span]
  | .debugger => do
    let slots ← evalInfo
    return [unmarked (.debugger slots) span]
  | .inElement destination insertBefore guid block => do
    let block ← traceBlock mode block
    let destination ← naming (traceExpression mode · destination)
    let before ←
      match insertBefore with
      | none => pure []
      | some value => naming (traceExpression mode · value)
    return block ++ destination ++ before ++ [unmarked (.inElement guid insertBefore.isSome) span]

def traceStatements (mode : Mode) : List (Located Plan.Statement) → Resolving (List Traced)
  | [] => return []
  | s :: rest => do
    let first ← traceStatement mode s
    let others ← traceStatements mode rest
    return first ++ others

def traceBlock (mode : Mode) :
    Plan.NamedBlock (Located Plan.Statement) → Resolving (List Traced)
  | ⟨name, scope, body, span⟩ => do
    let parameters ← slotsOf scope
    enterScope scope
    let body ← traceStatements mode body
    exitScope
    return unmarked (.startBlock name parameters) span :: body ++ [unmarked .endBlock span]

def traceInverse (mode : Mode) :
    Option (Plan.NamedBlock (Located Plan.Statement)) → Resolving (List Traced)
  | none => return []
  | some block => traceBlock mode block

end

def tracePlan (mode : Mode) (plan : Plan) : Except Defect (List Traced × SymbolTable) := do
  let (stream, names) ←
    (traceStatements mode plan.body).run ⟨plan.table, .singleton SymbolTable.rootScope⟩
  if names.scopes.size = 1 then pure (stream, names.table) else throw .unbalancedScopes

/-! ### Leaving the marks out -/

section Erasure

variable (mode : Mode)

mutual

theorem ofExpression_eq_trace (scope : Nat) : (e : Located Plan.Expression) →
    ofExpression mode scope e = erase <$> traceExpression mode scope e
  | ⟨e, span⟩ => ofExpressionAt_eq_trace scope span e

theorem ofExpressionAt_eq_trace (scope : Nat) (span : Span) : (e : Plan.Expression) →
    ofExpressionAt mode scope span e = erase <$> traceExpressionAt mode scope span e
  | .literal value => rfl
  | .path head tail => by
    simp [ofExpressionAt, traceExpressionAt, ofExpression_eq_trace scope head, unmarked]
  | .arg name => rfl
  | .self => rfl
  | .variable name context => rfl
  | .hasBlock target => rfl
  | .hasBlockParams target => rfl
  | .concat ⟨list, listSpan⟩ => by
    simp [ofExpressionAt, traceExpressionAt, ofReversed_eq_trace scope list, unmarked]
  | .call head ⟨list, listSpan⟩ ⟨pairs, hashSpan⟩ => by
    simp [ofExpressionAt, traceExpressionAt, ofReversed_eq_trace scope list,
      ofReversedPairs_eq_trace scope pairs, ofExpression_eq_trace scope head, unmarked]

theorem ofReversed_eq_trace (scope : Nat) : (list : List (Located Plan.Expression)) →
    ofReversed mode scope list = erase <$> traceReversed mode scope list
  | [] => rfl
  | e :: rest => by
    simp [ofReversed, traceReversed, ofReversed_eq_trace scope rest, ofExpression_eq_trace scope e]

theorem ofReversedPairs_eq_trace (scope : Nat) :
    (list : List (Pair (Located Plan.Expression))) →
      ofReversedPairs mode scope list = erase <$> traceReversedPairs mode scope list
  | [] => rfl
  | ⟨key, value, span⟩ :: rest => by
    simp [ofReversedPairs, traceReversedPairs, ofReversedPairs_eq_trace scope rest,
      ofExpression_eq_trace scope value, unmarked]

end

theorem ofParams_eq_trace (scope : Nat) (params : Plan.Params (Located Plan.Expression)) :
    ofParams mode scope params = erase <$> traceParams mode scope params := by
  simp [ofParams, traceParams, ofReversed_eq_trace, unmarked]

theorem ofHash_eq_trace (scope : Nat) (hash : Template.Hash (Located Plan.Expression)) :
    ofHash mode scope hash = erase <$> traceHash mode scope hash := by
  simp [ofHash, traceHash, ofReversedPairs_eq_trace, unmarked]

theorem ofCall_eq_trace (scope : Nat) (head : Located Plan.Expression)
    (params : Plan.Params (Located Plan.Expression))
    (hash : Template.Hash (Located Plan.Expression)) :
    ofCall mode scope head params hash = erase <$> traceCall mode scope head params hash := by
  simp [ofCall, traceCall, ofHash_eq_trace, ofParams_eq_trace, ofExpression_eq_trace]

theorem naming_map {α β : Type} (f : Nat → StateM SymbolTable α) (g : α → β) :
    naming (fun scope => g <$> f scope) = g <$> naming f := by
  funext names
  show _ = (naming f names >>= fun done => pure (g done.1, done.2))
  simp only [naming]
  split <;> rfl

mutual

/-- The operations for a statement are the traced ones without their marks. -/
theorem ofStatement_eq_trace : (s : Located Plan.Statement) →
    ofStatement mode s = erase <$> traceStatement mode s
  | ⟨s, span⟩ => ofStatementAt_eq_trace span s

theorem ofStatementAt_eq_trace (span : Span) : (s : Plan.Statement) →
    ofStatementAt mode span s = erase <$> traceStatementAt mode span s
  | .append value | .appendTrusted value | .attr _ _ _ value | .arg _ value
  | .openComponent value _ _ | .partialTemplate value => by
    simp [ofStatementAt, traceStatementAt, ofExpression_eq_trace, naming_map, unmarked]
  | .modifier head params hash => by
    simp [ofStatementAt, traceStatementAt, ofCall_eq_trace, naming_map, unmarked]
  | .yield target params => by
    simp [ofStatementAt, traceStatementAt, ofParams_eq_trace, naming_map, unmarked]
  | .invokeBlock head params hash program inverse => by
    simp [ofStatementAt, traceStatementAt, ofCall_eq_trace, naming_map, unmarked,
      ofInverse_eq_trace inverse, ofBlock_eq_trace program]
  | .inElement destination insertBefore guid block => by
    cases insertBefore <;>
      simp [ofStatementAt, traceStatementAt, ofExpression_eq_trace, naming_map, unmarked,
        ofBlock_eq_trace block]
  | .comment _ | .openElement _ | .openElementWithSplat _ | .openNamedBlock _ _ | .flushElement _
  | .closeElement | .closeComponent | .closeDynamicComponent | .closeNamedBlock | .attrSplat
  | .debugger => by simp [ofStatementAt, traceStatementAt, unmarked]

theorem ofStatements_eq_trace : (list : List (Located Plan.Statement)) →
    ofStatements mode list = erase <$> traceStatements mode list
  | [] => by simp [ofStatements, traceStatements]
  | s :: rest => by
    simp [ofStatements, traceStatements, ofStatement_eq_trace s, ofStatements_eq_trace rest]

theorem ofBlock_eq_trace : (block : Plan.NamedBlock (Located Plan.Statement)) →
    ofBlock mode block = erase <$> traceBlock mode block
  | ⟨name, scope, body, span⟩ => by
    simp [ofBlock, traceBlock, ofStatements_eq_trace body, unmarked]

theorem ofInverse_eq_trace : (inverse : Option (Plan.NamedBlock (Located Plan.Statement))) →
    ofInverse mode inverse = erase <$> traceInverse mode inverse
  | none => by simp [ofInverse, traceInverse]
  | some block => ofBlock_eq_trace block

end

/-- A program is a traced one without its marks. -/
theorem ofPlan_eq_trace (plan : Plan) :
    ofPlan mode plan = (fun done => ⟨erase done.1, done.2⟩) <$> tracePlan mode plan := by
  rw [ofPlan, tracePlan, ofStatements_eq_trace, StateT.run_map, map_bind, bind_map_left]
  congr 1
  funext ⟨stream, names⟩
  dsimp only
  split <;> rfl

end Erasure

end TemplateCompiler.Program

import TemplateCompiler.Plan.Basic
import TemplateCompiler.Plan.Rejection

/-!
Planning expressions. Paths are told apart by what they start from, and the block tests `has-block`
and `has-block-params` by how they are written; every other call is a helper's.
-/

namespace TemplateCompiler.Plan

open Template (Path Pair Hash)

abbrev Planned := Except Rejection

/-- Whether a mustache has arguments, which makes its head a helper. -/
def hasArguments (params : List Template.Expression) (hash : Hash Template.Expression) : Bool :=
  !params.isEmpty || !hash.isEmpty

/-- A path. Only `this` may stand without a name after it. -/
def planPath (context : Context) (p : Path) : Planned (Located Expression) :=
  let extend (head : Expression) (tail : List String) : Located Expression :=
    if tail.isEmpty then ⟨head, p.loc⟩ else ⟨.path ⟨head, p.loc⟩ tail, p.loc⟩
  if p.isThis then .ok (extend .self p.parts)
  else
    match p.parts with
    | [] => .error (.invalidPath p.written p.loc)
    | first :: tail =>
      .ok (extend (if p.isArg then .arg first else .variable first context) tail)

/-- The tests that a template can make of the blocks it was given. -/
inductive BlockTest where
  | hasBlock
  | hasBlockParams
deriving DecidableEq

namespace BlockTest

def keyword : BlockTest → String
  | .hasBlock => "has-block"
  | .hasBlockParams => "has-block-params"

/-- The test that a path names, by the way it is written. -/
def ofPath? (p : Path) : Option BlockTest :=
  if p.written = keyword .hasBlock then some .hasBlock
  else if p.written = keyword .hasBlockParams then some .hasBlockParams
  else none

def expression (target : String) : BlockTest → Expression
  | .hasBlock => .hasBlock target
  | .hasBlockParams => .hasBlockParams target

/-- A test takes the name of a block at most, as a literal. -/
def plan (test : BlockTest) (params : List Template.Expression)
    (hash : Hash Template.Expression) (span : Span) : Planned (Located Expression) :=
  if !hash.isEmpty then .error (.testNamedArguments test.keyword span)
  else
    match params with
    | [] => .ok ⟨test.expression "default", span⟩
    | [.literal (.string target) _] => .ok ⟨test.expression target, span⟩
    | [other] => .error (.testTargetNotLiteral span.line other.loc)
    | _ => .error (.testArity test.keyword span)

end BlockTest

def paramsSpan (params : List Template.Expression) : Span :=
  match params.head?, params.getLast? with
  | some first, some last => first.loc.merge last.loc
  | _, _ => .synthetic

mutual

/-- Plans an expression; a bare name in it stands in `context`. -/
def planExpression (context : Context) : Template.Expression → Planned (Located Expression)
  | .path p => planPath context p
  | .call callee params ⟨pairs, hashLoc⟩ loc =>
    match BlockTest.ofPath? callee with
    | some test => test.plan params ⟨pairs, hashLoc⟩ loc
    | none => do
      let head ← planPath .callHead callee
      let list ← planExpressions params
      let pairs ← planPairs pairs
      pure ⟨.call head ⟨list, paramsSpan params⟩ ⟨pairs, hashLoc⟩, loc⟩
  | .literal value loc => .ok ⟨.literal value, loc⟩

def planExpressions : List Template.Expression → Planned (List (Located Expression))
  | [] => .ok []
  | e :: rest => do
    let planned ← planExpression .expression e
    let others ← planExpressions rest
    pure (planned :: others)

def planPairs : List (Pair Template.Expression) → Planned (List (Pair (Located Expression)))
  | [] => .ok []
  | ⟨key, value, loc⟩ :: rest => do
    let planned ← planExpression .expression value
    let others ← planPairs rest
    pure (⟨key, planned, loc⟩ :: others)

end

def planParams (params : List Template.Expression) : Planned (Params (Located Expression)) := do
  let list ← planExpressions params
  pure ⟨list, paramsSpan params⟩

def planHash (hash : Hash Template.Expression) : Planned (Hash (Located Expression)) := do
  let pairs ← planPairs hash.pairs
  pure ⟨pairs, hash.loc⟩

def planCall (callee : Path) (params : List Template.Expression)
    (hash : Hash Template.Expression) (span : Span) : Planned (Located Expression) := do
  let head ← planPath .callHead callee
  let params ← planParams params
  let hash ← planHash hash
  pure ⟨.call head params hash, span⟩

end TemplateCompiler.Plan

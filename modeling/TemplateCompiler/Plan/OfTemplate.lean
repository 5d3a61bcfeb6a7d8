import TemplateCompiler.Plan.Attribute
import TemplateCompiler.Stack
import TemplateCompiler.Text.Classes

/-!
Planning statements. Every block and component gets a scope before its content is planned; the
scopes that a statement stands in are kept on a stack. The `in-element` blocks are counted as they
come, and fewer than `2 ^ 32` of them are meant.
-/

namespace TemplateCompiler.Plan

open Template (Block BlockNode Element Mustache Pair TagKind)

/-- What planning has used up so far, names and ids for `in-element` blocks, and where it stands. -/
structure Progress where
  table : SymbolTable
  /-- The scopes of the blocks around the statement that is planned. -/
  scopes : Stack Nat
  cursors : Nat

abbrev Planning := StateT Progress (Except Failure)

instance : MonadLift Planned Planning where
  monadLift planned := fun progress =>
    match planned with
    | .ok a => .ok (a, progress)
    | .error r => .error (.rejected r)

/-- A new scope beneath the current one. It is not entered yet. -/
def newScope (locals : List String) : Planning Nat := fun progress =>
  let (scope, table) := progress.table.child progress.scopes.current locals
  .ok (scope, { progress with table := table })

def enterScope (scope : Nat) : Planning Unit :=
  modify fun progress => { progress with scopes := progress.scopes.push scope }

def exitScope : Planning Unit := fun progress =>
  match progress.scopes.pop? with
  | none => .error (.defective .noScope)
  | some (_, scopes) => .ok ((), { progress with scopes := scopes })

/-- Whether a name is bound by a block around the statement. -/
def isLocal : Planning (String → Bool) := fun progress =>
  let scope := progress.scopes.current
  if scope < progress.table.scopes.length then .ok (progress.table.has scope, progress)
  else .error (.defective .unknownScope)

def markEval : Planning Unit :=
  modify fun progress => { progress with table := progress.table.setHasEval }

/-- The next id for an `in-element` block. -/
def newCursor : Planning String := fun progress =>
  .ok (s!"%cursor:{progress.cursors}%", { progress with cursors := progress.cursors + 1 })

/-- Rejects the template unless a condition holds. -/
def require (condition : Bool) (r : Rejection) : Planned Unit :=
  if condition then .ok () else .error r

/-! ### Mustaches -/

/-- The mustaches that are statements of their own. -/
inductive Keyword where
  | yield
  | partialTemplate
  | debugger
deriving DecidableEq

/-- The keyword that a path names, by the way it is written. -/
def Keyword.ofPath? (p : Template.Path) : Option Keyword :=
  if p.written = "yield" then some .yield
  else if p.written = "partial" then some .partialTemplate
  else if p.written = "debugger" then some .debugger
  else none

def yieldTarget (pairs : List (Pair Template.Expression)) : Planned String :=
  match pairs with
  | [] => .ok "default"
  | first :: rest =>
    if first.key = "to" && rest.isEmpty then
      match first.value with
      | .literal (.string target) _ => .ok target
      | other => .error (.yieldTargetNotLiteral other.loc)
    else .error (.yieldNamedArguments first.loc)

def planYield (m : Mustache) : Planned (Located Statement) := do
  let target ← yieldTarget m.hash.pairs
  let params ← planParams m.params
  pure ⟨.yield target params, m.loc⟩

def planPartial (m : Mustache) : Planned (Located Statement) :=
  match m.params with
  | [] => .error (.partialWithoutName m.loc)
  | [name] => do
    require m.hash.isEmpty (.partialNamedArguments m.loc)
    require (!m.trusting) (.partialTrusting m.loc)
    let name ← planExpression .expression name
    pure ⟨.partialTemplate name, m.loc⟩
  | params => .error (.partialArity params.length m.loc)

def planDebugger (m : Mustache) : Planned (Located Statement) := do
  require m.hash.isEmpty (.debuggerNamedArguments m.loc)
  require m.params.isEmpty (.debuggerPositionalArguments m.loc)
  pure ⟨.debugger, m.loc⟩

/-- Shows a value, escaped unless it is trusted. -/
def appendStatement (trusting : Bool) (value : Located Expression) (span : Span) :
    Located Statement :=
  ⟨if trusting then .appendTrusted value else .append value, span⟩

/-- The value of a mustache that is no keyword. -/
def planMustacheValue (p : Template.Path) (m : Mustache) : Planned (Located Expression) :=
  match BlockTest.ofPath? p with
  | some test => test.plan m.params m.hash m.loc
  | none =>
    if hasArguments m.params m.hash then planCall p m.params m.hash m.loc
    else planPath (if 1 < p.parts.length || p.isArg then .expression else .appendSingleId) p

def planMustache (m : Mustache) : Planned (Located Statement) :=
  match m.path with
  | .path p =>
    match Keyword.ofPath? p with
    | some .yield => planYield m
    | some .partialTemplate => planPartial m
    | some .debugger => planDebugger m
    | none => do
      let value ← planMustacheValue p m
      pure (appendStatement m.trusting value m.loc)
  | other => do
    let value ← planExpression .expression other
    pure (appendStatement m.trusting value m.loc)

/-! ### Blocks that move their content -/

def isInElement (p : Template.Path) : Bool := p.written = "in-element"

/-- The only named argument is `insertBefore`, and the last one counts. -/
def planInsertBefore (found : Option (Located Expression)) :
    List (Pair Template.Expression) → Planned (Option (Located Expression))
  | [] => .ok found
  | pair :: rest =>
    if pair.key = "insertBefore" then do
      let value ← planExpression .expression pair.value
      planInsertBefore (some value) rest
    else if pair.key = "guid" then .error (.inElementGuid pair.value.loc)
    else .error (.inElementKey pair.key pair.loc)

/-- The destination, and what the content goes before. -/
def planDestination {σ : Type} (b : BlockNode σ) :
    Planned (Located Expression × Option (Located Expression)) :=
  match b.params with
  | [destination] => do
    let insertBefore ← planInsertBefore none b.hash.pairs
    require b.inverse.isNone (.inElementInverse b.loc)
    let destination ← planExpression .expression destination
    pure (destination, insertBefore)
  | _ => .error (.inElementArity b.loc)

/-! ### Elements -/

/-- Whether an element may stand where it does, and have the parts it has. -/
def checkElement {σ : Type} (kind : TagKind) (e : Element σ) : Planned Unit := do
  require (!(kind matches .namedBlock)) (.strayNamedBlock e.tag e.loc)
  require (!e.selfClosing || e.children.isEmpty) (.selfClosingChildren e.tag e.loc)
  require (kind.isComponentLike || e.blockParams.isEmpty) (.elementBlockParams e.tag e.loc)

/-- The statement that opens an element; `scope` is that of a component's content. -/
def openStatement {σ : Type} (rename : String → String) (kind : TagKind) (e : Element σ)
    (scope : Nat) : Planned Statement :=
  match kind with
  | .component =>
    .ok (.openComponent ⟨.variable (rename e.tag) .componentHead, e.loc⟩ e.selfClosing scope)
  | .dynamicTag path => do
    let tag ← planPath .componentHead path
    pure (.openComponent tag e.selfClosing scope)
  | .dynamic => .ok (.openElementWithSplat e.tag)
  | _ => .ok (.openElement e.tag)

def closeStatement : TagKind → Statement
  | .component => .closeComponent
  | .dynamicTag _ => .closeDynamicComponent
  | _ => .closeElement

/-- The opening tag of an element, up to its content. -/
def planOpening {σ : Type} (rename : String → String) (kind : TagKind) (e : Element σ)
    (scope : Option Nat) : Planned (List (Located Statement)) := do
  let opening ← openStatement rename kind e (scope.getD 0)
  let attributes ← planAttributes kind e.tag e.attributes
  let modifiers ← e.modifiers.mapM planModifier
  pure (⟨opening, e.loc⟩ :: attributes ++ modifiers ++ [⟨.flushElement scope, e.loc⟩])

def isNamedBlock : Template.Statement → Bool
  | .element e => Template.startsWith e.tag ':'
  | _ => false

/-- Whether a statement may stand beside named blocks: it shows nothing. -/
def isNothing : Template.Statement → Bool
  | .text node => Text.isBlankText node.chars
  | .comment _ | .mustacheComment _ => true
  | _ => false

mutual

/-- Plans a statement in the current scope. -/
def planStatement (rename : String → String) :
    Template.Statement → Planning (List (Located Statement))
  | .mustache m => do
    let statement ← planMustache m
    if statement.value.readsNames then markEval
    return [statement]
  | .block ⟨path, params, hash, program, inverse, loc⟩ => do
    if isInElement path then
      let (destination, insertBefore) ←
        planDestination ⟨path, params, hash, program, inverse, loc⟩
      let guid ← newCursor
      let block ← planBlock rename "default" program
      return [⟨.inElement destination insertBefore guid block, loc⟩]
    else
      let program ← planBlock rename "default" program
      let inverse ← planInverse rename inverse
      let head ← planPath .blockHead path
      let params ← planParams params
      let hash ← planHash hash
      return [⟨.invokeBlock head params hash program inverse, loc⟩]
  | .element ⟨tag, attributes, modifiers, children, blockParams, selfClosing, loc⟩ => do
    let e : Element Template.Statement :=
      ⟨tag, attributes, modifiers, children, blockParams, selfClosing, loc⟩
    let kind := e.kind (← isLocal)
    checkElement kind e
    if kind.isComponentLike then
      let inner ← newScope blockParams
      let opening ← planOpening rename kind e (some inner)
      enterScope inner
      let content ←
        if children.any isNamedBlock then planNamedBlocks rename tag children
        else planStatements rename children
      exitScope
      return opening ++ content ++ [⟨closeStatement kind, loc⟩]
    else
      let opening ← planOpening rename kind e none
      let content ← planStatements rename children
      return opening ++ content ++ [⟨closeStatement kind, loc⟩]
  | .text node => return [⟨.append (planText node), node.loc⟩]
  | .comment node => return [⟨.comment node.value, node.loc⟩]
  | .mustacheComment _ => return []

def planStatements (rename : String → String) :
    List Template.Statement → Planning (List (Located Statement))
  | [] => return []
  | s :: rest => do
    let first ← planStatement rename s
    let others ← planStatements rename rest
    return first ++ others

/-- Plans a block in a new scope. -/
def planBlock (rename : String → String) (name : String) :
    Block Template.Statement → Planning (NamedBlock (Located Statement))
  | ⟨body, params, loc⟩ => do
    let inner ← newScope params
    enterScope inner
    let body ← planStatements rename body
    exitScope
    return ⟨name, inner, body, loc⟩

def planInverse (rename : String → String) :
    Option (Block Template.Statement) → Planning (Option (NamedBlock (Located Statement)))
  | none => return none
  | some block => return some (← planBlock rename "else" block)

/-- Plans the named blocks of a component. Nothing else may be shown beside them. -/
def planNamedBlocks (rename : String → String) (component : String) :
    List Template.Statement → Planning (List (Located Statement))
  | [] => return []
  | s :: rest => do
    let first ← planNamedBlock rename component s
    let others ← planNamedBlocks rename component rest
    return first ++ others

/-- Plans one statement among named blocks. -/
def planNamedBlock (rename : String → String) (component : String) :
    Template.Statement → Planning (List (Located Statement))
  | .element ⟨tag, attributes, modifiers, children, blockParams, _, loc⟩ => do
    if Template.startsWith tag ':' then
      require (attributes.isEmpty && modifiers.isEmpty) (.namedBlockAttributes tag loc)
      let inner ← newScope blockParams
      enterScope inner
      let content ← planStatements rename children
      exitScope
      let name := String.ofList (tag.toList.drop 1)
      return ⟨.openNamedBlock name inner, loc⟩ :: content ++ [⟨.closeNamedBlock, loc⟩]
    else
      throw (.rejected (.contentBesideNamedBlocks component loc))
  | other => do
    require (isNothing other) (.contentBesideNamedBlocks component other.loc)
    return []

end

/-- Plans a template; `rename` is applied to the tags of components. -/
def ofTemplate (rename : String → String) (t : Template) : Except Failure Plan := do
  let (body, progress) ←
    (planStatements rename t.body).run ⟨.empty, .singleton SymbolTable.rootScope, 0⟩
  if progress.scopes.size = 1 then pure ⟨body, progress.table⟩
  else throw (.defective .unbalancedPlan)

end TemplateCompiler.Plan

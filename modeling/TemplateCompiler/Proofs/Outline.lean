import TemplateCompiler.Plan.OfTemplate

/-!
# Outlines of templates

An outline is a template in which every block, component and named block carries the number of its
scope, every `in-element` block the number of its cursor, and every element its kind. Numbers are
given in the order of the source, and kinds by the names that the blocks around an element bind, so
an outline is found from the template alone: there is no symbol table here.

Outlines can be planned statement by statement, with no state to hand on.
-/

namespace TemplateCompiler

open Template (Block BlockNode CommentNode Element Mustache TagKind TextNode)

/-- The names that a block binds, and the number of its scope. -/
structure Binder where
  scope : Nat
  names : List String
  /-- Whether the names become parameters of a block in the compiled template. Those of a component
  with named blocks do not. -/
  passed : Bool
deriving DecidableEq

namespace Binder

/-- The number of the innermost scope, where `enclosing` lists the blocks around a place, the
innermost first. -/
def current (enclosing : List Binder) : Nat :=
  match enclosing with
  | [] => SymbolTable.rootScope
  | b :: _ => b.scope

/-- Whether one of the blocks around a place binds a name. -/
def binds (enclosing : List Binder) (name : String) : Bool :=
  enclosing.any fun b => b.names.contains name

end Binder

/-- A statement with its numbers. -/
inductive Outline where
  | mustache (node : Mustache)
  | text (node : TextNode)
  | comment (node : CommentNode)
  /-- What leaves no trace: a comment in curly braces, or anything blank beside named blocks. -/
  | hidden
  /-- Content that may not stand beside named blocks. -/
  | misplaced (parent : String) (loc : Span)
  /-- A block statement, with the scopes of its two blocks. -/
  | invocation (node : BlockNode Outline) (program inverse : Nat)
  | inElement (node : BlockNode Outline) (scope cursor : Nat)
  | element (kind : TagKind) (node : Element Outline)
  | component (kind : TagKind) (scope : Nat) (node : Element Outline)
  | namedBlock (scope : Nat) (node : Element Outline)

namespace Outline

structure Count where
  scopes : Nat
  cursors : Nat
deriving DecidableEq

def Count.scope (c : Count) : Count := ⟨c.scopes + 1, c.cursors⟩

mutual

/-- The outline of a statement inside some blocks, and the numbers used after it. -/
def ofStatement (enclosing : List Binder) (c : Count) : Template.Statement → Outline × Count
  | .mustache m => (.mustache m, c)
  | .block ⟨path, params, hash, program, inverse, loc⟩ =>
    if Plan.isInElement path then
      let (body, next) := ofBlock enclosing ⟨c.scopes, c.cursors + 1⟩ program
      -- An `else` block is rejected here, so its content is of no interest.
      let other := inverse.map fun b => ⟨[], b.params, b.loc⟩
      (.inElement ⟨path, params, hash, body, other, loc⟩ c.scopes c.cursors, next)
    else
      let (body, between) := ofBlock enclosing c program
      let (other, next) := ofInverse enclosing between inverse
      (.invocation ⟨path, params, hash, body, other, loc⟩ c.scopes between.scopes, next)
  | .element ⟨tag, attributes, modifiers, children, blockParams, selfClosing, loc⟩ =>
    let e : Element Template.Statement :=
      ⟨tag, attributes, modifiers, children, blockParams, selfClosing, loc⟩
    let kind := e.kind (Binder.binds enclosing)
    if kind.isComponentLike then
      let named := children.any Plan.isNamedBlock
      let inner := ⟨c.scopes, blockParams, !named⟩ :: enclosing
      let (content, next) :=
        if named then ofNamedBlocks inner c.scope tag children
        else ofStatements inner c.scope children
      (.component kind c.scopes
        ⟨tag, attributes, modifiers, content, blockParams, selfClosing, loc⟩, next)
    else
      let (content, next) := ofStatements enclosing c children
      (.element kind ⟨tag, attributes, modifiers, content, blockParams, selfClosing, loc⟩, next)
  | .text node => (.text node, c)
  | .comment node => (.comment node, c)
  | .mustacheComment _ => (.hidden, c)

def ofStatements (enclosing : List Binder) (c : Count) :
    List Template.Statement → List Outline × Count
  | [] => ([], c)
  | s :: rest =>
    let (first, between) := ofStatement enclosing c s
    let (others, next) := ofStatements enclosing between rest
    (first :: others, next)

/-- The outline of a block, which takes the next scope. -/
def ofBlock (enclosing : List Binder) (c : Count) :
    Block Template.Statement → Block Outline × Count
  | ⟨body, params, loc⟩ =>
    let (content, next) := ofStatements (⟨c.scopes, params, true⟩ :: enclosing) c.scope body
    (⟨content, params, loc⟩, next)

def ofInverse (enclosing : List Binder) (c : Count) :
    Option (Block Template.Statement) → Option (Block Outline) × Count
  | none => (none, c)
  | some block =>
    let (body, next) := ofBlock enclosing c block
    (some body, next)

/-- The outlines of the statements in a component with named blocks. -/
def ofNamedBlocks (enclosing : List Binder) (c : Count) (component : String) :
    List Template.Statement → List Outline × Count
  | [] => ([], c)
  | s :: rest =>
    let (first, between) := ofNamedBlock enclosing c component s
    let (others, next) := ofNamedBlocks enclosing between component rest
    (first :: others, next)

def ofNamedBlock (enclosing : List Binder) (c : Count) (component : String) :
    Template.Statement → Outline × Count
  | .element ⟨tag, attributes, modifiers, children, blockParams, selfClosing, loc⟩ =>
    if Template.startsWith tag ':' then
      let (content, next) :=
        ofStatements (⟨c.scopes, blockParams, true⟩ :: enclosing) c.scope children
      (.namedBlock c.scopes
        ⟨tag, attributes, modifiers, content, blockParams, selfClosing, loc⟩, next)
    else (.misplaced component loc, c)
  | other => (if Plan.isNothing other then .hidden else .misplaced component other.loc, c)

end

/-- The outlines of a template's statements. The root scope is in use from the start. -/
def ofTemplate (t : Template) : List Outline := (ofStatements [] ⟨1, 0⟩ t.body).1

def isNamed : Outline → Bool
  | .namedBlock _ _ => true
  | _ => false

/-- The name that a named block is passed under. -/
def blockTitle (tag : String) : String := String.ofList (tag.toList.drop 1)

/-! ### Planning outlines -/

open Plan (Planned Statement NamedBlock)

mutual

def plan (rename : String → String) : Outline → Planned (List (Located Statement))
  | .mustache m => do return [← Plan.planMustache m]
  | .text node => .ok [⟨.append (Plan.planText node), node.loc⟩]
  | .comment node => .ok [⟨.comment node.value, node.loc⟩]
  | .hidden => .ok []
  | .misplaced parent loc => .error (.contentBesideNamedBlocks parent loc)
  | .invocation ⟨path, params, hash, program, inverse, loc⟩ scope other => do
    let program ← planBlock rename "default" scope program
    let inverse ← planInverse rename other inverse
    let head ← Plan.planPath .blockHead path
    let params ← Plan.planParams params
    let hash ← Plan.planHash hash
    return [⟨.invokeBlock head params hash program inverse, loc⟩]
  | .inElement ⟨path, params, hash, program, inverse, loc⟩ scope cursor => do
    let (destination, insertBefore) ←
      Plan.planDestination ⟨path, params, hash, program, inverse, loc⟩
    let block ← planBlock rename "default" scope program
    return [⟨.inElement destination insertBefore s!"%cursor:{cursor}%" block, loc⟩]
  | .element kind ⟨tag, attributes, modifiers, children, blockParams, selfClosing, loc⟩ => do
    let e : Element Outline :=
      ⟨tag, attributes, modifiers, children, blockParams, selfClosing, loc⟩
    Plan.checkElement kind e
    let opening ← Plan.planOpening rename kind e none
    let content ← planAll rename children
    return opening ++ content ++ [⟨Plan.closeStatement kind, loc⟩]
  | .component kind scope
      ⟨tag, attributes, modifiers, children, blockParams, selfClosing, loc⟩ => do
    let e : Element Outline :=
      ⟨tag, attributes, modifiers, children, blockParams, selfClosing, loc⟩
    Plan.checkElement kind e
    let opening ← Plan.planOpening rename kind e (some scope)
    let content ← planAll rename children
    return opening ++ content ++ [⟨Plan.closeStatement kind, loc⟩]
  | .namedBlock scope ⟨tag, attributes, modifiers, children, _, _, loc⟩ => do
    Plan.require (attributes.isEmpty && modifiers.isEmpty) (.namedBlockAttributes tag loc)
    let content ← planAll rename children
    return ⟨.openNamedBlock (blockTitle tag) scope, loc⟩ :: content ++ [⟨.closeNamedBlock, loc⟩]

def planAll (rename : String → String) : List Outline → Planned (List (Located Statement))
  | [] => .ok []
  | s :: rest => do
    let first ← plan rename s
    let others ← planAll rename rest
    return first ++ others

def planBlock (rename : String → String) (name : String) (scope : Nat) :
    Block Outline → Planned (NamedBlock (Located Statement))
  | ⟨body, _, loc⟩ => do
    let body ← planAll rename body
    return ⟨name, scope, body, loc⟩

def planInverse (rename : String → String) (scope : Nat) :
    Option (Block Outline) → Planned (Option (NamedBlock (Located Statement)))
  | none => .ok none
  | some block => do return some (← planBlock rename "else" scope block)

end

end Outline

end TemplateCompiler

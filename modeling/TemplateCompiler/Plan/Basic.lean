import TemplateCompiler.SymbolTable
import TemplateCompiler.Template.Basic
import TemplateCompiler.Wire.Opcode

/-!
The plan of a template: its statements in the order in which they are carried out, elements opened
and closed one after the other, keywords told apart from helpers, and a scope for every block. Names
are still names.
-/

namespace TemplateCompiler

namespace Plan

structure Params (α : Type) where
  list : List α
  span : Span

inductive Expression where
  | literal (value : Literal)
  | path (head : Located Expression) (tail : List String)
  /-- A named argument, without its sigil. -/
  | arg (name : String)
  /-- The value of `this`. -/
  | self
  | variable (name : String) (context : Context)
  | hasBlock (target : String)
  | hasBlockParams (target : String)
  | concat (parts : Params (Located Expression))
  | call (head : Located Expression) (params : Params (Located Expression))
      (hash : Template.Hash (Located Expression))

def Expression.isLiteral : Expression → Bool
  | .literal _ => true
  | _ => false

/-- A block in a scope of its own. -/
structure NamedBlock (σ : Type) where
  name : String
  scope : Nat
  body : List σ
  span : Span

inductive Statement where
  | append (value : Located Expression)
  | appendTrusted (value : Located Expression)
  | comment (value : String)
  | openElement (tag : String)
  | openElementWithSplat (tag : String)
  | openComponent (tag : Located Expression) (selfClosing : Bool) (scope : Nat)
  | openNamedBlock (name : String) (scope : Nat)
  /-- The end of an opening tag. A component's scope starts here. -/
  | flushElement (scope : Option Nat)
  | closeElement
  | closeComponent
  | closeDynamicComponent
  | closeNamedBlock
  | attr (kind : AttributeKind) (name : String) (space : Option String)
      (value : Located Expression)
  | arg (name : String) (value : Located Expression)
  | attrSplat
  | modifier (head : Located Expression) (params : Params (Located Expression))
      (hash : Template.Hash (Located Expression))
  | invokeBlock (head : Located Expression) (params : Params (Located Expression))
      (hash : Template.Hash (Located Expression)) (program : NamedBlock (Located Statement))
      (inverse : Option (NamedBlock (Located Statement)))
  | yield (target : String) (params : Params (Located Expression))
  | partialTemplate (name : Located Expression)
  | debugger
  | inElement (destination : Located Expression) (insertBefore : Option (Located Expression))
      (guid : String) (block : NamedBlock (Located Statement))

namespace Statement

/-- Whether a statement starts an element, component or named block. -/
def opensContainer : Statement → Bool
  | .openElement _ | .openElementWithSplat _ | .openComponent _ _ _ | .openNamedBlock _ _ => true
  | _ => false

/-- Whether a statement ends an element, component or named block. -/
def closesContainer : Statement → Bool
  | .closeElement | .closeComponent | .closeDynamicComponent | .closeNamedBlock => true
  | _ => false

/-- Whether a statement reads names at run time. -/
def readsNames : Statement → Bool
  | .partialTemplate _ | .debugger => true
  | _ => false

end Statement

end Plan

/-- Planned statements, and the table that their scopes belong to. -/
structure Plan where
  body : List (Located Plan.Statement)
  table : SymbolTable

end TemplateCompiler

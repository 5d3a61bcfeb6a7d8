import TemplateCompiler.Double.Basic
import TemplateCompiler.Wire.Opcode

/-!
Compiled templates: trees of statements and expressions in which every name has been replaced by the
number of a slot or of a free variable.
-/

namespace TemplateCompiler

namespace Wire

inductive Value where
  | string (value : String)
  | number (value : Double)
  | boolean (value : Bool)
  | null
deriving DecidableEq

inductive Expression where
  | undefined
  | value (value : Value)
  | getSymbol (slot : Nat)
  /-- A free variable read without a context. -/
  | getFree (index : Nat)
  | getContextualFree (index : Nat) (context : Context)
  | getPath (head : Expression) (tail : List String)
  | concat (parts : List Expression)
  | call (head : Expression) (params : List Expression) (hash : List (String × Expression))
  | hasBlock (block : Expression)
  | hasBlockParams (block : Expression)

/-- Statements with the slots of their block params. -/
structure InlineBlock (σ : Type) where
  statements : List σ
  parameters : List Nat

inductive Statement where
  | append (value : Expression)
  | trustingAppend (value : Expression)
  | comment (value : String)
  | modifier (head : Expression) (params : List Expression) (hash : List (String × Expression))
  | block (head : Expression) (params : List Expression) (hash : List (String × Expression))
      (blocks : List (String × InlineBlock Statement))
  /-- A component without blocks was written as a self-closing tag. -/
  | component (tag : Expression) (attrs : List Statement) (args : List (String × Expression))
      (blocks : Option (List (String × InlineBlock Statement)))
  | openElement (tag : String)
  | openElementWithSplat (tag : String)
  | flushElement
  | closeElement
  | attr (kind : AttributeKind) (name : String) (value : Expression) (space : Option String)
  | staticArg (name : String) (value : Expression)
  | dynamicArg (name : String) (value : Expression)
  | attrSplat (slot : Nat)
  | yield (slot : Nat) (params : List Expression)
  | partialTemplate (name : Expression) (evalInfo : List Nat)
  | debugger (evalInfo : List Nat)
  | inElement (block : InlineBlock Statement) (guid : String) (destination : Expression)
      (insertBefore : Option Expression)

namespace Statement

/-- The name of a statement's kind. -/
def name : Statement → String
  | .append _ => "Append"
  | .trustingAppend _ => "TrustingAppend"
  | .comment _ => "Comment"
  | .modifier _ _ _ => "Modifier"
  | .block _ _ _ _ => "Block"
  | .component _ _ _ _ => "Component"
  | .openElement _ => "OpenElement"
  | .openElementWithSplat _ => "OpenElementWithSplat"
  | .flushElement => "FlushElement"
  | .closeElement => "CloseElement"
  | .attr _ _ _ _ => "Attr"
  | .staticArg _ _ => "StaticArg"
  | .dynamicArg _ _ => "DynamicArg"
  | .attrSplat _ => "AttrSplat"
  | .yield _ _ => "Yield"
  | .partialTemplate _ _ => "Partial"
  | .debugger _ => "Debugger"
  | .inElement _ _ _ _ => "InElement"

/-- Whether a statement belongs between the opening of an element and its content. -/
def isAttribute : Statement → Bool
  | .attr _ _ _ _ | .attrSplat _ | .modifier _ _ _ => true
  | _ => false

/-- The name and the value of an argument. -/
def arg? : Statement → Option (String × Expression)
  | .staticArg name value | .dynamicArg name value => some (name, value)
  | _ => none

end Statement

end Wire

/-- A template ready for the runtime. -/
structure CompiledTemplate where
  symbols : List String
  upvars : List String
  hasEval : Bool
  statements : List Wire.Statement

end TemplateCompiler

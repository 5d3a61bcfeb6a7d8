import TemplateCompiler.Double.Basic
import TemplateCompiler.Span

/-!
Component templates as a parser delivers them: text, mustaches, blocks and elements, each with the
span it was read from. Nothing here is checked; a tree may hold shapes that no parser would deliver.

A path may be written as one dotted text. A leading `this` or `@` is taken off; everything else is
kept as the parts between the dots, empty ones too.
-/

namespace TemplateCompiler

inductive Literal where
  | string (value : String)
  | boolean (value : Bool)
  | number (value : Double)
  | null
  | undefined
deriving DecidableEq

namespace Template

/-- A dotted name. It starts at `this`, at an argument, or at a variable, and goes on with its
parts; `written` is how it stands in the source. -/
structure Path where
  written : String
  isThis : Bool
  isArg : Bool
  parts : List String
  loc : Span
deriving DecidableEq

/-- Just one name, which is neither `this` nor an argument. -/
def Path.isSimple (p : Path) : Bool :=
  !p.isThis && !p.isArg && p.parts.length == 1

/-- The text before the first dot, and the texts after each dot. -/
def splitDots : List Char → List Char × List (List Char)
  | [] => ([], [])
  | c :: rest =>
    let (first, others) := splitDots rest
    if c = '.' then ([], first :: others) else (c :: first, others)

/-- The text before the first dot. -/
def headSegment (text : String) : String := String.ofList (splitDots text.toList).1

def Path.ofText (loc : Span) (text : String) : Path :=
  let (first, others) := splitDots text.toList
  let parts := others.map String.ofList
  if String.ofList first = "this" then ⟨text, true, false, parts, loc⟩
  else
    match first with
    | '@' :: name => ⟨text, false, true, String.ofList name :: parts, loc⟩
    | _ => ⟨text, false, false, String.ofList first :: parts, loc⟩

structure Pair (α : Type) where
  key : String
  value : α
  loc : Span

structure Hash (α : Type) where
  pairs : List (Pair α)
  loc : Span

def Hash.empty {α : Type} : Hash α := ⟨[], .synthetic⟩

def Hash.isEmpty {α : Type} (h : Hash α) : Bool := h.pairs.isEmpty

inductive Expression where
  | path (path : Path)
  /-- A helper called on arguments, in parentheses. -/
  | call (callee : Path) (params : List Expression) (hash : Hash Expression) (loc : Span)
  | literal (value : Literal) (loc : Span)

namespace Expression

def loc : Expression → Span
  | .path p => p.loc
  | .call _ _ _ loc => loc
  | .literal _ loc => loc

def literal? : Expression → Option Literal
  | .literal value _ => some value
  | _ => none

end Expression

/-- An expression between double or triple curly braces. -/
structure Mustache where
  path : Expression
  params : List Expression
  hash : Hash Expression
  trusting : Bool
  loc : Span

structure TextNode where
  chars : String
  loc : Span

structure CommentNode where
  value : String
  loc : Span

/-- A piece of an attribute value made of several. -/
inductive ConcatPart where
  | text (node : TextNode)
  | mustache (node : Mustache)

inductive AttributeValue where
  | text (node : TextNode)
  | mustache (node : Mustache)
  | concat (parts : List ConcatPart) (loc : Span)

structure Attribute where
  name : String
  value : AttributeValue
  loc : Span

/-- A mustache among the attributes of an element. -/
structure Modifier where
  path : Path
  params : List Expression
  hash : Hash Expression
  loc : Span

/-- Statements that may use names of their own. -/
structure Block (σ : Type) where
  body : List σ
  params : List String
  loc : Span

/-- A block with a head: `#if`, `#each` and the like. -/
structure BlockNode (σ : Type) where
  path : Path
  params : List Expression
  hash : Hash Expression
  program : Block σ
  inverse : Option (Block σ)
  loc : Span

structure Element (σ : Type) where
  tag : String
  attributes : List Attribute
  modifiers : List Modifier
  children : List σ
  blockParams : List String
  selfClosing : Bool
  loc : Span

inductive Statement where
  | mustache (node : Mustache)
  | block (node : BlockNode Statement)
  | element (node : Element Statement)
  | text (node : TextNode)
  | comment (node : CommentNode)
  /-- A comment that leaves no trace in the output. -/
  | mustacheComment (node : CommentNode)

def Statement.loc : Statement → Span
  | .mustache node => node.loc
  | .block node => node.loc
  | .element node => node.loc
  | .text node => node.loc
  | .comment node => node.loc
  | .mustacheComment node => node.loc

end Template

structure Template where
  body : List Template.Statement
  loc : Span

end TemplateCompiler

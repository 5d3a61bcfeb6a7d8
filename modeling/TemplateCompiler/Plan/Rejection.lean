import TemplateCompiler.Defect
import TemplateCompiler.Diagnostic.Basic
import TemplateCompiler.Template.Basic

/-!
Why a template is rejected, and how its author is told. Compiling can also end without a result by a
fault of its own.
-/

namespace TemplateCompiler

namespace Plan

/-- A mistake in a template. Each comes with the span that it is reported at. -/
inductive Rejection where
  | invalidPath (written : String) (span : Span)
  | invalidHelperName (written : String) (span : Span)
  /-- A block test such as `has-block` with named arguments. -/
  | testNamedArguments (keyword : String) (span : Span)
  | testArity (keyword : String) (span : Span)
  | testTargetNotLiteral (line : Nat) (span : Span)
  | yieldNamedArguments (span : Span)
  | yieldTargetNotLiteral (span : Span)
  | partialWithoutName (span : Span)
  | partialArity (count : Nat) (span : Span)
  | partialNamedArguments (span : Span)
  | partialTrusting (span : Span)
  | debuggerNamedArguments (span : Span)
  | debuggerPositionalArguments (span : Span)
  | inElementArity (span : Span)
  | inElementGuid (span : Span)
  | inElementKey (key : String) (span : Span)
  | inElementInverse (span : Span)
  | strayNamedBlock (tag : String) (span : Span)
  | selfClosingChildren (tag : String) (span : Span)
  | elementBlockParams (tag : String) (span : Span)
  | argumentOnElement (name tag : String) (span : Span)
  | contentBesideNamedBlocks (tag : String) (span : Span)
  | namedBlockAttributes (tag : String) (span : Span)
deriving DecidableEq

namespace Rejection

def span : Rejection → Span
  | .invalidPath _ s | .invalidHelperName _ s | .testNamedArguments _ s | .testArity _ s
  | .testTargetNotLiteral _ s | .yieldNamedArguments s | .yieldTargetNotLiteral s
  | .partialWithoutName s | .partialArity _ s | .partialNamedArguments s | .partialTrusting s
  | .debuggerNamedArguments s | .debuggerPositionalArguments s | .inElementArity s
  | .inElementGuid s | .inElementKey _ s | .inElementInverse s | .strayNamedBlock _ s
  | .selfClosingChildren _ s | .elementBlockParams _ s | .argumentOnElement _ _ s
  | .contentBesideNamedBlocks _ s | .namedBlockAttributes _ s => s

def inCurlies (text : String) : String := "\x7b\x7b" ++ text ++ "\x7d\x7d"

def inElementName : String := "`" ++ inCurlies "#in-element" ++ "`"

def onLine (line : Nat) : String := s!" (on line {line})"

def message (r : Rejection) : String :=
  let line := r.span.line
  match r with
  | .invalidPath written _ => s!"`{written}` is not a valid path" ++ onLine line
  | .invalidHelperName written _ =>
    s!"`{written}` is not a valid name for a helper on line {line}."
  | .testNamedArguments keyword _ => s!"{keyword} does not take any named arguments"
  | .testArity keyword _ => s!"{keyword} only takes a single positional argument" ++ onLine line
  | .testTargetNotLiteral testLine _ =>
    "you can only yield to a literal value" ++ onLine testLine
  | .yieldNamedArguments _ => "yield only takes a single named argument: 'to'"
  | .yieldTargetNotLiteral _ => "you can only yield to a literal value"
  | .partialWithoutName _ =>
    "Partial found with no arguments. You must specify a template name." ++ onLine line
  | .partialArity count _ =>
    s!"Partial found with {count} arguments. You must specify a template name." ++ onLine line
  | .partialNamedArguments _ => "Partial does not take any named arguments" ++ onLine line
  | .partialTrusting _ =>
    "\x7b" ++ inCurlies "partial ..." ++ "\x7d is not supported, please use " ++
      inCurlies "partial ..." ++ " instead" ++ onLine line
  | .debuggerNamedArguments _ => "debugger does not take any named arguments"
  | .debuggerPositionalArguments _ => "debugger does not take any positional arguments"
  | .inElementArity _ =>
    inElementName ++ " takes a single positional argument, the destination element" ++ onLine line
  | .inElementGuid _ => "Cannot pass `guid` to " ++ inElementName ++ s!" on line {line}."
  | .inElementKey key _ => s!"Cannot pass `{key}` to " ++ inElementName ++ s!" on line {line}."
  | .inElementInverse _ =>
    inElementName ++ " does not take an `" ++ inCurlies "else" ++ "` block" ++ onLine line
  | .strayNamedBlock tag _ =>
    s!"Unexpected named block <{tag}> outside of a component invocation" ++ onLine line
  | .selfClosingChildren tag _ =>
    s!"<{tag} /> is self-closing and cannot have children" ++ onLine line
  | .elementBlockParams tag _ =>
    s!"Unexpected block params in <{tag}>: simple elements cannot have block params" ++ onLine line
  | .argumentOnElement name tag _ =>
    s!"{name} is not a valid attribute name. @arguments are only allowed on components, " ++
      s!"but the tag for this element (`{tag}`) is a regular, non-component HTML element."
  | .contentBesideNamedBlocks tag _ =>
    s!"Unexpected content inside <{tag}> component invocation: when using named blocks, " ++
      "the tag cannot contain other content" ++ onLine line
  | .namedBlockAttributes tag _ =>
    s!"named block <{tag}> cannot have attributes, arguments, or modifiers" ++ onLine line

def diagnostic (r : Rejection) : Diagnostic := .ofSpan r.span r.message

end Rejection

end Plan

/-- Why there is no compiled template. -/
inductive Failure where
  /-- The template has a mistake. -/
  | rejected (r : Plan.Rejection)
  /-- The compiler has one. -/
  | defective (d : Defect)
deriving DecidableEq

end TemplateCompiler

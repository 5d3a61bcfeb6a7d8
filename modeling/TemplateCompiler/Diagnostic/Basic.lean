import TemplateCompiler.Span

/-!
Messages for the author of a template, with the places in the source that they are about.
-/

namespace TemplateCompiler

namespace Diagnostic

/-- Whether a label marks the cause of a message or something beside it. -/
inductive Style where
  | primary
  | secondary
deriving DecidableEq

/-- A place in the source, and what is to be said there. -/
structure Label where
  style : Style
  span : Span
  message : String
deriving DecidableEq

end Diagnostic

structure Diagnostic where
  message : String
  labels : List Diagnostic.Label
deriving DecidableEq

namespace Diagnostic

def ofSpan (span : Span) (message : String) : Diagnostic := ⟨message, [⟨.primary, span, ""⟩]⟩

def primarySpan? (d : Diagnostic) : Option Span :=
  (d.labels.find? fun label => label.style = .primary).map Label.span

/-- The message on one line, followed by its position if it has one. -/
def summary (d : Diagnostic) : String :=
  match d.primarySpan? with
  | some span =>
    if span.isSynthetic then d.message
    else s!"{d.message} ({span.start.line}:{span.start.column})"
  | none => d.message

def ranges (d : Diagnostic) (source : String) : List (Nat × Nat) :=
  d.labels.map fun label => label.span.range source.toList

end Diagnostic

end TemplateCompiler

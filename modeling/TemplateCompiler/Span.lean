import TemplateCompiler.Text.Width

/-!
Places in a source text. A position counts lines from one and characters within a line from zero; a
span goes from one position to another. Positions that the text does not have are moved to the end
of their line, or of the text.
-/

namespace TemplateCompiler

structure Position where
  line : Nat
  column : Nat
deriving DecidableEq, Inhabited

namespace Position

/-- Positions in reading order. -/
def before (a b : Position) : Bool :=
  a.line < b.line || a.line == b.line && a.column < b.column

def earlier (a b : Position) : Position := if b.before a then b else a

def later (a b : Position) : Position := if a.before b then b else a

end Position

/-- Drops so many lines: the bytes that they take, and the text after them. -/
def skipLines : Nat → List Char → Option (Nat × List Char)
  | 0, cs => some (0, cs)
  | _ + 1, [] => none
  | n + 1, c :: rest =>
    (skipLines (if c = '\n' then n else n + 1) rest).map fun (bytes, rest) =>
      (c.utf8Size + bytes, rest)

/-- The bytes that so many characters of the first line take. -/
def columnBytes : Nat → List Char → Nat
  | 0, _ => 0
  | _ + 1, [] => 0
  | n + 1, c :: rest => if c = '\n' then 0 else c.utf8Size + columnBytes n rest

/-- The byte at which a position stands. -/
def Position.byteOffset (source : List Char) (p : Position) : Nat :=
  if p.line = 0 then 0
  else
    match skipLines (p.line - 1) source with
    | none => Text.byteCount source
    | some (bytes, rest) => bytes + columnBytes p.column rest

structure Span where
  start : Position
  stop : Position
deriving DecidableEq, Inhabited

namespace Span

/-- The span of what was not written in any source. -/
def synthetic : Span := ⟨⟨0, 0⟩, ⟨0, 0⟩⟩

def isSynthetic (s : Span) : Bool := s == synthetic

def line (s : Span) : Nat := s.start.line

/-- The least span that covers two; a synthetic one covers nothing. -/
def merge (a b : Span) : Span :=
  if a.isSynthetic then b
  else if b.isSynthetic then a
  else ⟨a.start.earlier b.start, a.stop.later b.stop⟩

/-- The first byte of a span and the byte after its last. -/
def range (source : List Char) (s : Span) : Nat × Nat :=
  let start := s.start.byteOffset source
  (start, max (s.stop.byteOffset source) start)

/-- The text that a span covers. -/
def slice (source : String) (s : Span) : String :=
  let (start, stop) := s.range source.toList
  String.ofList (Text.takeBytes (stop - start) (Text.dropBytes start source.toList))

end Span

/-- Something together with the span it comes from. -/
structure Located (α : Type) where
  value : α
  span : Span

end TemplateCompiler

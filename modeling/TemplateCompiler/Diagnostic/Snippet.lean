import TemplateCompiler.Text.Classes
import TemplateCompiler.Text.Width
import TemplateCompiler.Diagnostic.Basic

/-!
A diagnostic shown against its source. Lines that a label starts or ends on are shown with their
numbers; carets under a line mark a label that stays on it, and a border on the left holds together
the lines of one that does not. Long stretches without a label are left out.
-/

namespace TemplateCompiler.Diagnostic

/-! ### Source lines -/

/-- A line of the source, with the byte it starts at. -/
structure Line where
  start : Nat
  chars : List Char

/-- Splits a text into lines; the text after the last newline is a line too. -/
def linesFrom (start : Nat) (current : List Char) : List Char → List Line
  | [] => [⟨start, current⟩]
  | c :: rest =>
    if c = '\n' then
      ⟨start, current⟩ :: linesFrom (start + Text.byteCount current + 1) [] rest
    else linesFrom start (current ++ [c]) rest

def lines (source : String) : List Line := linesFrom 0 [] source.toList

/-- The index of the line that a byte is on. -/
def lineIndex (all : List Line) (byte : Nat) : Nat :=
  (all.takeWhile fun line => line.start ≤ byte).length - 1

/-- What is shown of a line: carriage returns and NULs at its end are not. -/
def Line.shown (line : Line) : List Char :=
  (line.chars.reverse.dropWhile fun c => c = '\r' || c.toNat = 0).reverse

/-- A character with its byte within the line and its number of columns. -/
structure Cell where
  byte : Nat
  columns : Nat
  char : Char

def tabWidth : Nat := 4

/-- Lays out characters from a byte and a column on. -/
def cells (byte column : Nat) : List Char → List Cell
  | [] => []
  | c :: rest =>
    let columns := if c = '\t' then tabWidth - column % tabWidth else Text.width c
    ⟨byte, columns, c⟩ :: cells (byte + c.utf8Size) (column + columns) rest

/-- A cell as it is shown: a tab fills its columns with blanks. -/
def Cell.text (cell : Cell) : List Char :=
  if cell.char = '\t' then List.replicate cell.columns ' ' else [cell.char]

/-! ### Labels on lines -/

/-- A label that stays on one line, from one byte of it to another. -/
structure Mark where
  style : Style
  start : Nat
  stop : Nat
  message : String

/-- The lines of a label that covers several. -/
structure Bracket where
  style : Style
  startLine : Nat
  start : Nat
  stopLine : Nat
  stop : Nat
  message : String

/-- What a bracket shows at the left of a line: its start, its side or its end. -/
inductive Border where
  | none
  | top
  | side
  | bottom
deriving DecidableEq

def Bracket.border (b : Bracket) (index : Nat) : Border :=
  if index = b.startLine then .top
  else if index = b.stopLine then .bottom
  else if b.startLine < index && index < b.stopLine then .side
  else .none

/-- Lines of a bracket that are shown: its ends, three after the start, and one before the end. -/
def Bracket.shows (b : Bracket) (index : Nat) : Bool :=
  match b.border index with
  | .none => false
  | .side => index - b.startLine ≤ 3 || b.stopLine - index ≤ 1
  | _ => true

/-- A diagnostic laid out on its source. -/
structure Snippet where
  source : List Line
  marks : List (Nat × Mark)
  bracket : Option Bracket
  /-- The columns that line numbers take. -/
  digits : Nat

namespace Snippet

def caret : Style → Char
  | .primary => '^'
  | .secondary => '-'

def bracketEnd : Style → Char
  | .primary => '^'
  | .secondary => Char.ofNat 39

def marksOn (s : Snippet) (index : Nat) : List Mark :=
  (s.marks.filter fun mark => mark.1 == index).map Prod.snd

def lineAt (s : Snippet) (index : Nat) : List Char :=
  match s.source[index]? with
  | some line => line.shown
  | none => []

/-- The bytes of white space that a line starts with. -/
def indent (cs : List Char) : Nat := Text.byteCount (cs.takeWhile Text.isBlank)

/-- Whether a bracket can start in front of its first line's text. -/
def startsInFront (s : Snippet) (b : Bracket) : Bool :=
  b.start ≤ indent (s.lineAt b.startLine)

def margin (s : Snippet) (bar : Char) : List Char :=
  List.replicate (s.digits + 1) ' ' ++ [bar]

def numberedMargin (s : Snippet) (index : Nat) : List Char :=
  let number := (toString (index + 1)).toList
  List.replicate (s.digits - number.length) ' ' ++ number ++ [' ', '│']

/-- The border beside a line's carets or beside lines left out. -/
def border (s : Snippet) (index : Nat) : List Char :=
  match s.bracket with
  | none => []
  | some b =>
    match b.border index with
    | .side | .bottom => [' ', '│']
    | .top | .none => [' ', ' ']

/-- The border beside the text of a line. -/
def textBorder (s : Snippet) (index : Nat) : List Char :=
  match s.bracket with
  | none => []
  | some b =>
    if b.border index = .top && s.startsInFront b then [' ', '╭'] else s.border index

def trailing (message : String) : List Char :=
  if message.isEmpty then [] else ' ' :: message.toList

/-- The carets under a line: over the columns of each mark, and just past the end of the line. -/
def carets (marks : List Mark) (line : List Char) : List Char :=
  let past : Cell := ⟨Text.byteCount line, 1, ' '⟩
  (cells 0 0 line ++ [past]).flatMap fun cell =>
    let here := marks.filter fun mark =>
      max mark.start cell.byte < min mark.stop (cell.byte + cell.char.utf8Size)
    let sign : Option Char :=
      if here.any (·.style = .primary) then some (caret .primary)
      else if !here.isEmpty then some (caret .secondary)
      else if marks.any fun mark => cell.byte < mark.stop then some ' '
      else none
    match sign with
    | some c => List.replicate cell.columns c
    | none => []

/-- The line of carets with the message of the last mark. -/
def caretRow (s : Snippet) (index : Nat) : List (List Char) :=
  match s.marksOn index with
  | [] => []
  | mark :: rest =>
    [s.margin '│' ++ s.border index ++ [' '] ++ carets (mark :: rest) (s.lineAt index) ++
      trailing ((mark :: rest).getLast (by simp)).message]

/-- As many dashes as the columns of the characters that start before a byte. -/
def dashes (line : List Char) (byte : Nat) : List Char :=
  ((cells 0 0 line).takeWhile fun cell => cell.byte < byte).flatMap fun cell =>
    List.replicate cell.columns '─'

/-- The line that leads from a bracket's border to its first or last character. -/
def bracketRow (s : Snippet) (index : Nat) : List (List Char) :=
  match s.bracket with
  | none => []
  | some b =>
    match b.border index with
    | .top =>
      if s.startsInFront b then []
      else
        [s.margin '│' ++ [' ', '╭'] ++ dashes (s.lineAt index) (b.start + 1) ++
          [bracketEnd b.style]]
    | .bottom =>
      [s.margin '│' ++ [' ', '╰'] ++ dashes (s.lineAt index) b.stop ++ [bracketEnd b.style] ++
        trailing b.message]
    | .side | .none => []

def textRow (s : Snippet) (index : Nat) : List Char :=
  s.numberedMargin index ++ s.textBorder index ++
    ' ' :: (cells 0 0 (s.lineAt index)).flatMap Cell.text

def lineRows (s : Snippet) (index : Nat) : List (List Char) :=
  s.textRow index :: s.caretRow index ++ s.bracketRow index

/-- Whether a line is shown for a label's sake. -/
def shows (s : Snippet) (index : Nat) : Bool :=
  !(s.marksOn index).isEmpty || s.bracket.any fun b => b.shows index

/-- The rows of lines in ascending order. One line between two of them is shown after all, and more
are left out. -/
def rows (s : Snippet) : List Nat → List (List Char)
  | [] => []
  | [index] => s.lineRows index
  | index :: next :: rest =>
    s.lineRows index ++
      (if next = index + 2 then [s.textRow (index + 1)]
      else if index + 2 < next then [s.margin '·' ++ s.border index]
      else []) ++
      rows s (next :: rest)

end Snippet

/-- A label as a mark or a bracket, by the lines that its bytes are on. -/
def place (all : List Line) (source : List Char) (label : Label) : (Nat × Mark) ⊕ Bracket :=
  let (start, stop) := label.span.range source
  let startLine := lineIndex all start
  let stopLine := lineIndex all stop
  let startByte := start - ((all[startLine]?).map Line.start).getD 0
  let stopByte := stop - ((all[stopLine]?).map Line.start).getD 0
  if startLine = stopLine then
    .inl (startLine, ⟨label.style, startByte, max stopByte (startByte + 1), label.message⟩)
  else .inr ⟨label.style, startLine, startByte, stopLine, stopByte, label.message⟩

/-- The label that heads a snippet: one that marks the cause if there is one, then the earliest. -/
def headLabel? (source : List Char) (labels : List Label) : Option Label :=
  labels.foldl (fun best label =>
    match best with
    | none => some label
    | some b =>
      if b.style = .secondary && label.style = .primary then some label
      else if b.style = label.style && (label.span.range source).1 < (b.span.range source).1 then
        some label
      else some b) none

/-- The name, line and column in the head of a snippet. The column counts characters from one. -/
def locus (name : String) (all : List Line) (source : List Char) (label : Label) : List Char :=
  let start := (label.span.range source).1
  let index := lineIndex all start
  match all[index]? with
  | none => name.toList
  | some line =>
    let column := (Text.takeBytes (start - line.start) line.chars).length
    s!"{name}:{index + 1}:{column + 1}".toList

def snippetRows (d : Diagnostic) (name source : String) : List (List Char) :=
  let chars := source.toList
  let all := lines source
  match headLabel? chars d.labels with
  | none => []
  | some head =>
    let placed := d.labels.map (place all chars)
    let marks := placed.filterMap Sum.getLeft?
    let brackets := placed.filterMap Sum.getRight?
    let ends := marks.map Prod.fst ++ brackets.map Bracket.startLine ++ brackets.map Bracket.stopLine
    let last := ends.foldl max 0
    let snippet : Snippet :=
      ⟨all, marks, brackets.head?, (toString (last + 1)).length⟩
    let indices := (List.range (last + 1)).filter snippet.shows
    let corner := List.replicate (snippet.digits + 1) ' ' ++ ['┌', '─', ' ']
    (corner ++ locus name all chars head) ::
      (snippet.margin '│' ++ (if snippet.bracket.isSome then [' ', ' '] else [])) ::
      snippet.rows indices

/-- The message with its snippet, ending in an empty line. -/
def render (d : Diagnostic) (name source : String) : String :=
  let rows := ("error: " ++ d.message).toList :: d.snippetRows name source ++ [[]]
  String.ofList (rows.flatMap fun row => row ++ ['\n'])

end TemplateCompiler.Diagnostic

import TemplateCompiler.Double.Decimal
import TemplateCompiler.Json.Basic
import TemplateCompiler.Text.Width

/-!
Reading JSON text. A text is read once, from left to right, into a `Draft`: the tree it shows, up to
the place where it breaks. A reader of drafts can therefore complain about what stands before the
break, as it would if it read the text itself.

Some parts can be skipped but not be used: a number too large for a double, a string with half of a
surrogate pair, an object with such a key, and whatever is nested more than 127 deep.
-/

namespace TemplateCompiler.Json

/-- Why a text is not JSON: something stands where it may not, or the text ends too early. -/
inductive Fault where
  | malformed
  | truncated
deriving DecidableEq

/-- What is wrong with a part for one who uses it, and for one who skips it, who may find nothing. -/
structure Flaw where
  used : Fault
  skipped : Option Fault

namespace Flaw

/-- A break of the text, the same to all. -/
def ofFault (fault : Fault) : Flaw := ⟨fault, some fault⟩

end Flaw

/-- What a text shows. `stop` tells what is wrong after the last part of an array or object, and is
empty if it is closed there. -/
inductive Draft where
  | null
  | bool (value : Bool)
  | number (value : Number)
  | string (value : String)
  | array (items : List Draft) (stop : Option Flaw)
  | object (members : List (String × Draft)) (stop : Option Flaw)
  /-- No value to use. -/
  | flawed (flaw : Flaw)

namespace Draft

/-- The text breaks before the value is complete. -/
def cut (fault : Fault) : Draft := .flawed (.ofFault fault)

/-- Fit to be skipped only, up to a break inside. -/
def refused (inside : Option Fault) : Draft := .flawed ⟨.malformed, inside⟩

/-- How deep a usable text is nested. -/
def maxDepth : Nat := 127

def isBlank (c : Char) : Bool := c = ' ' || c = '\n' || c = '\t' || c = '\r'

def isDigit (c : Char) : Bool := '0' ≤ c && c ≤ '9'

def skipBlanks (cs : List Char) : List Char := cs.dropWhile isBlank

/-! ### Strings -/

def hexDigit? (c : Char) : Option Nat :=
  if isDigit c then some (c.toNat - 48)
  else if 'a' ≤ c && c ≤ 'f' then some (c.toNat - 87)
  else if 'A' ≤ c && c ≤ 'F' then some (c.toNat - 55)
  else none

/-- Four hexadecimal digits, and what follows. If there are none, four bytes tell whether the text
is wrong or too short. -/
def hexWord (cs : List Char) : Except Fault (Nat × List Char) :=
  match (cs.take 4).mapM hexDigit? with
  | some [a, b, c, d] => .ok (((a * 16 + b) * 16 + c) * 16 + d, cs.drop 4)
  | _ => .error (if Text.byteCount cs < 4 then .truncated else .malformed)

def isLeadingSurrogate (n : Nat) : Bool := 0xd800 ≤ n && n ≤ 0xdbff

def isTrailingSurrogate (n : Nat) : Bool := 0xdc00 ≤ n && n ≤ 0xdfff

/-- The second half of a surrogate pair; without one there is no character. -/
def pairedEscape (leading : Nat) (cs : List Char) : Except Fault (Option Char × List Char) :=
  match cs with
  | [] => .error .truncated
  | ['\\'] => .error .truncated
  | '\\' :: 'u' :: rest => do
    let (trailing, rest) ← hexWord rest
    if isTrailingSurrogate trailing then
      pure (some (Char.ofNat ((leading - 0xd800) * 0x400 + (trailing - 0xdc00) + 0x10000)), rest)
    else
      pure (none, rest)
  | _ => .ok (none, cs)

/-- What stands after a backslash: a character, or half of one, and what follows. -/
def unescape : List Char → Except Fault (Option Char × List Char)
  | [] => .error .truncated
  | 'u' :: rest => do
    let (unit, rest) ← hexWord rest
    if isTrailingSurrogate unit then pure (none, rest)
    else if isLeadingSurrogate unit then pairedEscape unit rest
    else pure (some (Char.ofNat unit), rest)
  | c :: rest =>
    if c = '"' || c = '\\' || c = '/' then .ok (some c, rest)
    else if c = 'n' then .ok (some '\n', rest)
    else if c = 'r' then .ok (some '\r', rest)
    else if c = 't' then .ok (some '\t', rest)
    else if c = 'b' then .ok (some (Char.ofNat 8), rest)
    else if c = 'f' then .ok (some (Char.ofNat 12), rest)
    else .error .malformed

/-- A string up to its closing quote: its characters, whether all surrogates were paired, and what
follows. -/
structure Scan where
  text : List Char
  paired : Bool
  ending : Except Fault (List Char)

/-- Reads a string after its opening quote, with one unit of fuel for a character. -/
def scan : Nat → List Char → Scan
  | 0, _ => ⟨[], true, .error .truncated⟩
  | _ + 1, [] => ⟨[], true, .error .truncated⟩
  | fuel + 1, c :: rest =>
    if c = '"' then ⟨[], true, .ok rest⟩
    else if c = '\\' then
      match unescape rest with
      | .error fault => ⟨[], true, .error fault⟩
      | .ok (some c, rest) => let tail := scan fuel rest; ⟨c :: tail.text, tail.paired, tail.ending⟩
      | .ok (none, rest) => let tail := scan fuel rest; ⟨tail.text, false, tail.ending⟩
    else if c.toNat < 32 then ⟨[], true, .error .malformed⟩
    else let tail := scan fuel rest; ⟨c :: tail.text, tail.paired, tail.ending⟩

/-! ### Numbers -/

/-- Numbers below this are kept exactly. -/
def wordLimit : Nat := Nat.pow 2 64

def digitsValue (digits : List Char) : Nat :=
  digits.foldl (fun n c => n * 10 + (c.toNat - 48)) 0

/-- The longest run of leading digits that, put behind `start`, stays below the word limit: its
value, and how many digits it has. -/
def fitting (start : Nat) : List Char → Nat × Nat
  | [] => (start, 0)
  | c :: rest =>
    let next := start * 10 + (c.toNat - 48)
    if next < wordLimit then
      let (value, count) := fitting next rest
      (value, count + 1)
    else (start, 0)

/-- A number with a fraction or an exponent, or one too long for a word. Digits beyond a word's
worth count for their place only. -/
def scaled? (whole fraction : List Char) (exponent : Int) : Option Double :=
  let (value, kept) := fitting 0 whole
  let (value, places) := fitting value fraction
  Double.ofDecimal ⟨value, (whole.length - kept : Nat) - (places : Int) + exponent⟩

/-- A whole number: exact if it fits a signed or unsigned word, but zero with a sign is a double. -/
def whole? (negative : Bool) (digits : List Char) : Option Number :=
  let n := digitsValue digits
  if !negative && n < wordLimit then some (.whole n)
  else if negative && 0 < n && n ≤ Nat.pow 2 63 then some (.whole (-n))
  else (scaled? digits [] 0).map fun d => .double (if negative then d.negate else d)

/-- The digits after a point or an exponent mark. There must be one. -/
def someDigits (cs : List Char) : Except Fault (List Char × List Char) :=
  let digits := cs.takeWhile isDigit
  let rest := cs.dropWhile isDigit
  if digits.isEmpty then .error (if rest.isEmpty then .truncated else .malformed)
  else .ok (digits, rest)

def scanFraction : List Char → Except Fault (Option (List Char) × List Char)
  | '.' :: rest => do
    let (digits, rest) ← someDigits rest
    pure (some digits, rest)
  | cs => .ok (none, cs)

def scanExponent : List Char → Except Fault (Option Int × List Char)
  | c :: rest =>
    if c = 'e' || c = 'E' then do
      let negative := rest.head? == some '-'
      let rest := if negative || rest.head? == some '+' then rest.drop 1 else rest
      let (digits, rest) ← someDigits rest
      let size : Int := digitsValue digits
      pure (some (if negative then -size else size), rest)
    else .ok (none, c :: rest)
  | [] => .ok (none, [])

/-- Reads a number; a number too large for a double is no number. -/
def scanNumber (cs : List Char) : Except Fault (Option Number × List Char) := do
  let negative := cs.head? == some '-'
  let cs := if negative then cs.drop 1 else cs
  let (whole, rest) ← someDigits cs
  if whole.head? == some '0' && 1 < whole.length then .error .malformed
  else
    let (fraction, rest) ← scanFraction rest
    let (exponent, rest) ← scanExponent rest
    match fraction, exponent with
    | none, none => pure (whole? negative whole, rest)
    | _, _ =>
      let value := scaled? whole (fraction.getD []) (exponent.getD 0)
      pure (value.map fun d => .double (if negative then d.negate else d), rest)

/-! ### Values -/

mutual

/-- The break that skipping a part would come to. -/
def breakInside : Draft → Option Fault
  | .array items stop => (breakInItems items).or (stop.bind Flaw.skipped)
  | .object members stop => (breakInMembers members).or (stop.bind Flaw.skipped)
  | .flawed flaw => flaw.skipped
  | _ => none

def breakInItems : List Draft → Option Fault
  | [] => none
  | item :: rest => item.breakInside.or (breakInItems rest)

def breakInMembers : List (String × Draft) → Option Fault
  | [] => none
  | (_, value) :: rest => value.breakInside.or (breakInMembers rest)

end

/-- The rest of a literal name after its first letter. -/
def readWord (expected : List Char) (value : Draft) (cs : List Char) :
    Draft × Option (List Char) :=
  match expected, cs with
  | [], cs => (value, some cs)
  | _ :: _, [] => (.cut .truncated, none)
  | e :: es, c :: rest => if e = c then readWord es value rest else (.cut .malformed, none)

def readString (cs : List Char) : Draft × Option (List Char) :=
  let s := scan (cs.length + 1) cs
  match s.ending with
  | .ok rest => (if s.paired then .string (String.ofList s.text) else .refused none, some rest)
  | .error fault => (if s.paired then .cut fault else .refused (some fault), none)

/-- Reads a number at its first character. Who skips it does not tell a number that ends too early
from a wrong one. -/
def readNumber (cs : List Char) : Draft × Option (List Char) :=
  match scanNumber cs with
  | .ok (some n, rest) => (.number n, some rest)
  | .ok (none, rest) => (.refused none, some rest)
  | .error fault => (.flawed ⟨fault, some .malformed⟩, none)

/-- What follows the colon between a key and its value. -/
def skipColon (cs : List Char) : Except Fault (List Char) :=
  match skipBlanks cs with
  | [] => .error .truncated
  | ':' :: rest => .ok rest
  | _ => .error .malformed

/-- What an array or object shows, how it breaks off, and what follows if it does not. -/
structure Parts (α : Type) where
  parts : List α
  stop : Option Flaw
  rest : Option (List Char)

namespace Parts

variable {α : Type}

def closed (rest : List Char) : Parts α := ⟨[], none, some rest⟩

def broken (fault : Fault) : Parts α := ⟨[], some (.ofFault fault), none⟩

/-- A part that itself breaks the text. -/
def last (part : α) (fault : Fault) : Parts α := ⟨[part], some (.ofFault fault), none⟩

def cons (part : α) (tail : Parts α) : Parts α := ⟨part :: tail.parts, tail.stop, tail.rest⟩

/-- Members that can only be skipped, up to a break inside. -/
def refused (members : Parts (String × Draft)) : Parts (String × Draft) :=
  ⟨[], some ⟨.malformed, breakInside (.object members.parts members.stop)⟩, members.rest⟩

end Parts

mutual

/-- Reads a value, with `room` for that many levels of nesting. Three units of fuel for a
character are enough. -/
def read : Nat → Nat → List Char → Draft × Option (List Char)
  | 0, _, _ => (.cut .truncated, none)
  | fuel + 1, room, cs =>
    match skipBlanks cs with
    | [] => (.cut .truncated, none)
    | c :: rest =>
      if c = 'n' then readWord ['u', 'l', 'l'] .null rest
      else if c = 't' then readWord ['r', 'u', 'e'] (.bool true) rest
      else if c = 'f' then readWord ['a', 'l', 's', 'e'] (.bool false) rest
      else if c = '"' then readString rest
      else if c = '[' then
        let inner := readItems fuel (room - 1) true rest
        let array := .array inner.parts inner.stop
        (if room = 0 then .refused array.breakInside else array, inner.rest)
      else if c = '\x7b' then
        let inner := readMembers fuel (room - 1) true rest
        let object := .object inner.parts inner.stop
        (if room = 0 then .refused object.breakInside else object, inner.rest)
      else if c = '-' || isDigit c then readNumber (c :: rest)
      else (.cut .malformed, none)
termination_by structural fuel _ _ => fuel


/-- Reads the items of an array, before the first or after another. -/
def readItems : Nat → Nat → Bool → List Char → Parts Draft
  | 0, _, _, _ => .broken .truncated
  | fuel + 1, room, first, cs =>
    match skipBlanks cs with
    | [] => .broken .truncated
    | c :: rest =>
      if c = ']' then .closed rest
      else if first then readItem fuel room (c :: rest)
      else if c = ',' then
        match skipBlanks rest with
        | [] => .last (.cut .truncated) .truncated
        | c :: rest =>
          if c = ']' then .last (.cut .malformed) .malformed else readItem fuel room (c :: rest)
      else .broken .malformed
termination_by structural fuel _ _ _ => fuel


def readItem : Nat → Nat → List Char → Parts Draft
  | 0, _, _ => .broken .truncated
  | fuel + 1, room, cs =>
    match read fuel room cs with
    | (item, none) => .last item .truncated
    | (item, some rest) => .cons item (readItems fuel room false rest)
termination_by structural fuel _ _ => fuel


/-- Reads the members of an object, before the first or after another. -/
def readMembers : Nat → Nat → Bool → List Char → Parts (String × Draft)
  | 0, _, _, _ => .broken .truncated
  | fuel + 1, room, first, cs =>
    match skipBlanks cs with
    | [] => .broken .truncated
    | c :: rest =>
      if c = '\x7d' then .closed rest
      else if first then
        if c = '"' then readMember fuel room rest else .broken .malformed
      else if c = ',' then
        match skipBlanks rest with
        | [] => .broken .truncated
        | c :: rest => if c = '"' then readMember fuel room rest else .broken .malformed
      else .broken .malformed
termination_by structural fuel _ _ _ => fuel


def readMember : Nat → Nat → List Char → Parts (String × Draft)
  | 0, _, _ => .broken .truncated
  | fuel + 1, room, cs =>
    let s := scan (cs.length + 1) cs
    let key := String.ofList s.text
    let members := match s.ending with
      | .error fault => .broken fault
      | .ok rest =>
        match skipColon rest with
        | .error fault => .last (key, .cut fault) fault
        | .ok rest =>
          match read fuel room rest with
          | (value, none) => .last (key, value) .truncated
          | (value, some rest) => .cons (key, value) (readMembers fuel room false rest)
    if s.paired then members else members.refused
termination_by structural fuel _ _ => fuel

end

/-- The draft at the start of a text, and what follows it. -/
def ofChars (cs : List Char) : Draft × List Char :=
  let (draft, rest) := read (3 * cs.length + 3) maxDepth cs
  (draft, rest.getD [])

mutual

/-- The value that a draft shows, if nothing in it is broken or refused. -/
def toJson : Draft → Except Fault Json
  | .null => .ok .null
  | .bool b => .ok (.bool b)
  | .number n => .ok (.number n)
  | .string s => .ok (.string s)
  | .array items stop => do
    let values ← toJsonItems items
    match stop with
    | some flaw => .error flaw.used
    | none => pure (.array values)
  | .object members stop => do
    let values ← toJsonMembers members
    match stop with
    | some flaw => .error flaw.used
    | none => pure (.object values)
  | .flawed flaw => .error flaw.used

def toJsonItems : List Draft → Except Fault (List Json)
  | [] => .ok []
  | item :: rest => do
    let value ← item.toJson
    let values ← toJsonItems rest
    pure (value :: values)

def toJsonMembers : List (String × Draft) → Except Fault (List (String × Json))
  | [] => .ok []
  | (key, item) :: rest => do
    let value ← item.toJson
    let values ← toJsonMembers rest
    pure ((key, value) :: values)

end

mutual

/-- The draft of a value that was already read. -/
def ofJson : Json → Draft
  | .null => .null
  | .bool b => .bool b
  | .number n => .number n
  | .string s => .string s
  | .array items => .array (ofJsonItems items) none
  | .object members => .object (ofJsonMembers members) none

def ofJsonItems : List Json → List Draft
  | [] => []
  | item :: rest => ofJson item :: ofJsonItems rest

def ofJsonMembers : List (String × Json) → List (String × Draft)
  | [] => []
  | (key, value) :: rest => (key, ofJson value) :: ofJsonMembers rest

end

mutual

/-- How deep arrays and objects are nested; a scalar has depth zero. -/
def depth : Draft → Nat
  | .array items _ => depthOfItems items + 1
  | .object members _ => depthOfMembers members + 1
  | _ => 0

def depthOfItems : List Draft → Nat
  | [] => 0
  | item :: rest => max item.depth (depthOfItems rest)

def depthOfMembers : List (String × Draft) → Nat
  | [] => 0
  | (_, value) :: rest => max value.depth (depthOfMembers rest)

end

end Draft

/-- Reads a text that holds one value, with its objects as written. -/
def parse (text : String) : Except Fault Json := do
  let (draft, rest) := Draft.ofChars text.toList
  let value ← draft.toJson
  if rest.all Draft.isBlank then pure value else .error .malformed

end TemplateCompiler.Json

import TemplateCompiler.Text.Printing
import TemplateCompiler.Json.Draft
import TemplateCompiler.Json.Printer

/-!
Reading values of known shape out of drafts. Of all complaints about a value the one that stands
first in it wins: `Placed` carries the place of a complaint along and keeps the earlier one.

A record is an object with named fields, in any order, or an array of its fields in declaration
order. A variant is a record together with a tag; it is read as a whole before its fields are looked
at.
-/

namespace TemplateCompiler.Json

/-- What was found where something else was expected. -/
inductive Found where
  | null
  | bool (value : Bool)
  | number (value : Number)
  | string (value : String)
  | sequence
  | map

namespace Found

def text : Found → String
  | .null => "null"
  | .bool b => s!"boolean `{b}`"
  | .number (.whole n) => s!"integer `{n}`"
  | .number (.double d) => s!"floating point `{String.ofList d.text}`"
  | .string s => "string " ++ Text.quote s
  | .sequence => "sequence"
  | .map => "map"

end Found

/-- Why a text or value was not accepted. -/
inductive Complaint where
  | fault (fault : Fault)
  | wrongType (found : Found) (expected : String)
  | outOfRange (value : Int) (expected : String)
  | wrongLength (length : Nat) (expected : String)
  | missingField (name : String)
  | duplicateField (name : String)
  | unknownVariant (name : String) (choices : List String)
  /-- The value was complete, and refused by what it means. -/
  | refused (reason : String)

namespace Complaint

def choicesText : List String → String
  | [] => "there are no variants"
  | [a] => s!"expected `{a}`"
  | [a, b] => s!"expected `{a}` or `{b}`"
  | choices => "expected one of " ++ ", ".intercalate (choices.map fun c => s!"`{c}`")

/-- The wording of a complaint about a value; faults of a text have none. -/
def message? : Complaint → Option String
  | .fault _ => none
  | .wrongType found expected => some s!"invalid type: {found.text}, expected {expected}"
  | .outOfRange n expected => some s!"invalid value: integer `{n}`, expected {expected}"
  | .wrongLength length expected => some s!"invalid length {length}, expected {expected}"
  | .missingField name => some s!"missing field `{name}`"
  | .duplicateField name => some s!"duplicate field `{name}`"
  | .unknownVariant name choices => some s!"unknown variant `{name}`, {choicesText choices}"
  | .refused reason => some reason

end Complaint

/-- Where a draft comes from: a text that is being read, a value that was read before, or the part
of a variant that was set aside until its tag was known. -/
inductive Source where
  | text
  | value
  | variant
deriving DecidableEq

/-- Makes a value of type `α` from a draft. -/
abbrev Reader (α : Type) := Source → Draft → Except Complaint α

/-- The complaint that a draft is not what was expected. -/
def Draft.clash (expected : String) : Draft → Complaint
  | .null => .wrongType .null expected
  | .bool b => .wrongType (.bool b) expected
  | .number n => .wrongType (.number n) expected
  | .string s => .wrongType (.string s) expected
  | .array _ _ => .wrongType .sequence expected
  | .object _ _ => .wrongType .map expected
  | .flawed flaw => .fault flaw.used

/-- The first break or refused part of a draft. -/
def Draft.fault? (draft : Draft) : Option Fault :=
  match draft.toJson with
  | .ok _ => none
  | .error fault => some fault

namespace Reader

variable {α : Type}

def string : Reader String
  | _, .string s => .ok s
  | _, draft => .error (draft.clash "a string")

def bool : Reader Bool
  | _, .bool b => .ok b
  | _, draft => .error (draft.clash "a boolean")

/-- A natural number below `2 ^ 32`. -/
def word : Reader Nat
  | _, .number (.whole n) =>
    if 0 ≤ n && n.toNat < Nat.pow 2 32 then .ok n.toNat else .error (.outOfRange n "u32")
  | _, draft => .error (draft.clash "u32")

def double : Reader Double
  | _, .number n => .ok n.toDouble
  | _, draft => .error (draft.clash "f64")

/-- Any value, with its objects as mappings. -/
def value : Reader Json := fun _ draft =>
  match draft.toJson with
  | .ok json => .ok json.tidy
  | .error fault => .error (.fault fault)

def list (item : Reader α) : Reader (List α)
  | source, .array items stop => do
    let values ← items.mapM (item source)
    match stop with
    | some flaw => .error (.fault flaw.used)
    | none => pure values
  | _, draft => .error (draft.clash "a sequence")

/-- A value that may be left empty. -/
def orNull (item : Reader α) : Reader (Option α)
  | _, .null => .ok none
  | source, draft => do return some (← item source draft)

/-- Accepts no array or object, for want of depth. -/
def scalarOnly (expected : String) : Reader α :=
  fun _ draft => .error (draft.clash expected)

end Reader

/-- The outcome of a check, with the place in the value that a complaint is about. -/
def Placed (α : Type) := Except (Nat × Complaint) α

namespace Placed

variable {α β : Type}

def complain (place : Nat) (complaint : Complaint) : Placed α := .error (place, complaint)

def ofExcept (place : Nat) : Except Complaint α → Placed α
  | .ok a => .ok a
  | .error complaint => .error (place, complaint)

/-- Both outcomes; of two complaints the earlier, and the first at one place. -/
def seq (f : Placed (α → β)) (a : Placed α) : Placed β :=
  match f, a with
  | .ok f, .ok a => .ok (f a)
  | .error e, .ok _ => .error e
  | .ok _, .error e => .error e
  | .error e, .error e' => .error (if e'.1 < e.1 then e' else e)

instance : Applicative Placed where
  pure a := .ok a
  seq f a := seq f (a ())

/-- Forgets the place. -/
def outcome : Placed α → Except Complaint α
  | .ok a => .ok a
  | .error (_, complaint) => .error complaint

end Placed

/-- A kind of record: how it is called in a complaint, and its fields in order. -/
structure Shape where
  title : String
  fields : List String

/-- The parts of a record, by name or by place. -/
inductive Entries where
  | named (members : List (String × Draft)) (stop : Option Flaw)
  | listed (items : List Draft) (stop : Option Flaw)

structure Row where
  shape : Shape
  source : Source
  entries : Entries

/-- The first member with a key, and its place. -/
def firstWithKey? (key : String) : List (String × Draft) → Option (Nat × Draft)
  | [] => none
  | (k, draft) :: rest =>
    if k = key then some (0, draft)
    else (firstWithKey? key rest).map fun (place, draft) => (place + 1, draft)

def countText (n : Nat) : String :=
  if n = 1 then "1 element" else s!"{n} elements"

namespace Row

variable {α : Type}

/-- Looks for members that cannot stay: a field given twice, or an unknown one that breaks. -/
def soundMembers (fields : List String) :
    Nat → List String → List (String × Draft) → Option Flaw → Placed Unit
  | _, _, [], none => pure ()
  | place, _, [], some flaw => .complain place (.fault flaw.used)
  | place, seen, (key, draft) :: rest, stop =>
    if fields.contains key then
      if seen.contains key then .complain place (.duplicateField key)
      else soundMembers fields (place + 1) (key :: seen) rest stop
    else
      match draft.breakInside with
      | some fault => .complain place (.fault fault)
      | none => soundMembers fields (place + 1) seen rest stop

/-- The complaint about an array with more items than the record has fields. -/
def tooLong (row : Row) (length : Nat) : Complaint :=
  match row.source with
  | .text => .fault .malformed
  | .value => .wrongLength length "fewer elements in array"
  | .variant => .wrongLength length (countText row.shape.fields.length ++ " in sequence")

/-- Everything about the parts that does not depend on the fields' types. -/
def sound (row : Row) : Placed Unit :=
  match row.entries with
  | .named members stop => soundMembers row.shape.fields 0 [] members stop
  | .listed items stop =>
    let size := row.shape.fields.length
    if size < items.length then .complain size (row.tooLong items.length)
    else
      match stop with
      | some flaw => .complain items.length (.fault flaw.used)
      | none => pure ()

/-- A field, or `absent` when it is not there. -/
def field (row : Row) (name : String) (read : Reader α) (absent : Placed α) : Placed α :=
  match row.entries with
  | .named members _ =>
    match firstWithKey? name members with
    | some (place, draft) => .ofExcept place (read row.source draft)
    | none => absent
  | .listed items _ =>
    let place := row.shape.fields.idxOf name
    match items[place]? with
    | some draft => .ofExcept place (read row.source draft)
    | none => absent

/-- A field that must be there. A missing name is found out at the end of the object, in the order
of declaration. -/
def required (row : Row) (name : String) (read : Reader α) : Placed α :=
  let index := row.shape.fields.idxOf name
  row.field name read <|
    match row.entries with
    | .named members _ => .complain (members.length + 1 + index) (.missingField name)
    | .listed _ _ =>
      .complain index
        (.wrongLength index s!"{row.shape.title} with {countText row.shape.fields.length}")

/-- A field that has a value when it is not there. -/
def optional (row : Row) (name : String) (read : Reader α) (default : α) : Placed α :=
  row.field name read (pure default)

end Row

namespace Reader

variable {α : Type}

def record (shape : Shape) (build : Row → Placed α) : Reader α := fun source draft => do
  let entries ← match draft with
    | .object members stop => pure (Entries.named members stop)
    | .array items stop => pure (Entries.listed items stop)
    | other => throw (other.clash shape.title)
  let row : Row := ⟨shape, source, entries⟩
  (row.sound *> build row).outcome

/-- The reader that a tag chooses. A part set aside may also name it by its number. -/
def chosen (variants : List (String × Reader α)) (source : Source) (tag : Draft) :
    Except Complaint (Reader α) :=
  match tag with
  | .string name =>
    match variants.lookup name with
    | some read => .ok read
    | none => .error (.unknownVariant name (variants.map Prod.fst))
  | .number (.whole n) =>
    if source = .variant && 0 ≤ n then
      match variants[n.toNat]? with
      | some (_, read) => .ok read
      | none => .error (.outOfRange n s!"variant index 0 <= i < {variants.length}")
    else .error (tag.clash "variant identifier")
  | _ => .error (tag.clash "variant identifier")

/-- Looks for members that cannot be set aside: a second tag, or a flaw. -/
def soundVariant (seen : Bool) : Nat → List (String × Draft) → Option Flaw → Placed Unit
  | _, [], none => pure ()
  | place, [], some flaw => .complain place (.fault flaw.used)
  | place, (key, draft) :: rest, stop =>
    if key = "type" then
      if seen then .complain place (.duplicateField "type")
      else soundVariant true (place + 1) rest stop
    else
      match draft.fault? with
      | some fault => .complain place (.fault fault)
      | none => soundVariant seen (place + 1) rest stop

/-- One of several records, told apart by a tag: the member `type` of an object or the first item of
an array. -/
def tagged (title : String) (variants : List (String × Reader α)) : Reader α :=
  fun source draft =>
    match draft with
    | .object members stop => do
      let tag := match firstWithKey? "type" members with
        | some (place, tag) => .ofExcept place (chosen variants source tag)
        | none => .complain (members.length + 1) (.missingField "type")
      let read ← (soundVariant false 0 members stop *> tag).outcome
      read .variant (.object (members.filter (·.1 != "type")) none)
    | .array [] (some flaw) => .error (.fault flaw.used)
    | .array [] none => .error (.missingField "type")
    | .array (tag :: rest) stop => do
      let read ← chosen variants source tag
      match (Draft.array rest stop).fault? with
      | some fault => .error (.fault fault)
      | none => read .variant (.array rest none)
    | other => .error (other.clash s!"internally tagged enum {title}")

def ofText (read : Reader α) (text : String) : Except Complaint α := do
  let (draft, rest) := Draft.ofChars text.toList
  let value ← read .text draft
  if rest.all Draft.isBlank then pure value else .error (.fault .malformed)

def ofJson (read : Reader α) (json : Json) : Except Complaint α :=
  read .value (.ofJson json)

end Reader

end TemplateCompiler.Json

import TemplateCompiler.Double.Basic

/-!
JSON values. Whole numbers and doubles are kept apart, and an object keeps its members in the order
they are listed. `Json.tidy` gives the representative of an object as a mapping: keys in ascending
order, and of members with one key the last.
-/

namespace TemplateCompiler

/-- A number as it was written: without fraction and exponent, or with. -/
inductive Json.Number where
  | whole (value : Int)
  | double (value : Double)
deriving DecidableEq

inductive Json where
  | null
  | bool (value : Bool)
  | number (value : Json.Number)
  | string (value : String)
  | array (items : List Json)
  | object (members : List (String × Json))
deriving Inhabited

namespace Json

/-- The number as a double, rounded if it is a large whole number. -/
def Number.toDouble : Number → Double
  | .whole n => Double.ofInt n
  | .double d => d

def ofInt (n : Int) : Json := .number (.whole n)

def ofNat (n : Nat) : Json := ofInt n

def strings (texts : List String) : Json := .array (texts.map .string)

def nats (numbers : List Nat) : Json := .array (numbers.map ofNat)

/-- The natural number that a JSON value is, unless it was written as a double. -/
def nat? : Json → Option Nat
  | .number (.whole n) => n.toNat?
  | _ => none

def member? (key : String) : Json → Option Json
  | .object members => members.lookup key
  | _ => none

mutual

/-- How deep arrays and objects are nested; a scalar has depth zero. -/
def depth : Json → Nat
  | .array items => depthOfItems items + 1
  | .object members => depthOfMembers members + 1
  | _ => 0

def depthOfItems : List Json → Nat
  | [] => 0
  | item :: rest => max item.depth (depthOfItems rest)

def depthOfMembers : List (String × Json) → Nat
  | [] => 0
  | (_, value) :: rest => max value.depth (depthOfMembers rest)

end

/-- Puts a member at the place of its key, over one with the same key. -/
def insertMember (key : String) (value : Json) : List (String × Json) → List (String × Json)
  | [] => [(key, value)]
  | (k, v) :: rest =>
    if key = k then (key, value) :: rest
    else if key < k then (key, value) :: (k, v) :: rest
    else (k, v) :: insertMember key value rest

mutual

/-- The same value with every object in key order, each key once. -/
def tidy : Json → Json
  | .array items => .array (tidyItems items)
  | .object members => .object (tidyMembers [] members)
  | scalar => scalar

def tidyItems : List Json → List Json
  | [] => []
  | item :: rest => item.tidy :: tidyItems rest

def tidyMembers (done : List (String × Json)) : List (String × Json) → List (String × Json)
  | [] => done
  | (key, value) :: rest => tidyMembers (insertMember key value.tidy done) rest

end

end Json

end TemplateCompiler

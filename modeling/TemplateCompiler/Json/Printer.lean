import TemplateCompiler.Double.Decimal
import TemplateCompiler.Json.Basic

/-!
JSON text without blanks. Only quotes, backslashes and control characters are escaped; a number that
is not finite has no text of its own and is written as `null`.
-/

namespace TemplateCompiler.Json

def escape (c : Char) : List Char :=
  if c = '"' then ['\\', '"']
  else if c = '\\' then ['\\', '\\']
  else if c = '\n' then ['\\', 'n']
  else if c = '\r' then ['\\', 'r']
  else if c = '\t' then ['\\', 't']
  else if c.toNat = 8 then ['\\', 'b']
  else if c.toNat = 12 then ['\\', 'f']
  else if c.toNat < 16 then ['\\', 'u', '0', '0', '0', Nat.digitChar c.toNat]
  else if c.toNat < 32 then ['\\', 'u', '0', '0', '1', Nat.digitChar (c.toNat - 16)]
  else [c]

def quoted (s : String) : List Char :=
  '"' :: s.toList.flatMap escape ++ ['"']

def Number.chars : Number → List Char
  | .whole n => (toString n).toList
  | .double d => if d.isFinite then d.text else ['n', 'u', 'l', 'l']

mutual

def chars : Json → List Char
  | .null => ['n', 'u', 'l', 'l']
  | .bool true => ['t', 'r', 'u', 'e']
  | .bool false => ['f', 'a', 'l', 's', 'e']
  | .number n => n.chars
  | .string s => quoted s
  | .array [] => ['[', ']']
  | .array (item :: rest) => '[' :: (item.chars ++ charsOfItems rest)
  | .object [] => ['\x7b', '\x7d']
  | .object ((key, value) :: rest) =>
    '\x7b' :: (quoted key ++ ':' :: (value.chars ++ charsOfMembers rest))

/-- The items after the first, with the closing bracket. -/
def charsOfItems : List Json → List Char
  | [] => [']']
  | item :: rest => ',' :: (item.chars ++ charsOfItems rest)

/-- The members after the first, with the closing brace. -/
def charsOfMembers : List (String × Json) → List Char
  | [] => ['\x7d']
  | (key, value) :: rest =>
    ',' :: (quoted key ++ ':' :: (value.chars ++ charsOfMembers rest))

end

def text (j : Json) : String := String.ofList j.chars

end TemplateCompiler.Json

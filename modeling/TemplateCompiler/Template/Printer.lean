import TemplateCompiler.Json.Basic
import TemplateCompiler.Template.Basic

/-!
Templates as JSON. Every field is written, in declaration order; where a node is one of several
kinds, the member `type` comes first and names it.
-/

namespace TemplateCompiler

def Position.toJson (p : Position) : Json :=
  .object [("line", .ofNat p.line), ("column", .ofNat p.column)]

def Span.toJson (s : Span) : Json :=
  .object [("start", s.start.toJson), ("end", s.stop.toJson)]

namespace Template

/-- The members of a node, with its kind in front. -/
def withType (kind : String) (members : List (String × Json)) : Json :=
  .object (("type", .string kind) :: members)

def Path.members (p : Path) : List (String × Json) :=
  [("original", .string p.written), ("this", .bool p.isThis), ("data", .bool p.isArg),
    ("parts", .strings p.parts), ("loc", p.loc.toJson)]

def Path.toJson (p : Path) : Json := .object p.members

/-- A number as a JSON value, which only a finite one has. -/
def numberJson (d : Double) : Json := if d.isFinite then .number (.double d) else .null

def literalJson (value : Literal) (loc : Span) : Json :=
  match value with
  | .string s => withType "StringLiteral" [("value", .string s), ("loc", loc.toJson)]
  | .boolean b => withType "BooleanLiteral" [("value", .bool b), ("loc", loc.toJson)]
  | .number d => withType "NumberLiteral" [("value", numberJson d), ("loc", loc.toJson)]
  | .null => withType "NullLiteral" [("loc", loc.toJson)]
  | .undefined => withType "UndefinedLiteral" [("loc", loc.toJson)]

mutual

def Expression.toJson : Expression → Json
  | .path p => withType "PathExpression" p.members
  | .call callee params ⟨pairs, hashLoc⟩ loc =>
    withType "SubExpression"
      [("path", callee.toJson), ("params", .array (expressionsJson params)),
        ("hash", .object [("pairs", .array (pairsJson pairs)), ("loc", hashLoc.toJson)]),
        ("loc", loc.toJson)]
  | .literal value loc => literalJson value loc

def expressionsJson : List Expression → List Json
  | [] => []
  | e :: rest => e.toJson :: expressionsJson rest

def pairsJson : List (Pair Expression) → List Json
  | [] => []
  | ⟨key, value, loc⟩ :: rest =>
    .object [("key", .string key), ("value", value.toJson), ("loc", loc.toJson)] :: pairsJson rest

end

/-- The arguments of a mustache, modifier or block. -/
def argumentMembers (params : List Expression) (hash : Hash Expression) :
    List (String × Json) :=
  [("params", .array (expressionsJson params)),
    ("hash", .object [("pairs", .array (pairsJson hash.pairs)), ("loc", hash.loc.toJson)])]

def Mustache.members (m : Mustache) : List (String × Json) :=
  ("path", m.path.toJson) :: argumentMembers m.params m.hash ++
    [("trusting", .bool m.trusting), ("loc", m.loc.toJson)]

def Mustache.toJson (m : Mustache) : Json := withType "MustacheStatement" m.members

def TextNode.members (t : TextNode) : List (String × Json) :=
  [("chars", .string t.chars), ("loc", t.loc.toJson)]

def TextNode.toJson (t : TextNode) : Json := withType "TextNode" t.members

def ConcatPart.toJson : ConcatPart → Json
  | .text node => node.toJson
  | .mustache node => node.toJson

def AttributeValue.toJson : AttributeValue → Json
  | .text node => node.toJson
  | .mustache node => node.toJson
  | .concat parts loc =>
    withType "ConcatStatement" [("parts", .array (parts.map ConcatPart.toJson)), ("loc", loc.toJson)]

def Attribute.toJson (a : Attribute) : Json :=
  .object [("name", .string a.name), ("value", a.value.toJson), ("loc", a.loc.toJson)]

def Modifier.toJson (m : Modifier) : Json :=
  .object (("path", m.path.toJson) :: argumentMembers m.params m.hash ++ [("loc", m.loc.toJson)])

mutual

def Statement.toJson : Statement → Json
  | .mustache node => node.toJson
  | .block ⟨path, params, hash, program, inverse, loc⟩ =>
    withType "BlockStatement"
      (("path", path.toJson) :: argumentMembers params hash ++
        [("program", blockJson program), ("inverse", inverseJson inverse), ("loc", loc.toJson)])
  | .element ⟨tag, attributes, modifiers, children, blockParams, selfClosing, loc⟩ =>
    withType "ElementNode"
      [("tag", .string tag), ("attributes", .array (attributes.map Attribute.toJson)),
        ("modifiers", .array (modifiers.map Modifier.toJson)),
        ("children", .array (statementsJson children)), ("blockParams", .strings blockParams),
        ("selfClosing", .bool selfClosing), ("loc", loc.toJson)]
  | .text node => node.toJson
  | .comment ⟨value, loc⟩ =>
    withType "CommentStatement" [("value", .string value), ("loc", loc.toJson)]
  | .mustacheComment ⟨value, loc⟩ =>
    withType "MustacheCommentStatement" [("value", .string value), ("loc", loc.toJson)]

def blockJson : Block Statement → Json
  | ⟨body, params, loc⟩ =>
    .object [("body", .array (statementsJson body)), ("blockParams", .strings params),
      ("loc", loc.toJson)]

def inverseJson : Option (Block Statement) → Json
  | none => .null
  | some block => blockJson block

def statementsJson : List Statement → List Json
  | [] => []
  | s :: rest => s.toJson :: statementsJson rest

end

def toJson (t : Template) : Json :=
  .object [("body", .array (statementsJson t.body)), ("loc", t.loc.toJson)]

end Template

end TemplateCompiler

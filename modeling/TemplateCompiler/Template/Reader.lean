import TemplateCompiler.Json.Reader
import TemplateCompiler.Template.Basic

/-!
Templates from JSON. Spans and whatever else has a natural default may be left out. Nested nodes are
read with a bound on their depth, which the depth of the JSON value gives.
-/

namespace TemplateCompiler

open Json (Reader Shape)

namespace Position

def shape : Shape := ⟨"struct Position", ["line", "column"]⟩

def reader : Reader Position :=
  .record shape fun row =>
    Position.mk <$> row.required "line" .word <*> row.required "column" .word

end Position

namespace Span

def shape : Shape := ⟨"struct SourceSpan", ["start", "end"]⟩

def reader : Reader Span :=
  .record shape fun row =>
    Span.mk <$> row.required "start" Position.reader <*> row.required "end" Position.reader

end Span

/-- The span of a node, synthetic when it is left out. -/
def Json.Row.loc (row : Json.Row) : Json.Placed Span :=
  row.optional "loc" Span.reader .synthetic

namespace Template

def Path.shape : Shape :=
  ⟨"struct PathExpression", ["original", "this", "data", "parts", "loc"]⟩

def Path.reader : Reader Path :=
  .record Path.shape fun row =>
    Path.mk <$> row.required "original" .string <*> row.optional "this" .bool false <*>
      row.optional "data" .bool false <*> row.required "parts" (.list .string) <*> row.loc

def Pair.shape : Shape := ⟨"struct HashPair", ["key", "value", "loc"]⟩

def Pair.reader (inner : Reader Expression) : Reader (Pair Expression) :=
  .record Pair.shape fun row =>
    Pair.mk <$> row.required "key" .string <*> row.required "value" inner <*> row.loc

def Hash.shape : Shape := ⟨"struct Hash", ["pairs", "loc"]⟩

def Hash.reader (inner : Reader Expression) : Reader (Hash Expression) :=
  .record Hash.shape fun row =>
    Hash.mk <$> row.required "pairs" (.list (Pair.reader inner)) <*> row.loc

namespace Expression

def title : String := "Expression"

/-- The shape of a constant with its value. -/
def literalShape (kind : String) : Shape :=
  ⟨"struct variant Expression::" ++ kind, ["value", "loc"]⟩

/-- The shape of a constant that is told by its kind alone. -/
def bareShape (kind : String) : Shape := ⟨"struct variant Expression::" ++ kind, ["loc"]⟩

def literalReader {α : Type} (kind : String) (value : Reader α) (make : α → Literal) :
    Reader Expression :=
  .record (literalShape kind) fun row =>
    (fun v loc => .literal (make v) loc) <$> row.required "value" value <*> row.loc

def bareReader (kind : String) (value : Literal) : Reader Expression :=
  .record (bareShape kind) fun row => .literal value <$> row.loc

def callShape : Shape := ⟨"struct SubExpression", ["path", "params", "hash", "loc"]⟩

def callReader (inner : Reader Expression) : Reader Expression :=
  .record callShape fun row =>
    .call <$> row.required "path" Path.reader <*> row.optional "params" (.list inner) [] <*>
      row.optional "hash" (Hash.reader inner) .empty <*> row.loc

/-- The kinds of expressions, given a reader for those inside. -/
def variants (inner : Reader Expression) : List (String × Reader Expression) :=
  [("PathExpression", fun source draft => .path <$> Path.reader source draft),
    ("SubExpression", callReader inner),
    ("StringLiteral", literalReader "StringLiteral" .string .string),
    ("BooleanLiteral", literalReader "BooleanLiteral" .bool .boolean),
    ("NumberLiteral", literalReader "NumberLiteral" .double .number),
    ("NullLiteral", bareReader "NullLiteral" .null),
    ("UndefinedLiteral", bareReader "UndefinedLiteral" .undefined)]

/-- Reads expressions nested so deep at most. -/
def readerTo : Nat → Reader Expression
  | 0 => .scalarOnly s!"internally tagged enum {title}"
  | depth + 1 => .tagged title (variants (readerTo depth))

def reader : Reader Expression := fun source draft => readerTo draft.depth source draft

end Expression

def Mustache.shape : Shape :=
  ⟨"struct MustacheStatement", ["path", "params", "hash", "trusting", "loc"]⟩

def Mustache.reader : Reader Mustache :=
  .record Mustache.shape fun row =>
    Mustache.mk <$> row.required "path" Expression.reader <*>
      row.optional "params" (.list Expression.reader) [] <*>
      row.optional "hash" (Hash.reader Expression.reader) .empty <*>
      row.optional "trusting" .bool false <*> row.loc

def TextNode.shape : Shape := ⟨"struct TextNode", ["chars", "loc"]⟩

def TextNode.reader : Reader TextNode :=
  .record TextNode.shape fun row => TextNode.mk <$> row.required "chars" .string <*> row.loc

def CommentNode.reader (title : String) : Reader CommentNode :=
  .record ⟨title, ["value", "loc"]⟩ fun row =>
    CommentNode.mk <$> row.required "value" .string <*> row.loc

def ConcatPart.reader : Reader ConcatPart :=
  .tagged "ConcatPart"
    [("TextNode", fun source draft => .text <$> TextNode.reader source draft),
      ("MustacheStatement", fun source draft => .mustache <$> Mustache.reader source draft)]

namespace AttributeValue

def concatShape : Shape := ⟨"struct ConcatStatement", ["parts", "loc"]⟩

def reader : Reader AttributeValue :=
  .tagged "AttrValue"
    [("TextNode", fun source draft => .text <$> TextNode.reader source draft),
      ("MustacheStatement", fun source draft => .mustache <$> Mustache.reader source draft),
      ("ConcatStatement", .record concatShape fun row =>
        .concat <$> row.required "parts" (.list ConcatPart.reader) <*> row.loc)]

end AttributeValue

def Attribute.shape : Shape := ⟨"struct AttrNode", ["name", "value", "loc"]⟩

def Attribute.reader : Reader Attribute :=
  .record Attribute.shape fun row =>
    Attribute.mk <$> row.required "name" .string <*>
      row.required "value" AttributeValue.reader <*> row.loc

def Modifier.shape : Shape :=
  ⟨"struct ElementModifierStatement", ["path", "params", "hash", "loc"]⟩

def Modifier.reader : Reader Modifier :=
  .record Modifier.shape fun row =>
    Modifier.mk <$> row.required "path" Path.reader <*>
      row.optional "params" (.list Expression.reader) [] <*>
      row.optional "hash" (Hash.reader Expression.reader) .empty <*> row.loc

def Block.shape : Shape := ⟨"struct Block", ["body", "blockParams", "loc"]⟩

def Block.reader (inner : Reader Statement) : Reader (Block Statement) :=
  .record Block.shape fun row =>
    Block.mk <$> row.required "body" (.list inner) <*>
      row.optional "blockParams" (.list .string) [] <*> row.loc

def BlockNode.shape : Shape :=
  ⟨"struct BlockStatement", ["path", "params", "hash", "program", "inverse", "loc"]⟩

def BlockNode.reader (inner : Reader Statement) : Reader (BlockNode Statement) :=
  .record BlockNode.shape fun row =>
    BlockNode.mk <$> row.required "path" Path.reader <*>
      row.optional "params" (.list Expression.reader) [] <*>
      row.optional "hash" (Hash.reader Expression.reader) .empty <*>
      row.required "program" (Block.reader inner) <*>
      row.optional "inverse" (.orNull (Block.reader inner)) none <*> row.loc

def Element.shape : Shape :=
  ⟨"struct ElementNode",
    ["tag", "attributes", "modifiers", "children", "blockParams", "selfClosing", "loc"]⟩

def Element.readerWith (inner : Reader Statement) : Reader (Element Statement) :=
  .record Element.shape fun row =>
    Element.mk <$> row.required "tag" .string <*>
      row.optional "attributes" (.list Attribute.reader) [] <*>
      row.optional "modifiers" (.list Modifier.reader) [] <*>
      row.optional "children" (.list inner) [] <*>
      row.optional "blockParams" (.list .string) [] <*>
      row.optional "selfClosing" .bool false <*> row.loc

namespace Statement

def title : String := "Statement"

/-- The kinds of statements, given a reader for those inside. -/
def variants (inner : Reader Statement) : List (String × Reader Statement) :=
  [("MustacheStatement", fun source draft => .mustache <$> Mustache.reader source draft),
    ("BlockStatement", fun source draft => .block <$> BlockNode.reader inner source draft),
    ("ElementNode", fun source draft => .element <$> Element.readerWith inner source draft),
    ("TextNode", fun source draft => .text <$> TextNode.reader source draft),
    ("CommentStatement", fun source draft =>
      .comment <$> CommentNode.reader "struct CommentStatement" source draft),
    ("MustacheCommentStatement", fun source draft =>
      .mustacheComment <$> CommentNode.reader "struct MustacheCommentStatement" source draft)]

/-- Reads statements nested so deep at most. -/
def readerTo : Nat → Reader Statement
  | 0 => .scalarOnly s!"internally tagged enum {title}"
  | depth + 1 => .tagged title (variants (readerTo depth))

def reader : Reader Statement := fun source draft => readerTo draft.depth source draft

end Statement

/-- Reads an element by itself, without its kind. -/
def Element.reader : Reader (Element Statement) := Element.readerWith Statement.reader

def shape : Shape := ⟨"struct Template", ["body", "loc"]⟩

def reader : Reader Template :=
  .record shape fun row =>
    Template.mk <$> row.required "body" (.list Statement.reader) <*> row.loc

def ofText (text : String) : Except Json.Complaint Template := reader.ofText text

def ofJson (json : Json) : Except Json.Complaint Template := reader.ofJson json

end Template

end TemplateCompiler

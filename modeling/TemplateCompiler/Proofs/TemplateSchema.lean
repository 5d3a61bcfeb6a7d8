import TemplateCompiler.Proofs.NestedReading
import TemplateCompiler.Proofs.RecordReading
import TemplateCompiler.Template.Printer

/-!
# The schema of templates

The nodes of a template as JSON objects: which fields each kind of node has, what stands in them,
and what a field holds by default. The readers of templates read nodes just as the schema lists
them.
-/

namespace TemplateCompiler

open Json (Reader Row Placed Source Draft Shape Gives Once rowOf)

/-! ### Spans -/

def Position.Fits (p : Position) : Prop :=
  p.line < Nat.pow 2 32 ∧ p.column < Nat.pow 2 32

theorem Position.reader_toJson {p : Position} (fits : p.Fits) (source : Source) :
    Position.reader source (.ofJson p.toJson) = .ok p := by
  have line := Json.word_ofNat fits.1 source
  have column := Json.word_ofNat fits.2 source
  refine Json.record_of_distinct (by simp) ?_
  rw [Json.required_of_lookup rfl line, Json.required_of_lookup rfl column]
  rfl

def Span.Fits (s : Span) : Prop := s.start.Fits ∧ s.stop.Fits

/-- A span that was written is read again. -/
theorem Span.reader_toJson {s : Span} (fits : s.Fits) (source : Source) :
    Span.reader source (.ofJson s.toJson) = .ok s := by
  have start := Position.reader_toJson fits.1 source
  have stop := Position.reader_toJson fits.2 source
  refine Json.record_of_distinct (by simp) ?_
  rw [Json.required_of_lookup rfl start, Json.required_of_lookup rfl stop]
  rfl

theorem Span.fits_synthetic : Span.synthetic.Fits := by
  have zero : Position.Fits ⟨0, 0⟩ := ⟨by decide, by decide⟩
  exact ⟨zero, zero⟩

namespace Template.Schema

/-! ### The schema -/

inductive Kind where
  | position
  | span
  | path
  | pair
  | hash
  | call
  | stringLiteral
  | booleanLiteral
  | numberLiteral
  | nullLiteral
  | undefinedLiteral
  | mustache
  | text
  | comment
  | mustacheComment
  | concat
  | attributeNode
  | modifier
  | block
  | blockNode
  | element
  | template

/-- Where a node of one of several kinds may stand. -/
inductive Group where
  | expression
  | concatPart
  | attributeValue
  | statement

inductive Slot where
  | string
  | bool
  | word
  | double
  | list (item : Slot)
  | node (kind : Kind)
  | orNull (kind : Kind)
  /-- A node that names its kind. -/
  | tagged (group : Group)

/-- A field of a node. One that has a default may be left out. -/
structure Field where
  key : String
  slot : Slot
  default : Option Json

namespace Field

def required (key : String) (slot : Slot) : Field := ⟨key, slot, none⟩

/-- A flag, which is off by default. -/
def flag (key : String) : Field := ⟨key, .bool, some (.bool false)⟩

def listing (key : String) (item : Slot) : Field := ⟨key, .list item, some (.array [])⟩

def loc : Field := ⟨"loc", .node .span, some Span.synthetic.toJson⟩

def hash : Field :=
  ⟨"hash", .node .hash, some (.object [("pairs", .array []), ("loc", Span.synthetic.toJson)])⟩

end Field

namespace Kind

open Schema.Field

/-- The fields of a node, in the order in which they are declared. -/
def fields : Kind → List Field
  | .position => [required "line" .word, required "column" .word]
  | .span => [required "start" (.node .position), required "end" (.node .position)]
  | .path =>
    [required "original" .string, flag "this", flag "data", required "parts" (.list .string),
      Field.loc]
  | .pair => [required "key" .string, required "value" (.tagged .expression), Field.loc]
  | .hash => [required "pairs" (.list (.node .pair)), Field.loc]
  | .call | .modifier =>
    [required "path" (.node .path), listing "params" (.tagged .expression), Field.hash, Field.loc]
  | .stringLiteral => [required "value" .string, Field.loc]
  | .booleanLiteral => [required "value" .bool, Field.loc]
  | .numberLiteral => [required "value" .double, Field.loc]
  | .nullLiteral | .undefinedLiteral => [Field.loc]
  | .mustache =>
    [required "path" (.tagged .expression), listing "params" (.tagged .expression), Field.hash,
      flag "trusting", Field.loc]
  | .text => [required "chars" .string, Field.loc]
  | .comment | .mustacheComment => [required "value" .string, Field.loc]
  | .concat => [required "parts" (.list (.tagged .concatPart)), Field.loc]
  | .attributeNode =>
    [required "name" .string, required "value" (.tagged .attributeValue), Field.loc]
  | .block =>
    [required "body" (.list (.tagged .statement)), listing "blockParams" .string, Field.loc]
  | .blockNode =>
    [required "path" (.node .path), listing "params" (.tagged .expression), Field.hash,
      required "program" (.node .block), ⟨"inverse", .orNull .block, some .null⟩, Field.loc]
  | .element =>
    [required "tag" .string, listing "attributes" (.node .attributeNode),
      listing "modifiers" (.node .modifier), listing "children" (.tagged .statement),
      listing "blockParams" .string, flag "selfClosing", Field.loc]
  | .template => [required "body" (.list (.tagged .statement)), Field.loc]

def keys (kind : Kind) : List String := kind.fields.map Field.key

end Kind

/-- The kinds that may stand somewhere, each with its name. -/
def Group.kinds : Group → List (String × Kind)
  | .expression =>
    [("PathExpression", .path), ("SubExpression", .call), ("StringLiteral", .stringLiteral),
      ("BooleanLiteral", .booleanLiteral), ("NumberLiteral", .numberLiteral),
      ("NullLiteral", .nullLiteral), ("UndefinedLiteral", .undefinedLiteral)]
  | .concatPart => [("TextNode", .text), ("MustacheStatement", .mustache)]
  | .attributeValue =>
    [("TextNode", .text), ("MustacheStatement", .mustache), ("ConcatStatement", .concat)]
  | .statement =>
    [("MustacheStatement", .mustache), ("BlockStatement", .blockNode), ("ElementNode", .element),
      ("TextNode", .text), ("CommentStatement", .comment),
      ("MustacheCommentStatement", .mustacheComment)]

/-! ### The readers of the schema -/

/-- What a node is read as. -/
@[reducible] def Kind.Value : Kind → Type
  | .position => Position
  | .span => Span
  | .path => Path
  | .pair => Pair Expression
  | .hash => Hash Expression
  | .call | .stringLiteral | .booleanLiteral | .numberLiteral | .nullLiteral
  | .undefinedLiteral => Expression
  | .mustache => Mustache
  | .text => TextNode
  | .comment | .mustacheComment => CommentNode
  | .concat => AttributeValue
  | .attributeNode => Attribute
  | .modifier => Modifier
  | .block => Block Statement
  | .blockNode => BlockNode Statement
  | .element => Element Statement
  | .template => Template

def Kind.reader : (kind : Kind) → Reader kind.Value
  | .position => Position.reader
  | .span => Span.reader
  | .path => Path.reader
  | .pair => Pair.reader Expression.reader
  | .hash => Hash.reader Expression.reader
  | .call => Expression.callReader Expression.reader
  | .stringLiteral => Expression.literalReader "StringLiteral" .string .string
  | .booleanLiteral => Expression.literalReader "BooleanLiteral" .bool .boolean
  | .numberLiteral => Expression.literalReader "NumberLiteral" .double .number
  | .nullLiteral => Expression.bareReader "NullLiteral" .null
  | .undefinedLiteral => Expression.bareReader "UndefinedLiteral" .undefined
  | .mustache => Mustache.reader
  | .text => TextNode.reader
  | .comment => CommentNode.reader "struct CommentStatement"
  | .mustacheComment => CommentNode.reader "struct MustacheCommentStatement"
  | .concat => .record AttributeValue.concatShape fun row =>
    .concat <$> row.required "parts" (.list ConcatPart.reader) <*> row.loc
  | .attributeNode => Attribute.reader
  | .modifier => Modifier.reader
  | .block => Block.reader Statement.reader
  | .blockNode => BlockNode.reader Statement.reader
  | .element => Element.reader
  | .template => Template.reader

@[reducible] def Group.Value : Group → Type
  | .expression => Expression
  | .concatPart => ConcatPart
  | .attributeValue => AttributeValue
  | .statement => Statement

def Group.reader : (group : Group) → Reader group.Value
  | .expression => Expression.reader
  | .concatPart => ConcatPart.reader
  | .attributeValue => AttributeValue.reader
  | .statement => Statement.reader

@[reducible] def Slot.Value : Slot → Type
  | .string => String
  | .bool => Bool
  | .word => Nat
  | .double => Double
  | .list item => List item.Value
  | .node kind => kind.Value
  | .orNull kind => Option kind.Value
  | .tagged group => group.Value

/-- What stands in a slot is read by this. -/
def Slot.reader : (slot : Slot) → Reader slot.Value
  | .string => .string
  | .bool => .bool
  | .word => .word
  | .double => .double
  | .list item => .list item.reader
  | .node kind => kind.reader
  | .orNull kind => .orNull kind.reader
  | .tagged group => group.reader

/-- A record that is built from some fields, the last one first. -/
inductive Builds : {α : Type} → List Field → (Row → Placed α) → Prop where
  | pure {α : Type} (a : α) : Builds [] fun _ => pure a
  | required {α : Type} {key : String} {slot : Slot} {fields : List Field}
    {build : Row → Placed (slot.Value → α)} (before : Builds fields build) :
    Builds (.required key slot :: fields) fun row => build row <*> row.required key slot.reader
  | optional {α : Type} {key : String} {slot : Slot} {default : Json} {value : slot.Value}
    {fields : List Field} {build : Row → Placed (slot.Value → α)} (before : Builds fields build)
    (reads : ∀ source, slot.reader source (.ofJson default) = .ok value) :
    Builds (⟨key, slot, some default⟩ :: fields) fun row =>
      build row <*> row.optional key slot.reader value

namespace Builds

variable {α : Type} {fields : List Field} {key : String} {item : Slot}

theorem flag {build : Row → Placed (Bool → α)} (before : Builds fields build) :
    Builds (.flag key :: fields) fun row => build row <*> row.optional key .bool false :=
  .optional before fun _ => rfl

theorem listing {build : Row → Placed (List item.Value → α)} (before : Builds fields build) :
    Builds (.listing key item :: fields) fun row =>
      build row <*> row.optional key (.list item.reader) [] :=
  .optional before fun _ => rfl

theorem loc {build : Row → Placed (Span → α)} (before : Builds fields build) :
    Builds (.loc :: fields) fun row => build row <*> row.loc :=
  .optional before fun source => Span.reader_toJson Span.fits_synthetic source

theorem hash {build : Row → Placed (Hash Expression → α)} (before : Builds fields build) :
    Builds (.hash :: fields) fun row =>
      build row <*> row.optional "hash" (Hash.reader Expression.reader) .empty := by
  refine .optional before fun source => ?_
  have pairs := Json.list_nil (Pair.reader Expression.reader) source
  have span := Span.reader_toJson Span.fits_synthetic source
  show Hash.reader Expression.reader source
    (.ofJson (.object [("pairs", .array []), ("loc", Span.synthetic.toJson)])) = .ok .empty
  refine Json.record_of_distinct (by simp) ?_
  rw [Json.required_of_lookup rfl pairs, Row.loc, Json.optional_of_lookup rfl span]
  rfl

end Builds

/-- A record that is built from just these fields. -/
def IsRecord {α : Type} (fields : List Field) (read : Reader α) : Prop :=
  ∃ shape build, read = .record shape build ∧ shape.fields = fields.map Field.key ∧
    Builds fields.reverse build

/-- Every node is read from the fields that the schema lists, with the defaults that it gives. -/
theorem Kind.isRecord (kind : Kind) : IsRecord kind.fields kind.reader := by
  cases kind with
  | position => exact ⟨_, _, rfl, rfl, .required (.required (.pure _))⟩
  | span => exact ⟨_, _, rfl, rfl, .required (.required (.pure _))⟩
  | path => exact ⟨_, _, rfl, rfl, .loc (.required (.flag (.flag (.required (.pure _)))))⟩
  | pair => exact ⟨_, _, rfl, rfl, .loc (.required (.required (.pure _)))⟩
  | hash => exact ⟨_, _, rfl, rfl, .loc (.required (.pure _))⟩
  | call => exact ⟨_, _, rfl, rfl, .loc (.hash (.listing (.required (.pure _))))⟩
  | modifier => exact ⟨_, _, rfl, rfl, .loc (.hash (.listing (.required (.pure _))))⟩
  | stringLiteral => exact ⟨_, _, rfl, rfl, .loc (.required (.pure _))⟩
  | booleanLiteral => exact ⟨_, _, rfl, rfl, .loc (.required (.pure _))⟩
  | numberLiteral => exact ⟨_, _, rfl, rfl, .loc (.required (.pure _))⟩
  | nullLiteral => exact ⟨_, _, rfl, rfl, .loc (.pure _)⟩
  | undefinedLiteral => exact ⟨_, _, rfl, rfl, .loc (.pure _)⟩
  | mustache => exact ⟨_, _, rfl, rfl, .loc (.flag (.hash (.listing (.required (.pure _)))))⟩
  | text => exact ⟨_, _, rfl, rfl, .loc (.required (.pure _))⟩
  | comment => exact ⟨_, _, rfl, rfl, .loc (.required (.pure _))⟩
  | mustacheComment => exact ⟨_, _, rfl, rfl, .loc (.required (.pure _))⟩
  | concat => exact ⟨_, _, rfl, rfl, .loc (.required (.pure _))⟩
  | attributeNode => exact ⟨_, _, rfl, rfl, .loc (.required (.required (.pure _)))⟩
  | block => exact ⟨_, _, rfl, rfl, .loc (.listing (.required (.pure _)))⟩
  | blockNode =>
    exact ⟨_, _, rfl, rfl, .loc (.optional (.required (.hash (.listing (.required (.pure _)))))
      fun _ => rfl)⟩
  | element =>
    exact ⟨_, _, rfl, rfl, .loc (.flag (.listing (.listing (.listing (.listing
      (.required (.pure _)))))))⟩
  | template => exact ⟨_, _, rfl, rfl, .loc (.required (.pure _))⟩

/-! ### Variants -/

/-- A node of some kind as a member of a group, under its name. -/
def IsVariant (group : Group) (entry : String × Kind) (variant : String × Reader group.Value) :
    Prop :=
  entry.1 = variant.1 ∧ ∃ make : entry.2.Value → group.Value,
    variant.2 = fun source draft => make <$> entry.2.reader source draft

theorem eq_id_map {α : Type} (read : Reader α) :
    read = fun source draft => id <$> read source draft := by
  funext source draft
  exact (id_map _).symm

/-- A node that names its kind is read as a node of that kind. -/
theorem Group.isTagged (group : Group) : ∃ title variants,
    group.reader = .tagged title variants ∧
      List.Forall₂ (IsVariant group) group.kinds variants := by
  cases group with
  | expression =>
    exact ⟨_, _, Expression.reader_eq, .cons ⟨rfl, _, rfl⟩ (.cons ⟨rfl, _, eq_id_map _⟩
      (.cons ⟨rfl, _, eq_id_map _⟩ (.cons ⟨rfl, _, eq_id_map _⟩ (.cons ⟨rfl, _, eq_id_map _⟩
        (.cons ⟨rfl, _, eq_id_map _⟩ (.cons ⟨rfl, _, eq_id_map _⟩ .nil))))))⟩
  | concatPart => exact ⟨_, _, rfl, .cons ⟨rfl, _, rfl⟩ (.cons ⟨rfl, _, rfl⟩ .nil)⟩
  | attributeValue =>
    exact ⟨_, _, rfl, .cons ⟨rfl, _, rfl⟩ (.cons ⟨rfl, _, rfl⟩ (.cons ⟨rfl, _, eq_id_map _⟩ .nil))⟩
  | statement =>
    exact ⟨_, _, Statement.reader_eq, .cons ⟨rfl, _, rfl⟩ (.cons ⟨rfl, _, rfl⟩
      (.cons ⟨rfl, _, rfl⟩ (.cons ⟨rfl, _, rfl⟩ (.cons ⟨rfl, _, rfl⟩ (.cons ⟨rfl, _, rfl⟩
        .nil)))))⟩

section Variants

variable {group : Group} {kinds : List (String × Kind)}
  {variants : List (String × Reader group.Value)} {read : Reader group.Value}

theorem variant_of_lookup (each : List.Forall₂ (IsVariant group) kinds variants) {name : String}
    (found : variants.lookup name = some read) :
    ∃ kind, kinds.lookup name = some kind ∧ IsVariant group (name, kind) (name, read) := by
  induction each with
  | nil => cases found
  | @cons entry variant _ _ same _ ih =>
    obtain ⟨key, kind⟩ := entry
    obtain ⟨key', read'⟩ := variant
    obtain ⟨rfl, make, made⟩ := same
    rw [List.lookup_cons] at found ⊢
    cases test : name == key with
    | true =>
      rw [test] at found
      cases found
      exact ⟨kind, rfl, rfl, make, made⟩
    | false =>
      rw [test] at found
      exact ih found

theorem variant_of_mem (each : List.Forall₂ (IsVariant group) kinds variants) {name : String}
    (inside : (name, read) ∈ variants) : ∃ kind, IsVariant group (name, kind) (name, read) := by
  induction each with
  | nil => cases inside
  | @cons entry variant _ _ same _ ih =>
    rcases List.mem_cons.mp inside with rfl | later
    · obtain ⟨key, kind⟩ := entry
      obtain ⟨rfl, made⟩ := same
      exact ⟨kind, rfl, made⟩
    · exact ih later

end Variants

end Template.Schema

end TemplateCompiler

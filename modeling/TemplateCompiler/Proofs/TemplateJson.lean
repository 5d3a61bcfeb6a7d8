import TemplateCompiler.Proofs.TemplateRewriting

/-!
# Templates read back from their JSON

A template is read back from its JSON, whatever liberties are taken with the members of its nodes.
JSON has no numbers that are not finite, so there must be none in the template.
-/

namespace TemplateCompiler

open Json (Reader Source rowOf)

/-! ### What can be written -/

/-- A constant that has a JSON value. -/
def Literal.Writable : Literal → Prop
  | .number d => d.isFinite = true
  | _ => True

namespace Template

mutual

/-- An expression whose numbers are all finite. The positions in it have thirty-two bits. -/
def Expression.Writable : Expression → Prop
  | .path p => p.loc.Fits
  | .call callee params ⟨pairs, hashLoc⟩ loc =>
    callee.loc.Fits ∧ WritableExpressions params ∧ WritablePairs pairs ∧ hashLoc.Fits ∧ loc.Fits
  | .literal value loc => value.Writable ∧ loc.Fits

def WritableExpressions : List Expression → Prop
  | [] => True
  | e :: rest => e.Writable ∧ WritableExpressions rest

def WritablePairs : List (Pair Expression) → Prop
  | [] => True
  | ⟨_, value, loc⟩ :: rest => (value.Writable ∧ loc.Fits) ∧ WritablePairs rest

end

def Hash.Writable (h : Hash Expression) : Prop := WritablePairs h.pairs ∧ h.loc.Fits

structure Mustache.Writable (m : Mustache) : Prop where
  path : m.path.Writable
  params : WritableExpressions m.params
  hash : m.hash.Writable
  loc : m.loc.Fits

def ConcatPart.Writable : ConcatPart → Prop
  | .text node => node.loc.Fits
  | .mustache node => node.Writable

def AttributeValue.Writable : AttributeValue → Prop
  | .text node => node.loc.Fits
  | .mustache node => node.Writable
  | .concat parts loc => (∀ part ∈ parts, part.Writable) ∧ loc.Fits

structure Attribute.Writable (a : Attribute) : Prop where
  value : a.value.Writable
  loc : a.loc.Fits

structure Modifier.Writable (m : Modifier) : Prop where
  path : m.path.loc.Fits
  params : WritableExpressions m.params
  hash : m.hash.Writable
  loc : m.loc.Fits

mutual

def Statement.Writable : Statement → Prop
  | .mustache node => node.Writable
  | .block ⟨path, params, hash, program, inverse, loc⟩ =>
    path.loc.Fits ∧ WritableExpressions params ∧ hash.Writable ∧ WritableBlock program ∧
      WritableInverse inverse ∧ loc.Fits
  | .element ⟨_, attributes, modifiers, children, _, _, loc⟩ =>
    (∀ a ∈ attributes, a.Writable) ∧ (∀ m ∈ modifiers, m.Writable) ∧
      WritableStatements children ∧ loc.Fits
  | .text node => node.loc.Fits
  | .comment ⟨_, loc⟩ => loc.Fits
  | .mustacheComment ⟨_, loc⟩ => loc.Fits

def WritableBlock : Block Statement → Prop
  | ⟨body, _, loc⟩ => WritableStatements body ∧ loc.Fits

def WritableInverse : Option (Block Statement) → Prop
  | none => True
  | some block => WritableBlock block

def WritableStatements : List Statement → Prop
  | [] => True
  | s :: rest => s.Writable ∧ WritableStatements rest

end

/-- A template whose numbers are all finite. -/
structure Writable (t : Template) : Prop where
  body : WritableStatements t.body
  loc : t.loc.Fits

/-! ### Expressions -/

section Fields

variable {members : List (String × Json)} {shape : Json.Shape} {source : Source}

/-- A node inside a larger type is read through its name. -/
theorem tagged_withType {α β : Type} {title name : String} {variants : List (String × Reader β)}
    {read : Reader α} {make : α → β} {a : α} (noTag : "type" ∉ members.map Prod.fst)
    (listed : variants.lookup name = some fun source draft => make <$> read source draft)
    (reads : read .variant (.ofJson (.object members)) = .ok a) :
    Reader.tagged title variants source (.ofJson (withType name members)) = .ok (make a) :=
  (Json.tagged_cons_eq_ok noTag).mpr ⟨_, listed, map_eq_ok.mpr ⟨a, reads, rfl⟩⟩

theorem loc_of_lookup {loc : Span} (found : members.lookup "loc" = some loc.toJson)
    (fits : loc.Fits) : (rowOf shape source members).loc = .ok loc :=
  Json.optional_of_lookup found (Span.reader_toJson fits source)

end Fields

theorem Path.reader_members {p : Path} (fits : p.loc.Fits) (source : Source) :
    Path.reader source (.ofJson (.object p.members)) = .ok p := by
  have written : Reader.string source (.ofJson (.string p.written)) = .ok p.written := rfl
  have isThis : Reader.bool source (.ofJson (.bool p.isThis)) = .ok p.isThis := rfl
  have isArg : Reader.bool source (.ofJson (.bool p.isArg)) = .ok p.isArg := rfl
  have parts := Json.list_strings p.parts source
  refine Json.record_of_distinct (by simp [Path.members]) ?_
  rw [Json.required_of_lookup rfl written, Json.optional_of_lookup rfl isThis,
    Json.optional_of_lookup rfl isArg, Json.required_of_lookup rfl parts, loc_of_lookup rfl fits]
  rfl

/-- A number is read back as it was, also a negative zero. -/
theorem double_numberJson {d : Double} (finite : d.isFinite = true) (source : Source) :
    Reader.double source (.ofJson (numberJson d)) = .ok d := by
  rw [numberJson, if_pos finite]
  rfl

namespace Expression

theorem literalReader_members {α : Type} {read : Reader α} {make : α → Literal} {j : Json}
    {value : α} {source : Source} (reads : read source (.ofJson j) = .ok value) {loc : Span}
    (fits : loc.Fits) (kind : String) :
    literalReader kind read make source (.ofJson (.object [("value", j), ("loc", loc.toJson)])) =
      .ok (.literal (make value) loc) := by
  refine Json.record_of_distinct (by simp) ?_
  rw [Json.required_of_lookup rfl reads, loc_of_lookup rfl fits]
  rfl

theorem bareReader_members {loc : Span} (fits : loc.Fits) (kind : String) (value : Literal)
    (source : Source) :
    bareReader kind value source (.ofJson (.object [("loc", loc.toJson)])) =
      .ok (.literal value loc) := by
  refine Json.record_of_distinct (by simp) ?_
  rw [loc_of_lookup rfl fits]
  rfl

theorem reader_literalJson {value : Literal} (writable : value.Writable) {loc : Span}
    (fits : loc.Fits) (source : Source) :
    reader source (.ofJson (literalJson value loc)) = .ok (.literal value loc) := by
  rw [reader_eq]
  cases value with
  | string s =>
    exact (Json.tagged_cons_eq_ok (by simp)).mpr ⟨_, rfl, literalReader_members rfl fits _⟩
  | boolean b =>
    exact (Json.tagged_cons_eq_ok (by simp)).mpr ⟨_, rfl, literalReader_members rfl fits _⟩
  | number d =>
    have number := double_numberJson writable .variant
    exact (Json.tagged_cons_eq_ok (by simp)).mpr ⟨_, rfl, literalReader_members number fits _⟩
  | null => exact (Json.tagged_cons_eq_ok (by simp)).mpr ⟨_, rfl, bareReader_members fits _ _ _⟩
  | undefined =>
    exact (Json.tagged_cons_eq_ok (by simp)).mpr ⟨_, rfl, bareReader_members fits _ _ _⟩

end Expression

/-- What is read from the JSON of some named arguments. -/
theorem Hash.reader_of_pairs {pairs : List (Pair Expression)} {items : List Json} {source : Source}
    (reads : Reader.list (Pair.reader Expression.reader) source (.ofJson (.array items)) =
      .ok pairs)
    {loc : Span} (fits : loc.Fits) :
    Hash.reader Expression.reader source
      (.ofJson (.object [("pairs", .array items), ("loc", loc.toJson)])) = .ok ⟨pairs, loc⟩ := by
  refine Json.record_of_distinct (by simp) ?_
  rw [Json.required_of_lookup rfl reads, loc_of_lookup rfl fits]
  rfl

-- Whatever stands inside a node with a tag is read from members that were set aside for it, which
-- is a source of its own; so the source varies in the induction.
mutual

/-- An expression that was written is read again. -/
theorem Expression.reader_toJson : (e : Expression) → e.Writable → (source : Source) →
    Expression.reader source (.ofJson e.toJson) = .ok e
  | .path p, fits, source => by
    rw [Expression.reader_eq, Expression.toJson]
    exact tagged_withType (by simp [Path.members]) rfl (Path.reader_members fits .variant)
  | .call callee params ⟨pairs, hashLoc⟩ loc, writable, source => by
    obtain ⟨calleeFits, paramsWritable, pairsWritable, hashFits, fits⟩ := writable
    have path := Path.reader_members calleeFits .variant
    have params_ := reader_expressionsJson params paramsWritable .variant
    have hash := Hash.reader_of_pairs (reader_pairsJson pairs pairsWritable .variant) hashFits
    rw [Expression.reader_eq, Expression.toJson]
    refine (Json.tagged_cons_eq_ok (by simp)).mpr ⟨_, rfl, Json.record_of_distinct (by simp) ?_⟩
    rw [Json.required_of_lookup rfl path, Json.optional_of_lookup rfl params_,
      Json.optional_of_lookup rfl hash, loc_of_lookup rfl fits]
    rfl
  | .literal value loc, writable, source =>
    Expression.reader_literalJson writable.1 writable.2 source

theorem reader_expressionsJson : (es : List Expression) → WritableExpressions es →
    (source : Source) →
    Reader.list Expression.reader source (.ofJson (.array (expressionsJson es))) = .ok es
  | [], _, source => Json.list_nil _ source
  | e :: rest, writable, source =>
    Json.list_cons_eq_ok.mpr ⟨e, rest, e.reader_toJson writable.1 source,
      reader_expressionsJson rest writable.2 source, rfl⟩

theorem reader_pairsJson : (pairs : List (Pair Expression)) → WritablePairs pairs →
    (source : Source) →
    Reader.list (Pair.reader Expression.reader) source (.ofJson (.array (pairsJson pairs))) =
      .ok pairs
  | [], _, source => Json.list_nil _ source
  | ⟨key, value, loc⟩ :: rest, ⟨writable, others⟩, source => by
    have key_ : Reader.string source (.ofJson (.string key)) = .ok key := rfl
    have value_ := value.reader_toJson writable.1 source
    refine Json.list_cons_eq_ok.mpr ⟨⟨key, value, loc⟩, rest, ?_,
      reader_pairsJson rest others source, rfl⟩
    refine Json.record_of_distinct (by simp) ?_
    rw [Json.required_of_lookup rfl key_, Json.required_of_lookup rfl value_,
      loc_of_lookup rfl writable.2]
    rfl

end

theorem Hash.reader_pairs {h : Hash Expression} (writable : h.Writable) (source : Source) :
    Hash.reader Expression.reader source
      (.ofJson (.object [("pairs", .array (pairsJson h.pairs)), ("loc", h.loc.toJson)])) = .ok h :=
  Hash.reader_of_pairs (reader_pairsJson h.pairs writable.1 source) writable.2

/-! ### Statements -/

theorem Mustache.reader_members {m : Mustache} (writable : m.Writable) (source : Source) :
    Mustache.reader source (.ofJson (.object m.members)) = .ok m := by
  have path := m.path.reader_toJson writable.path source
  have params := reader_expressionsJson m.params writable.params source
  have hash := Hash.reader_pairs writable.hash source
  have trusting : Reader.bool source (.ofJson (.bool m.trusting)) = .ok m.trusting := rfl
  refine Json.record_of_distinct (by simp [Mustache.members, argumentMembers]) ?_
  rw [Json.required_of_lookup rfl path, Json.optional_of_lookup rfl params,
    Json.optional_of_lookup rfl hash, Json.optional_of_lookup rfl trusting,
    loc_of_lookup rfl writable.loc]
  rfl

theorem Mustache.type_notMem_members (m : Mustache) : "type" ∉ m.members.map Prod.fst := by
  simp [Mustache.members, argumentMembers]

theorem TextNode.reader_members {t : TextNode} (fits : t.loc.Fits) (source : Source) :
    TextNode.reader source (.ofJson (.object t.members)) = .ok t := by
  have chars : Reader.string source (.ofJson (.string t.chars)) = .ok t.chars := rfl
  refine Json.record_of_distinct (by simp [TextNode.members]) ?_
  rw [Json.required_of_lookup rfl chars, loc_of_lookup rfl fits]
  rfl

theorem TextNode.type_notMem_members (t : TextNode) : "type" ∉ t.members.map Prod.fst := by
  simp [TextNode.members]

theorem CommentNode.reader_members {c : CommentNode} (fits : c.loc.Fits) (title : String)
    (source : Source) :
    CommentNode.reader title source
      (.ofJson (.object [("value", .string c.value), ("loc", c.loc.toJson)])) = .ok c := by
  have value : Reader.string source (.ofJson (.string c.value)) = .ok c.value := rfl
  refine Json.record_of_distinct (by simp) ?_
  rw [Json.required_of_lookup rfl value, loc_of_lookup rfl fits]
  rfl

theorem ConcatPart.reader_toJson {part : ConcatPart} (writable : part.Writable) (source : Source) :
    ConcatPart.reader source (.ofJson part.toJson) = .ok part := by
  cases part with
  | text node =>
    exact tagged_withType node.type_notMem_members rfl (TextNode.reader_members writable .variant)
  | mustache node =>
    exact tagged_withType node.type_notMem_members rfl (Mustache.reader_members writable .variant)

theorem AttributeValue.reader_toJson {value : AttributeValue} (writable : value.Writable)
    (source : Source) : AttributeValue.reader source (.ofJson value.toJson) = .ok value := by
  cases value with
  | text node =>
    exact tagged_withType node.type_notMem_members rfl (TextNode.reader_members writable .variant)
  | mustache node =>
    exact tagged_withType node.type_notMem_members rfl (Mustache.reader_members writable .variant)
  | concat parts loc =>
    obtain ⟨each, fits⟩ := writable
    have parts_ : Reader.list ConcatPart.reader .variant
        (.ofJson (.array (parts.map ConcatPart.toJson))) = .ok parts :=
      Json.list_map fun part inside => ConcatPart.reader_toJson (each part inside) .variant
    refine (Json.tagged_cons_eq_ok (by simp)).mpr ⟨_, rfl, Json.record_of_distinct (by simp) ?_⟩
    rw [Json.required_of_lookup rfl parts_, loc_of_lookup rfl fits]
    rfl

theorem Attribute.reader_toJson {a : Attribute} (writable : a.Writable) (source : Source) :
    Attribute.reader source (.ofJson a.toJson) = .ok a := by
  have name : Reader.string source (.ofJson (.string a.name)) = .ok a.name := rfl
  have value := AttributeValue.reader_toJson writable.value source
  refine Json.record_of_distinct (by simp) ?_
  rw [Json.required_of_lookup rfl name, Json.required_of_lookup rfl value,
    loc_of_lookup rfl writable.loc]
  rfl

theorem Modifier.reader_toJson {m : Modifier} (writable : m.Writable) (source : Source) :
    Modifier.reader source (.ofJson m.toJson) = .ok m := by
  have path := Path.reader_members writable.path source
  have params := reader_expressionsJson m.params writable.params source
  have hash := Hash.reader_pairs writable.hash source
  refine Json.record_of_distinct (by simp [argumentMembers]) ?_
  rw [Json.required_of_lookup rfl path, Json.optional_of_lookup rfl params,
    Json.optional_of_lookup rfl hash, loc_of_lookup rfl writable.loc]
  rfl

mutual

/-- A statement that was written is read again. -/
theorem Statement.reader_toJson : (s : Statement) → s.Writable → (source : Source) →
    Statement.reader source (.ofJson s.toJson) = .ok s
  | .mustache node, writable, source => by
    rw [Statement.reader_eq, Statement.toJson]
    exact tagged_withType node.type_notMem_members rfl (Mustache.reader_members writable .variant)
  | .block ⟨path, params, hash, program, inverse, loc⟩, writable, source => by
    obtain ⟨pathFits, paramsWritable, hashWritable, programWritable, inverseWritable, fits⟩ :=
      writable
    have path_ := Path.reader_members pathFits .variant
    have params_ := reader_expressionsJson params paramsWritable .variant
    have hash_ := Hash.reader_pairs hashWritable .variant
    have program_ := reader_blockJson program programWritable .variant
    have inverse_ := reader_inverseJson inverse inverseWritable .variant
    rw [Statement.reader_eq, Statement.toJson]
    refine tagged_withType (by simp [argumentMembers]) rfl
      (Json.record_of_distinct (by simp [argumentMembers]) ?_)
    rw [Json.required_of_lookup rfl path_, Json.optional_of_lookup rfl params_,
      Json.optional_of_lookup rfl hash_, Json.required_of_lookup rfl program_,
      Json.optional_of_lookup rfl inverse_, loc_of_lookup rfl fits]
    rfl
  | .element ⟨tag, attributes, modifiers, children, blockParams, selfClosing, loc⟩, writable,
      source => by
    obtain ⟨attributesWritable, modifiersWritable, childrenWritable, fits⟩ := writable
    have tag_ : Reader.string .variant (.ofJson (.string tag)) = .ok tag := rfl
    have attributes_ : Reader.list Attribute.reader .variant
        (.ofJson (.array (attributes.map Attribute.toJson))) = .ok attributes :=
      Json.list_map fun a inside => Attribute.reader_toJson (attributesWritable a inside) .variant
    have modifiers_ : Reader.list Modifier.reader .variant
        (.ofJson (.array (modifiers.map Modifier.toJson))) = .ok modifiers :=
      Json.list_map fun m inside => Modifier.reader_toJson (modifiersWritable m inside) .variant
    have children_ := reader_statementsJson children childrenWritable .variant
    have blockParams_ := Json.list_strings blockParams .variant
    have selfClosing_ : Reader.bool .variant (.ofJson (.bool selfClosing)) = .ok selfClosing := rfl
    rw [Statement.reader_eq, Statement.toJson]
    refine tagged_withType (by simp) rfl (Json.record_of_distinct (by simp) ?_)
    rw [Json.required_of_lookup rfl tag_, Json.optional_of_lookup rfl attributes_,
      Json.optional_of_lookup rfl modifiers_, Json.optional_of_lookup rfl children_,
      Json.optional_of_lookup rfl blockParams_, Json.optional_of_lookup rfl selfClosing_,
      loc_of_lookup rfl fits]
    rfl
  | .text node, fits, source => by
    rw [Statement.reader_eq, Statement.toJson]
    exact tagged_withType node.type_notMem_members rfl (TextNode.reader_members fits .variant)
  | .comment node, fits, source => by
    rw [Statement.reader_eq, Statement.toJson]
    exact tagged_withType (by simp) rfl (CommentNode.reader_members fits _ .variant)
  | .mustacheComment node, fits, source => by
    rw [Statement.reader_eq, Statement.toJson]
    exact tagged_withType (by simp) rfl (CommentNode.reader_members fits _ .variant)

theorem reader_blockJson : (block : Block Statement) → WritableBlock block → (source : Source) →
    Block.reader Statement.reader source (.ofJson (blockJson block)) = .ok block
  | ⟨body, params, loc⟩, ⟨writable, fits⟩, source => by
    have body_ := reader_statementsJson body writable source
    have params_ := Json.list_strings params source
    refine Json.record_of_distinct (by simp) ?_
    rw [Json.required_of_lookup rfl body_, Json.optional_of_lookup rfl params_,
      loc_of_lookup rfl fits]
    rfl

theorem reader_inverseJson : (inverse : Option (Block Statement)) → WritableInverse inverse →
    (source : Source) →
    Reader.orNull (Block.reader Statement.reader) source (.ofJson (inverseJson inverse)) =
      .ok inverse
  | none, _, _ => rfl
  | some ⟨body, params, loc⟩, writable, source =>
    map_eq_ok.mpr ⟨_, reader_blockJson ⟨body, params, loc⟩ writable source, rfl⟩

theorem reader_statementsJson : (body : List Statement) → WritableStatements body →
    (source : Source) →
    Reader.list Statement.reader source (.ofJson (.array (statementsJson body))) = .ok body
  | [], _, source => Json.list_nil _ source
  | s :: rest, writable, source =>
    Json.list_cons_eq_ok.mpr ⟨s, rest, s.reader_toJson writable.1 source,
      reader_statementsJson rest writable.2 source, rfl⟩

end

/-! ### A template in few words -/

def negativeZero : Double := ⟨0x8000000000000000⟩

def greetPath : Path := ⟨"greet", false, false, ["greet"], .synthetic⟩

/-- A mustache that passes a negative zero to `greet`. -/
def greetMustache : Mustache :=
  ⟨.path greetPath, [.literal (.number negativeZero) .synthetic], .empty, false, .synthetic⟩

def greeting : Template := ⟨[.mustache greetMustache], .synthetic⟩

theorem greeting_writable : greeting.Writable := by
  have fits := Span.fits_synthetic
  have zero : Literal.Writable (.number negativeZero) := by
    show negativeZero.isFinite = true
    decide
  have arguments : WritableExpressions [.literal (.number negativeZero) .synthetic] :=
    ⟨⟨zero, fits⟩, trivial⟩
  exact ⟨⟨⟨fits, arguments, ⟨trivial, fits⟩, fits⟩, trivial⟩, fits⟩

/-- The constant without its span, and with its tag last. -/
def briefZero : Json :=
  .object [("value", .number (.double negativeZero)), ("type", .string "NumberLiteral")]

def briefPath : Json :=
  .object [("type", .string "PathExpression"), ("original", .string "greet"),
    ("remark", .null), ("parts", .strings ["greet"])]

def briefMustache : Json :=
  .object [("params", .array [briefZero]), ("path", briefPath),
    ("type", .string "MustacheStatement")]

def briefGreeting : Json := .object [("body", .array [briefMustache])]

theorem rewrites_briefZero :
    Schema.Rewrites (.tagged .expression)
      (Expression.literal (.number negativeZero) .synthetic).toJson briefZero := by
  have number : numberJson negativeZero = .number (.double negativeZero) := if_pos (by decide)
  have bare : Schema.Rewrites (.node .numberLiteral)
      (.object [("value", numberJson negativeZero), ("loc", Span.synthetic.toJson)])
      (.object [("value", numberJson negativeZero)]) :=
    .drop_middle (f := .loc) [_] [] (by simp [Schema.Kind.fields]) rfl (.refl _)
  rw [briefZero, ← number]
  exact .trans (.tagged rfl bare) (.permuteTagged (.swap _ _ _))

theorem rewrites_briefPath :
    Schema.Rewrites (.tagged .expression) (Expression.path greetPath).toJson briefPath := by
  have bare := calc
    Schema.Rewrites (.node .path) (.object greetPath.members)
        (.object [("original", .string "greet"), ("this", .bool false), ("data", .bool false),
          ("parts", .strings ["greet"])]) :=
      .drop_middle (f := .loc) [_, _, _, _] [] (by simp [Schema.Kind.fields]) rfl (.refl _)
    Schema.Rewrites (.node .path) _
        (.object [("original", .string "greet"), ("data", .bool false),
          ("parts", .strings ["greet"])]) :=
      .drop_middle (f := .flag "this") [_] [_, _] (by simp [Schema.Kind.fields]) rfl (.refl _)
    Schema.Rewrites (.node .path) _
        (.object [("original", .string "greet"), ("parts", .strings ["greet"])]) :=
      .drop_middle (f := .flag "data") [_] [_] (by simp [Schema.Kind.fields]) rfl (.refl _)
    Schema.Rewrites (.node .path) _
        (.object [("original", .string "greet"), ("remark", .null),
          ("parts", .strings ["greet"])]) :=
      .add_middle .null [_] [_] (by decide) (by decide)
  exact .tagged rfl bare

theorem rewrites_briefMustache :
    Schema.Rewrites (.tagged .statement) greetMustache.toJson briefMustache := by
  have argument : Schema.Rewrites (.list (.tagged .expression)) _ (.array [briefZero]) :=
    .head [] rewrites_briefZero
  have bare := calc
    Schema.Rewrites (.node .mustache) (.object greetMustache.members)
        (.object [("path", briefPath), ("params", _), ("hash", _), ("trusting", _), ("loc", _)]) :=
      .field (f := .required "path" _) _ (by simp [Schema.Kind.fields]) rewrites_briefPath
    Schema.Rewrites (.node .mustache) _
        (.object [("path", briefPath), ("params", .array [briefZero]), ("hash", _),
          ("trusting", _), ("loc", _)]) :=
      .field_middle (f := .listing "params" _) [_] _ (by simp [Schema.Kind.fields]) argument
    Schema.Rewrites (.node .mustache) _
        (.object [("path", briefPath), ("params", .array [briefZero]), ("trusting", _),
          ("loc", _)]) :=
      .drop_middle (f := .hash) [_, _] _ (by simp [Schema.Kind.fields]) rfl (.refl _)
    Schema.Rewrites (.node .mustache) _
        (.object [("path", briefPath), ("params", .array [briefZero]), ("loc", _)]) :=
      .drop_middle (f := .flag "trusting") [_, _] _ (by simp [Schema.Kind.fields]) rfl (.refl _)
    Schema.Rewrites (.node .mustache) _
        (.object [("path", briefPath), ("params", .array [briefZero])]) :=
      .drop_middle (f := .loc) [_, _] [] (by simp [Schema.Kind.fields]) rfl (.refl _)
  have tagged : Schema.Rewrites (.tagged .statement) greetMustache.toJson
      (withType "MustacheStatement" [("path", briefPath), ("params", .array [briefZero])]) :=
    .tagged rfl bare
  exact tagged.trans (.permuteTagged (List.reverse_perm _).symm)

theorem rewrites_briefGreeting :
    Schema.Rewrites (.node .template) greeting.toJson briefGreeting := by
  have body : Schema.Rewrites (.list (.tagged .statement)) _ (.array [briefMustache]) :=
    .head [] rewrites_briefMustache
  calc
    Schema.Rewrites (.node .template) greeting.toJson
        (.object [("body", .array [briefMustache]), ("loc", Span.synthetic.toJson)]) :=
      .field (f := .required "body" _) _ (by simp [Schema.Kind.fields]) body
    Schema.Rewrites (.node .template) _ briefGreeting :=
      .drop_middle (f := .loc) [_] [] (by simp [Schema.Kind.fields]) rfl (.refl _)

/-! ### Templates -/

/-- A template that was written is read again. -/
theorem reader_toJson {t : Template} (writable : t.Writable) (source : Source) :
    Template.reader source (.ofJson t.toJson) = .ok t := by
  have body := reader_statementsJson t.body writable.body source
  refine Json.record_of_distinct (by simp) ?_
  rw [Json.required_of_lookup rfl body, loc_of_lookup rfl writable.loc]
  rfl

/-- A template whose numbers are finite is read back from its JSON. So it is from whatever the JSON
becomes when members of nodes are put in another order, the tag among them, when members that no
field asks for are added, and when fields that hold their defaults are left out. -/
theorem ofJson_of_rewrites {t : Template} (writable : t.Writable) :
    ofJson t.toJson = .ok t ∧
      ∀ j, Schema.Rewrites (.node .template) t.toJson j → ofJson j = .ok t := by
  have written := reader_toJson writable .value
  exact ⟨written, fun j rewrites => rewrites.unnoticed .value t written⟩

theorem ofJson_briefGreeting : greeting.Writable ∧ ofJson briefGreeting = .ok greeting :=
  ⟨greeting_writable,
    (ofJson_of_rewrites greeting_writable).2 briefGreeting rewrites_briefGreeting⟩

end Template

end TemplateCompiler

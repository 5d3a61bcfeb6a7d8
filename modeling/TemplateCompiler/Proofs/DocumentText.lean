import TemplateCompiler.Proofs.JsonText
import TemplateCompiler.Proofs.WireRoundTrip
import TemplateCompiler.Wire.Document

/-!
# Texts of compiled templates

The text of a compiled template whose numbers are whole gives the template back, unless it is nested
too deep. The outer object and the list of statements take two levels of the room there is, and each
statement is read with what remains.
-/

namespace TemplateCompiler

/-! ### Whole numbers -/

/-- A whole number below `2 ^ 53` in absolute value. -/
def Double.IsWhole (d : Double) : Prop :=
  d.isFinite = true ∧ ∃ n < Nat.pow 2 53, d.magnitude = n * Double.unitsPerOne

/-- A whole double is a whole number below `2 ^ 53`. -/
theorem Double.IsWhole.integer? {d : Double} (whole : d.IsWhole) :
    ∃ n : Int, d.integer? = some n ∧ n.natAbs < Nat.pow 2 53 := by
  obtain ⟨finite, n, small, value⟩ := whole
  have positive : 0 < unitsPerOne := by decide +kernel
  have quotient : d.magnitude / unitsPerOne = n := by rw [value, Nat.mul_div_cancel n positive]
  have exact_ : d.magnitude % unitsPerOne = 0 := by rw [value, Nat.mul_mod_left]
  refine ⟨if d.isNegative then -n else n, ?_, ?_⟩
  · simp [Double.integer?, finite, exact_, quotient, small]
  · split <;> simpa using small

/-! ### What is written -/

namespace Wire

/-- A value that a text and a reader of any value leave as it is. -/
structure Plain (j : Json) : Prop where
  whole : j.Whole
  tidy : j.tidy = j

theorem plain_null : Plain .null := ⟨trivial, rfl⟩

theorem plain_bool (b : Bool) : Plain (.bool b) := ⟨trivial, rfl⟩

theorem plain_string (s : String) : Plain (.string s) := ⟨trivial, rfl⟩

/-- Whole numbers below `2 ^ 53` read back as they were written. -/
theorem plain_ofInt {n : Int} (small : n.natAbs < Nat.pow 2 53) : Plain (.ofInt n) := by
  refine ⟨?_, rfl⟩
  simp only [Json.ofInt, Json.Whole, Json.Number.Whole, Nat.pow_eq] at *
  omega

theorem plain_ofNat {n : Nat} (fits : Fits n) : Plain (.ofNat n) := by
  refine plain_ofInt ?_
  simp only [Fits, Int.natAbs_natCast, Nat.pow_eq] at *
  omega

theorem tidyItems_eq_map (items : List Json) : Json.tidyItems items = items.map Json.tidy := by
  induction items with
  | nil => rfl
  | cons item rest ih => rw [Json.tidyItems, ih, List.map_cons]

/-- An array is plain if its items are. -/
theorem plain_array {items : List Json} (each : ∀ item ∈ items, Plain item) :
    Plain (.array items) := by
  refine ⟨Json.wholeItems_iff.mpr fun item inside => (each item inside).whole, ?_⟩
  rw [Json.tidy, tidyItems_eq_map, map_eq_self fun item inside => (each item inside).tidy]

theorem plain_map {α : Type} {f : α → Json} {list : List α} (each : ∀ a ∈ list, Plain (f a)) :
    Plain (.array (list.map f)) :=
  plain_array (List.forall_mem_map.mpr each)

theorem plain_strings (texts : List String) : Plain (.strings texts) :=
  plain_map fun s _ => plain_string s

theorem plain_nats {slots : List Nat} (fits : ∀ n ∈ slots, Fits n) : Plain (.nats slots) :=
  plain_map fun n listed => plain_ofNat (fits n listed)

theorem plain_blockObject {items : List Json} {slots : List Nat}
    (each : ∀ item ∈ items, Plain item) (fits : ∀ n ∈ slots, Fits n) :
    Plain (blockObject items slots) := by
  have parameters := plain_nats fits
  have statements := plain_array each
  refine ⟨⟨parameters.whole, statements.whole, trivial⟩, ?_⟩
  have other : "statements" ≠ "parameters" := by decide
  have later : ¬ "statements" < "parameters" := by decide
  rw [blockObject, Json.tidy, Json.tidyMembers, Json.tidyMembers, Json.tidyMembers, parameters.tidy,
    statements.tidy]
  simp [Json.insertMember, other, later]

theorem plain_tuple (op : Opcode) {operands : List Json}
    (each : ∀ operand ∈ operands, Plain operand) : Plain (tuple op operands) := by
  refine plain_array (List.forall_mem_cons.mpr ⟨plain_ofNat ?_, each⟩)
  cases op <;> decide

theorem plain_listOrNull {items : List Json} (each : ∀ item ∈ items, Plain item) :
    Plain (listOrNull items) := by
  rw [listOrNull]
  split
  · exact plain_null
  · exact plain_array each

/-- A whole number is written plainly. -/
theorem plain_encodeNumber {d : Double} (whole : d.IsWhole) : Plain (encodeNumber d) := by
  obtain ⟨n, found, small⟩ := whole.integer?
  rw [encodeNumber, found]
  exact plain_ofInt small

theorem plain_params {params : List Expression} (each : ∀ e ∈ params, Plain e.encode) :
    Plain (encodeParams params) := by
  rw [encodeParams, encodeExpressions_eq_map]
  exact plain_listOrNull (List.forall_mem_map.mpr each)

theorem plain_pair {keys : List String} {values : List Json} (each : ∀ j ∈ values, Plain j) :
    Plain (.array [.strings keys, .array values]) :=
  plain_array (by simp [plain_strings, plain_array each])

theorem plain_hash {hash : List (String × Expression)}
    (each : ∀ e ∈ hash.map Prod.snd, Plain e.encode) : Plain (encodeHash hash) := by
  cases hash with
  | nil => exact plain_null
  | cons entry rest =>
    have values : ∀ j ∈ encodeValues (entry :: rest), Plain j := by
      rw [encodeValues_eq_map]
      exact List.forall_mem_map.mpr fun entry inside => each _ (List.mem_map_of_mem inside)
    exact plain_pair values

/-- A head with its arguments. -/
theorem plain_call {op : Opcode} {head params hash : Json} (first : Plain head)
    (positional : Plain params) (named : Plain hash) : Plain (tuple op [head, params, hash]) :=
  plain_tuple op (by simp [first, positional, named])

theorem plain_attributeName (name : String) : Plain (encodeAttributeName name) := by
  rw [encodeAttributeName]
  split
  · next common =>
    have few : commonAttributes.idxOf name < 7 := List.idxOf_lt_length_of_mem common
    refine plain_ofNat ?_
    simp only [Fits, Nat.pow_eq]
    omega
  · exact plain_string name

/-- The encoding of an expression is plain, if its numbers are whole and its slots fit. -/
theorem Expression.plain_encode {e : Expression} (whole : ∀ d ∈ e.numbers, d.IsWhole)
    (fits : ∀ n ∈ e.words, Fits n) : Plain e.encode := by
  induction e using Expression.induction with
  | step e ih =>
  have part : ∀ k ∈ e.inner, Plain k.encode := fun k within =>
    ih k within (fun d found => whole d (mem_filterMap_parts.mpr (.inr ⟨k, within, found⟩)))
      fun n found => fits n (mem_filterMap_parts.mpr (.inr ⟨k, within, found⟩))
  have number : ∀ d, e.number? = some d → d.IsWhole :=
    fun d own => whole d (mem_filterMap_parts.mpr (.inl own))
  have word : ∀ n, e.word? = some n → Plain (.ofNat n) :=
    fun n own => plain_ofNat (fits n (mem_filterMap_parts.mpr (.inl own)))
  cases e with
  | undefined => exact plain_tuple _ (List.forall_mem_nil _)
  | value v =>
    cases v with
    | string s => exact plain_string s
    | number d => exact plain_encodeNumber (number d rfl)
    | boolean b => exact plain_bool b
    | null => exact plain_null
  | getSymbol slot => exact plain_tuple _ (List.forall_mem_singleton.mpr (word slot rfl))
  | getFree index => exact plain_tuple _ (List.forall_mem_singleton.mpr (word index rfl))
  | getContextualFree index context =>
    exact plain_tuple _ (List.forall_mem_singleton.mpr (word index rfl))
  | getPath head tail =>
    exact plain_tuple _ (List.forall_mem_cons.mpr ⟨part head List.mem_cons_self,
      List.forall_mem_singleton.mpr (plain_strings tail)⟩)
  | concat list => exact plain_tuple _ (List.forall_mem_singleton.mpr (plain_params part))
  | call head params hash =>
    obtain ⟨first, others⟩ := List.forall_mem_cons.mp part
    obtain ⟨positional, named⟩ := List.forall_mem_append.mp others
    exact plain_call first (plain_params positional) (plain_hash named)
  | hasBlock block | hasBlockParams block =>
    exact plain_tuple _ (List.forall_mem_singleton.mpr (part block List.mem_cons_self))

theorem InlineBlock.plain_encode_of_each {block : InlineBlock Statement}
    (fits : ∀ n ∈ block.parameters, Fits n) (each : ∀ s ∈ block.statements, Plain s.encode) :
    Plain block.encode := by
  rw [encode, encodeStatements_eq_map]
  exact plain_blockObject (List.forall_mem_map.mpr each) fits

theorem plain_blocks {blocks : List (String × InlineBlock Statement)}
    (each : ∀ b ∈ blocks.map Prod.snd, Plain b.encode) :
    Plain (blockTable (blocks.map Prod.fst) (encodeBodies blocks)) := by
  rw [blockTable, encodeBodies_eq_map]
  refine plain_pair (List.forall_mem_map.mpr fun entry inside => ?_)
  exact each entry.2 (List.mem_map_of_mem inside)

/-- The encoding of a statement is plain, if its numbers are whole and its slots fit. -/
theorem Statement.plain_encode {s : Statement} (whole : ∀ d ∈ s.numbers, d.IsWhole)
    (fits : ∀ n ∈ s.words, Fits n) : Plain s.encode := by
  induction s using Statement.induction with
  | step s ih =>
  have expression : ∀ e ∈ s.expressions, Plain e.encode := fun e here =>
    Expression.plain_encode (fun d found => whole d (mem_numbers.mpr (.inl ⟨e, here, found⟩)))
      fun n found => fits n (mem_words.mpr (.inr (.inl ⟨e, here, found⟩)))
  have given : ∀ k ∈ s.attributes, Plain k.encode := fun k here =>
    ih k (List.mem_append_left _ here)
      (fun d found => whole d (mem_numbers.mpr (.inr (.inl ⟨k, here, found⟩))))
      fun n found => fits n (mem_words.mpr (.inr (.inr (.inl ⟨k, here, found⟩))))
  have body : ∀ b ∈ s.blocks, Plain b.encode := by
    intro b here
    have inside : ∀ n ∈ b.words, Fits n :=
      fun n found => fits n (mem_words.mpr (.inr (.inr (.inr ⟨b, here, found⟩))))
    refine InlineBlock.plain_encode_of_each
      (fun n listed => inside n (List.mem_append_left _ listed)) fun k deeper => ih k ?_ ?_ ?_
    · exact List.mem_append_right _ (List.mem_flatMap.mpr ⟨b, here, deeper⟩)
    · intro d found
      exact whole d (mem_numbers.mpr
        (.inr (.inr ⟨b, here, List.mem_flatMap.mpr ⟨k, deeper, found⟩⟩)))
    · intro n found
      exact inside n (List.mem_append_right _ (List.mem_flatMap.mpr ⟨k, deeper, found⟩))
  have slot : ∀ n ∈ s.ownSlots, Fits n := fun n own => fits n (mem_words.mpr (.inl own))
  cases s with
  | append value | trustingAppend value =>
    exact plain_tuple _ (List.forall_mem_singleton.mpr (expression value List.mem_cons_self))
  | comment text | openElement text | openElementWithSplat text =>
    exact plain_tuple _ (List.forall_mem_singleton.mpr (plain_string text))
  | flushElement | closeElement => exact plain_tuple _ (List.forall_mem_nil _)
  | modifier head params hash =>
    obtain ⟨first, others⟩ := List.forall_mem_cons.mp expression
    obtain ⟨positional, named⟩ := List.forall_mem_append.mp others
    exact plain_call first (plain_params positional) (plain_hash named)
  | block head params hash table =>
    obtain ⟨first, others⟩ := List.forall_mem_cons.mp expression
    obtain ⟨positional, named⟩ := List.forall_mem_append.mp others
    exact plain_tuple _
      (by simp [first, plain_params positional, plain_hash named, plain_blocks body])
  | component tag attrs args table =>
    obtain ⟨first, named⟩ := List.forall_mem_cons.mp expression
    have attributes : Plain (.array (encodeStatements attrs)) := by
      rw [encodeStatements_eq_map]
      exact plain_map given
    cases table with
    | none => exact plain_tuple _ (by simp [first, attributes, plain_hash named, plain_null])
    | some table =>
      have bodies : Plain (blockTable (table.map Prod.fst) (encodeBodies table)) :=
        plain_blocks body
      exact plain_tuple _ (by simp [first, attributes, plain_hash named, bodies])
  | attr kind name value space =>
    refine plain_tuple _ (List.forall_mem_cons.mpr ⟨plain_attributeName name,
      List.forall_mem_cons.mpr ⟨expression value List.mem_cons_self, ?_⟩⟩)
    exact List.forall_mem_map.mpr fun text _ => plain_string text
  | staticArg name value | dynamicArg name value =>
    exact plain_tuple _ (List.forall_mem_cons.mpr ⟨plain_string name,
      List.forall_mem_singleton.mpr (expression value List.mem_cons_self)⟩)
  | attrSplat n =>
    exact plain_tuple _ (List.forall_mem_singleton.mpr (plain_ofNat (slot n List.mem_cons_self)))
  | yield n params =>
    exact plain_tuple _ (List.forall_mem_cons.mpr ⟨plain_ofNat (slot n List.mem_cons_self),
      List.forall_mem_singleton.mpr (plain_params expression)⟩)
  | partialTemplate name evalInfo =>
    exact plain_tuple _ (List.forall_mem_cons.mpr ⟨expression name List.mem_cons_self,
      List.forall_mem_singleton.mpr (plain_nats slot)⟩)
  | debugger evalInfo => exact plain_tuple _ (List.forall_mem_singleton.mpr (plain_nats slot))
  | inElement block guid destination insertBefore =>
    obtain ⟨first, others⟩ := List.forall_mem_cons.mp expression
    refine plain_tuple _ (List.forall_mem_cons.mpr ⟨body block List.mem_cons_self,
      List.forall_mem_cons.mpr ⟨plain_string guid, List.forall_mem_cons.mpr ⟨first, ?_⟩⟩⟩)
    exact List.forall_mem_map.mpr others

end Wire

/-! ### Reading what is shown -/

namespace Json

open Draft

variable {α β : Type}

/-- The text of a value is read as `a` where there is room for the value. -/
def ReadsBack (read : Reader α) (j : Json) (a : α) : Prop :=
  ∀ room, read .text (shown room j) = if j.depth ≤ room then .ok a else .error (.fault .malformed)

theorem readsBack_string (s : String) : ReadsBack Reader.string (.string s) s :=
  fun _ => (if_pos (Nat.zero_le _)).symm

/-- A tidy value is read back as it is. -/
theorem readsBack_value {j : Json} (tidy : j.tidy = j) : ReadsBack Reader.value j j := by
  intro room
  rw [Reader.value, toJson_shown]
  by_cases fits : j.depth ≤ room
  · rw [if_pos fits, if_pos fits]
    exact congrArg _ tidy
  · rw [if_neg fits, if_neg fits]

/-- A list is read back item by item, as far as there is room for its depth. -/
theorem mapM_shown {read : Reader α} {f : β → Json} {g : β → α} {list : List β}
    (each : ∀ b ∈ list, ReadsBack read (f b) (g b)) (room : Nat) :
    (shownItems room (list.map f)).mapM (read .text) =
      if depthOfItems (list.map f) ≤ room then .ok (list.map g)
      else .error (.fault .malformed) := by
  induction list with
  | nil => exact (if_pos (Nat.zero_le _)).symm
  | cons b rest ih =>
    obtain ⟨first, others⟩ := List.forall_mem_cons.mp each
    rw [List.map_cons, shownItems, List.mapM_cons, first room, ih others, depthOfItems]
    simp only [Nat.max_le]
    by_cases here : (f b).depth ≤ room <;> by_cases later : depthOfItems (rest.map f) ≤ room <;>
      simp [here, later, bind, Except.bind, pure, Except.pure]

/-- A list reads back if every item does. -/
theorem readsBack_list {read : Reader α} {f : β → Json} {g : β → α} {list : List β}
    (each : ∀ b ∈ list, ReadsBack read (f b) (g b)) :
    ReadsBack (Reader.list read) (.array (list.map f)) (list.map g) := by
  intro room
  cases room with
  | zero => rfl
  | succ room =>
    have items := mapM_shown each room
    simp only [shown, Nat.succ_ne_zero, if_false, Nat.add_sub_cancel, Reader.list, items, depth,
      Nat.add_le_add_iff_right]
    split <;> rfl

theorem Placed.unit_seqRight (outcome : Placed α) :
    ((pure () : Placed Unit) *> outcome) = outcome := by
  cases outcome <;> rfl

/-- What reads back from a draft reads back from a text, unless it is nested too deeply. -/
theorem ofText_of_readsBack {read : Reader α} {j : Json} {a : α} (back : ReadsBack read j a)
    (whole : j.Whole) :
    read.ofText j.text = if j.depth ≤ maxDepth then .ok a else .error (.fault .malformed) := by
  simp only [Reader.ofText, text, String.toList_ofList, ofChars_chars whole, back maxDepth]
  split <;> rfl

end Json

/-! ### Compiled templates -/

namespace CompiledTemplate

open Json.Draft (shown)

def numbers (t : CompiledTemplate) : List Double := t.statements.flatMap Wire.Statement.numbers

def words (t : CompiledTemplate) : List Nat := t.statements.flatMap Wire.Statement.words

def unsignZeros (t : CompiledTemplate) : CompiledTemplate :=
  { t with statements := t.statements.map Wire.Statement.unsignZeros }

/-- A template without negative zeros stays as it is. -/
theorem unsignZeros_eq_self {t : CompiledTemplate}
    (unsigned : ∀ d ∈ t.numbers, d.unsignZero = d) : t.unsignZeros = t := by
  have kept : t.statements.map Wire.Statement.unsignZeros = t.statements :=
    Wire.map_eq_self fun s inside => Wire.Statement.unsignZeros_eq_self fun d found =>
      unsigned d (List.mem_flatMap.mpr ⟨s, inside, found⟩)
  rw [unsignZeros, kept]

/-- A statement is read as a value first, so it is refused for its depth before it is decoded. -/
theorem readsBack_statement {s : Wire.Statement} (whole : ∀ d ∈ s.numbers, d.IsWhole)
    (fits : ∀ n ∈ s.words, Wire.Fits n) :
    Json.ReadsBack statementReader s.encode s.unsignZeros := by
  have finite : ∀ d ∈ s.numbers, Wire.Survives d :=
    fun d found => Wire.survives_iff.mpr (whole d found).1
  have decoded : Wire.decodeStatement s.encode = .ok s.unsignZeros :=
    Wire.Format.lawful_statement.decode_encode ⟨finite, fits⟩
  intro room
  have value := Json.readsBack_value (Wire.Statement.plain_encode whole fits).tidy room
  rw [statementReader, value]
  by_cases inside : s.encode.depth ≤ room
  · simp only [if_pos inside, bind, Except.bind, decoded]
  · simp only [if_neg inside, bind, Except.bind]

theorem readsBack_strings (texts : List String) :
    Json.ReadsBack (Json.Reader.list Json.Reader.string) (.strings texts) texts := by
  have back := Json.readsBack_list fun s (_ : s ∈ texts) => Json.readsBack_string s
  rwa [List.map_id'] at back

/-- All members of a document are there, and each is read at its place. -/
theorem reader_members (symbols upvars hasEval statements : Json.Draft) :
    reader .text (.object [("symbols", symbols), ("upvars", upvars), ("hasEval", hasEval),
      ("statements", statements)] none) =
    (CompiledTemplate.mk <$> Json.Placed.ofExcept 0 (Json.Reader.list .string .text symbols) <*>
      .ofExcept 1 (Json.Reader.list .string .text upvars) <*>
      .ofExcept 2 (Json.Reader.bool .text hasEval) <*>
      .ofExcept 3 (Json.Reader.list statementReader .text statements)).outcome := by
  simp [reader, Json.Reader.record, Json.Row.sound, Json.Row.soundMembers, shape,
    Json.Row.required, Json.Row.field, Json.firstWithKey?, Json.Placed.unit_seqRight]

/-- A compiled template reads back from its document, up to the sign of zeros. -/
theorem readsBack_toJson {t : CompiledTemplate} (whole : ∀ d ∈ t.numbers, d.IsWhole)
    (fits : ∀ n ∈ t.words, Wire.Fits n) : Json.ReadsBack reader t.toJson t.unsignZeros := by
  have statements : Json.ReadsBack (Json.Reader.list statementReader)
      (.array (Wire.encodeStatements t.statements)) t.unsignZeros.statements := by
    rw [Wire.encodeStatements_eq_map]
    refine Json.readsBack_list fun s inside => readsBack_statement ?_ ?_
    · exact fun d found => whole d (List.mem_flatMap.mpr ⟨s, inside, found⟩)
    · exact fun n found => fits n (List.mem_flatMap.mpr ⟨s, inside, found⟩)
  intro room
  cases room with
  | zero => rfl
  | succ room =>
    have depth : t.toJson.depth ≤ room + 1 ↔ (Json.strings t.symbols).depth ≤ room ∧
        (Json.strings t.upvars).depth ≤ room ∧
        (Json.array (Wire.encodeStatements t.statements)).depth ≤ room := by
      simp only [toJson, Json.depth, Json.depthOfMembers]
      omega
    have read : reader .text (shown (room + 1) t.toJson) = _ := reader_members _ _ _ _
    rw [read, Nat.add_sub_cancel, readsBack_strings t.symbols room,
      readsBack_strings t.upvars room, statements room]
    simp only [depth]
    by_cases first : (Json.strings t.symbols).depth ≤ room <;>
      by_cases second : (Json.strings t.upvars).depth ≤ room <;>
      by_cases third : (Json.array (Wire.encodeStatements t.statements)).depth ≤ room <;>
      simp only [first, second, third, and_true, and_false, and_self, if_true, if_false] <;> rfl

/-- The document of a compiled template has whole numbers only. -/
theorem whole_toJson {t : CompiledTemplate} (whole : ∀ d ∈ t.numbers, d.IsWhole)
    (fits : ∀ n ∈ t.words, Wire.Fits n) : t.toJson.Whole := by
  have statements : Wire.Plain (.array (Wire.encodeStatements t.statements)) := by
    rw [Wire.encodeStatements_eq_map]
    refine Wire.plain_map fun s inside => Wire.Statement.plain_encode ?_ ?_
    · exact fun d found => whole d (List.mem_flatMap.mpr ⟨s, inside, found⟩)
    · exact fun n found => fits n (List.mem_flatMap.mpr ⟨s, inside, found⟩)
  exact ⟨(Wire.plain_strings _).whole, (Wire.plain_strings _).whole, trivial, statements.whole,
    trivial⟩

/-- A compiled template with whole numbers is read back from its text, up to the sign of a zero, if
the text is nested at most `127` deep; a text that is nested deeper is refused. -/
theorem ofText_toText (t : CompiledTemplate) (whole : ∀ d ∈ t.numbers, d.IsWhole)
    (fits : ∀ n ∈ t.words, Wire.Fits n) :
    ofText t.toText =
        (if t.toJson.depth ≤ 127 then .ok t.unsignZeros else .error (.fault .malformed)) ∧
      ((∀ d ∈ t.numbers, d.unsignZero = d) → t.unsignZeros = t) :=
  ⟨Json.ofText_of_readsBack (readsBack_toJson whole fits) (whole_toJson whole fits),
    unsignZeros_eq_self⟩

def interpolated (e : Wire.Expression) : Nat → Wire.Expression
  | 0 => e
  | n + 1 => .concat [interpolated e n]

/-- A template that shows an expression inside sixty-two interpolations. -/
def interpolation (e : Wire.Expression) : CompiledTemplate :=
  ⟨["title"], ["say \"hi\"\n"], false, [.append (interpolated e 62)]⟩

def seven : Double := ⟨0x401c000000000000⟩

/-- A number takes no level of its own and a symbol takes one, and between them lies the limit. -/
theorem ofText_toText_interpolation :
    ofText (interpolation (.value (.number seven))).toText =
        .ok (interpolation (.value (.number seven))) ∧
      ofText (interpolation (.getSymbol 0)).toText = .error (.fault .malformed) := by
  have numbers : (interpolation (.value (.number seven))).numbers = [seven] := by decide +kernel
  have words : (interpolation (.value (.number seven))).words = [] := by decide +kernel
  have depth : (interpolation (.value (.number seven))).toJson.depth = 127 := by decide +kernel
  have noNumbers : (interpolation (.getSymbol 0)).numbers = [] := by decide +kernel
  have slots : (interpolation (.getSymbol 0)).words = [0] := by decide +kernel
  have deeper : (interpolation (.getSymbol 0)).toJson.depth = 128 := by decide +kernel
  constructor
  · obtain ⟨read, unsigned⟩ := ofText_toText (interpolation (.value (.number seven)))
      (by rw [numbers]; exact List.forall_mem_singleton.mpr ⟨rfl, 7, by decide, by decide +kernel⟩)
      (by rw [words]; exact List.forall_mem_nil _)
    rw [read, depth, if_pos (by decide), unsigned]
    rw [numbers]
    exact List.forall_mem_singleton.mpr (Double.unsignZero_of_ne_zero (by decide +kernel))
  · obtain ⟨read, _⟩ := ofText_toText (interpolation (.getSymbol 0))
      (by rw [noNumbers]; exact List.forall_mem_nil _)
      (by rw [slots]; exact List.forall_mem_singleton.mpr (by decide))
    rw [read, deeper, if_neg (by decide)]

end CompiledTemplate

end TemplateCompiler

import TemplateCompiler.Proofs.Doubles
import TemplateCompiler.Proofs.WireSpelling
import TemplateCompiler.Proofs.WireTree

/-!
# Writing compiled templates

Of the spellings of a tree the encoder writes the one without liberties, but for the sign of a zero,
which it does not write.

Infinities and NaNs have no JSON form. Slots and indices have thirty-two bits on the wire, while
they are natural numbers in the trees here, so a tree to be written must keep within them.
-/

namespace TemplateCompiler

namespace Wire

/-! ### Numbers -/

/-- A double that is written as a number and read back with its value. -/
def Survives (d : Double) : Prop :=
  ∃ n, encodeNumber d = .number n ∧ n.toDouble.same d = true

/-- A finite number is written as one that has its value, up to the sign of zero. -/
theorem encodeNumber_of_finite {d : Double} (finite : d.isFinite = true) :
    ∃ n, encodeNumber d = .number n ∧ n.toDouble = d.unsignZero := by
  rw [encodeNumber]
  cases whole : d.integer? with
  | some n => exact ⟨.whole n, rfl, Double.ofInt_of_integer? whole⟩
  | none =>
    have nonzero : d.magnitude ≠ 0 := by
      intro zero
      rw [Double.integer?_of_zero finite zero] at whole
      cases whole
    exact ⟨.double d, if_pos finite, (Double.unsignZero_of_ne_zero nonzero).symm⟩

/-- Numbers that are not finite are written as `null`. -/
theorem encodeNumber_of_not_finite {d : Double} (special : d.isFinite = false) :
    encodeNumber d = .null := by
  have noWhole : d.integer? = none := by simp [Double.integer?, special]
  simp [encodeNumber, noWhole, special]

/-- Finite doubles survive, and no others. -/
theorem survives_iff {d : Double} : Survives d ↔ d.isFinite = true := by
  constructor
  · rintro ⟨n, written, _⟩
    cases finite : d.isFinite with
    | true => rfl
    | false =>
      rw [encodeNumber_of_not_finite finite] at written
      cases written
  · intro finite
    obtain ⟨n, written, value⟩ := encodeNumber_of_finite finite
    refine ⟨n, written, ?_⟩
    rw [value, Double.same_iff_unsignZero (by rw [Double.isFinite_unsignZero, finite]) finite]
    exact Double.unsignZero_unsignZero d

theorem encodeNumber_unsignZero (d : Double) : encodeNumber d.unsignZero = encodeNumber d := by
  rcases d.unsignZero_cases with ⟨finite, zero, unsigned⟩ | kept
  · have written : encodeNumber (.ofWord false 0) = .ofInt 0 := by
      rw [encodeNumber, Double.integer?_of_zero rfl Double.magnitude_zero]
    rw [unsigned, written, encodeNumber, Double.integer?_of_zero finite zero]
  · rw [kept]

/-! ### Trees that can be written -/

namespace Expression

/-- The number that an expression is. -/
def number? : Expression → Option Double
  | .value (.number d) => some d
  | _ => none

/-- The slot or index that an expression reads. -/
def word? : Expression → Option Nat
  | .getSymbol n | .getFree n | .getContextualFree n _ => some n
  | _ => none

/-- The number literals in an expression. -/
def numbers (e : Expression) : List Double := e.parts.filterMap number?

/-- The slots and indices in an expression. -/
def words (e : Expression) : List Nat := e.parts.filterMap word?

/-- An expression whose numbers have a JSON form and whose slots and indices have a width. -/
structure Writable (e : Expression) : Prop where
  finite : ∀ d ∈ e.numbers, d.isFinite = true
  fits : ∀ n ∈ e.words, Fits n

theorem mem_filterMap_parts {α : Type} {f : Expression → Option α} {e : Expression} {a : α} :
    a ∈ e.parts.filterMap f ↔ f e = some a ∨ ∃ part ∈ e.inner, a ∈ part.parts.filterMap f := by
  rw [List.mem_filterMap, e.parts_eq]
  simp only [List.mem_cons, List.mem_flatMap, List.mem_filterMap]
  constructor
  · rintro ⟨_, rfl | ⟨part, inside, deeper⟩, found⟩
    · exact .inl found
    · exact .inr ⟨part, inside, _, deeper, found⟩
  · rintro (found | ⟨part, inside, _, deeper, found⟩)
    · exact ⟨e, .inl rfl, found⟩
    · exact ⟨_, .inr ⟨part, inside, deeper⟩, found⟩

theorem writable_iff {e : Expression} :
    e.Writable ↔ (∀ d, e.number? = some d → d.isFinite = true) ∧ (∀ n, e.word? = some n → Fits n) ∧
      ∀ part ∈ e.inner, part.Writable := by
  constructor
  · rintro ⟨finite, fits⟩
    refine ⟨fun d own => finite d (mem_filterMap_parts.mpr (.inl own)),
      fun n own => fits n (mem_filterMap_parts.mpr (.inl own)), fun part inside => ⟨?_, ?_⟩⟩
    · exact fun d found => finite d (mem_filterMap_parts.mpr (.inr ⟨part, inside, found⟩))
    · exact fun n found => fits n (mem_filterMap_parts.mpr (.inr ⟨part, inside, found⟩))
  · rintro ⟨finite, fits, inner⟩
    refine ⟨fun d found => ?_, fun n found => ?_⟩
    · rcases mem_filterMap_parts.mp found with own | ⟨part, inside, found⟩
      · exact finite d own
      · exact (inner part inside).finite d found
    · rcases mem_filterMap_parts.mp found with own | ⟨part, inside, found⟩
      · exact fits n own
      · exact (inner part inside).fits n found

end Expression

namespace Statement

/-- The slots that a statement reads or lists, without those in its expressions and blocks. -/
def ownSlots : Statement → List Nat
  | .attrSplat slot | .yield slot _ => [slot]
  | .partialTemplate _ evalInfo | .debugger evalInfo => evalInfo
  | _ => []

/-- The number literals in a statement. -/
def numbers (s : Statement) : List Double :=
  s.parts.flatMap fun part => part.expressions.flatMap Expression.numbers

/-- The slots and indices in a statement. -/
def words (s : Statement) : List Nat :=
  s.parts.flatMap fun part =>
    part.ownSlots ++ part.blocks.flatMap InlineBlock.parameters ++
      part.expressions.flatMap Expression.words

structure Writable (s : Statement) : Prop where
  finite : ∀ d ∈ s.numbers, d.isFinite = true
  fits : ∀ n ∈ s.words, Fits n

end Statement

namespace InlineBlock

def numbers (block : InlineBlock Statement) : List Double :=
  block.statements.flatMap Statement.numbers

def words (block : InlineBlock Statement) : List Nat :=
  block.parameters ++ block.statements.flatMap Statement.words

structure Writable (block : InlineBlock Statement) : Prop where
  finite : ∀ d ∈ block.numbers, d.isFinite = true
  fits : ∀ n ∈ block.words, Fits n

theorem writable_iff {block : InlineBlock Statement} :
    block.Writable ↔
      (∀ n ∈ block.parameters, Fits n) ∧ ∀ s ∈ block.statements, s.Writable := by
  constructor
  · rintro ⟨finite, fits⟩
    refine ⟨fun n listed => fits n (List.mem_append_left _ listed), fun s inside => ⟨?_, ?_⟩⟩
    · exact fun d found => finite d (List.mem_flatMap.mpr ⟨s, inside, found⟩)
    · exact fun n found => fits n (List.mem_append_right _ (List.mem_flatMap.mpr ⟨s, inside, found⟩))
  · rintro ⟨own, inner⟩
    refine ⟨fun d found => ?_, fun n found => ?_⟩
    · obtain ⟨s, inside, found⟩ := List.mem_flatMap.mp found
      exact (inner s inside).finite d found
    · rcases List.mem_append.mp found with listed | found
      · exact own n listed
      · obtain ⟨s, inside, found⟩ := List.mem_flatMap.mp found
        exact (inner s inside).fits n found

end InlineBlock

namespace Statement

theorem mem_numbers {s : Statement} {d : Double} :
    d ∈ s.numbers ↔ (∃ e ∈ s.expressions, d ∈ e.numbers) ∨
      (∃ k ∈ s.attributes, d ∈ k.numbers) ∨ ∃ b ∈ s.blocks, d ∈ b.numbers := by
  rw [numbers, s.parts_eq, inner]
  simp only [List.flatMap_cons, List.flatMap_append, List.flatMap_assoc, List.mem_append,
    List.mem_flatMap, InlineBlock.numbers, numbers]

theorem mem_words {s : Statement} {n : Nat} :
    n ∈ s.words ↔ n ∈ s.ownSlots ∨ (∃ e ∈ s.expressions, n ∈ e.words) ∨
      (∃ k ∈ s.attributes, n ∈ k.words) ∨ ∃ b ∈ s.blocks, n ∈ b.words := by
  rw [words, s.parts_eq, inner]
  simp only [List.flatMap_cons, List.flatMap_append, List.flatMap_assoc, List.mem_append,
    List.mem_flatMap, InlineBlock.words, words, and_or_left, exists_or]
  grind

theorem writable_iff {s : Statement} :
    s.Writable ↔ (∀ n ∈ s.ownSlots, Fits n) ∧ (∀ e ∈ s.expressions, e.Writable) ∧
      (∀ k ∈ s.attributes, k.Writable) ∧ ∀ b ∈ s.blocks, b.Writable := by
  constructor
  · rintro ⟨finite, fits⟩
    refine ⟨fun n own => fits n (mem_words.mpr (.inl own)), fun e here => ⟨?_, ?_⟩,
      fun k here => ⟨?_, ?_⟩, fun b here => ⟨?_, ?_⟩⟩
    · exact fun d found => finite d (mem_numbers.mpr (.inl ⟨e, here, found⟩))
    · exact fun n found => fits n (mem_words.mpr (.inr (.inl ⟨e, here, found⟩)))
    · exact fun d found => finite d (mem_numbers.mpr (.inr (.inl ⟨k, here, found⟩)))
    · exact fun n found => fits n (mem_words.mpr (.inr (.inr (.inl ⟨k, here, found⟩))))
    · exact fun d found => finite d (mem_numbers.mpr (.inr (.inr ⟨b, here, found⟩)))
    · exact fun n found => fits n (mem_words.mpr (.inr (.inr (.inr ⟨b, here, found⟩))))
  · rintro ⟨own, shown, attrs, bodies⟩
    refine ⟨fun d found => ?_, fun n found => ?_⟩
    · rcases mem_numbers.mp found with ⟨e, here, found⟩ | ⟨k, here, found⟩ | ⟨b, here, found⟩
      · exact (shown e here).finite d found
      · exact (attrs k here).finite d found
      · exact (bodies b here).finite d found
    · rcases mem_words.mp found with
        found | ⟨e, here, found⟩ | ⟨k, here, found⟩ | ⟨b, here, found⟩
      · exact own n found
      · exact (shown e here).fits n found
      · exact (attrs k here).fits n found
      · exact (bodies b here).fits n found

end Statement

/-! ### What is written is a spelling -/

section Encoding

variable {allowed : Liberty → Prop}

/-- The same number as it is read back. -/
def Expression.unsignZero : Expression → Expression
  | .value (.number d) => .value (.number d.unsignZero)
  | e => e

/-- An expression with its zeros unsigned. -/
def Expression.unsignZeros (e : Expression) : Expression := e.everywhere Expression.unsignZero

theorem Expression.unsignZeros_concat (list : List Expression) :
    (concat list).unsignZeros = .concat (list.map unsignZeros) :=
  congrArg concat (everywhereInList_eq_map _ list)

theorem Expression.unsignZeros_call (head : Expression) (params : List Expression)
    (hash : List (String × Expression)) :
    (call head params hash).unsignZeros = .call head.unsignZeros (params.map unsignZeros)
      (hash.map fun entry => (entry.1, entry.2.unsignZeros)) := by
  rw [unsignZeros, everywhere, everywhereInList_eq_map, everywhereInHash_eq_map]
  rfl

def Statement.unsignZeros (s : Statement) : Statement := s.everywhere Expression.unsignZeros id

def InlineBlock.unsignZeros (block : InlineBlock Statement) : InlineBlock Statement :=
  block.everywhere Expression.unsignZeros id

theorem encodeExpressions_eq_map (list : List Expression) :
    encodeExpressions list = list.map Expression.encode := by
  induction list with
  | nil => rfl
  | cons e rest ih => rw [encodeExpressions, ih, List.map_cons]

theorem encodeValues_eq_map (hash : List (String × Expression)) :
    encodeValues hash = hash.map fun entry => entry.2.encode := by
  induction hash with
  | nil => rfl
  | cons entry rest ih => rw [encodeValues, ih, List.map_cons]

theorem encodeStatements_eq_map (statements : List Statement) :
    encodeStatements statements = statements.map Statement.encode := by
  induction statements with
  | nil => rfl
  | cons s rest ih => rw [encodeStatements, ih, List.map_cons]

theorem encodeBodies_eq_map (blocks : List (String × InlineBlock Statement)) :
    encodeBodies blocks = blocks.map fun entry => entry.2.encode := by
  induction blocks with
  | nil => rfl
  | cons entry rest ih =>
    rw [encodeBodies, ih, List.map_cons]
    rfl

theorem forall₂_map {α β γ : Type} {R : β → γ → Prop} {f : α → β} {g : α → γ} {list : List α}
    (each : ∀ a ∈ list, R (f a) (g a)) : List.Forall₂ R (list.map f) (list.map g) := by
  rw [List.forall₂_map_left_iff, List.forall₂_map_right_iff, List.forall₂_same]
  exact each

theorem paramsSpelling_encode {params : List Expression}
    (each : ∀ e ∈ params, e.unsignZeros.Spelling allowed e.encode) :
    ParamsSpelling allowed (Expression.Spelling allowed) (encodeParams params)
      (params.map Expression.unsignZeros) := by
  cases params with
  | nil => exact .null
  | cons e rest =>
    rw [encodeParams, encodeExpressions_eq_map]
    exact .array (forall₂_map each) fun none => nomatch none

theorem tableSpelling_map {α β : Type} {Item : Json → β → Prop} {f : α → Json} {g : α → β}
    {entries : List (String × α)} (each : ∀ a ∈ entries.map Prod.snd, Item (f a) (g a)) :
    TableSpelling Item
      (.array [.strings (entries.map Prod.fst), .array (entries.map fun entry => f entry.2)])
      (entries.map fun entry => (entry.1, g entry.2)) := by
  have keys : (entries.map fun entry => (entry.1, g entry.2)).map Prod.fst =
      entries.map Prod.fst := by simp
  rw [← keys]
  refine .pair ?_
  rw [List.map_map]
  exact forall₂_map fun entry inside => each entry.2 (List.mem_map_of_mem inside)

theorem hashSpelling_encode {hash : List (String × Expression)}
    (each : ∀ e ∈ hash.map Prod.snd, e.unsignZeros.Spelling allowed e.encode) :
    HashSpelling allowed (Expression.Spelling allowed) (encodeHash hash)
      (hash.map fun entry => (entry.1, entry.2.unsignZeros)) := by
  cases hash with
  | nil => exact .null
  | cons entry rest =>
    show HashSpelling allowed _ (.array [.strings ((entry :: rest).map Prod.fst),
      .array (encodeValues (entry :: rest))]) _
    rw [encodeValues_eq_map]
    exact .table (tableSpelling_map each) fun none => nomatch none

theorem Value.spelling_encode {v : Value}
    (finite : ∀ d, v = .number d → d.isFinite = true) :
    (Expression.value v).unsignZeros.Spelling allowed v.encode := by
  cases v with
  | string s => exact .value .string
  | boolean b => exact .value .boolean
  | null => exact .value .null
  | number d =>
    obtain ⟨n, written, value⟩ := encodeNumber_of_finite (finite d rfl)
    have shortest : encodeNumber d.unsignZero = .number n := by rw [encodeNumber_unsignZero, written]
    show Expression.Spelling allowed (encodeNumber d) (.value (.number d.unsignZero))
    rw [written]
    exact .value (.number value (.inl shortest))

/-- What is written for an expression spells it in every grammar, so with no liberty at all. -/
theorem Expression.spelling_encode {e : Expression} (writable : e.Writable) :
    e.unsignZeros.Spelling allowed e.encode := by
  induction e using Expression.induction with
  | step e ih =>
  obtain ⟨finite, fits, inside⟩ := writable_iff.mp writable
  have part : ∀ k ∈ e.inner, k.unsignZeros.Spelling allowed k.encode :=
    fun k within => ih k within (inside k within)
  cases e with
  | undefined => exact .undefined
  | value v => exact Value.spelling_encode fun d same => finite d (by rw [same]; rfl)
  | getSymbol slot => exact .getSymbol (fits slot rfl)
  | getFree index => exact .getFree (fits index rfl)
  | getContextualFree index context => exact .getContextualFree (fits index rfl)
  | getPath head tail => exact .getPath (part head (by simp [inner]))
  | concat list =>
    rw [unsignZeros_concat]
    exact .concat (paramsSpelling_encode part)
  | call head params hash =>
    rw [unsignZeros_call]
    refine .call (part head List.mem_cons_self) (paramsSpelling_encode fun k within => ?_)
      (hashSpelling_encode fun k within => ?_)
    · exact part k (List.mem_cons_of_mem _ (List.mem_append_left _ within))
    · exact part k (List.mem_cons_of_mem _ (List.mem_append_right _ within))
  | hasBlock block => exact .hasBlock (part block (by simp [inner]))
  | hasBlockParams block => exact .hasBlockParams (part block (by simp [inner]))

theorem AttributeNameSpelling.encode (name : String) :
    AttributeNameSpelling allowed (encodeAttributeName name) name := by
  rw [encodeAttributeName]
  split
  · next common => exact .index (List.getElem?_idxOf common)
  · next uncommon => exact .full fun common => absurd common uncommon

theorem InlineBlock.spelling_encode_of_each {block : InlineBlock Statement}
    (fits : ∀ slot ∈ block.parameters, Fits slot)
    (each : ∀ s ∈ block.statements, Statement.Spelling allowed s.encode s.unsignZeros) :
    InlineBlock.Spelling allowed block.encode block.unsignZeros := by
  rw [encode, unsignZeros, InlineBlock.everywhere, encodeStatements_eq_map, everywhereInAll_eq_map]
  exact .object rfl rfl (forall₂_map each) fits (.inl rfl)

/-- What is written for a statement is a spelling of it, whatever liberties are allowed. -/
theorem Statement.spelling_encode {s : Statement} (writable : s.Writable) :
    Statement.Spelling allowed s.encode s.unsignZeros := by
  induction s using Statement.induction with
  | step s ih =>
  obtain ⟨fits, shown, given, bodies⟩ := writable_iff.mp writable
  have expression : ∀ e ∈ s.expressions, e.unsignZeros.Spelling allowed e.encode :=
    fun e here => Expression.spelling_encode (shown e here)
  have attrsSpelled : List.Forall₂ (Statement.Spelling allowed)
      (s.attributes.map encode) (s.attributes.map unsignZeros) :=
    forall₂_map fun k here => ih k (List.mem_append_left _ here) (given k here)
  have blockSpelled : ∀ b ∈ s.blocks, InlineBlock.Spelling allowed b.encode b.unsignZeros := by
    intro b here
    obtain ⟨fits, inside⟩ := InlineBlock.writable_iff.mp (bodies b here)
    refine InlineBlock.spelling_encode_of_each fits fun k deeper => ih k ?_ (inside k deeper)
    exact List.mem_append_right _ (List.mem_flatMap.mpr ⟨b, here, deeper⟩)
  cases s with
  | append value => exact .append (expression value (by simp [expressions]))
  | trustingAppend value => exact .trustingAppend (expression value (by simp [expressions]))
  | comment value => exact .comment
  | modifier head params hash =>
    refine .modifier (expression head List.mem_cons_self) (paramsSpelling_encode fun e here => ?_)
      (hashSpelling_encode fun e here => ?_)
    · exact expression e (List.mem_cons_of_mem _ (List.mem_append_left _ here))
    · exact expression e (List.mem_cons_of_mem _ (List.mem_append_right _ here))
  | block head params hash table =>
    show Statement.Spelling allowed _ (.block _ _ _ (everywhereInBlocks _ id table))
    rw [encode, encodeBodies_eq_map, everywhereInBlocks_eq_map]
    refine .block (expression head List.mem_cons_self) (paramsSpelling_encode fun e here => ?_)
      (hashSpelling_encode fun e here => ?_) (tableSpelling_map blockSpelled)
    · exact expression e (List.mem_cons_of_mem _ (List.mem_append_left _ here))
    · exact expression e (List.mem_cons_of_mem _ (List.mem_append_right _ here))
  | component tag attrs args table =>
    have tagSpelled := expression tag List.mem_cons_self
    have argsSpelled := hashSpelling_encode fun e here => expression e (List.mem_cons_of_mem _ here)
    cases table with
    | none =>
      show Statement.Spelling allowed _ (.component _ (everywhereInAll _ id attrs) _ none)
      rw [encode, encodeStatements_eq_map, everywhereInAll_eq_map]
      exact .selfClosing tagSpelled attrsSpelled argsSpelled
    | some table =>
      show Statement.Spelling allowed _
        (.component _ (everywhereInAll _ id attrs) _ (some (everywhereInBlocks _ id table)))
      rw [encode, encodeStatements_eq_map, everywhereInAll_eq_map, encodeBodies_eq_map,
        everywhereInBlocks_eq_map]
      exact .component tagSpelled attrsSpelled argsSpelled (tableSpelling_map blockSpelled)
  | openElement tag => exact .openElement
  | openElementWithSplat tag => exact .openElementWithSplat
  | flushElement => exact .flushElement
  | closeElement => exact .closeElement
  | attr kind name value space =>
    have valueSpelled := expression value List.mem_cons_self
    cases space with
    | none => exact .attr (.encode name) valueSpelled
    | some space => exact .attrInSpace (.encode name) valueSpelled
  | staticArg name value => exact .staticArg (expression value List.mem_cons_self)
  | dynamicArg name value => exact .dynamicArg (expression value List.mem_cons_self)
  | attrSplat slot => exact .attrSplat (fits slot List.mem_cons_self)
  | yield slot params =>
    exact .yield (fits slot List.mem_cons_self) (paramsSpelling_encode expression)
  | partialTemplate name evalInfo =>
    exact .partialTemplate (expression name List.mem_cons_self) fits
  | debugger evalInfo => exact .debugger fits
  | inElement body guid destination insertBefore =>
    have bodySpelled := blockSpelled body List.mem_cons_self
    have destinationSpelled := expression destination List.mem_cons_self
    cases insertBefore with
    | none => exact .inElement bodySpelled destinationSpelled
    | some before =>
      exact .inElementBefore bodySpelled destinationSpelled
        (expression before (List.mem_cons_of_mem _ List.mem_cons_self))

theorem InlineBlock.spelling_encode {block : InlineBlock Statement} (writable : block.Writable) :
    InlineBlock.Spelling allowed block.encode block.unsignZeros := by
  obtain ⟨fits, inside⟩ := writable_iff.mp writable
  exact spelling_encode_of_each fits fun s here => Statement.spelling_encode (inside s here)

end Encoding

/-! ### Trees without signed zeros -/

theorem Expression.unsignZeros_eq_self {e : Expression}
    (unsigned : ∀ d ∈ e.numbers, d.unsignZero = d) : e.unsignZeros = e := by
  refine everywhere_eq_self fun part inside => ?_
  cases found : part.number? with
  | none =>
    unfold unsignZero
    split
    · cases found
    · rfl
  | some d =>
    have kept := unsigned d (List.mem_filterMap.mpr ⟨part, inside, found⟩)
    unfold number? at found
    split at found
    · cases found
      rw [unsignZero, kept]
    · cases found

theorem Statement.unsignZeros_eq_self {s : Statement}
    (unsigned : ∀ d ∈ s.numbers, d.unsignZero = d) : s.unsignZeros = s := by
  refine everywhere_eq_self fun part inside => ⟨rfl, fun e shown => ?_⟩
  refine Expression.unsignZeros_eq_self fun d found => unsigned d ?_
  exact List.mem_flatMap.mpr ⟨part, inside, List.mem_flatMap.mpr ⟨e, shown, found⟩⟩

theorem InlineBlock.unsignZeros_eq_self {block : InlineBlock Statement}
    (unsigned : ∀ d ∈ block.numbers, d.unsignZero = d) : block.unsignZeros = block :=
  InlineBlock.everywhere_eq_self fun s inside => Statement.unsignZeros_eq_self fun d found =>
    unsigned d (List.mem_flatMap.mpr ⟨s, inside, found⟩)

/-! ### The spelling without liberties -/

section Canonical

theorem eq_map_of_forall₂ {α β : Type} {R : β → α → Prop} {f : α → β} {items : List β}
    {list : List α} (each : List.Forall₂ R items list) (unique : ∀ a ∈ list, ∀ b, R b a → b = f a) :
    items = list.map f := by
  induction each with
  | nil => rfl
  | cons held _ ih =>
    obtain ⟨first, others⟩ := List.forall_mem_cons.mp unique
    rw [List.map_cons, ← first _ held, ← ih others]

variable {json : Json}

theorem TableSpelling.eq_map {α : Type} {Item : Json → α → Prop} {f : α → Json}
    {entries : List (String × α)} (spelled : TableSpelling Item json entries)
    (unique : ∀ a ∈ entries.map Prod.snd, ∀ k, Item k a → k = f a) :
    json = .array [.strings (entries.map Prod.fst), .array (entries.map fun entry => f entry.2)] := by
  obtain ⟨each⟩ := spelled
  rw [eq_map_of_forall₂ each unique, List.map_map]
  rfl

theorem ParamsSpelling.eq_encode_of_unique {params : List Expression}
    (spelled : ParamsSpelling Liberty.none (Expression.Spelling Liberty.none) json params)
    (unique : ∀ e ∈ params, ∀ k, e.Spelling Liberty.none k → k = e.encode) :
    json = encodeParams params := by
  cases spelled with
  | null => rfl
  | array each present =>
    rw [eq_map_of_forall₂ each unique, encodeParams, encodeExpressions_eq_map]
    cases params with
    | nil => exact (present rfl).elim
    | cons e rest => rfl

theorem HashSpelling.eq_encode_of_unique {hash : List (String × Expression)}
    (spelled : HashSpelling Liberty.none (Expression.Spelling Liberty.none) json hash)
    (unique : ∀ e ∈ hash.map Prod.snd, ∀ k, e.Spelling Liberty.none k → k = e.encode) :
    json = encodeHash hash := by
  cases spelled with
  | null => rfl
  | table table present =>
    rw [table.eq_map unique, ← encodeValues_eq_map]
    cases hash with
    | nil => exact (present rfl).elim
    | cons entry rest => rfl

/-- Without liberties an expression is spelled as it is written. -/
theorem Expression.Spelling.eq_encode {e : Expression}
    (spelled : e.Spelling Liberty.none json) : json = e.encode := by
  induction e using Expression.induction generalizing json with
  | step e ih =>
  have part : ∀ k ∈ e.inner, ∀ json, k.Spelling Liberty.none json → json = k.encode :=
    fun k within json spelled => ih k within spelled
  cases spelled with
  | undefined => rfl
  | value spelled =>
    cases spelled with
    | string => rfl
    | boolean => rfl
    | null => rfl
    | number value shortest => exact (shortest.resolve_right id).symm
  | getSymbol fits => rfl
  | getFree fits => rfl
  | getContextualFree fits => rfl
  | getPath headSpelled =>
    rw [part _ List.mem_cons_self _ headSpelled]
    rfl
  | concat partsSpelled =>
    rw [partsSpelled.eq_encode_of_unique part]
    rfl
  | call headSpelled paramsSpelled hashSpelled =>
    rw [part _ List.mem_cons_self _ headSpelled, paramsSpelled.eq_encode_of_unique fun k within => ?_,
      hashSpelled.eq_encode_of_unique fun k within => ?_]
    · rfl
    · exact part k (List.mem_cons_of_mem _ (List.mem_append_right _ within))
    · exact part k (List.mem_cons_of_mem _ (List.mem_append_left _ within))
  | hasBlock blockSpelled =>
    rw [part _ List.mem_cons_self _ blockSpelled]
    rfl
  | hasBlockParams blockSpelled =>
    rw [part _ List.mem_cons_self _ blockSpelled]
    rfl

theorem ParamsSpelling.eq_encode {params : List Expression}
    (spelled : ParamsSpelling Liberty.none (Expression.Spelling Liberty.none) json params) :
    json = encodeParams params :=
  spelled.eq_encode_of_unique fun _ _ _ => Expression.Spelling.eq_encode

theorem HashSpelling.eq_encode {hash : List (String × Expression)}
    (spelled : HashSpelling Liberty.none (Expression.Spelling Liberty.none) json hash) :
    json = encodeHash hash :=
  spelled.eq_encode_of_unique fun _ _ _ => Expression.Spelling.eq_encode

theorem AttributeNameSpelling.eq_encode {name : String}
    (spelled : AttributeNameSpelling Liberty.none json name) : json = encodeAttributeName name := by
  rw [encodeAttributeName]
  cases spelled with
  | index common =>
    have distinct : commonAttributes.Nodup := by decide
    obtain ⟨inRange, rfl⟩ := List.getElem?_eq_some_iff.mp common
    rw [if_pos (List.getElem_mem inRange), distinct.idxOf_getElem]
  | full uncommon => rw [if_neg uncommon]

theorem InlineBlock.Spelling.eq_encode_of_unique {block : InlineBlock Statement}
    (spelled : InlineBlock.Spelling Liberty.none json block)
    (unique : ∀ s ∈ block.statements, ∀ k, Statement.Spelling Liberty.none k s → k = s.encode) :
    json = block.encode := by
  cases spelled with
  | object _ _ each _ alone =>
    rw [alone.resolve_right id, eq_map_of_forall₂ each unique, InlineBlock.encode,
      encodeStatements_eq_map]

/-- Without liberties, a statement has one spelling. -/
theorem Statement.Spelling.eq_encode {s : Statement}
    (spelled : Statement.Spelling Liberty.none json s) : json = s.encode := by
  induction s using Statement.induction generalizing json with
  | step s ih =>
  have attrsEqual : ∀ items, List.Forall₂ (Statement.Spelling Liberty.none) items s.attributes →
      items = encodeStatements s.attributes := by
    intro items each
    rw [encodeStatements_eq_map]
    exact eq_map_of_forall₂ each fun k within json spelled =>
      ih k (List.mem_append_left _ within) spelled
  have blockEqual : ∀ b ∈ s.blocks, ∀ k, InlineBlock.Spelling Liberty.none k b → k = b.encode := by
    intro b within k spelled
    refine spelled.eq_encode_of_unique fun s deeper json spelled => ih s ?_ spelled
    exact List.mem_append_right _ (List.mem_flatMap.mpr ⟨b, within, deeper⟩)
  have tableEqual : ∀ k entries, TableSpelling (InlineBlock.Spelling Liberty.none) k entries →
      (∀ b ∈ entries.map Prod.snd, b ∈ s.blocks) →
      k = blockTable (entries.map Prod.fst) (encodeBodies entries) := by
    intro k entries spelled within
    rw [spelled.eq_map fun b here => blockEqual b (within b here), encodeBodies_eq_map]
    rfl
  cases spelled with
  | append valueSpelled => rw [valueSpelled.eq_encode, Statement.encode]
  | trustingAppend valueSpelled => rw [valueSpelled.eq_encode, Statement.encode]
  | comment => rfl
  | modifier headSpelled paramsSpelled hashSpelled =>
    rw [headSpelled.eq_encode, paramsSpelled.eq_encode, hashSpelled.eq_encode, Statement.encode]
  | block headSpelled paramsSpelled hashSpelled blocksSpelled =>
    rw [headSpelled.eq_encode, paramsSpelled.eq_encode, hashSpelled.eq_encode,
      tableEqual _ _ blocksSpelled fun _ here => here, Statement.encode]
  | selfClosing tagSpelled attrsSpelled argsSpelled =>
    rw [tagSpelled.eq_encode, attrsEqual _ attrsSpelled, argsSpelled.eq_encode]
    rfl
  | component tagSpelled attrsSpelled argsSpelled blocksSpelled =>
    rw [tagSpelled.eq_encode, attrsEqual _ attrsSpelled, argsSpelled.eq_encode,
      tableEqual _ _ blocksSpelled fun _ here => here]
    rfl
  | openElement => rfl
  | openElementWithSplat => rfl
  | flushElement => rfl
  | closeElement => rfl
  | attr nameSpelled valueSpelled =>
    rw [nameSpelled.eq_encode, valueSpelled.eq_encode]
    rfl
  | attrInSpace nameSpelled valueSpelled =>
    rw [nameSpelled.eq_encode, valueSpelled.eq_encode]
    rfl
  | staticArg valueSpelled => rw [valueSpelled.eq_encode, Statement.encode]
  | dynamicArg valueSpelled => rw [valueSpelled.eq_encode, Statement.encode]
  | attrSplat fits => rfl
  | yield fits paramsSpelled => rw [paramsSpelled.eq_encode, Statement.encode]
  | partialTemplate nameSpelled fits => rw [nameSpelled.eq_encode, Statement.encode]
  | debugger fits => rfl
  | inElement blockSpelled destinationSpelled =>
    rw [blockEqual _ List.mem_cons_self _ blockSpelled, destinationSpelled.eq_encode]
    rfl
  | inElementBefore blockSpelled destinationSpelled beforeSpelled =>
    rw [blockEqual _ List.mem_cons_self _ blockSpelled, destinationSpelled.eq_encode,
      beforeSpelled.eq_encode]
    rfl

theorem InlineBlock.Spelling.eq_encode {block : InlineBlock Statement}
    (spelled : InlineBlock.Spelling Liberty.none json block) : json = block.encode :=
  spelled.eq_encode_of_unique fun _ _ _ => Statement.Spelling.eq_encode

end Canonical

end Wire

end TemplateCompiler

import TemplateCompiler.Proofs.WireAcceptance
import TemplateCompiler.Proofs.WireWriting

/-!
# Reading back what was written

The decoder undoes the encoder. Nothing is lost but the sign of a zero, which is no part of a
number's value. What the decoder accepts is given by the grammar of spellings, and writing what was
read gives all spellings of a tree the same form.
-/

namespace TemplateCompiler

namespace Json

mutual

def numbers : Json → List Number
  | .number n => [n]
  | .array items => numbersOfItems items
  | .object members => numbersOfMembers members
  | _ => []

def numbersOfItems : List Json → List Number
  | [] => []
  | item :: rest => item.numbers ++ numbersOfItems rest

def numbersOfMembers : List (String × Json) → List Number
  | [] => []
  | (_, value) :: rest => value.numbers ++ numbersOfMembers rest

end

/-- A number as JSON texts have it: a word of sixty-four bits, signed or not, or a finite double. -/
def Number.InRange : Number → Prop
  | .whole n => -(Nat.pow 2 63 : Int) ≤ n ∧ n < Nat.pow 2 64
  | .double d => d.isFinite = true

instance : (n : Number) → Decidable n.InRange
  | .whole _ => inferInstanceAs (Decidable (_ ∧ _))
  | .double _ => inferInstanceAs (Decidable (_ = _))

/-- A number in range is read as a finite one. -/
theorem Number.isFinite_toDouble {n : Number} (inRange : n.InRange) :
    n.toDouble.isFinite = true := by
  cases n with
  | whole n =>
    refine Double.isFinite_ofInt ?_
    obtain ⟨low, high⟩ := inRange
    simp only [Nat.pow_eq] at *
    omega
  | double d => exact inRange

def InRange (json : Json) : Prop := ∀ n ∈ json.numbers, n.InRange

instance (json : Json) : Decidable json.InRange :=
  inferInstanceAs (Decidable (∀ n ∈ json.numbers, n.InRange))

theorem InRange.item {items : List Json} (inRange : (array items).InRange) {item : Json}
    (inside : item ∈ items) : item.InRange := by
  intro n found
  refine inRange n ?_
  rw [numbers]
  induction items with
  | nil => cases inside
  | cons first rest ih =>
    rw [numbersOfItems]
    rcases List.mem_cons.mp inside with rfl | later
    · exact List.mem_append_left _ found
    · refine List.mem_append_right _ (ih (fun n within => inRange n ?_) later)
      exact List.mem_append_right _ within

theorem InRange.lookup {members : List (String × Json)} (inRange : (object members).InRange)
    {key : String} {value : Json} (present : members.lookup key = some value) : value.InRange := by
  intro n found
  refine inRange n ?_
  rw [numbers]
  induction members with
  | nil => cases present
  | cons member rest ih =>
    obtain ⟨name, other⟩ := member
    rw [numbersOfMembers]
    rw [List.lookup_cons] at present
    split at present
    · cases present
      exact List.mem_append_left _ found
    · refine List.mem_append_right _ (ih (fun n within => inRange n ?_) present)
      exact List.mem_append_right _ within

end Json

namespace Wire

/-! ### What is read can be written -/

section Readable

variable {α : Type} {allowed : Liberty → Prop} {Item : Json → α → Prop} {P : α → Prop} {json : Json}

theorem operand_inRange {op : Opcode} {operands : List Json}
    (inRange : (tuple op operands).InRange) {operand : Json} (inside : operand ∈ operands) :
    operand.InRange :=
  inRange.item (List.mem_cons_of_mem _ inside)

theorem forall_of_forall₂ {items : List Json} {list : List α}
    (each : List.Forall₂ Item items list) (inRange : (Json.array items).InRange)
    (step : ∀ a ∈ list, ∀ k, Item k a → k.InRange → P a) : ∀ a ∈ list, P a := by
  have known : ∀ k ∈ items, k.InRange := fun _ => inRange.item
  clear inRange
  induction each with
  | nil => simp
  | cons held _ ih =>
    obtain ⟨first, others⟩ := List.forall_mem_cons.mp step
    obtain ⟨here, later⟩ := List.forall_mem_cons.mp known
    exact List.forall_mem_cons.mpr ⟨first _ held here, ih others later⟩

theorem ParamsSpelling.forall_mem {params : List α}
    (spelled : ParamsSpelling allowed Item json params) (inRange : json.InRange)
    (step : ∀ a ∈ params, ∀ k, Item k a → k.InRange → P a) : ∀ a ∈ params, P a := by
  cases spelled with
  | null => simp
  | array each _ => exact forall_of_forall₂ each inRange step

theorem TableSpelling.forall_mem {entries : List (String × α)}
    (spelled : TableSpelling Item json entries) (inRange : json.InRange)
    (step : ∀ a ∈ entries.map Prod.snd, ∀ k, Item k a → k.InRange → P a) :
    ∀ a ∈ entries.map Prod.snd, P a := by
  obtain ⟨each⟩ := spelled
  exact forall_of_forall₂ each (inRange.item (by simp)) step

theorem HashSpelling.forall_mem {hash : List (String × α)}
    (spelled : HashSpelling allowed Item json hash) (inRange : json.InRange)
    (step : ∀ a ∈ hash.map Prod.snd, ∀ k, Item k a → k.InRange → P a) :
    ∀ a ∈ hash.map Prod.snd, P a := by
  cases spelled with
  | null => simp
  | table table _ => exact table.forall_mem inRange step

/-- An expression that was spelled with numbers in range can be written. -/
theorem Expression.Spelling.writable {e : Expression} (spelled : e.Spelling allowed json)
    (inRange : json.InRange) : e.Writable := by
  induction e using Expression.induction generalizing json with
  | step e ih =>
  have part : ∀ k ∈ e.inner, ∀ json, k.Spelling allowed json → json.InRange → k.Writable :=
    fun k within json => ih k within
  refine Expression.writable_iff.mpr ⟨fun d number => ?_, fun n word => ?_, ?_⟩
  · cases spelled with
    | value spelled =>
      cases spelled with
      | number value _ =>
        cases number
        rw [← value]
        exact Json.Number.isFinite_toDouble (inRange _ List.mem_cons_self)
      | _ => cases number
    | _ => cases number
  · cases spelled with
    | getSymbol fits | getFree fits | getContextualFree fits =>
      cases word
      exact fits
    | _ => cases word
  · cases spelled with
    | getPath headSpelled =>
      refine List.forall_mem_singleton.mpr (part _ List.mem_cons_self _ headSpelled ?_)
      exact operand_inRange inRange List.mem_cons_self
    | concat partsSpelled =>
      exact partsSpelled.forall_mem (operand_inRange inRange List.mem_cons_self) part
    | call headSpelled paramsSpelled hashSpelled =>
      have operand := fun {k} (here : k ∈ _) => operand_inRange inRange here
      have head := part _ List.mem_cons_self _ headSpelled (operand (by simp))
      have params := paramsSpelled.forall_mem (operand (by simp)) fun k within =>
        part k (List.mem_cons_of_mem _ (List.mem_append_left _ within))
      have hash := hashSpelled.forall_mem (operand (by simp)) fun k within =>
        part k (List.mem_cons_of_mem _ (List.mem_append_right _ within))
      exact List.forall_mem_cons.mpr ⟨head, List.forall_mem_append.mpr ⟨params, hash⟩⟩
    | hasBlock blockSpelled | hasBlockParams blockSpelled =>
      refine List.forall_mem_singleton.mpr (part _ List.mem_cons_self _ blockSpelled ?_)
      exact operand_inRange inRange List.mem_cons_self
    | _ => exact List.forall_mem_nil _

theorem ParamsSpelling.writable {params : List Expression}
    (spelled : ParamsSpelling allowed (Expression.Spelling allowed) json params)
    (inRange : json.InRange) : ∀ e ∈ params, e.Writable :=
  spelled.forall_mem inRange fun _ _ _ => Expression.Spelling.writable

theorem HashSpelling.writable {hash : List (String × Expression)}
    (spelled : HashSpelling allowed (Expression.Spelling allowed) json hash)
    (inRange : json.InRange) : ∀ e ∈ hash.map Prod.snd, e.Writable :=
  spelled.forall_mem inRange fun _ _ _ => Expression.Spelling.writable

theorem Statement.Spelling.expressions_writable {s : Statement}
    (spelled : Statement.Spelling allowed json s) (inRange : json.InRange) :
    ∀ e ∈ s.expressions, e.Writable := by
  cases spelled with
  | append valueSpelled | trustingAppend valueSpelled =>
    refine List.forall_mem_singleton.mpr (valueSpelled.writable ?_)
    exact operand_inRange inRange (by simp)
  | attr nameSpelled valueSpelled | attrInSpace nameSpelled valueSpelled
  | staticArg valueSpelled | dynamicArg valueSpelled =>
    refine List.forall_mem_singleton.mpr (valueSpelled.writable ?_)
    exact operand_inRange inRange (by simp)
  | modifier headSpelled paramsSpelled hashSpelled
  | block headSpelled paramsSpelled hashSpelled blocksSpelled =>
    refine List.forall_mem_cons.mpr ⟨headSpelled.writable (operand_inRange inRange (by simp)),
      List.forall_mem_append.mpr ⟨?_, ?_⟩⟩
    · exact paramsSpelled.writable (operand_inRange inRange (by simp))
    · exact hashSpelled.writable (operand_inRange inRange (by simp))
  | selfClosing tagSpelled attrsSpelled argsSpelled
  | component tagSpelled attrsSpelled argsSpelled blocksSpelled =>
    refine List.forall_mem_cons.mpr ⟨tagSpelled.writable (operand_inRange inRange (by simp)), ?_⟩
    exact argsSpelled.writable (operand_inRange inRange (by simp))
  | yield fits paramsSpelled => exact paramsSpelled.writable (operand_inRange inRange (by simp))
  | partialTemplate nameSpelled fits =>
    refine List.forall_mem_singleton.mpr (nameSpelled.writable ?_)
    exact operand_inRange inRange (by simp)
  | inElement blockSpelled destinationSpelled =>
    refine List.forall_mem_singleton.mpr (destinationSpelled.writable ?_)
    exact operand_inRange inRange (by simp)
  | inElementBefore blockSpelled destinationSpelled beforeSpelled =>
    refine List.forall_mem_cons.mpr ⟨destinationSpelled.writable ?_,
      List.forall_mem_singleton.mpr (beforeSpelled.writable ?_)⟩
    · exact operand_inRange inRange (by simp)
    · exact operand_inRange inRange (by simp)
  | _ => exact List.forall_mem_nil _

theorem Statement.Spelling.fits_ownSlots {s : Statement}
    (spelled : Statement.Spelling allowed json s) : ∀ n ∈ s.ownSlots, Fits n := by
  cases spelled with
  | attrSplat fits | yield fits _ => exact List.forall_mem_singleton.mpr fits
  | partialTemplate _ fits | debugger fits => exact fits
  | _ => exact List.forall_mem_nil _

theorem InlineBlock.Spelling.writable_of_each {block : InlineBlock Statement}
    (spelled : InlineBlock.Spelling allowed json block) (inRange : json.InRange)
    (step : ∀ s ∈ block.statements, ∀ k, Statement.Spelling allowed k s → k.InRange → s.Writable) :
    block.Writable := by
  cases spelled with
  | object found _ each fits _ =>
    exact InlineBlock.writable_iff.mpr ⟨fits, forall_of_forall₂ each (inRange.lookup found) step⟩

theorem Statement.Spelling.writable {s : Statement} (spelled : Statement.Spelling allowed json s)
    (inRange : json.InRange) : s.Writable := by
  induction s using Statement.induction generalizing json with
  | step s ih =>
  refine Statement.writable_iff.mpr
    ⟨spelled.fits_ownSlots, spelled.expressions_writable inRange, ?_, ?_⟩
  · have given : ∀ k ∈ s.attributes, ∀ json, Statement.Spelling allowed json k → json.InRange →
        k.Writable := fun k here json => ih k (List.mem_append_left _ here)
    cases spelled with
    | selfClosing tagSpelled attrsSpelled argsSpelled
    | component tagSpelled attrsSpelled argsSpelled blocksSpelled =>
      exact forall_of_forall₂ attrsSpelled (operand_inRange inRange (by simp)) given
    | _ => exact List.forall_mem_nil _
  · have body : ∀ b ∈ s.blocks, ∀ json, InlineBlock.Spelling allowed json b → json.InRange →
        b.Writable := by
      intro b here json spelled inRange
      refine spelled.writable_of_each inRange fun k deeper json => ih k ?_
      exact List.mem_append_right _ (List.mem_flatMap.mpr ⟨b, here, deeper⟩)
    cases spelled with
    | block headSpelled paramsSpelled hashSpelled blocksSpelled =>
      exact blocksSpelled.forall_mem (operand_inRange inRange (by simp)) body
    | component tagSpelled attrsSpelled argsSpelled blocksSpelled =>
      exact blocksSpelled.forall_mem (operand_inRange inRange (by simp)) body
    | inElement blockSpelled destinationSpelled
    | inElementBefore blockSpelled destinationSpelled beforeSpelled =>
      refine List.forall_mem_singleton.mpr (body _ List.mem_cons_self _ blockSpelled ?_)
      exact operand_inRange inRange (by simp)
    | _ => exact List.forall_mem_nil _

theorem InlineBlock.Spelling.writable {block : InlineBlock Statement}
    (spelled : InlineBlock.Spelling allowed json block) (inRange : json.InRange) :
    block.Writable :=
  spelled.writable_of_each inRange fun _ _ _ => Statement.Spelling.writable

end Readable

/-! ### The three kinds of trees -/

/-- A kind of tree: its two directions, its grammar, and what counts in it when it is written. -/
structure Format (α : Type) where
  encode : α → Json
  decode : Json → Decoded α
  Spelling : (Liberty → Prop) → Json → α → Prop
  numbers : α → List Double
  words : α → List Nat
  unsignZeros : α → α

namespace Format

def statement : Format Statement where
  encode := Statement.encode
  decode := decodeStatement
  Spelling := Statement.Spelling
  numbers := Statement.numbers
  words := Statement.words
  unsignZeros := Statement.unsignZeros

def expression : Format Expression where
  encode := Expression.encode
  decode := decodeExpression
  Spelling := Expression.Spelling
  numbers := Expression.numbers
  words := Expression.words
  unsignZeros := Expression.unsignZeros

def block : Format (InlineBlock Statement) where
  encode := InlineBlock.encode
  decode := decodeBlock
  Spelling := InlineBlock.Spelling
  numbers := InlineBlock.numbers
  words := InlineBlock.words
  unsignZeros := InlineBlock.unsignZeros

variable {α : Type} (F : Format α)

/-- A tree whose numbers survive and whose slots and indices fit. -/
structure Keeps (a : α) : Prop where
  survive : ∀ d ∈ F.numbers a, Survives d
  fit : ∀ n ∈ F.words a, Fits n

/-- How the two directions and the grammar belong together. -/
structure Lawful : Prop where
  accepts : ∀ json a, F.decode json = .ok a ↔ F.Spelling Liberty.every json a
  written : ∀ allowed a, F.Keeps a → F.Spelling allowed (F.encode a) (F.unsignZeros a)
  unique : ∀ json a, F.Spelling Liberty.none json a → json = F.encode a
  readable : ∀ json a, F.Spelling Liberty.every json a → json.InRange → F.Keeps a
  unsigned : ∀ a, (∀ d ∈ F.numbers a, d.unsignZero = d) → F.unsignZeros a = a

theorem lawful_statement : statement.Lawful where
  accepts _ _ := decodeStatement_eq_ok
  written _ _ keeps :=
    Statement.spelling_encode ⟨fun d found => survives_iff.mp (keeps.survive d found), keeps.fit⟩
  unique _ _ := Statement.Spelling.eq_encode
  readable _ _ spelled inRange :=
    have writable := Statement.Spelling.writable spelled inRange
    ⟨fun d found => survives_iff.mpr (writable.finite d found), writable.fits⟩
  unsigned _ := Statement.unsignZeros_eq_self

theorem lawful_expression : expression.Lawful where
  accepts _ _ := decodeExpression_eq_ok
  written _ _ keeps :=
    Expression.spelling_encode ⟨fun d found => survives_iff.mp (keeps.survive d found), keeps.fit⟩
  unique _ _ := Expression.Spelling.eq_encode
  readable _ _ spelled inRange :=
    have writable := Expression.Spelling.writable spelled inRange
    ⟨fun d found => survives_iff.mpr (writable.finite d found), writable.fits⟩
  unsigned _ := Expression.unsignZeros_eq_self

theorem lawful_block : block.Lawful where
  accepts _ _ := decodeBlock_eq_ok
  written _ _ keeps :=
    InlineBlock.spelling_encode ⟨fun d found => survives_iff.mp (keeps.survive d found), keeps.fit⟩
  unique _ _ := InlineBlock.Spelling.eq_encode
  readable _ _ spelled inRange :=
    have writable := InlineBlock.Spelling.writable spelled inRange
    ⟨fun d found => survives_iff.mpr (writable.finite d found), writable.fits⟩
  unsigned _ := InlineBlock.unsignZeros_eq_self

/-- Reading undoes writing, so different trees are written differently. -/
structure Lossless : Prop where
  decode_encode : ∀ a, F.Keeps a → F.decode (F.encode a) = .ok (F.unsignZeros a)
  /-- Without signed zeros the tree itself is read back. -/
  decode_encode_unsigned : ∀ a, F.Keeps a → (∀ d ∈ F.numbers a, d.unsignZero = d) →
    F.decode (F.encode a) = .ok a
  injective : ∀ a b, F.Keeps a → F.Keeps b → F.encode a = F.encode b →
    F.unsignZeros a = F.unsignZeros b

/-- Exactly the spellings are read, and all spellings of a tree are written in one way. -/
structure Canonical : Prop where
  accepts : ∀ json a, F.decode json = .ok a ↔ F.Spelling Liberty.every json a
  refuses : ∀ json, (∃ failure, F.decode json = .error failure) ↔
    ∀ a, ¬ F.Spelling Liberty.every json a
  /-- What is written is the one spelling that takes no liberty. -/
  strict : ∀ json a, F.Keeps a →
    (F.Spelling Liberty.none json (F.unsignZeros a) ↔ json = F.encode a)
  rereads : ∀ json a, json.InRange → F.decode json = .ok a →
    F.decode (F.encode a) = .ok (F.unsignZeros a) ∧ F.encode (F.unsignZeros a) = F.encode a

variable {F}

/-- What is written is read again, up to the sign of zero. -/
theorem Lawful.decode_encode (lawful : F.Lawful) {a : α} (keeps : F.Keeps a) :
    F.decode (F.encode a) = .ok (F.unsignZeros a) :=
  (lawful.accepts _ _).mpr (lawful.written _ a keeps)

/-- The sign of zero is not written. -/
theorem Lawful.encode_unsignZeros (lawful : F.Lawful) {a : α} (keeps : F.Keeps a) :
    F.encode (F.unsignZeros a) = F.encode a :=
  (lawful.unique _ _ (lawful.written _ a keeps)).symm

theorem Lawful.lossless (lawful : F.Lawful) : F.Lossless where
  decode_encode _ := lawful.decode_encode
  decode_encode_unsigned a keeps unsigned := by
    rw [lawful.decode_encode keeps, lawful.unsigned a unsigned]
  injective a b keeps keepsToo same := by
    have read := lawful.decode_encode keeps
    rw [same, lawful.decode_encode keepsToo] at read
    exact (Except.ok.inj read).symm

theorem Lawful.canonical (lawful : F.Lawful) : F.Canonical where
  accepts := lawful.accepts
  refuses json := by
    constructor
    · rintro ⟨failure, failed⟩ a spelled
      rw [(lawful.accepts json a).mpr spelled] at failed
      cases failed
    · intro none
      cases read : F.decode json with
      | error failure => exact ⟨failure, rfl⟩
      | ok a => exact (none a ((lawful.accepts json a).mp read)).elim
  strict json a keeps := by
    constructor
    · intro spelled
      rw [lawful.unique json _ spelled, lawful.encode_unsignZeros keeps]
    · rintro rfl
      exact lawful.written _ a keeps
  rereads json a inRange read := by
    have keeps := lawful.readable json a ((lawful.accepts json a).mp read) inRange
    exact ⟨lawful.decode_encode keeps, lawful.encode_unsignZeros keeps⟩

end Format

/-- What is written of a statement, an expression or a block is read back. All finite doubles
survive; infinities and NaNs are written as `null`. Two doubles are the same number if they are equal
once zeros are unsigned. -/
theorem reading_undoes_writing :
    Format.statement.Lossless ∧ Format.expression.Lossless ∧ Format.block.Lossless ∧
      (∀ d, Survives d ↔ d.isFinite = true) ∧
      (∀ d : Double, d.isFinite = false → encodeNumber d = .null) ∧
      ∀ a b : Double, a.isFinite = true → b.isFinite = true →
        (a.same b = true ↔ a.unsignZero = b.unsignZero) :=
  ⟨Format.lawful_statement.lossless, Format.lawful_expression.lossless,
    Format.lawful_block.lossless, fun _ => survives_iff, fun _ => encodeNumber_of_not_finite,
    fun _ _ => Double.same_iff_unsignZero⟩

/-- A component with a signed zero for an argument, whose content is put before `null`. -/
def signedZero : Statement :=
  .component (.getFree 0) [.attr .staticComponent "class" (.value (.string "wide")) none]
    [("@at", .value (.number (.ofWord true 0)))]
    (some [("default", ⟨[.inElement ⟨[.yield 2 []], []⟩ "%cursor:0%" (.getSymbol 1)
      (some (.value .null))], [3]⟩)])

theorem reading_undoes_writing_signedZero :
    Format.statement.Keeps signedZero ∧
      decodeStatement signedZero.encode = .ok signedZero.unsignZeros := by
  have finite : ∀ d ∈ signedZero.numbers, d.isFinite = true := by decide
  have keeps : Format.statement.Keeps signedZero :=
    ⟨fun d found => survives_iff.mpr (finite d found), by decide⟩
  have read := reading_undoes_writing.1.decode_encode signedZero keeps
  dsimp only [Format.statement] at read
  exact ⟨keeps, read⟩

/-- The decoder reads exactly the spellings. -/
theorem reading_accepts_spellings :
    Format.statement.Canonical ∧ Format.expression.Canonical ∧ Format.block.Canonical :=
  ⟨Format.lawful_statement.canonical, Format.lawful_expression.canonical,
    Format.lawful_block.canonical⟩

/-- A call without arguments, with its empty lists written out. -/
def emptyLists : Json :=
  tuple .append [tuple .call [tuple .getSymbol [.ofNat 0], .array [], .array [.array [], .array []]]]

theorem reading_accepts_spellings_emptyLists :
    decodeStatement emptyLists = .ok (.append (.call (.getSymbol 0) [] [])) ∧
      Statement.encode (.append (.call (.getSymbol 0) [] [])) =
        tuple .append [tuple .call [tuple .getSymbol [.ofNat 0], .null, .null]] ∧
      decodeStatement (Statement.encode (.append (.call (.getSymbol 0) [] []))) =
        .ok (.append (.call (.getSymbol 0) [] [])) := by
  have read : decodeStatement emptyLists = .ok (.append (.call (.getSymbol 0) [] [])) := rfl
  refine ⟨read, rfl, ?_⟩
  exact (reading_accepts_spellings.1.rereads emptyLists _ (by decide) read).1

end Wire

end TemplateCompiler

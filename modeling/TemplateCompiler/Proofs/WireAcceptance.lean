import TemplateCompiler.Proofs.Outcomes
import TemplateCompiler.Proofs.WireSpelling
import TemplateCompiler.Wire.Decoding

/-!
# Reading spellings

The decoder accepts what the grammar of spellings allows, with all liberties, and nothing else. The
proofs follow the depth of the JSON value: what is read of a value is what its operands spell, given
that this is so for all values inside.
-/

namespace TemplateCompiler.Wire

/-! ### Scalars -/

theorem nat?_eq_some {json : Json} {n : Nat} : json.nat? = some n ↔ json = .ofNat n := by
  constructor
  · intro found
    cases json with
    | number number =>
      cases number with
      | whole value =>
        have same : value = n := Int.mem_toNat?.mp found
        rw [same]
        rfl
      | double value => cases found
    | _ => cases found
  · rintro rfl
    rfl

/-- A slot is a whole number that fits. -/
theorem decodeSlot_eq_ok {json : Json} {slot : Nat} :
    decodeSlot json = .ok slot ↔ Fits slot ∧ json = .ofNat slot := by
  rw [← nat?_eq_some, decodeSlot]
  cases json.nat? with
  | none => simp [malformed]
  | some n =>
    by_cases small : n < Nat.pow 2 32
    · simp only [small, if_true, Except.ok.injEq, Option.some.injEq, Fits]
      constructor
      · rintro rfl
        exact ⟨small, rfl⟩
      · rintro ⟨_, same⟩
        exact same
    · simp only [small, if_false, malformed, Fits, Option.some.injEq]
      constructor
      · intro failed
        cases failed
      · rintro ⟨fits, rfl⟩
        exact (small fits).elim

theorem decodeString_eq_ok {json : Json} {s : String} :
    decodeString json = .ok s ↔ json = .string s := by
  cases json with
  | string found => simp [decodeString]
  | _ => simp [decodeString, malformed]

/-- An attribute name may be spelled by its text or by its number. -/
theorem decodeAttributeName_eq_ok {json : Json} {name : String} :
    decodeAttributeName json = .ok name ↔ AttributeNameSpelling Liberty.every json name := by
  constructor
  · intro done
    cases json with
    | number number =>
      simp only [decodeAttributeName] at done
      split at done
      · cases done
      · next index found =>
        split at done
        · next common =>
          cases done
          rw [nat?_eq_some.mp found]
          exact .index common
        · cases done
    | string found =>
      cases done
      exact .full fun _ => trivial
    | _ => cases done
  · intro spelled
    cases spelled with
    | @index i _ common =>
      have found : (Json.number (.whole i)).nat? = some i := nat?_eq_some.mpr rfl
      simp only [decodeAttributeName, Json.ofNat, Json.ofInt, found, common]
    | full _ => rfl

theorem Opcode.code_of_ofCode? {code : Nat} {op : Opcode} (known : ofCode? code = some op) :
    op.code = code := by
  simpa using List.find?_some known

/-- A tuple begins with a code that is known. -/
theorem openTuple_eq_ok {json : Json} {op : Opcode} {operands : List Json} :
    openTuple json = .ok (op, operands) ↔ json = tuple op operands := by
  constructor
  · intro done
    cases json with
    | array items =>
      cases items with
      | nil => cases done
      | cons first rest =>
        simp only [openTuple] at done
        split at done
        · cases done
        · next code found =>
          split at done
          · cases done
          · next known =>
            cases done
            rw [nat?_eq_some.mp found, tuple, Opcode.code_of_ofCode? known]
    | _ => cases done
  · rintro rfl
    have found : (Json.ofNat op.code).nat? = some op.code := nat?_eq_some.mpr rfl
    simp only [openTuple, tuple, found, Opcode.ofCode?_code]

/-! ### Lists and tables -/

theorem decodeList_eq_ok {α : Type} {what : Malformation} {decode : Json → Decoded α}
    {json : Json} {list : List α} :
    decodeList what decode json = .ok list ↔
      ∃ items, json = .array items ∧ List.Forall₂ (fun k a => decode k = .ok a) items list := by
  cases json with
  | array items => simp [decodeList, mapM_eq_ok]
  | _ => simp [decodeList, malformed]

theorem forall₂_string_iff {items : List Json} {texts : List String} :
    List.Forall₂ (fun json s => json = Json.string s) items texts ↔ items = texts.map .string := by
  rw [← List.forall₂_map_right_iff, List.forall₂_eq_eq_eq]

theorem decodeStrings_eq_ok {what : Malformation} {json : Json} {texts : List String} :
    decodeList what decodeString json = .ok texts ↔ json = .strings texts := by
  simp only [decodeList_eq_ok, decodeString_eq_ok, forall₂_string_iff]
  constructor
  · rintro ⟨_, rfl, rfl⟩
    rfl
  · rintro rfl
    exact ⟨_, rfl, rfl⟩

theorem forall₂_slot_iff {items : List Json} {slots : List Nat} :
    List.Forall₂ (fun json slot => Fits slot ∧ json = .ofNat slot) items slots ↔
      (∀ slot ∈ slots, Fits slot) ∧ items = slots.map .ofNat := by
  induction slots generalizing items with
  | nil => simp
  | cons slot rest ih =>
    cases items with
    | nil => simp
    | cons item others =>
      rw [List.forall₂_cons, ih, List.forall_mem_cons, List.map_cons, List.cons.injEq]
      exact and_and_and_comm

theorem decodeSlots_eq_ok {json : Json} {slots : List Nat} :
    decodeSlots json = .ok slots ↔ (∀ slot ∈ slots, Fits slot) ∧ json = .nats slots := by
  simp only [decodeSlots, decodeList_eq_ok, decodeSlot_eq_ok, forall₂_slot_iff]
  constructor
  · rintro ⟨_, rfl, fits, rfl⟩
    exact ⟨fits, rfl⟩
  · rintro ⟨fits, rfl⟩
    exact ⟨_, rfl, fits, rfl⟩

theorem openPair_eq_ok {what : Malformation} {json : Json} {entries : List (Json × Json)} :
    openPair what json = .ok entries ↔
      ∃ keys values, json = .array [.array keys, .array values] ∧ keys.length = values.length ∧
        entries = keys.zip values := by
  constructor
  · intro done
    unfold openPair at done
    split at done
    · split at done
      · next counted =>
        cases done
        exact ⟨_, _, rfl, counted, rfl⟩
      · cases done
    · cases done
  · rintro ⟨keys, values, rfl, counted, rfl⟩
    simp [openPair, counted]

theorem decodeEntry_eq_ok {α : Type} {decode : Json → Decoded α} {key value : Json} {name : String}
    {a : α} :
    decodeEntry decode (key, value) = .ok (name, a) ↔ key = .string name ∧ decode value = .ok a := by
  simp only [decodeEntry, bind_eq_ok, decodeString_eq_ok]
  constructor
  · rintro ⟨_, rfl, _, read, done⟩
    cases done
    exact ⟨rfl, read⟩
  · rintro ⟨rfl, read⟩
    exact ⟨_, rfl, _, read, rfl⟩

/-- Keys and values side by side, or in one list each. -/
theorem forall₂_zip_iff {α : Type} {decode : Json → Decoded α} {keys values : List Json}
    (counted : keys.length = values.length) {entries : List (String × α)} :
    List.Forall₂ (fun entry r => decodeEntry decode entry = .ok r) (keys.zip values) entries ↔
      keys = entries.map (fun entry => .string entry.1) ∧
        List.Forall₂ (fun k a => decode k = .ok a) values (entries.map Prod.snd) := by
  induction entries generalizing keys values with
  | nil => cases keys <;> cases values <;> simp_all
  | cons entry rest ih =>
    cases keys with
    | nil =>
      cases values with
      | nil => simp
      | cons value values => cases counted
    | cons key keys =>
      cases values with
      | nil => cases counted
      | cons value values =>
        obtain ⟨name, a⟩ := entry
        rw [List.zip_cons_cons, List.forall₂_cons, decodeEntry_eq_ok, ih (Nat.succ.inj counted),
          List.map_cons, List.map_cons, List.forall₂_cons, List.cons.injEq]
        exact and_and_and_comm

/-- A table is a list of names beside a list of values, equally long. -/
theorem decodeTable_eq_ok {α : Type} {what : Malformation} {decode : Json → Decoded α}
    {json : Json} {entries : List (String × α)} :
    (openPair what json >>= fun pairs => pairs.mapM (decodeEntry decode)) = .ok entries ↔
      TableSpelling (fun k a => decode k = .ok a) json entries := by
  simp only [bind_eq_ok, openPair_eq_ok, mapM_eq_ok]
  constructor
  · rintro ⟨_, ⟨keys, values, rfl, counted, rfl⟩, each⟩
    obtain ⟨rfl, spelled⟩ := (forall₂_zip_iff counted).mp each
    have pair := TableSpelling.pair spelled
    rwa [Json.strings, List.map_map] at pair
  · rintro ⟨each⟩
    have counted := each.length_eq
    refine ⟨_, ⟨_, _, rfl, ?_, rfl⟩, (forall₂_zip_iff ?_).mpr ⟨by rw [List.map_map]; rfl, each⟩⟩
    all_goals simp_all

/-! ### Operands -/

namespace Operands

variable {α β : Type} {decode : Json → Decoded α} {operands : List Json}

theorem complete_eq_ok {read : Operands α} {a : α} :
    read.complete operands = .ok a ↔ read operands = .ok (a, []) := by
  rw [complete, bind_eq_ok]
  constructor
  · rintro ⟨⟨value, rest⟩, first, done⟩
    cases rest with
    | nil =>
      cases done
      exact first
    | cons operand rest => cases done
  · intro first
    exact ⟨_, first, rfl⟩

theorem pure_eq_ok {a b : α} {rest : List Json} :
    (pure a : Operands α) operands = .ok (b, rest) ↔ b = a ∧ operands = rest := by
  constructor
  · intro done
    cases done
    exact ⟨rfl, rfl⟩
  · rintro ⟨rfl, rfl⟩
    rfl

theorem next_bind_eq_ok {f : α → Operands β} {r : β × List Json} :
    (next decode >>= f) operands = .ok r ↔
      ∃ operand rest a, operands = operand :: rest ∧ decode operand = .ok a ∧ f a rest = .ok r := by
  cases operands with
  | nil =>
    constructor
    · intro done
      cases done
    · rintro ⟨_, _, _, missing, _⟩
      cases missing
  | cons operand rest =>
    show ((decode operand >>= fun a => pure (a, rest)) >>= fun p => f p.1 p.2) = .ok r ↔ _
    simp only [bind_eq_ok]
    constructor
    · rintro ⟨_, ⟨a, read, taken⟩, done⟩
      cases taken
      exact ⟨operand, rest, a, rfl, read, done⟩
    · rintro ⟨_, _, a, same, read, done⟩
      cases same
      exact ⟨_, ⟨a, read, rfl⟩, done⟩

theorem next_cons {f : α → Operands β} {operand : Json} {a : α} (read : decode operand = .ok a)
    (rest : List Json) : (next decode >>= f) (operand :: rest) = f a rest := by
  show ((decode operand >>= fun a => pure (a, rest)) >>= fun p => f p.1 p.2) = f a rest
  rw [read]
  rfl

theorem next?_cons {f : Option α → Operands β} {operand : Json} {a : α}
    (read : decode operand = .ok a) (rest : List Json) :
    (next? decode >>= f) (operand :: rest) = f (some a) rest := by
  show ((decode operand >>= fun a => pure (some a, rest)) >>= fun p => f p.1 p.2) = _
  rw [read]
  rfl

theorem next?_bind_eq_ok {f : Option α → Operands β} {r : β × List Json} :
    (next? decode >>= f) operands = .ok r ↔
      (operands = [] ∧ f none [] = .ok r) ∨
        ∃ operand rest a, operands = operand :: rest ∧ decode operand = .ok a ∧
          f (some a) rest = .ok r := by
  cases operands with
  | nil =>
    show f none [] = .ok r ↔ _
    simp
  | cons operand rest =>
    show ((decode operand >>= fun a => pure (some a, rest)) >>= fun p => f p.1 p.2) = .ok r ↔ _
    simp only [bind_eq_ok]
    constructor
    · rintro ⟨_, ⟨a, read, taken⟩, done⟩
      cases taken
      exact .inr ⟨operand, rest, a, rfl, read, done⟩
    · rintro (⟨none, _⟩ | ⟨_, _, a, same, read, done⟩)
      · cases none
      · cases same
        exact ⟨_, ⟨a, read, rfl⟩, done⟩

end Operands

/-! ### Depth -/

theorem depth_lt_of_mem {item : Json} {items : List Json} (inside : item ∈ items) :
    item.depth < (Json.array items).depth := by
  rw [Json.depth, Nat.lt_succ_iff]
  induction items with
  | nil => cases inside
  | cons first rest ih =>
    rw [Json.depthOfItems]
    rcases List.mem_cons.mp inside with rfl | later
    · exact Nat.le_max_left _ _
    · exact Nat.le_trans (ih later) (Nat.le_max_right _ _)

theorem depth_lt_of_lookup {key : String} {value : Json} {members : List (String × Json)}
    (found : members.lookup key = some value) : value.depth < (Json.object members).depth := by
  rw [Json.depth, Nat.lt_succ_iff]
  induction members with
  | nil => cases found
  | cons member rest ih =>
    obtain ⟨name, other⟩ := member
    rw [Json.depthOfMembers]
    rw [List.lookup_cons] at found
    split at found
    · cases found
      exact Nat.le_max_left _ _
    · exact Nat.le_trans (ih found) (Nat.le_max_right _ _)

theorem depth_lt_tuple {op : Opcode} {operand : Json} {operands : List Json}
    (inside : operand ∈ operands) : operand.depth < (tuple op operands).depth :=
  depth_lt_of_mem (List.mem_cons_of_mem _ inside)

/-- What holds of all values inside an array may be used for its items. -/
theorem forall₂_below {α : Type} {R S : Json → α → Prop} {items : List Json} {list : List α}
    (below : ∀ k a, k.depth < (Json.array items).depth → R k a → S k a)
    (each : List.Forall₂ R items list) : List.Forall₂ S items list :=
  ((List.forall₂_and_left items list).mpr ⟨fun _ inside => depth_lt_of_mem inside, each⟩).imp
    fun k a held => below k a held.1 held.2

section Below

variable {α : Type} {allowed : Liberty → Prop} {R S : Json → α → Prop} {json : Json}

/-- A spelling of positional arguments depends on smaller values only. -/
theorem ParamsSpelling.below {params : List α}
    (below : ∀ k a, k.depth < json.depth → R k a → S k a)
    (spelled : ParamsSpelling allowed R json params) : ParamsSpelling allowed S json params := by
  cases spelled with
  | null => exact .null
  | array each present => exact .array (forall₂_below below each) present

theorem TableSpelling.below {entries : List (String × α)}
    (below : ∀ k a, k.depth < json.depth → R k a → S k a)
    (spelled : TableSpelling R json entries) : TableSpelling S json entries := by
  obtain ⟨each⟩ := spelled
  refine .pair (forall₂_below (fun k a inside => below k a (Nat.lt_trans inside ?_)) each)
  exact depth_lt_of_mem (List.mem_cons_of_mem _ List.mem_cons_self)

theorem HashSpelling.below {hash : List (String × α)}
    (below : ∀ k a, k.depth < json.depth → R k a → S k a)
    (spelled : HashSpelling allowed R json hash) : HashSpelling allowed S json hash := by
  cases spelled with
  | null => exact .null
  | table table present => exact .table (table.below below) present

end Below

/-! ### Expressions -/

section Expressions

variable {inner : Json → Decoded Expression}

theorem decodeParamsWith_eq_ok {json : Json} {params : List Expression} :
    decodeParamsWith inner json = .ok params ↔
      ParamsSpelling Liberty.every (fun k e => inner k = .ok e) json params := by
  constructor
  · intro done
    cases json with
    | null =>
      cases done
      exact .null
    | array items => exact .array (mapM_eq_ok.mp done) fun _ => trivial
    | _ => cases done
  · intro spelled
    cases spelled with
    | null => rfl
    | array each _ => exact mapM_eq_ok.mpr each

theorem decodeHashWith_eq_ok {json : Json} {hash : List (String × Expression)} :
    decodeHashWith inner json = .ok hash ↔
      HashSpelling Liberty.every (fun k e => inner k = .ok e) json hash := by
  constructor
  · intro done
    cases json with
    | null =>
      cases done
      exact .null
    | array items => exact .table (decodeTable_eq_ok.mp done) fun _ => trivial
    | _ => cases done
  · intro spelled
    cases spelled with
    | null => rfl
    | table table _ =>
      have done : (openPair .notHash json >>= fun entries => entries.mapM (decodeEntry inner)) =
          .ok hash := decodeTable_eq_ok.mpr table
      obtain ⟨each⟩ := table
      exact done

theorem decodeExpressionWith_tuple {op : Opcode} {operands : List Json} {e : Expression} :
    decodeExpressionWith inner (tuple op operands) = .ok e ↔
      expressionOperands inner op operands = .ok (e, []) := by
  have opened : openTuple (tuple op operands) = .ok (op, operands) := openTuple_eq_ok.mpr rfl
  rw [← Operands.complete_eq_ok]
  show (openTuple (tuple op operands) >>= fun p => (expressionOperands inner p.1).complete p.2) =
    .ok e ↔ _
  rw [opened]
  rfl

theorem Opcode.ofContext_of_context? {op : Opcode} {context : Context}
    (found : op.context? = some context) : op = .ofContext context := by
  cases op <;> cases found <;> rfl

theorem expressionOperands_ofContext (context : Context) :
    expressionOperands inner (.ofContext context) =
      (Operands.next decodeSlot >>= fun index => pure (.getContextualFree index context)) := by
  cases context <;> rfl

/-- The operands of an expression are those of its rule. -/
theorem spelling_of_expressionOperands {op : Opcode} {operands : List Json} {e : Expression}
    (below : ∀ k e, k.depth < (tuple op operands).depth → inner k = .ok e →
      e.Spelling Liberty.every k)
    (done : expressionOperands inner op operands = .ok (e, [])) :
    e.Spelling Liberty.every (tuple op operands) := by
  have operand : ∀ k ∈ operands, ∀ e, inner k = .ok e → e.Spelling Liberty.every k :=
    fun k inside e => below k e (depth_lt_tuple inside)
  have within : ∀ json ∈ operands, ∀ k e, k.depth < json.depth → inner k = .ok e →
      e.Spelling Liberty.every k :=
    fun json inside k e deeper => below k e (Nat.lt_trans deeper (depth_lt_tuple inside))
  cases found : op.context? with
  | some context =>
    obtain rfl := Opcode.ofContext_of_context? found
    simp only [expressionOperands_ofContext, Operands.next_bind_eq_ok, Operands.pure_eq_ok,
      decodeSlot_eq_ok] at done
    obtain ⟨_, _, index, rfl, ⟨fits, rfl⟩, rfl, rfl⟩ := done
    exact .getContextualFree fits
  | none =>
  cases op with
  | undefined =>
    simp only [expressionOperands, Operands.pure_eq_ok] at done
    obtain ⟨rfl, rfl⟩ := done
    exact .undefined
  | getSymbol =>
    simp only [expressionOperands, Operands.next_bind_eq_ok, Operands.pure_eq_ok,
      decodeSlot_eq_ok] at done
    obtain ⟨_, _, slot, rfl, ⟨fits, rfl⟩, rfl, rfl⟩ := done
    exact .getSymbol fits
  | getFree =>
    simp only [expressionOperands, Operands.next_bind_eq_ok, Operands.pure_eq_ok,
      decodeSlot_eq_ok] at done
    obtain ⟨_, _, index, rfl, ⟨fits, rfl⟩, rfl, rfl⟩ := done
    exact .getFree fits
  | getPath =>
    simp only [expressionOperands, Operands.next_bind_eq_ok, Operands.pure_eq_ok,
      decodeStrings_eq_ok] at done
    obtain ⟨first, _, head, rfl, read, _, _, tail, rfl, rfl, rfl, rfl⟩ := done
    exact .getPath (operand first (by simp) head read)
  | concat =>
    simp only [expressionOperands, Operands.next_bind_eq_ok, Operands.pure_eq_ok,
      decodeParamsWith_eq_ok] at done
    obtain ⟨list, _, parts, rfl, spelled, rfl, rfl⟩ := done
    exact .concat (spelled.below (within list (by simp)))
  | call =>
    simp only [expressionOperands, Operands.next_bind_eq_ok, Operands.pure_eq_ok,
      decodeParamsWith_eq_ok, decodeHashWith_eq_ok] at done
    obtain ⟨first, _, head, rfl, read, list, _, params, rfl, positional, named, _, hash, rfl,
      byName, rfl, rfl⟩ := done
    exact .call (operand first (by simp) head read) (positional.below (within list (by simp)))
      (byName.below (within named (by simp)))
  | hasBlock =>
    simp only [expressionOperands, Operands.next_bind_eq_ok, Operands.pure_eq_ok] at done
    obtain ⟨target, _, block, rfl, read, rfl, rfl⟩ := done
    exact .hasBlock (operand target (by simp) block read)
  | hasBlockParams =>
    simp only [expressionOperands, Operands.next_bind_eq_ok, Operands.pure_eq_ok] at done
    obtain ⟨target, _, block, rfl, read, rfl, rfl⟩ := done
    exact .hasBlockParams (operand target (by simp) block read)
  | _ => cases found <;> cases done

/-- What is read as an expression is a spelling of it. -/
theorem spelling_of_decodeExpressionWith {json : Json} {e : Expression}
    (below : ∀ k e, k.depth < json.depth → inner k = .ok e → e.Spelling Liberty.every k)
    (done : decodeExpressionWith inner json = .ok e) : e.Spelling Liberty.every json := by
  cases json with
  | null =>
    cases done
    exact .value .null
  | bool b =>
    cases done
    exact .value .boolean
  | number n =>
    cases done
    exact .value (.number rfl (.inr trivial))
  | string s =>
    cases done
    exact .value .string
  | object members => cases done
  | array items =>
    obtain ⟨⟨op, operands⟩, opened, read⟩ := bind_eq_ok.mp done
    obtain same := openTuple_eq_ok.mp opened
    rw [same] at below ⊢
    exact spelling_of_expressionOperands below (Operands.complete_eq_ok.mp read)

/-- Every spelling of an expression is read as it. -/
theorem decodeExpressionWith_of_spelling {json : Json} {e : Expression}
    (below : ∀ k e, k.depth < json.depth → e.Spelling Liberty.every k → inner k = .ok e)
    (spelled : e.Spelling Liberty.every json) : decodeExpressionWith inner json = .ok e := by
  have within : ∀ {op operands}, json = tuple op operands → ∀ operand ∈ operands, ∀ k e,
      k.depth < operand.depth → e.Spelling Liberty.every k → inner k = .ok e := by
    rintro op operands rfl operand inside k e deeper
    exact below k e (Nat.lt_trans deeper (depth_lt_tuple inside))
  cases spelled with
  | value spelled =>
    cases spelled with
    | string => rfl
    | boolean => rfl
    | null => rfl
    | number value _ =>
      rw [← value]
      rfl
  | undefined => exact decodeExpressionWith_tuple.mpr rfl
  | getSymbol fits =>
    refine decodeExpressionWith_tuple.mpr ?_
    exact Operands.next_cons (decodeSlot_eq_ok.mpr ⟨fits, rfl⟩) []
  | getFree fits =>
    refine decodeExpressionWith_tuple.mpr ?_
    exact Operands.next_cons (decodeSlot_eq_ok.mpr ⟨fits, rfl⟩) []
  | getContextualFree fits =>
    refine decodeExpressionWith_tuple.mpr ?_
    rw [expressionOperands_ofContext]
    exact Operands.next_cons (decodeSlot_eq_ok.mpr ⟨fits, rfl⟩) []
  | getPath headSpelled =>
    refine decodeExpressionWith_tuple.mpr ?_
    have head := below _ _ (depth_lt_tuple (by simp)) headSpelled
    exact (Operands.next_cons head _).trans (Operands.next_cons (decodeStrings_eq_ok.mpr rfl) [])
  | concat partsSpelled =>
    refine decodeExpressionWith_tuple.mpr ?_
    have parts := partsSpelled.below (within rfl _ (by simp))
    exact Operands.next_cons (decodeParamsWith_eq_ok.mpr parts) []
  | call headSpelled paramsSpelled hashSpelled =>
    refine decodeExpressionWith_tuple.mpr ?_
    have head := below _ _ (depth_lt_tuple (by simp)) headSpelled
    have params := paramsSpelled.below (within rfl _ (by simp))
    have hash := hashSpelled.below (within rfl _ (by simp))
    exact (Operands.next_cons head _).trans
      ((Operands.next_cons (decodeParamsWith_eq_ok.mpr params) _).trans
        (Operands.next_cons (decodeHashWith_eq_ok.mpr hash) []))
  | hasBlock blockSpelled =>
    refine decodeExpressionWith_tuple.mpr ?_
    exact Operands.next_cons (below _ _ (depth_lt_tuple (by simp)) blockSpelled) []
  | hasBlockParams blockSpelled =>
    refine decodeExpressionWith_tuple.mpr ?_
    exact Operands.next_cons (below _ _ (depth_lt_tuple (by simp)) blockSpelled) []

end Expressions

/-- What is read with enough depth is what is spelled. -/
theorem decodeExpressionTo_eq_ok {depth : Nat} {json : Json} {e : Expression}
    (enough : json.depth ≤ depth) :
    decodeExpressionTo depth json = .ok e ↔ e.Spelling Liberty.every json := by
  induction depth generalizing json e with
  | zero =>
    constructor
    · exact spelling_of_decodeExpressionWith fun k e deeper => absurd deeper (by omega)
    · exact decodeExpressionWith_of_spelling fun k e deeper => absurd deeper (by omega)
  | succ depth ih =>
    constructor
    · exact spelling_of_decodeExpressionWith fun k e deeper => (ih (by omega)).mp
    · exact decodeExpressionWith_of_spelling fun k e deeper => (ih (by omega)).mpr

/-- Reading an expression accepts its spellings and nothing else. -/
theorem decodeExpression_eq_ok {json : Json} {e : Expression} :
    decodeExpression json = .ok e ↔ e.Spelling Liberty.every json :=
  decodeExpressionTo_eq_ok (Nat.le_refl _)

theorem decodeParams_eq_ok {json : Json} {params : List Expression} :
    decodeParams json = .ok params ↔
      ParamsSpelling Liberty.every (Expression.Spelling Liberty.every) json params := by
  simp only [decodeParams, decodeParamsWith_eq_ok, decodeExpression_eq_ok]

theorem decodeHash_eq_ok {json : Json} {hash : List (String × Expression)} :
    decodeHash json = .ok hash ↔
      HashSpelling Liberty.every (Expression.Spelling Liberty.every) json hash := by
  simp only [decodeHash, decodeHashWith_eq_ok, decodeExpression_eq_ok]

/-! ### Statements -/

section Statements

variable {inner : Json → Decoded Statement}

/-- A block is an object with a list of statements and a list of slots that fit. -/
theorem decodeBlockWith_eq_ok {json : Json} {block : InlineBlock Statement} :
    decodeBlockWith inner json = .ok block ↔
      ∃ members items, json = .object members ∧
        members.lookup "statements" = some (.array items) ∧
        members.lookup "parameters" = some (.nats block.parameters) ∧
        List.Forall₂ (fun k s => inner k = .ok s) items block.statements ∧
        ∀ slot ∈ block.parameters, Fits slot := by
  constructor
  · intro done
    simp only [decodeBlockWith] at done
    split at done
    · next items found =>
      obtain ⟨statements, first, done⟩ := bind_eq_ok.mp done
      split at done
      · next slots foundToo =>
        obtain ⟨parameters, second, done⟩ := bind_eq_ok.mp done
        cases done
        cases json with
        | object members =>
          have read : decodeSlots (.array slots) = .ok parameters := second
          obtain ⟨fits, same⟩ := decodeSlots_eq_ok.mp read
          exact ⟨members, items, rfl, found, foundToo.trans (congrArg some same),
            mapM_eq_ok.mp first, fits⟩
        | _ => cases found
      · cases done
    · cases done
  · rintro ⟨members, items, rfl, found, foundToo, each, fits⟩
    have first : items.mapM inner = .ok block.statements := mapM_eq_ok.mpr each
    have second : (block.parameters.map Json.ofNat).mapM decodeSlot = .ok block.parameters :=
      decodeSlots_eq_ok.mpr ⟨fits, rfl⟩
    simp only [decodeBlockWith, Json.member?, found, foundToo, Json.nats, first, second]
    rfl

theorem spelling_of_decodeBlockWith {json : Json} {block : InlineBlock Statement}
    (below : ∀ k s, k.depth < json.depth → inner k = .ok s → Statement.Spelling Liberty.every k s)
    (done : decodeBlockWith inner json = .ok block) :
    InlineBlock.Spelling Liberty.every json block := by
  obtain ⟨members, items, rfl, found, foundToo, each, fits⟩ := decodeBlockWith_eq_ok.mp done
  refine .object found foundToo (forall₂_below (fun k s deeper => below k s ?_) each) fits
    (.inr trivial)
  exact Nat.lt_trans deeper (depth_lt_of_lookup found)

theorem decodeBlockWith_of_spelling {json : Json} {block : InlineBlock Statement}
    (below : ∀ k s, k.depth < json.depth → Statement.Spelling Liberty.every k s → inner k = .ok s)
    (spelled : InlineBlock.Spelling Liberty.every json block) :
    decodeBlockWith inner json = .ok block := by
  cases spelled with
  | object found foundToo each fits _ =>
    refine decodeBlockWith_eq_ok.mpr ⟨_, _, rfl, found, foundToo,
      forall₂_below (fun k s deeper => below k s ?_) each, fits⟩
    exact Nat.lt_trans deeper (depth_lt_of_lookup found)

theorem decodeBlocksWith_eq_ok {json : Json} {blocks : List (String × InlineBlock Statement)} :
    decodeBlocksWith inner json = .ok blocks ↔
      TableSpelling (fun k b => decodeBlockWith inner k = .ok b) json blocks :=
  decodeTable_eq_ok

theorem decodeComponentBlocksWith_eq_ok {json : Json}
    {blocks : Option (List (String × InlineBlock Statement))} :
    decodeComponentBlocksWith inner json = .ok blocks ↔
      (json = .null ∧ blocks = none) ∨
        ∃ table, blocks = some table ∧
          TableSpelling (fun k b => decodeBlockWith inner k = .ok b) json table := by
  constructor
  · intro done
    cases json with
    | null =>
      cases done
      exact .inl ⟨rfl, rfl⟩
    | array items =>
      obtain ⟨table, read, done⟩ := bind_eq_ok.mp done
      cases done
      exact .inr ⟨table, rfl, decodeBlocksWith_eq_ok.mp read⟩
    | _ => cases done
  · rintro (⟨rfl, rfl⟩ | ⟨table, rfl, spelled⟩)
    · rfl
    · have read := decodeBlocksWith_eq_ok.mpr spelled
      obtain ⟨each⟩ := spelled
      exact bind_eq_ok.mpr ⟨table, read, rfl⟩

theorem decodeStatementWith_tuple {op : Opcode} {operands : List Json} {s : Statement} :
    decodeStatementWith inner (tuple op operands) = .ok s ↔
      statementOperands inner op operands = .ok (s, []) := by
  have opened : openTuple (tuple op operands) = .ok (op, operands) := openTuple_eq_ok.mpr rfl
  rw [← Operands.complete_eq_ok]
  show (openTuple (tuple op operands) >>= fun p => (statementOperands inner p.1).complete p.2) =
    .ok s ↔ _
  rw [opened]
  rfl

theorem Opcode.ofAttribute_of_attribute? {op : Opcode} {kind : AttributeKind}
    (found : op.attribute? = some kind) : op = .ofAttribute kind := by
  cases op <;> cases found <;> rfl

theorem statementOperands_ofAttribute (kind : AttributeKind) :
    statementOperands inner (.ofAttribute kind) =
      (Operands.next decodeAttributeName >>= fun name =>
        Operands.next decodeExpression >>= fun value =>
          Operands.next? decodeString >>= fun space => pure (.attr kind name value space)) := by
  cases kind <;> rfl

/-- The operands of a statement are those of its rule. -/
theorem spelling_of_statementOperands {op : Opcode} {operands : List Json} {s : Statement}
    (below : ∀ k s, k.depth < (tuple op operands).depth → inner k = .ok s →
      Statement.Spelling Liberty.every k s)
    (done : statementOperands inner op operands = .ok (s, [])) :
    Statement.Spelling Liberty.every (tuple op operands) s := by
  have within : ∀ json ∈ operands, ∀ k s, k.depth < json.depth → inner k = .ok s →
      Statement.Spelling Liberty.every k s :=
    fun json inside k s deeper => below k s (Nat.lt_trans deeper (depth_lt_tuple inside))
  have block : ∀ json ∈ operands, ∀ b, decodeBlockWith inner json = .ok b →
      InlineBlock.Spelling Liberty.every json b :=
    fun json inside b => spelling_of_decodeBlockWith (within json inside)
  have table : ∀ json ∈ operands, ∀ entries,
      TableSpelling (fun k b => decodeBlockWith inner k = .ok b) json entries →
        TableSpelling (InlineBlock.Spelling Liberty.every) json entries :=
    fun json inside entries spelled => spelled.below fun k b deeper =>
      spelling_of_decodeBlockWith fun k' s deeper' =>
        within json inside k' s (Nat.lt_trans deeper' deeper)
  cases found : op.attribute? with
  | some kind =>
    obtain rfl := Opcode.ofAttribute_of_attribute? found
    simp only [statementOperands_ofAttribute, Operands.next_bind_eq_ok,
      Operands.next?_bind_eq_ok, Operands.pure_eq_ok, decodeAttributeName_eq_ok,
      decodeExpression_eq_ok, decodeString_eq_ok] at done
    obtain ⟨called, _, name, rfl, nameSpelled, shown, _, value, rfl, valueSpelled,
      ⟨rfl, rfl, _⟩ | ⟨_, _, space, rfl, rfl, rfl, rfl⟩⟩ := done
    · exact .attr nameSpelled valueSpelled
    · exact .attrInSpace nameSpelled valueSpelled
  | none =>
  cases op with
  | append =>
    simp only [statementOperands, Operands.next_bind_eq_ok, Operands.pure_eq_ok,
      decodeExpression_eq_ok] at done
    obtain ⟨shown, _, value, rfl, valueSpelled, rfl, rfl⟩ := done
    exact .append valueSpelled
  | trustingAppend =>
    simp only [statementOperands, Operands.next_bind_eq_ok, Operands.pure_eq_ok,
      decodeExpression_eq_ok] at done
    obtain ⟨shown, _, value, rfl, valueSpelled, rfl, rfl⟩ := done
    exact .trustingAppend valueSpelled
  | comment =>
    simp only [statementOperands, Operands.next_bind_eq_ok, Operands.pure_eq_ok,
      decodeString_eq_ok] at done
    obtain ⟨_, _, value, rfl, rfl, rfl, rfl⟩ := done
    exact .comment
  | modifier =>
    simp only [statementOperands, Operands.next_bind_eq_ok, Operands.pure_eq_ok,
      decodeExpression_eq_ok, decodeParams_eq_ok, decodeHash_eq_ok] at done
    obtain ⟨first, _, head, rfl, headSpelled, list, _, params, rfl, paramsSpelled, named, _, hash,
      rfl, hashSpelled, rfl, rfl⟩ := done
    exact .modifier headSpelled paramsSpelled hashSpelled
  | block =>
    simp only [statementOperands, Operands.next_bind_eq_ok, Operands.pure_eq_ok,
      decodeExpression_eq_ok, decodeParams_eq_ok, decodeHash_eq_ok,
      decodeBlocksWith_eq_ok] at done
    obtain ⟨first, _, head, rfl, headSpelled, list, _, params, rfl, paramsSpelled, named, _, hash,
      rfl, hashSpelled, bodies, _, blocks, rfl, blocksSpelled, rfl, rfl⟩ := done
    exact .block headSpelled paramsSpelled hashSpelled (table bodies (by simp) blocks blocksSpelled)
  | component =>
    simp only [statementOperands, Operands.next_bind_eq_ok, Operands.pure_eq_ok,
      decodeExpression_eq_ok, decodeList_eq_ok, decodeHash_eq_ok,
      decodeComponentBlocksWith_eq_ok] at done
    obtain ⟨first, _, tag, rfl, tagSpelled, _, _, attrs, rfl, ⟨items, rfl, each⟩, named, _, args,
      rfl, argsSpelled, bodies, _, blocks, rfl, blocksSpelled, rfl, rfl⟩ := done
    have attrsSpelled := forall₂_below (within (.array items) (by simp)) each
    rcases blocksSpelled with ⟨rfl, rfl⟩ | ⟨entries, rfl, spelled⟩
    · exact .selfClosing tagSpelled attrsSpelled argsSpelled
    · exact .component tagSpelled attrsSpelled argsSpelled (table bodies (by simp) entries spelled)
  | openElement =>
    simp only [statementOperands, Operands.next_bind_eq_ok, Operands.pure_eq_ok,
      decodeString_eq_ok] at done
    obtain ⟨_, _, tag, rfl, rfl, rfl, rfl⟩ := done
    exact .openElement
  | openElementWithSplat =>
    simp only [statementOperands, Operands.next_bind_eq_ok, Operands.pure_eq_ok,
      decodeString_eq_ok] at done
    obtain ⟨_, _, tag, rfl, rfl, rfl, rfl⟩ := done
    exact .openElementWithSplat
  | flushElement =>
    simp only [statementOperands, Operands.pure_eq_ok] at done
    obtain ⟨rfl, rfl⟩ := done
    exact .flushElement
  | closeElement =>
    simp only [statementOperands, Operands.pure_eq_ok] at done
    obtain ⟨rfl, rfl⟩ := done
    exact .closeElement
  | staticArg =>
    simp only [statementOperands, Operands.next_bind_eq_ok, Operands.pure_eq_ok,
      decodeString_eq_ok, decodeExpression_eq_ok] at done
    obtain ⟨_, _, name, rfl, rfl, shown, _, value, rfl, valueSpelled, rfl, rfl⟩ := done
    exact .staticArg valueSpelled
  | dynamicArg =>
    simp only [statementOperands, Operands.next_bind_eq_ok, Operands.pure_eq_ok,
      decodeString_eq_ok, decodeExpression_eq_ok] at done
    obtain ⟨_, _, name, rfl, rfl, shown, _, value, rfl, valueSpelled, rfl, rfl⟩ := done
    exact .dynamicArg valueSpelled
  | attrSplat =>
    simp only [statementOperands, Operands.next_bind_eq_ok, Operands.pure_eq_ok,
      decodeSlot_eq_ok] at done
    obtain ⟨_, _, slot, rfl, ⟨fits, rfl⟩, rfl, rfl⟩ := done
    exact .attrSplat fits
  | yield =>
    simp only [statementOperands, Operands.next_bind_eq_ok, Operands.pure_eq_ok,
      decodeSlot_eq_ok, decodeParams_eq_ok] at done
    obtain ⟨_, _, slot, rfl, ⟨fits, rfl⟩, list, _, params, rfl, paramsSpelled, rfl, rfl⟩ := done
    exact .yield fits paramsSpelled
  | partialTemplate =>
    simp only [statementOperands, Operands.next_bind_eq_ok, Operands.pure_eq_ok,
      decodeExpression_eq_ok, decodeSlots_eq_ok] at done
    obtain ⟨first, _, name, rfl, nameSpelled, _, _, slots, rfl, ⟨fits, rfl⟩, rfl, rfl⟩ := done
    exact .partialTemplate nameSpelled fits
  | debugger =>
    simp only [statementOperands, Operands.next_bind_eq_ok, Operands.pure_eq_ok,
      decodeSlots_eq_ok] at done
    obtain ⟨_, _, slots, rfl, ⟨fits, rfl⟩, rfl, rfl⟩ := done
    exact .debugger fits
  | inElement =>
    simp only [statementOperands, Operands.next_bind_eq_ok, Operands.next?_bind_eq_ok,
      Operands.pure_eq_ok, decodeString_eq_ok, decodeExpression_eq_ok] at done
    obtain ⟨body, _, content, rfl, read, _, _, guid, rfl, rfl, target, _, destination, rfl,
      targetSpelled, ⟨rfl, rfl, _⟩ | ⟨next, _, before, rfl, beforeSpelled, rfl, rfl⟩⟩ := done
    · exact .inElement (block body (by simp) content read) targetSpelled
    · exact .inElementBefore (block body (by simp) content read) targetSpelled beforeSpelled
  | _ => cases found <;> cases done

theorem spelling_of_decodeStatementWith {json : Json} {s : Statement}
    (below : ∀ k s, k.depth < json.depth → inner k = .ok s → Statement.Spelling Liberty.every k s)
    (done : decodeStatementWith inner json = .ok s) : Statement.Spelling Liberty.every json s := by
  obtain ⟨⟨op, operands⟩, opened, read⟩ := bind_eq_ok.mp done
  have same := openTuple_eq_ok.mp opened
  rw [same] at below ⊢
  exact spelling_of_statementOperands below (Operands.complete_eq_ok.mp read)

theorem decodeStatementWith_of_spelling {json : Json} {s : Statement}
    (below : ∀ k s, k.depth < json.depth → Statement.Spelling Liberty.every k s → inner k = .ok s)
    (spelled : Statement.Spelling Liberty.every json s) :
    decodeStatementWith inner json = .ok s := by
  have within : ∀ {op operands}, json = tuple op operands → ∀ operand ∈ operands, ∀ k s,
      k.depth < operand.depth → Statement.Spelling Liberty.every k s → inner k = .ok s := by
    rintro op operands rfl operand inside k s deeper
    exact below k s (Nat.lt_trans deeper (depth_lt_tuple inside))
  have table : ∀ {op operands}, json = tuple op operands → ∀ operand ∈ operands, ∀ entries,
      TableSpelling (InlineBlock.Spelling Liberty.every) operand entries →
        TableSpelling (fun k b => decodeBlockWith inner k = .ok b) operand entries := by
    intro op operands same operand inside entries spelled
    refine spelled.below fun k b deeper => decodeBlockWith_of_spelling fun k' s deeper' => ?_
    exact within same operand inside k' s (Nat.lt_trans deeper' deeper)
  cases spelled with
  | append valueSpelled =>
    refine decodeStatementWith_tuple.mpr ?_
    exact Operands.next_cons (decodeExpression_eq_ok.mpr valueSpelled) []
  | trustingAppend valueSpelled =>
    refine decodeStatementWith_tuple.mpr ?_
    exact Operands.next_cons (decodeExpression_eq_ok.mpr valueSpelled) []
  | comment => exact decodeStatementWith_tuple.mpr rfl
  | modifier headSpelled paramsSpelled hashSpelled =>
    refine decodeStatementWith_tuple.mpr ?_
    exact (Operands.next_cons (decodeExpression_eq_ok.mpr headSpelled) _).trans
      ((Operands.next_cons (decodeParams_eq_ok.mpr paramsSpelled) _).trans
        (Operands.next_cons (decodeHash_eq_ok.mpr hashSpelled) []))
  | block headSpelled paramsSpelled hashSpelled blocksSpelled =>
    refine decodeStatementWith_tuple.mpr ?_
    have blocks := decodeBlocksWith_eq_ok.mpr (table rfl _ (by simp) _ blocksSpelled)
    exact (Operands.next_cons (decodeExpression_eq_ok.mpr headSpelled) _).trans
      ((Operands.next_cons (decodeParams_eq_ok.mpr paramsSpelled) _).trans
        ((Operands.next_cons (decodeHash_eq_ok.mpr hashSpelled) _).trans
          (Operands.next_cons blocks [])))
  | selfClosing tagSpelled attrsSpelled argsSpelled =>
    refine decodeStatementWith_tuple.mpr ?_
    have attrs := forall₂_below (within rfl _ (by simp)) attrsSpelled
    exact (Operands.next_cons (decodeExpression_eq_ok.mpr tagSpelled) _).trans
      ((Operands.next_cons (decodeList_eq_ok.mpr ⟨_, rfl, attrs⟩) _).trans
        (Operands.next_cons (decodeHash_eq_ok.mpr argsSpelled) _))
  | component tagSpelled attrsSpelled argsSpelled blocksSpelled =>
    refine decodeStatementWith_tuple.mpr ?_
    have attrs := forall₂_below (within rfl _ (by simp)) attrsSpelled
    have blocks := decodeComponentBlocksWith_eq_ok.mpr
      (.inr ⟨_, rfl, table rfl _ (by simp) _ blocksSpelled⟩)
    exact (Operands.next_cons (decodeExpression_eq_ok.mpr tagSpelled) _).trans
      ((Operands.next_cons (decodeList_eq_ok.mpr ⟨_, rfl, attrs⟩) _).trans
        ((Operands.next_cons (decodeHash_eq_ok.mpr argsSpelled) _).trans
          (Operands.next_cons blocks [])))
  | openElement => exact decodeStatementWith_tuple.mpr rfl
  | openElementWithSplat => exact decodeStatementWith_tuple.mpr rfl
  | flushElement => exact decodeStatementWith_tuple.mpr rfl
  | closeElement => exact decodeStatementWith_tuple.mpr rfl
  | attr nameSpelled valueSpelled =>
    refine decodeStatementWith_tuple.mpr ?_
    rw [statementOperands_ofAttribute]
    exact (Operands.next_cons (decodeAttributeName_eq_ok.mpr nameSpelled) _).trans
      (Operands.next_cons (decodeExpression_eq_ok.mpr valueSpelled) [])
  | attrInSpace nameSpelled valueSpelled =>
    refine decodeStatementWith_tuple.mpr ?_
    rw [statementOperands_ofAttribute]
    exact (Operands.next_cons (decodeAttributeName_eq_ok.mpr nameSpelled) _).trans
      ((Operands.next_cons (decodeExpression_eq_ok.mpr valueSpelled) _).trans
        (Operands.next?_cons (decodeString_eq_ok.mpr rfl) []))
  | staticArg valueSpelled =>
    refine decodeStatementWith_tuple.mpr ?_
    exact (Operands.next_cons (decodeString_eq_ok.mpr rfl) _).trans
      (Operands.next_cons (decodeExpression_eq_ok.mpr valueSpelled) [])
  | dynamicArg valueSpelled =>
    refine decodeStatementWith_tuple.mpr ?_
    exact (Operands.next_cons (decodeString_eq_ok.mpr rfl) _).trans
      (Operands.next_cons (decodeExpression_eq_ok.mpr valueSpelled) [])
  | attrSplat fits =>
    refine decodeStatementWith_tuple.mpr ?_
    exact Operands.next_cons (decodeSlot_eq_ok.mpr ⟨fits, rfl⟩) []
  | yield fits paramsSpelled =>
    refine decodeStatementWith_tuple.mpr ?_
    exact (Operands.next_cons (decodeSlot_eq_ok.mpr ⟨fits, rfl⟩) _).trans
      (Operands.next_cons (decodeParams_eq_ok.mpr paramsSpelled) [])
  | partialTemplate nameSpelled fits =>
    refine decodeStatementWith_tuple.mpr ?_
    exact (Operands.next_cons (decodeExpression_eq_ok.mpr nameSpelled) _).trans
      (Operands.next_cons (decodeSlots_eq_ok.mpr ⟨fits, rfl⟩) [])
  | debugger fits =>
    refine decodeStatementWith_tuple.mpr ?_
    exact Operands.next_cons (decodeSlots_eq_ok.mpr ⟨fits, rfl⟩) []
  | inElement blockSpelled destinationSpelled =>
    refine decodeStatementWith_tuple.mpr ?_
    have block := decodeBlockWith_of_spelling (within rfl _ (by simp)) blockSpelled
    exact (Operands.next_cons block _).trans
      ((Operands.next_cons (decodeString_eq_ok.mpr rfl) _).trans
        (Operands.next_cons (decodeExpression_eq_ok.mpr destinationSpelled) []))
  | inElementBefore blockSpelled destinationSpelled beforeSpelled =>
    refine decodeStatementWith_tuple.mpr ?_
    have block := decodeBlockWith_of_spelling (within rfl _ (by simp)) blockSpelled
    exact (Operands.next_cons block _).trans
      ((Operands.next_cons (decodeString_eq_ok.mpr rfl) _).trans
        ((Operands.next_cons (decodeExpression_eq_ok.mpr destinationSpelled) _).trans
          (Operands.next?_cons (decodeExpression_eq_ok.mpr beforeSpelled) [])))

end Statements

theorem decodeStatementTo_eq_ok {depth : Nat} {json : Json} {s : Statement}
    (enough : json.depth ≤ depth) :
    decodeStatementTo depth json = .ok s ↔ Statement.Spelling Liberty.every json s := by
  induction depth generalizing json s with
  | zero =>
    constructor
    · exact spelling_of_decodeStatementWith fun k s deeper => absurd deeper (by omega)
    · exact decodeStatementWith_of_spelling fun k s deeper => absurd deeper (by omega)
  | succ depth ih =>
    constructor
    · exact spelling_of_decodeStatementWith fun k s deeper => (ih (by omega)).mp
    · exact decodeStatementWith_of_spelling fun k s deeper => (ih (by omega)).mpr

/-- Reading a statement accepts its spellings and nothing else. -/
theorem decodeStatement_eq_ok {json : Json} {s : Statement} :
    decodeStatement json = .ok s ↔ Statement.Spelling Liberty.every json s :=
  decodeStatementTo_eq_ok (Nat.le_refl _)

theorem decodeBlock_eq_ok {json : Json} {block : InlineBlock Statement} :
    decodeBlock json = .ok block ↔ InlineBlock.Spelling Liberty.every json block :=
  ⟨spelling_of_decodeBlockWith fun _ _ _ => decodeStatement_eq_ok.mp,
    decodeBlockWith_of_spelling fun _ _ _ => decodeStatement_eq_ok.mpr⟩

end TemplateCompiler.Wire

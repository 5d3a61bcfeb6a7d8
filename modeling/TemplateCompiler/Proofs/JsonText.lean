import TemplateCompiler.Json.Reader

/-!
# Reading the text of a value

A value without fractions is read back from its text, character by character as the text shows it.
Only its depth can stand in the way: the reader has room for so many levels, and what lies deeper is
passed over. A value is therefore read back exactly if it fits into the room, and refused if not.
-/

namespace TemplateCompiler.Json

/-! ### Values without fractions -/

/-- A whole number of sixty-four bits, signed or not. -/
def Number.Whole : Number → Prop
  | .whole n => -(Nat.pow 2 63 : Int) ≤ n ∧ n < Nat.pow 2 64
  | .double _ => False

mutual

/-- A value all of whose numbers are whole. -/
def Whole : Json → Prop
  | .number n => n.Whole
  | .array items => WholeItems items
  | .object members => WholeMembers members
  | _ => True

def WholeItems : List Json → Prop
  | [] => True
  | item :: rest => item.Whole ∧ WholeItems rest

def WholeMembers : List (String × Json) → Prop
  | [] => True
  | (_, value) :: rest => value.Whole ∧ WholeMembers rest

end

theorem wholeItems_iff {items : List Json} : WholeItems items ↔ ∀ item ∈ items, item.Whole := by
  induction items with
  | nil => simp [WholeItems]
  | cons item rest ih => simp [WholeItems, ih]

namespace Draft

/-! ### Digits -/

/-- What may follow a number. -/
def Ends (rest : List Char) : Prop :=
  ∀ c ∈ rest.head?, isDigit c = false ∧ c ≠ '.' ∧ c ≠ 'e' ∧ c ≠ 'E'

theorem ends_nil : Ends [] := fun _ none => nomatch none

theorem ends_cons {c : Char} {rest : List Char}
    (other : isDigit c = false ∧ c ≠ '.' ∧ c ≠ 'e' ∧ c ≠ 'E') : Ends (c :: rest) := by
  rintro _ ⟨⟩
  exact other

/-- The value of the digits of a number is the number. -/
theorem digitsValue_toDigits (n : Nat) : digitsValue (Nat.toDigits 10 n) = n := by
  calc
    digitsValue (Nat.toDigits 10 n) = Nat.ofDigitChars 10 (Nat.toDigits 10 n) 0 := by
      simp only [digitsValue, Nat.ofDigitChars, Nat.mul_comm]
      rfl
    _ = n := Nat.ofDigitChars_ten_toDigits

/-- Only zero starts with the digit zero. -/
theorem head?_toDigits {n : Nat} (positive : 0 < n) : (Nat.toDigits 10 n).head? ≠ some '0' := by
  induction n using Nat.strongRecOn with
  | ind n ih =>
    by_cases small : n < 10
    · rw [Nat.toDigits_of_lt_base small, List.head?_cons, ne_eq, Option.some.injEq,
        Nat.digitChar_eq_zero]
      omega
    · have shorter := ih (n / 10) (by omega) (by omega)
      rw [Nat.toDigits_of_base_le (by decide) (by omega)]
      cases digits : Nat.toDigits 10 (n / 10) with
      | nil => exact (Nat.toDigits_ne_nil digits).elim
      | cons c more => rwa [digits] at shorter

/-- Numbers are written without leading zeros. -/
theorem toDigits_no_leading_zero (n : Nat) :
    ((Nat.toDigits 10 n).head? == some '0' && decide (1 < (Nat.toDigits 10 n).length)) = false := by
  by_cases zero : n = 0
  · rw [zero]
    rfl
  · simp [head?_toDigits (Nat.pos_of_ne_zero zero)]

/-- Digits are read up to the first character that is none. -/
theorem someDigits_append {digits rest : List Char} (some : digits ≠ [])
    (each : ∀ c ∈ digits, isDigit c = true) (ends : Ends rest) :
    someDigits (digits ++ rest) = .ok (digits, rest) := by
  have stop : rest.takeWhile isDigit = [] ∧ rest.dropWhile isDigit = rest := by
    cases rest with
    | nil => exact ⟨rfl, rfl⟩
    | cons c rest => simp [(ends c rfl).1]
  simp only [someDigits, List.takeWhile_append_of_pos each, List.dropWhile_append_of_pos each, stop,
    List.append_nil]
  rw [if_neg (by simpa using some)]

theorem scanFraction_of_ends {rest : List Char} (ends : Ends rest) :
    scanFraction rest = .ok (none, rest) := by
  unfold scanFraction
  split
  · exact ((ends _ rfl).2.1 rfl).elim
  · rfl

theorem scanExponent_of_ends {rest : List Char} (ends : Ends rest) :
    scanExponent rest = .ok (none, rest) := by
  cases rest with
  | nil => rfl
  | cons c rest =>
    obtain ⟨_, _, lower, upper⟩ := ends c rfl
    simp [scanExponent, lower, upper]

theorem isDigit_of_mem_toDigits {n : Nat} {c : Char} (inside : c ∈ Nat.toDigits 10 n) :
    isDigit c = true :=
  Nat.isDigit_of_mem_toDigits (by decide) (by decide) inside

theorem toDigits_eq_cons (n : Nat) :
    ∃ c more, Nat.toDigits 10 n = c :: more ∧ isDigit c = true := by
  cases digits : Nat.toDigits 10 n with
  | nil => exact (Nat.toDigits_ne_nil digits).elim
  | cons c more => exact ⟨c, more, rfl, isDigit_of_mem_toDigits (digits ▸ List.mem_cons_self)⟩

/-- A whole number is read to its last digit. -/
theorem scanNumber_of_digits {cs rest : List Char} {n : Nat} {negative : Bool}
    (sign : (cs.head? == some '-') = negative)
    (digits : (if negative then cs.drop 1 else cs) = Nat.toDigits 10 n ++ rest)
    (ends : Ends rest) : scanNumber cs = .ok (whole? negative (Nat.toDigits 10 n), rest) := by
  have found : someDigits (Nat.toDigits 10 n ++ rest) = .ok (Nat.toDigits 10 n, rest) :=
    someDigits_append Nat.toDigits_ne_nil (fun _ => isDigit_of_mem_toDigits) ends
  simp only [scanNumber, sign, digits, found, bind, Except.bind, toDigits_no_leading_zero,
    scanFraction_of_ends ends, scanExponent_of_ends ends]
  rfl

/-- The digits of a whole number that fits are read as that number. -/
theorem whole?_of_digits {n : Int} (whole : Number.Whole (.whole n)) :
    whole? (decide (n < 0)) (Nat.toDigits 10 n.natAbs) = some (.whole n) := by
  obtain ⟨low, high⟩ := whole
  simp only [whole?, digitsValue_toDigits, wordLimit, Nat.pow_eq] at *
  by_cases negative : n < 0
  · have positive : 0 < n.natAbs := by omega
    have bounded : n.natAbs ≤ 2 ^ 63 := by omega
    have value : -(n.natAbs : Int) = n := by omega
    rw [decide_eq_true negative, decide_eq_true positive, decide_eq_true bounded, value]
    rfl
  · have bounded : n.natAbs < 2 ^ 64 := by omega
    have value : (n.natAbs : Int) = n := by omega
    rw [decide_eq_false negative, decide_eq_true bounded, value]
    rfl

theorem toList_toString (n : Int) :
    (toString n).toList = (if n < 0 then ['-'] else []) ++ Nat.toDigits 10 n.natAbs := by
  rw [Int.toString_eq_repr, Int.repr_eq_if]
  by_cases negative : n < 0
  · have size : (-n).toNat = n.natAbs := by omega
    rw [if_neg (by omega), if_pos negative, String.toList_append, Nat.toList_repr, size]
    rfl
  · have size : n.toNat = n.natAbs := by omega
    rw [if_pos (by omega), if_neg negative, Nat.toList_repr, size, List.nil_append]

/-- A whole number starts with its sign or a digit. -/
theorem toString_eq_cons (n : Int) :
    ∃ c more, (toString n).toList = c :: more ∧ (c = '-' || isDigit c) = true := by
  rw [toList_toString]
  split
  · exact ⟨'-', _, rfl, rfl⟩
  · obtain ⟨c, more, digits, digit⟩ := toDigits_eq_cons n.natAbs
    exact ⟨c, more, digits, by rw [digit, Bool.or_true]⟩

/-- A whole number is read as it is written. -/
theorem scanNumber_whole {n : Int} (whole : Number.Whole (.whole n)) {rest : List Char}
    (ends : Ends rest) :
    scanNumber ((toString n).toList ++ rest) = .ok (some (.whole n), rest) := by
  rw [← whole?_of_digits whole, toList_toString]
  refine scanNumber_of_digits ?_ ?_ ends
  · by_cases negative : n < 0
    · simp [negative]
    · obtain ⟨c, more, digits, digit⟩ := toDigits_eq_cons n.natAbs
      rw [digits]
      simp only [negative, if_false, List.nil_append, List.cons_append, List.head?_cons,
        decide_false]
      rw [beq_eq_false_iff_ne, ne_eq, Option.some.injEq]
      rintro rfl
      cases digit
  · by_cases negative : n < 0 <;> simp [negative]

/-! ### Strings -/

theorem hexDigit?_digitChar : ∀ n < 16, hexDigit? (Nat.digitChar n) = some n := by decide

/-- Two digits are enough for a control character. -/
theorem unescape_control {high low : Nat} (small : high < 2) (digit : low < 16)
    (rest : List Char) :
    unescape ('u' :: '0' :: '0' :: Nat.digitChar high :: Nat.digitChar low :: rest) =
      .ok (some (Char.ofNat (high * 16 + low)), rest) := by
  have zero : hexDigit? '0' = some 0 := rfl
  have word : hexWord ('0' :: '0' :: Nat.digitChar high :: Nat.digitChar low :: rest) =
      .ok (high * 16 + low, rest) := by
    simp [hexWord, List.mapM_cons, zero, hexDigit?_digitChar high (by omega),
      hexDigit?_digitChar low digit]
  have trailing : isTrailingSurrogate (high * 16 + low) = false := by
    simp [isTrailingSurrogate]
    omega
  have leading : isLeadingSurrogate (high * 16 + low) = false := by
    simp [isLeadingSurrogate]
    omega
  simp [unescape, word, trailing, leading, bind, Except.bind, pure, Except.pure]

theorem scan_backslash {rest after : List Char} {c : Char} (fuel : Nat)
    (read : unescape rest = .ok (some c, after)) :
    scan (fuel + 1) ('\\' :: rest) =
      ⟨c :: (scan fuel after).text, (scan fuel after).paired, (scan fuel after).ending⟩ := by
  simp [scan, read]

/-- An escaped character is read as itself, and takes one unit of fuel. -/
theorem scan_escape (c : Char) (fuel : Nat) (rest : List Char) :
    scan (fuel + 1) (escape c ++ rest) =
      ⟨c :: (scan fuel rest).text, (scan fuel rest).paired, (scan fuel rest).ending⟩ := by
  by_cases quote : c = '"'
  · subst quote
    exact scan_backslash fuel rfl
  by_cases backslash : c = '\\'
  · subst backslash
    exact scan_backslash fuel rfl
  by_cases newline : c = '\n'
  · subst newline
    exact scan_backslash fuel rfl
  by_cases return_ : c = '\r'
  · subst return_
    exact scan_backslash fuel rfl
  by_cases tab : c = '\t'
  · subst tab
    exact scan_backslash fuel rfl
  have self : Char.ofNat c.toNat = c := Char.ofNat_toNat c
  simp only [escape, quote, backslash, newline, return_, tab, if_false]
  split
  · next value =>
    rw [value] at self
    subst self
    exact scan_backslash fuel rfl
  split
  · next value =>
    rw [value] at self
    subst self
    exact scan_backslash fuel rfl
  split
  · next small =>
    have read := unescape_control (show 0 < 2 by decide) small rest
    rw [Nat.zero_mul, Nat.zero_add, self] at read
    exact scan_backslash fuel read
  split
  · next small =>
    have digit : c.toNat - 16 < 16 := by omega
    have read := unescape_control (show 1 < 2 by decide) digit rest
    rw [Nat.one_mul, Nat.add_sub_cancel' (by omega), self] at read
    exact scan_backslash fuel read
  · next large =>
    simp [scan, quote, backslash, large]

/-- A text is read up to the quote that ends it. -/
theorem scan_quoted (cs : List Char) {fuel : Nat} (enough : cs.length < fuel) (rest : List Char) :
    scan fuel (cs.flatMap escape ++ '"' :: rest) = ⟨cs, true, .ok rest⟩ := by
  induction cs generalizing fuel with
  | nil =>
    obtain ⟨fuel, rfl⟩ := Nat.exists_eq_add_one_of_ne_zero (Nat.ne_of_gt enough)
    rfl
  | cons c cs ih =>
    rw [List.length_cons] at enough
    obtain ⟨fuel, rfl⟩ := Nat.exists_eq_add_one_of_ne_zero (Nat.ne_of_gt (Nat.zero_lt_of_lt enough))
    rw [List.flatMap_cons, List.append_assoc, scan_escape, ih (by omega)]

/-! ### Values -/

mutual

/-- What the text of a value shows with so much room: what is nested deeper is passed over. -/
def shown (room : Nat) : Json → Draft
  | .null => .null
  | .bool b => .bool b
  | .number n => .number n
  | .string s => .string s
  | .array items => if room = 0 then .refused none else .array (shownItems (room - 1) items) none
  | .object members =>
    if room = 0 then .refused none else .object (shownMembers (room - 1) members) none

def shownItems (room : Nat) : List Json → List Draft
  | [] => []
  | item :: rest => shown room item :: shownItems room rest

def shownMembers (room : Nat) : List (String × Json) → List (String × Draft)
  | [] => []
  | (key, value) :: rest => (key, shown room value) :: shownMembers room rest

end

mutual

/-- No text of a value breaks. -/
theorem breakInside_shown (room : Nat) : (j : Json) → (shown room j).breakInside = none
  | .null | .bool _ | .number _ | .string _ => rfl
  | .array items => by
    rw [shown]
    split
    · rfl
    · rw [breakInside, breakInItems_shown, Option.none_or, Option.bind_none]
  | .object members => by
    rw [shown]
    split
    · rfl
    · rw [breakInside, breakInMembers_shown, Option.none_or, Option.bind_none]

theorem breakInItems_shown (room : Nat) :
    (items : List Json) → breakInItems (shownItems room items) = none
  | [] => rfl
  | item :: rest => by
    rw [shownItems, breakInItems, breakInside_shown, breakInItems_shown, Option.none_or]

theorem breakInMembers_shown (room : Nat) :
    (members : List (String × Json)) → breakInMembers (shownMembers room members) = none
  | [] => rfl
  | (_, value) :: rest => by
    rw [shownMembers, breakInMembers, breakInside_shown, breakInMembers_shown, Option.none_or]

end

mutual

/-- A value is shown as a whole if there is room for all its levels. -/
theorem toJson_shown (room : Nat) : (j : Json) →
    (shown room j).toJson = if j.depth ≤ room then .ok j else .error .malformed
  | .null | .bool _ | .number _ | .string _ => by simp [shown, toJson, Json.depth]
  | .array items => by
    rw [shown, Json.depth]
    split
    · next none => exact (if_neg (by omega)).symm
    · next some =>
      rw [toJson, toJsonItems_shown]
      by_cases fits : Json.depthOfItems items ≤ room - 1
      · rw [if_pos fits, if_pos (by omega)]
        rfl
      · rw [if_neg fits, if_neg (by omega)]
        rfl
  | .object members => by
    rw [shown, Json.depth]
    split
    · next none => exact (if_neg (by omega)).symm
    · next some =>
      rw [toJson, toJsonMembers_shown]
      by_cases fits : Json.depthOfMembers members ≤ room - 1
      · rw [if_pos fits, if_pos (by omega)]
        rfl
      · rw [if_neg fits, if_neg (by omega)]
        rfl

theorem toJsonItems_shown (room : Nat) : (items : List Json) →
    toJsonItems (shownItems room items) =
      if Json.depthOfItems items ≤ room then .ok items else .error .malformed
  | [] => (if_pos (Nat.zero_le _)).symm
  | item :: rest => by
    rw [shownItems, toJsonItems, toJson_shown, toJsonItems_shown, Json.depthOfItems]
    simp only [Nat.max_le]
    by_cases first : item.depth ≤ room <;> by_cases others : Json.depthOfItems rest ≤ room <;>
      simp [first, others, bind, Except.bind, pure, Except.pure]

theorem toJsonMembers_shown (room : Nat) : (members : List (String × Json)) →
    toJsonMembers (shownMembers room members) =
      if Json.depthOfMembers members ≤ room then .ok members else .error .malformed
  | [] => (if_pos (Nat.zero_le _)).symm
  | (key, value) :: rest => by
    rw [shownMembers, toJsonMembers, toJson_shown, toJsonMembers_shown, Json.depthOfMembers]
    simp only [Nat.max_le]
    by_cases first : value.depth ≤ room <;> by_cases others : Json.depthOfMembers rest ≤ room <;>
      simp [first, others, bind, Except.bind, pure, Except.pure]

end

/-! ### Reading values -/

theorem skipBlanks_cons {c : Char} (visible : isBlank c = false) (rest : List Char) :
    skipBlanks (c :: rest) = c :: rest := by
  simp [skipBlanks, visible]

theorem isBlank_of_number {c : Char} (start : (c = '-' || isDigit c) = true) :
    isBlank c = false := by
  cases blank : isBlank c with
  | false => rfl
  | true =>
    simp only [isBlank, Bool.or_eq_true, decide_eq_true_eq] at blank
    rcases blank with ((rfl | rfl) | rfl) | rfl <;> cases start

/-- A value starts with a character that is no blank and no closing bracket. -/
theorem chars_eq_cons (j : Json) (whole : j.Whole) :
    ∃ c more, j.chars = c :: more ∧ isBlank c = false ∧ c ≠ ']' := by
  cases j with
  | null | string => exact ⟨_, _, rfl, rfl, by decide⟩
  | bool b => cases b <;> exact ⟨_, _, rfl, rfl, by decide⟩
  | array items => cases items <;> exact ⟨_, _, rfl, rfl, by decide⟩
  | object members => cases members <;> exact ⟨_, _, rfl, rfl, by decide⟩
  | number n =>
    cases n with
    | double => exact whole.elim
    | whole n =>
      obtain ⟨c, more, written, start⟩ := toString_eq_cons n
      refine ⟨c, more, written, isBlank_of_number start, ?_⟩
      rintro rfl
      cases start

/-- Escaping does not shorten a text. -/
theorem length_le_of_escape (cs : List Char) : cs.length ≤ (cs.flatMap escape).length := by
  induction cs with
  | nil => exact Nat.zero_le _
  | cons c cs ih =>
    have one : 1 ≤ (escape c).length := by
      rw [escape]
      repeat' split
      all_goals simp
    rw [List.flatMap_cons, List.length_append, List.length_cons]
    omega

/-- A string has fuel enough for its characters. -/
theorem scan_text (s : String) (rest : List Char) :
    scan ((s.toList.flatMap escape ++ '"' :: rest).length + 1)
      (s.toList.flatMap escape ++ '"' :: rest) = ⟨s.toList, true, .ok rest⟩ := by
  refine scan_quoted s.toList ?_ rest
  have := length_le_of_escape s.toList
  rw [List.length_append]
  omega

theorem readString_quoted (s : String) (rest : List Char) :
    readString (s.toList.flatMap escape ++ '"' :: rest) = (.string s, some rest) := by
  simp only [readString, scan_text, String.ofList_toList, if_true]

theorem readNumber_whole {n : Int} (whole : Number.Whole (.whole n)) {rest : List Char}
    (ends : Ends rest) :
    readNumber ((toString n).toList ++ rest) = (.number (.whole n), some rest) := by
  rw [readNumber, scanNumber_whole whole ends]

variable {fuel room : Nat} {tail rest : List Char}

/-- The first item of an array. -/
theorem readItems_first {item : Json} (whole : item.Whole) :
    readItems (fuel + 1) room true (item.chars ++ tail) =
      readItem fuel room (item.chars ++ tail) := by
  obtain ⟨c, more, written, visible, open_⟩ := chars_eq_cons item whole
  rw [written]
  simp [readItems, skipBlanks_cons visible, open_]

/-- Another item of an array. -/
theorem readItems_comma {item : Json} (whole : item.Whole) :
    readItems (fuel + 1) room false (',' :: (item.chars ++ tail)) =
      readItem fuel room (item.chars ++ tail) := by
  obtain ⟨c, more, written, visible, open_⟩ := chars_eq_cons item whole
  rw [written]
  simp [readItems, skipBlanks_cons visible, skipBlanks_cons (c := ',') rfl, open_]

theorem readItem_of_read {cs : List Char} {draft : Draft}
    (read_ : read fuel room cs = (draft, some rest)) :
    readItem (fuel + 1) room cs = .cons draft (readItems fuel room false rest) := by
  simp [readItem, read_]

theorem readMembers_first {key : String} :
    readMembers (fuel + 1) room true (quoted key ++ tail) =
      readMember fuel room (key.toList.flatMap escape ++ '"' :: tail) := by
  simp [readMembers, quoted, skipBlanks_cons (c := '"') rfl]

theorem readMembers_comma {key : String} :
    readMembers (fuel + 1) room false (',' :: (quoted key ++ tail)) =
      readMember fuel room (key.toList.flatMap escape ++ '"' :: tail) := by
  simp [readMembers, quoted, skipBlanks_cons (c := '"') rfl, skipBlanks_cons (c := ',') rfl]

theorem readMember_of_read {key : String} {draft : Draft}
    (read_ : read fuel room tail = (draft, some rest)) :
    readMember (fuel + 1) room (key.toList.flatMap escape ++ '"' :: ':' :: tail) =
      .cons (key, draft) (readMembers fuel room false rest) := by
  have colon : skipColon (':' :: tail) = .ok tail := rfl
  simp only [readMember, scan_text, colon, read_, String.ofList_toList, if_true]

theorem read_number {n : Int} (whole : Number.Whole (.whole n)) (ends : Ends rest) :
    read (fuel + 1) room ((toString n).toList ++ rest) = (.number (.whole n), some rest) := by
  have scanned := readNumber_whole whole ends
  obtain ⟨c, more, written, start⟩ := toString_eq_cons n
  have other : c ≠ 'n' ∧ c ≠ 't' ∧ c ≠ 'f' ∧ c ≠ '"' ∧ c ≠ '[' ∧ c ≠ '\x7b' := by
    refine ⟨?_, ?_, ?_, ?_, ?_, ?_⟩ <;> (rintro rfl; cases start)
  rw [written] at scanned ⊢
  simp only [read, List.cons_append, skipBlanks_cons (isBlank_of_number start), other, start,
    if_false, if_true]
  exact scanned

/-- An array is read if its items are. -/
theorem read_array {items : List Json}
    (inner : readItems fuel (room - 1) true tail = ⟨shownItems (room - 1) items, none, some rest⟩) :
    read (fuel + 1) room ('[' :: tail) = (shown room (.array items), some rest) := by
  have closed : breakInside (.array (shownItems (room - 1) items) none) = none := by
    rw [breakInside, breakInItems_shown, Option.none_or, Option.bind_none]
  simp [read, skipBlanks_cons (c := '[') rfl, inner, closed, shown]

theorem read_object {members : List (String × Json)}
    (inner : readMembers fuel (room - 1) true tail =
      ⟨shownMembers (room - 1) members, none, some rest⟩) :
    read (fuel + 1) room ('\x7b' :: tail) = (shown room (.object members), some rest) := by
  have closed : breakInside (.object (shownMembers (room - 1) members) none) = none := by
    rw [breakInside, breakInMembers_shown, Option.none_or, Option.bind_none]
  simp [read, skipBlanks_cons (c := '\x7b') rfl, inner, closed, shown]

theorem ends_charsOfItems (items : List Json) : Ends (charsOfItems items ++ rest) := by
  cases items <;> exact ends_cons (by decide)

theorem ends_charsOfMembers (members : List (String × Json)) :
    Ends (charsOfMembers members ++ rest) := by
  cases members <;> exact ends_cons (by decide)

mutual

/-- The text of a value is read up to its end, and shows the value. -/
theorem read_chars : (j : Json) → j.Whole → (fuel room : Nat) → (rest : List Char) →
    3 * j.chars.length < fuel → Ends rest →
    read fuel room (j.chars ++ rest) = (shown room j, some rest)
  | .null, _, _ + 1, _, _, _, _ => rfl
  | .bool true, _, _ + 1, _, _, _, _ => rfl
  | .bool false, _, _ + 1, _, _, _, _ => rfl
  | .number (.whole _), whole, _ + 1, _, _, _, ends => read_number whole ends
  | .string s, _, _ + 1, _, rest, _, _ => by
    rw [chars, quoted, List.append_assoc]
    exact readString_quoted s rest
  | .array [], _, _ + 2, _, _, _, _ => read_array rfl
  | .array (item :: items), whole, fuel + 3, room, rest, enough, _ => by
    rw [chars, List.length_cons, List.length_append] at enough
    have first := read_chars item whole.1 fuel (room - 1) (charsOfItems items ++ rest) (by omega)
      (ends_charsOfItems items)
    have others := readItems_chars items whole.2 fuel (room - 1) rest (by omega)
    rw [chars, List.cons_append, List.append_assoc]
    refine read_array ?_
    rw [readItems_first whole.1, readItem_of_read first, others]
    rfl
  | .object [], _, _ + 2, _, _, _, _ => read_object rfl
  | .object ((key, value) :: members), whole, fuel + 3, room, rest, enough, _ => by
    rw [chars, List.length_cons, List.length_append, List.length_cons, List.length_append] at enough
    have first := read_chars value whole.1 fuel (room - 1) (charsOfMembers members ++ rest)
      (by omega) (ends_charsOfMembers members)
    have others := readMembers_chars members whole.2 fuel (room - 1) rest (by omega)
    rw [chars, List.cons_append, List.append_assoc, List.cons_append, List.append_assoc]
    refine read_object ?_
    rw [readMembers_first, readMember_of_read first, others]
    rfl

/-- The items of an array are read as they are written, and the rest is left. -/
theorem readItems_chars : (items : List Json) → WholeItems items → (fuel room : Nat) →
    (rest : List Char) → 3 * (charsOfItems items).length < fuel →
    readItems fuel room false (charsOfItems items ++ rest) =
      ⟨shownItems room items, none, some rest⟩
  | [], _, _ + 1, _, _, _ => rfl
  | item :: items, whole, fuel + 2, room, rest, enough => by
    rw [charsOfItems, List.length_cons, List.length_append] at enough
    have first := read_chars item whole.1 fuel room (charsOfItems items ++ rest) (by omega)
      (ends_charsOfItems items)
    have others := readItems_chars items whole.2 fuel room rest (by omega)
    rw [charsOfItems, List.cons_append, List.append_assoc, readItems_comma whole.1,
      readItem_of_read first, others]
    rfl

theorem readMembers_chars : (members : List (String × Json)) → WholeMembers members →
    (fuel room : Nat) → (rest : List Char) → 3 * (charsOfMembers members).length < fuel →
    readMembers fuel room false (charsOfMembers members ++ rest) =
      ⟨shownMembers room members, none, some rest⟩
  | [], _, _ + 1, _, _, _ => rfl
  | (key, value) :: members, whole, fuel + 2, room, rest, enough => by
    rw [charsOfMembers, List.length_cons, List.length_append, List.length_cons,
      List.length_append] at enough
    have first := read_chars value whole.1 fuel room (charsOfMembers members ++ rest) (by omega)
      (ends_charsOfMembers members)
    have others := readMembers_chars members whole.2 fuel room rest (by omega)
    rw [charsOfMembers, List.cons_append, List.append_assoc, List.cons_append, List.append_assoc,
      readMembers_comma, readMember_of_read first, others]
    rfl

end

/-- A value is read from its own characters, as deep as reading goes. -/
theorem ofChars_chars {j : Json} (whole : j.Whole) : ofChars j.chars = (shown maxDepth j, []) := by
  have read_ := read_chars j whole (3 * j.chars.length + 3) maxDepth [] (by omega) ends_nil
  rw [List.append_nil] at read_
  rw [ofChars, read_]
  rfl

end Draft

/-- A value without fractions is what its text says, if it is nested at most `127` deep. -/
theorem parse_text {j : Json} (whole : j.Whole) :
    parse j.text = if j.depth ≤ Draft.maxDepth then .ok j else .error .malformed := by
  rw [parse, text, String.toList_ofList, Draft.ofChars_chars whole]
  simp only [Draft.toJson_shown]
  split <;> rfl

end TemplateCompiler.Json

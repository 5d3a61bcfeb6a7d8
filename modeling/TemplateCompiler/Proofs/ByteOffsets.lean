import TemplateCompiler.Span
import Mathlib.Data.List.TakeWhile

/-!
# Byte offsets of positions

A position counts lines and characters, a range counts bytes. Every position stands for a character
boundary of the source, later positions for later boundaries, and every boundary is what its own
position stands for. A column behind the end of its line stands for that end, and a line behind the
last for the end of the source.

The offset is followed through the source one character at a time. Before the line that is looked
for, a character adds its bytes and only a newline counts.
-/

namespace TemplateCompiler

/-! ### Bytes -/

namespace Text

theorem byteCount_nil : byteCount [] = 0 := rfl

theorem byteCount_cons (c : Char) (rest : List Char) :
    byteCount (c :: rest) = c.utf8Size + byteCount rest := rfl

/-- Bytes add up. -/
theorem byteCount_append (xs ys : List Char) :
    byteCount (xs ++ ys) = byteCount xs + byteCount ys := by
  induction xs with
  | nil => simp [byteCount_nil]
  | cons c rest ih =>
    rw [List.cons_append, byteCount_cons, byteCount_cons, ih]
    omega

/-- Counting bytes character by character gives the size of the text. -/
theorem utf8ByteSize_ofList (cs : List Char) : (String.ofList cs).utf8ByteSize = byteCount cs := by
  induction cs with
  | nil => rfl
  | cons c rest ih =>
    rw [String.ofList_cons, String.utf8ByteSize_append, String.utf8ByteSize_singleton, ih]
    rfl

theorem byteCount_toList (s : String) : byteCount s.toList = s.utf8ByteSize := by
  rw [← utf8ByteSize_ofList, String.ofList_toList]

/-- Of two texts at the start of a source, the one with fewer bytes starts the other. -/
theorem isPrefix_of_byteCount_le {xs ys source : List Char} (first : xs <+: source)
    (second : ys <+: source) (le : byteCount xs ≤ byteCount ys) : xs <+: ys := by
  rcases List.prefix_or_prefix_of_prefix first second with shorter | ⟨rest, rfl⟩
  · exact shorter
  · cases rest with
    | nil => exact ⟨[], by simp⟩
    | cons c rest =>
      have some := c.utf8Size_pos
      rw [byteCount_append, byteCount_cons] at le
      omega

/-- Dropping the bytes of a text drops the text. -/
theorem dropBytes_append (before after : List Char) :
    dropBytes (byteCount before) (before ++ after) = after := by
  induction before with
  | nil => cases after <;> rfl
  | cons c rest ih =>
    have some := c.utf8Size_pos
    rw [byteCount_cons, List.cons_append, dropBytes, if_neg (by omega),
      Nat.add_sub_cancel_left, ih]

/-- Taking the bytes of a text gives the text. -/
theorem takeBytes_append (before after : List Char) :
    takeBytes (byteCount before) (before ++ after) = before := by
  induction before with
  | nil => cases after <;> rfl
  | cons c rest ih =>
    have some := c.utf8Size_pos
    rw [byteCount_cons, List.cons_append, takeBytes, if_neg (by omega),
      Nat.add_sub_cancel_left, ih]

end Text

/-! ### One character at a time -/

namespace Position

theorem byteOffset_firstLine (column : Nat) (source : List Char) :
    (⟨1, column⟩ : Position).byteOffset source = columnBytes column source := by
  simp [byteOffset, skipLines]

theorem byteOffset_nil (p : Position) : p.byteOffset [] = 0 := by
  obtain ⟨line, column⟩ := p
  rcases line with _ | _ | line
  · rfl
  · rw [byteOffset_firstLine]
    cases column <;> rfl
  · rfl

/-- Before the line that is looked for, a character adds its bytes and only a newline counts. -/
theorem byteOffset_cons (line column : Nat) (c : Char) (rest : List Char) :
    (⟨line + 2, column⟩ : Position).byteOffset (c :: rest) =
      c.utf8Size +
        (⟨if c = '\n' then line + 1 else line + 2, column⟩ : Position).byteOffset rest := by
  have counts : (if c = '\n' then line + 1 else line + 2) =
      (if c = '\n' then line else line + 1) + 1 := by
    split <;> rfl
  rw [counts, byteOffset, byteOffset, if_neg (Nat.succ_ne_zero _), if_neg (Nat.succ_ne_zero _)]
  show (match (skipLines (if c = '\n' then line else line + 1) rest).map _ with
    | none => _
    | some (bytes, rest) => bytes + columnBytes column rest) = _
  rw [Nat.add_sub_cancel]
  cases skipLines (if c = '\n' then line else line + 1) rest with
  | none => rfl
  | some skipped => exact Nat.add_assoc ..

/-! ### Boundaries -/

/-- The text before a column of the first line. -/
theorem columnBytes_split (column : Nat) (source : List Char) :
    ∃ before after, source = before ++ after ∧
      columnBytes column source = Text.byteCount before := by
  induction source generalizing column with
  | nil => exact ⟨[], [], rfl, by cases column <;> rfl⟩
  | cons c rest ih =>
    cases column with
    | zero => exact ⟨[], c :: rest, rfl, rfl⟩
    | succ column =>
      by_cases newline : c = '\n'
      · exact ⟨[], c :: rest, rfl, if_pos newline⟩
      · obtain ⟨before, after, joined, counted⟩ := ih column
        refine ⟨c :: before, after, by rw [joined]; rfl, ?_⟩
        rw [columnBytes, if_neg newline, counted, Text.byteCount_cons]

/-- Every position stands for a character boundary. -/
theorem byteOffset_split (p : Position) (source : List Char) :
    ∃ before after, source = before ++ after ∧ p.byteOffset source = Text.byteCount before := by
  obtain ⟨line, column⟩ := p
  induction source generalizing line with
  | nil => exact ⟨[], [], rfl, byteOffset_nil _⟩
  | cons c rest ih =>
    rcases line with _ | _ | line
    · exact ⟨[], c :: rest, rfl, rfl⟩
    · rw [byteOffset_firstLine]
      exact columnBytes_split column (c :: rest)
    · obtain ⟨before, after, joined, counted⟩ := ih (if c = '\n' then line + 1 else line + 2)
      refine ⟨c :: before, after, by rw [joined]; rfl, ?_⟩
      rw [byteOffset_cons, counted, Text.byteCount_cons]

/-! ### Order -/

/-- A later column does not come before an earlier one. -/
theorem columnBytes_mono (source : List Char) {column later : Nat} (le : column ≤ later) :
    columnBytes column source ≤ columnBytes later source := by
  induction source generalizing column later with
  | nil => cases column <;> exact Nat.zero_le _
  | cons c rest ih =>
    rcases column with _ | column
    · exact Nat.zero_le _
    rcases later with _ | later
    · omega
    rw [columnBytes, columnBytes]
    by_cases newline : c = '\n'
    · rw [if_pos newline]
      exact Nat.zero_le _
    · rw [if_neg newline, if_neg newline]
      exact Nat.add_le_add_left (ih (Nat.le_of_succ_le_succ le)) _

/-- What stands on the first line comes before every later line. -/
theorem columnBytes_le_byteOffset (column line later : Nat) (source : List Char) :
    columnBytes column source ≤ (⟨line + 2, later⟩ : Position).byteOffset source := by
  induction source generalizing column with
  | nil => cases column <;> exact Nat.zero_le _
  | cons c rest ih =>
    rcases column with _ | column
    · exact Nat.zero_le _
    rw [columnBytes, byteOffset_cons]
    by_cases newline : c = '\n'
    · rw [if_pos newline]
      exact Nat.zero_le _
    · rw [if_neg newline, if_neg newline]
      exact Nat.add_le_add_left (ih column) _

/-- Offsets follow the order of positions. -/
theorem byteOffset_mono (source : List Char) {p q : Position}
    (le : p.line < q.line ∨ p.line = q.line ∧ p.column ≤ q.column) :
    p.byteOffset source ≤ q.byteOffset source := by
  obtain ⟨line, column⟩ := p
  obtain ⟨line', column'⟩ := q
  dsimp only at le
  induction source generalizing line line' with
  | nil =>
    rw [byteOffset_nil]
    exact Nat.zero_le _
  | cons c rest ih =>
    rcases line with _ | _ | line
    · exact Nat.zero_le _
    · rw [byteOffset_firstLine]
      rcases line' with _ | _ | line'
      · omega
      · rw [byteOffset_firstLine]
        exact columnBytes_mono _ (by omega)
      · exact columnBytes_le_byteOffset ..
    · rcases line' with _ | _ | line'
      · omega
      · omega
      · rw [byteOffset_cons, byteOffset_cons]
        refine Nat.add_le_add_left (ih _ _ ?_) _
        split <;> omega

/-! ### Exactness -/

/-- The position that is reached after a text. -/
def reached (text : List Char) : Position :=
  ⟨text.count '\n' + 1, (text.reverse.takeWhile (· ≠ '\n')).length⟩

/-- On one line, the column is the number of characters. -/
theorem column_of_oneLine {text : List Char} (oneLine : '\n' ∉ text) :
    (reached text).column = text.length := by
  have all : ∀ c ∈ text.reverse, decide (c ≠ '\n') = true := by
    intro c here
    rw [decide_eq_true_iff]
    rintro rfl
    exact oneLine (List.mem_reverse.mp here)
  rw [reached, List.takeWhile_eq_self_iff.mpr all, List.length_reverse]

/-- What comes before a newline does not count for the column after it. -/
theorem column_cons {c : Char} {text : List Char} (newline : c = '\n' ∨ '\n' ∈ text) :
    (reached (c :: text)).column = (reached text).column := by
  show ((c :: text).reverse.takeWhile (· ≠ '\n')).length =
    (text.reverse.takeWhile (· ≠ '\n')).length
  rw [List.reverse_cons, List.takeWhile_append]
  split
  · next whole =>
    rcases newline with rfl | here
    · rw [whole]
      simp
    · have all := List.takeWhile_eq_self_iff.mp ((List.takeWhile_prefix _).eq_of_length whole)
      have passes := all '\n' (List.mem_reverse.mpr here)
      simp at passes
  · rfl

/-- At the end of a line there are no more columns. -/
theorem columnBytes_of_ended {after : List Char}
    (ended : after.head? = none ∨ after.head? = some '\n') (extra : Nat) :
    columnBytes extra after = 0 := by
  cases extra with
  | zero => rfl
  | succ extra =>
    cases after with
    | nil => rfl
    | cons c rest =>
      have newline : c = '\n' := by simpa using ended
      rw [columnBytes, if_pos newline]

/-- The bytes of a text, and then those of so many columns more. -/
theorem byteOffset_append (before after : List Char) (extra : Nat) :
    (⟨(reached before).line, (reached before).column + extra⟩ : Position).byteOffset
      (before ++ after) = Text.byteCount before + columnBytes extra after := by
  induction before with
  | nil =>
    show (⟨1, 0 + extra⟩ : Position).byteOffset after = 0 + columnBytes extra after
    rw [Nat.zero_add, Nat.zero_add, byteOffset_firstLine]
  | cons c rest ih =>
    rw [List.cons_append, Text.byteCount_cons, Nat.add_assoc, ← ih]
    by_cases newline : c = '\n'
    · have line : (reached (c :: rest)).line = rest.count '\n' + 2 := by simp [reached, newline]
      rw [column_cons (.inl newline), line, byteOffset_cons, if_pos newline]
      rfl
    · have line : (reached (c :: rest)).line = (reached rest).line := by simp [reached, newline]
      by_cases lines : '\n' ∈ rest
      · obtain ⟨earlier, counted⟩ :=
          Nat.exists_eq_succ_of_ne_zero (List.count_pos_iff.mpr lines).ne'
        have further : (reached rest).line = earlier + 2 := congrArg (· + 1) counted
        rw [column_cons (.inr lines), line, further, byteOffset_cons, if_neg newline]
      · -- Everything so far stands on one line, so that `c` takes one column more.
        have first : (reached rest).line = 1 := congrArg (· + 1) (List.count_eq_zero.mpr lines)
        have alone : '\n' ∉ c :: rest :=
          List.not_mem_cons_of_ne_of_not_mem (Ne.symm newline) lines
        have longer : (c :: rest).length + extra = rest.length + extra + 1 := by
          rw [List.length_cons]
          omega
        rw [column_of_oneLine alone, column_of_oneLine lines, line, first, longer,
          byteOffset_firstLine, byteOffset_firstLine, columnBytes, if_neg newline]

/-- A line after the last one is the end of the text. -/
theorem byteOffset_pastEnd (source : List Char) {p : Position}
    (past : source.count '\n' + 1 < p.line) : p.byteOffset source = Text.byteCount source := by
  obtain ⟨line, column⟩ := p
  dsimp only at past
  induction source generalizing line with
  | nil => exact byteOffset_nil _
  | cons c rest ih =>
    rcases line with _ | _ | line
    · omega
    · omega
    rw [byteOffset_cons, Text.byteCount_cons]
    congr 1
    by_cases newline : c = '\n'
    · rw [newline, List.count_cons_self] at past
      rw [if_pos newline]
      exact ih (line + 1) (by omega)
    · rw [List.count_cons_of_ne newline] at past
      rw [if_neg newline]
      exact ih (line + 2) past

end Position

/-! ### Ranges -/

namespace Span

/-- The range of a span cuts the source in three. -/
theorem range_split (s : Span) (source : List Char) :
    ∃ before middle after, source = before ++ (middle ++ after) ∧
      s.range source = (Text.byteCount before, Text.byteCount before + Text.byteCount middle) := by
  obtain ⟨before, later, fromStart, start⟩ := s.start.byteOffset_split source
  have ends : ∃ ending after, source = ending ++ after ∧
      max (s.stop.byteOffset source) (s.start.byteOffset source) = Text.byteCount ending := by
    rcases Nat.le_total (s.stop.byteOffset source) (s.start.byteOffset source) with le | le
    · exact ⟨before, later, fromStart, (Nat.max_eq_right le).trans start⟩
    · obtain ⟨ending, after, toStop, stop⟩ := s.stop.byteOffset_split source
      exact ⟨ending, after, toStop, (Nat.max_eq_left le).trans stop⟩
  obtain ⟨ending, after, toStop, stop⟩ := ends
  have le : Text.byteCount before ≤ Text.byteCount ending := by
    rw [← start, ← stop]
    exact Nat.le_max_right ..
  obtain ⟨middle, rfl⟩ :=
    Text.isPrefix_of_byteCount_le ⟨later, fromStart.symm⟩ ⟨after, toStop.symm⟩ le
  refine ⟨before, middle, after, by rw [toStop, List.append_assoc], ?_⟩
  rw [← Text.byteCount_append, ← start, ← stop]
  rfl

/-- A range of bytes that lies in a source, with a character boundary at both ends, and the text
that it cuts out. -/
structure Cuts (source : String) (range : Nat × Nat) (slice : String) : Prop where
  ordered : range.1 ≤ range.2
  inside : range.2 ≤ source.utf8ByteSize
  starts : String.Pos.Raw.IsValid source ⟨range.1⟩
  stops : String.Pos.Raw.IsValid source ⟨range.2⟩
  bytes : slice.toByteArray = source.toByteArray.extract range.1 range.2

theorem Cuts.middle (x y z : String) :
    Cuts (x ++ (y ++ z)) (x.utf8ByteSize, x.utf8ByteSize + y.utf8ByteSize) y := by
  have stops : String.Pos.Raw.IsValid (x ++ (y ++ z)) ⟨x.utf8ByteSize + y.utf8ByteSize⟩ := by
    rw [← String.append_assoc, ← String.utf8ByteSize_append]
    exact String.Pos.Raw.isValid_rawEndPos.append_right z
  have cut := @ByteArray.extract_append_size_add x.toByteArray (y.toByteArray ++ z.toByteArray) 0
    y.toByteArray.size
  rw [ByteArray.extract_append_eq_left rfl, Nat.add_zero, String.size_toByteArray,
    String.size_toByteArray] at cut
  refine ⟨Nat.le_add_right .., stops.le_utf8ByteSize, ?_, stops, ?_⟩
  · exact String.Pos.Raw.isValid_rawEndPos.append_right (y ++ z)
  · rw [String.toByteArray_append, String.toByteArray_append]
    exact cut.symm

/-- The range of a span cuts the source between characters, and its slice is what lies there. -/
theorem cuts_slice (s : Span) (source : String) :
    Cuts source (s.range source.toList) (s.slice source) := by
  obtain ⟨before, middle, after, split, range⟩ := s.range_split source.toList
  have joined : source = String.ofList before ++ (String.ofList middle ++ String.ofList after) := by
    rw [← String.ofList_append, ← String.ofList_append, ← split, String.ofList_toList]
  have slice : s.slice source = String.ofList middle := by
    rw [Span.slice, range]
    dsimp only
    rw [Nat.add_sub_cancel_left, split, Text.dropBytes_append, Text.takeBytes_append]
  rw [slice, range, ← Text.utf8ByteSize_ofList, ← Text.utf8ByteSize_ofList, joined]
  exact Cuts.middle ..

/-- The source can be cut at every range, offsets follow the order of positions, and the position of
a boundary leads back to it. A column behind the end of its line leads to that end, and a line
behind the last to the end of the source. -/
theorem range_exact (source : String) :
    (∀ s : Span, Cuts source (s.range source.toList) (s.slice source)) ∧
    (∀ p q : Position, p.line < q.line ∨ p.line = q.line ∧ p.column ≤ q.column →
      p.byteOffset source.toList ≤ q.byteOffset source.toList) ∧
    (∀ (boundary : source.Pos) (before after : String), boundary.Splits before after →
      (Position.reached before.toList).byteOffset source.toList = boundary.offset.byteIdx ∧
      (after.toList.head? = none ∨ after.toList.head? = some '\n' →
        ∀ column, (Position.reached before.toList).column ≤ column →
          (⟨(Position.reached before.toList).line, column⟩ : Position).byteOffset source.toList =
            boundary.offset.byteIdx)) ∧
    ∀ p : Position, source.toList.count '\n' + 1 < p.line →
      p.byteOffset source.toList = source.utf8ByteSize := by
  refine ⟨fun s => s.cuts_slice source, fun p q => Position.byteOffset_mono _, ?_, ?_⟩
  · intro boundary before after splits
    have joined : source.toList = before.toList ++ after.toList := by
      rw [splits.eq_append, String.toList_append]
    have offset : boundary.offset.byteIdx = Text.byteCount before.toList := by
      rw [splits.offset_eq_rawEndPos, Text.byteCount_toList]
      rfl
    rw [joined, offset]
    constructor
    · exact Position.byteOffset_append before.toList after.toList 0
    · intro ended column le
      obtain ⟨extra, rfl⟩ := Nat.exists_eq_add_of_le le
      rw [Position.byteOffset_append, Position.columnBytes_of_ended ended, Nat.add_zero]
  · intro p past
    rw [Position.byteOffset_pastEnd _ past, Text.byteCount_toList]

/-- The end of a line with a character of four bytes, after a line with one of two. The source ends
in a newline, so that its last line is the empty third one. -/
theorem range_exact_wideLine :
    ∃ boundary : ("é\n𝄞x\n").Pos, boundary.Splits "é\n𝄞x" "\n" ∧
      (⟨2, 2⟩ : Position).byteOffset "é\n𝄞x\n".toList = boundary.offset.byteIdx ∧
      (⟨2, 40⟩ : Position).byteOffset "é\n𝄞x\n".toList = boundary.offset.byteIdx ∧
      (⟨2, 40⟩ : Position).byteOffset "é\n𝄞x\n".toList ≤
        (⟨3, 0⟩ : Position).byteOffset "é\n𝄞x\n".toList ∧
      (⟨4, 0⟩ : Position).byteOffset "é\n𝄞x\n".toList = 9 := by
  obtain ⟨_, ordered, leadsBack, past⟩ := range_exact "é\n𝄞x\n"
  have valid : String.Pos.Raw.IsValid "é\n𝄞x\n" ⟨8⟩ := by
    rw [← String.Pos.Raw.isValid_eq_true_iff]
    decide
  have splits : (⟨⟨8⟩, valid⟩ : ("é\n𝄞x\n").Pos).Splits "é\n𝄞x" "\n" := ⟨rfl, rfl⟩
  obtain ⟨here, behind⟩ := leadsBack _ _ _ splits
  exact ⟨_, splits, here, behind (.inr rfl) 40 (by decide), ordered _ _ (.inl (by decide)),
    past _ (by decide)⟩

end Span

end TemplateCompiler

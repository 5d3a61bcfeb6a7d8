import TemplateCompiler.Proofs.Acceptance
import TemplateCompiler.Template.Builder

/-!
# Dotted texts and the paths they are read as

A path can be written back as the text it was read from. Nothing is lost, neither an empty part nor
a sigil with nothing after it, and a part holds no dot.

A path that is made in code and the path of a tag are read by two functions, which agree. Both only
deliver paths that can be planned, so no tag is rejected for its path.
-/

namespace TemplateCompiler

open Plan (openStatement planPath)

namespace Template

/-! ### Dots -/

/-- What was split at its dots is put together again by dots. -/
theorem join_splitDots (text : List Char) :
    (splitDots text).1 ++ (splitDots text).2.flatMap ('.' :: ·) = text := by
  induction text with
  | nil => rfl
  | cons c rest ih =>
    rw [splitDots]
    by_cases dot : c = '.'
    · simp only [dot, if_true, List.nil_append, List.flatMap_cons, List.cons_append, ih]
    · simp only [dot, if_false, List.cons_append, ih]

/-- No part has a dot in it. -/
theorem undotted_splitDots (text : List Char) :
    ∀ part ∈ (splitDots text).1 :: (splitDots text).2, '.' ∉ part := by
  induction text with
  | nil => simp [splitDots]
  | cons c rest ih =>
    rw [splitDots]
    by_cases dot : c = '.'
    · simp only [dot, if_true]
      exact List.forall_mem_cons.mpr ⟨List.not_mem_nil, ih⟩
    · obtain ⟨first, others⟩ := List.forall_mem_cons.mp ih
      simp only [dot, if_false]
      have longer : '.' ∉ c :: (splitDots rest).1 :=
        List.not_mem_cons_of_ne_of_not_mem (Ne.symm dot) first
      exact List.forall_mem_cons.mpr ⟨longer, others⟩

/-- The three ways in which a text can be read, by the part before its first dot. -/
theorem Path.ofText_cases {written : String} {first : List Char} {others : List (List Char)}
    (loc : Span) (split : splitDots written.toList = (first, others)) :
    first = "this".toList ∧
        ofText loc written = ⟨written, true, false, others.map String.ofList, loc⟩ ∨
      (∃ name, first = '@' :: name ∧ ofText loc written =
        ⟨written, false, true, (name :: others).map String.ofList, loc⟩) ∨
      ofText loc written =
        ⟨written, false, false, (first :: others).map String.ofList, loc⟩ := by
  rw [ofText, split]
  dsimp only
  by_cases self : String.ofList first = "this"
  · left
    rw [if_pos self]
    exact ⟨by rw [← self, String.toList_ofList], rfl⟩
  · right
    rw [if_neg self]
    split
    · next name => exact .inl ⟨name, rfl, rfl⟩
    · exact .inr rfl

/-! ### Writing a path back -/

namespace Path

def text (p : Path) : String :=
  if p.isThis then "this" ++ String.join (p.parts.map ("." ++ ·))
  else (if p.isArg then "@" else "") ++ ".".intercalate p.parts

theorem toList_intercalate_dots (first : List Char) (others : List (List Char)) :
    (".".intercalate ((first :: others).map String.ofList)).toList =
      first ++ others.flatMap ('.' :: ·) := by
  rw [String.toList_intercalate, List.map_map]
  have whole : (String.toList ∘ String.ofList) = id := funext fun _ => String.toList_ofList
  rw [whole, List.map_id]
  induction others generalizing first with
  | nil => simp
  | cons next rest ih =>
    rw [List.intercalate_cons_cons, ih next]
    simp

theorem toList_join_dots (others : List (List Char)) :
    (String.join ((others.map String.ofList).map ("." ++ ·))).toList =
      others.flatMap ('.' :: ·) := by
  rw [String.toList_join, List.map_map, List.flatMap_map]
  simp

/-- A path that was read from a text is written as that text. -/
theorem text_ofText (loc : Span) (written : String) : (ofText loc written).text = written := by
  rw [← String.toList_inj]
  rcases split : splitDots written.toList with ⟨first, others⟩
  have joined := join_splitDots written.toList
  rw [split] at joined
  rcases ofText_cases loc split with ⟨self, read⟩ | ⟨name, arg, read⟩ | read
  · rw [read, text, if_pos rfl, String.toList_append, toList_join_dots, ← self]
    exact joined
  · rw [read, text, if_neg Bool.false_ne_true, if_pos rfl, String.toList_append,
      toList_intercalate_dots]
    rw [arg] at joined
    exact joined
  · rw [read, text, if_neg Bool.false_ne_true, if_neg Bool.false_ne_true, String.toList_append,
      toList_intercalate_dots]
    exact joined

/-- A path does not start at `this` and at an argument at once. -/
theorem not_isThis_and_isArg (loc : Span) (written : String) :
    ¬((ofText loc written).isThis = true ∧ (ofText loc written).isArg = true) := by
  rintro ⟨self, arg⟩
  rcases split : splitDots written.toList with ⟨first, others⟩
  rcases ofText_cases loc split with ⟨_, read⟩ | ⟨name, _, read⟩ | read
  · rw [read] at arg
    cases arg
  · rw [read] at self
    cases self
  · rw [read] at self
    cases self

/-- No part of a path has a dot in it. -/
theorem undotted_of_mem_parts (loc : Span) (written : String) :
    ∀ part ∈ (ofText loc written).parts, '.' ∉ part.toList := by
  rcases split : splitDots written.toList with ⟨first, others⟩
  have undotted := undotted_splitDots written.toList
  rw [split] at undotted
  obtain ⟨first_undotted, others_undotted⟩ := List.forall_mem_cons.mp undotted
  have shown {list : List (List Char)} (each : ∀ part ∈ list, '.' ∉ part) :
      ∀ part ∈ list.map String.ofList, '.' ∉ part.toList := by
    intro part here
    obtain ⟨chars, member, rfl⟩ := List.mem_map.mp here
    rw [String.toList_ofList]
    exact each chars member
  rcases ofText_cases loc split with ⟨_, read⟩ | ⟨name, arg, read⟩ | read
  · rw [read]
    exact shown others_undotted
  · rw [read]
    rw [arg] at first_undotted
    have name_undotted : '.' ∉ name := fun here => first_undotted (List.mem_cons_of_mem _ here)
    exact shown (List.forall_mem_cons.mpr ⟨name_undotted, others_undotted⟩)
  · rw [read]
    exact shown undotted

/-- The place of a path has no part in how it is read. -/
theorem ofText_at (loc other : Span) (written : String) :
    ofText loc written = { ofText other written with loc := loc } := by
  rcases split : splitDots written.toList with ⟨first, others⟩
  rw [ofText, ofText, split]
  dsimp only
  repeat' split
  all_goals rfl

/-- Only a bare `this` has no parts. -/
theorem parts_eq_nil_iff (loc : Span) (written : String) :
    (ofText loc written).parts = [] ↔ written = "this" := by
  constructor
  · intro none
    have back := text_ofText loc written
    rcases split : splitDots written.toList with ⟨first, others⟩
    rcases ofText_cases loc split with ⟨_, read⟩ | ⟨name, _, read⟩ | read
    · rw [read] at none back
      rw [← back, text, if_pos rfl, none]
      rfl
    · rw [read] at none
      cases none
    · rw [read] at none
      cases none
  · rintro rfl
    rfl

end Path

/-- A text read as a path starts from one thing only, has no dot in any part, has a part unless it
is just `this`, and is what the path is written as. A tag is read in the same way. So neither is
ever rejected as a path. -/
theorem dotted_paths_agree (rename : String → String) :
    (∀ written : String,
      ¬((Path.named written).isThis = true ∧ (Path.named written).isArg = true) ∧
      (∀ part ∈ (Path.named written).parts, '.' ∉ part.toList) ∧
      ((Path.named written).parts = [] ↔ written = "this") ∧
      (Path.named written).text = written ∧
      ∀ context, (planPath context (Path.named written)).isOk = true) ∧
    ∀ {σ : Type} (e : Element σ),
      e.tagPath = { Path.named e.tag with loc := e.loc } ∧
      (∀ context, (planPath context e.tagPath).isOk = true) ∧
      ∀ isLocal path, e.kind isLocal = .dynamicTag path →
        path = e.tagPath ∧
          ∀ scope, (openStatement rename (.dynamicTag path) e scope).isOk = true := by
  have planned (context : Context) (loc : Span) (written : String) :
      (planPath context (Path.ofText loc written)).isOk = true :=
    (Plan.isOk_planPath context _).trans (Plan.isValid_ofText loc written)
  refine ⟨fun written => ⟨?_, ?_, ?_, ?_, ?_⟩, fun e => ⟨?_, ?_, ?_⟩⟩
  · exact Path.not_isThis_and_isArg .synthetic written
  · exact Path.undotted_of_mem_parts .synthetic written
  · exact Path.parts_eq_nil_iff .synthetic written
  · exact Path.text_ofText .synthetic written
  · exact fun context => planned context .synthetic written
  · exact e.tagPath_eq_ofText.trans (Path.ofText_at e.loc .synthetic e.tag)
  · intro context
    rw [e.tagPath_eq_ofText]
    exact planned context e.loc e.tag
  · intro isLocal path read
    refine ⟨Element.eq_tagPath_of_kind read, fun scope => ?_⟩
    rw [← read]
    exact Plan.isOk_openStatement rename isLocal e scope

/-- An argument with an empty part, as a text and as a tag. -/
theorem dotted_paths_agree_emptyPart :
    let e : Element Statement := .of "@card..title"
    "" ∈ (Path.named "@card..title").parts ∧ '.' ∉ "".toList ∧
      e.kind (fun _ => false) = .dynamicTag e.tagPath ∧
      (openStatement id (.dynamicTag e.tagPath) e 0).isOk = true := by
  intro e
  have here : "" ∈ (Path.named "@card..title").parts := by decide
  have read : e.kind (fun _ => false) = .dynamicTag e.tagPath := by
    rw [Element.kind, if_neg (by decide), if_pos (by decide)]
  exact ⟨here, ((dotted_paths_agree id).1 _).2.1 "" here, read,
    (((dotted_paths_agree id).2 e).2.2 _ _ read).2 0⟩

end Template

end TemplateCompiler

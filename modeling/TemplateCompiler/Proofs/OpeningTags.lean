import TemplateCompiler.Proofs.BlockParams

/-!
# Attributes of an opening tag

An element that is planned starts with its opening tag: a statement that opens it, one statement for
each attribute that is set, one for each modifier, and the end of the tag. The attributes that are
set are those not named `type`, in the order of the source, and then the last one that is.

An element with two attributes named `type` therefore sets fewer attributes than it has. The ones
that are left out are not looked at: they may even be such that the element would be rejected if
they stood there alone.
-/

namespace TemplateCompiler.Plan

open Template (Attribute Element Modifier TagKind)

/-! ### The order of attributes -/

def typeAttributes (attributes : List Attribute) : List Attribute :=
  attributes.filter (·.name == "type")

def otherAttributes (attributes : List Attribute) : List Attribute :=
  attributes.filter (·.name != "type")

theorem attributeOrder_eq (attributes : List Attribute) :
    attributeOrder attributes =
      otherAttributes attributes ++ (typeAttributes attributes).getLast?.toList := rfl

theorem name_of_lastType {attributes : List Attribute} {a : Attribute}
    (last : a ∈ (typeAttributes attributes).getLast?.toList) : a.name = "type" := by
  have among : a ∈ typeAttributes attributes :=
    List.mem_of_getLast? (Option.mem_toList.mp last)
  exact beq_iff_eq.mp (List.mem_filter.mp among).2

/-- All attributes that are not named `type` are set, in their order. -/
theorem otherAttributes_attributeOrder (attributes : List Attribute) :
    otherAttributes (attributeOrder attributes) = otherAttributes attributes := by
  have noOther : otherAttributes (typeAttributes attributes).getLast?.toList = [] := by
    refine List.filter_eq_nil_iff.mpr fun a last => ?_
    simp [name_of_lastType last]
  have kept : otherAttributes (otherAttributes attributes) = otherAttributes attributes := by
    simp [otherAttributes, List.filter_filter]
  calc
    _ = otherAttributes (otherAttributes attributes) ++
        otherAttributes (typeAttributes attributes).getLast?.toList := List.filter_append ..
    _ = otherAttributes attributes := by rw [kept, noOther, List.append_nil]

/-- Of the attributes named `type`, the last one is set. -/
theorem typeAttributes_attributeOrder (attributes : List Attribute) :
    typeAttributes (attributeOrder attributes) =
      (typeAttributes attributes).getLast?.toList := by
  have noType : typeAttributes (otherAttributes attributes) = [] := by
    refine List.filter_eq_nil_iff.mpr fun a other => ?_
    simpa [otherAttributes] using (List.mem_filter.mp other).2
  have kept : typeAttributes (typeAttributes attributes).getLast?.toList =
      (typeAttributes attributes).getLast?.toList := by
    refine List.filter_eq_self.mpr fun a last => ?_
    exact beq_iff_eq.mpr (name_of_lastType last)
  calc
    _ = typeAttributes (otherAttributes attributes) ++
        typeAttributes (typeAttributes attributes).getLast?.toList := List.filter_append ..
    _ = (typeAttributes attributes).getLast?.toList := by rw [noType, kept, List.nil_append]

/-- Attributes in the order in which they are set stay in it. -/
theorem attributeOrder_attributeOrder (attributes : List Attribute) :
    attributeOrder (attributeOrder attributes) = attributeOrder attributes := by
  have last : ((typeAttributes attributes).getLast?.toList).getLast? =
      (typeAttributes attributes).getLast? := by
    cases (typeAttributes attributes).getLast? <;> rfl
  rw [attributeOrder_eq (attributeOrder attributes), otherAttributes_attributeOrder,
    typeAttributes_attributeOrder, last, attributeOrder_eq]

/-- If there is one `type` at most, none is left out. -/
theorem lastType_of_length_le {attributes : List Attribute}
    (once : (typeAttributes attributes).length ≤ 1) :
    (typeAttributes attributes).getLast?.toList = typeAttributes attributes := by
  match types : typeAttributes attributes with
  | [] => rfl
  | [a] => rfl
  | _ :: _ :: _ =>
    rw [types] at once
    simp at once

theorem length_otherAttributes_add (attributes : List Attribute) :
    (otherAttributes attributes).length + (typeAttributes attributes).length =
      attributes.length := by
  have split := List.length_eq_length_filter_add (l := attributes) (·.name == "type")
  rw [typeAttributes, otherAttributes, split, Nat.add_comm]
  rfl

/-- All but one of the attributes named `type` are left out. -/
theorem length_attributeOrder_add (attributes : List Attribute) :
    (attributeOrder attributes).length + ((typeAttributes attributes).length - 1) =
      attributes.length := by
  have all := length_otherAttributes_add attributes
  rw [attributeOrder_eq, List.length_append]
  cases types : typeAttributes attributes with
  | nil =>
    rw [types] at all
    simpa using all
  | cons a rest =>
    rw [types, List.length_cons] at all
    have one : ((a :: rest).getLast?.toList).length = 1 := by
      rw [List.getLast?_cons]
      rfl
    rw [one, List.length_cons]
    omega

/-! ### The tag in a plan -/

def Statement.endsTag : Statement → Bool
  | .flushElement _ => true
  | _ => false

/-- The statements between the first one and the end of the first opening tag. -/
def insideTag (planned : List (Located Statement)) : List (Located Statement) :=
  planned.tail.takeWhile fun s => !s.value.endsTag

/-- What an element is where planning stands. -/
def kindAt {σ : Type} (p : Progress) (e : Element σ) : TagKind :=
  e.kind (p.table.has p.scopes.current)

/-- A plan starts with the opening tag of an element, in which certain attributes are set one after
the other, and after them all modifiers. -/
def StartsWithTag {σ : Type} (rename : String → String) (kind : TagKind) (e : Element σ)
    (set : List Attribute) (planned : List (Located Statement)) : Prop :=
  ∃ opening attributes modifiers scope content,
    planned = ⟨opening, e.loc⟩ :: (attributes ++ modifiers) ++
      ⟨.flushElement scope, e.loc⟩ :: content ∧
    insideTag planned = attributes ++ modifiers ∧
    openStatement rename kind e (scope.getD 0) = .ok opening ∧
    List.Forall₂ (fun a s => planAttribute kind e.tag a = .ok s) set attributes ∧
    List.Forall₂ (fun m s => planModifier m = .ok s) e.modifiers modifiers

/-- A tag holds one statement for each attribute that is set and one for each modifier. -/
theorem StartsWithTag.length {σ : Type} {rename : String → String} {kind : TagKind}
    {e : Element σ} {set : List Attribute} {planned : List (Located Statement)}
    (starts : StartsWithTag rename kind e set planned) :
    (insideTag planned).length = set.length + e.modifiers.length := by
  obtain ⟨_, attributes, modifiers, _, _, _, inside, _, setDone, modified⟩ := starts
  rw [inside, List.length_append, setDone.length_eq, modified.length_eq]

theorem endsTag_of_planAttribute {kind : TagKind} {tag : String} {a : Attribute}
    {s : Located Statement} (done : planAttribute kind tag a = .ok s) :
    s.value.endsTag = false := by
  unfold planAttribute at done
  split at done
  · split at done
    · obtain ⟨value, _, done⟩ := ok_of_bind done
      cases done
      rfl
    · cases done
  · split at done
    · cases done
      rfl
    · obtain ⟨value, _, done⟩ := ok_of_bind done
      cases done
      rfl

theorem endsTag_of_planModifier {m : Modifier} {s : Located Statement}
    (done : planModifier m = .ok s) : s.value.endsTag = false := by
  obtain ⟨head, _, done⟩ := ok_of_bind done
  obtain ⟨params, _, done⟩ := ok_of_bind done
  obtain ⟨hash, _, done⟩ := ok_of_bind done
  cases done
  rfl

/-- A planned opening tag sets the attributes in the order of planning. -/
theorem startsWithTag_of_planOpening {σ : Type} {rename : String → String} {kind : TagKind}
    {e : Element σ} {scope : Option Nat} {opening : List (Located Statement)}
    (done : planOpening rename kind e scope = .ok opening) (content : List (Located Statement)) :
    StartsWithTag rename kind e (attributeOrder e.attributes) (opening ++ content) := by
  obtain ⟨start, started, done⟩ := ok_of_bind done
  obtain ⟨attributes, attributesDone, done⟩ := ok_of_bind done
  obtain ⟨modifiers, modifiersDone, done⟩ := ok_of_bind done
  cases done
  have laidOut : (⟨start, e.loc⟩ :: attributes ++ modifiers ++ [⟨.flushElement scope, e.loc⟩]) ++
      content = ⟨start, e.loc⟩ :: (attributes ++ modifiers) ++
        ⟨.flushElement scope, e.loc⟩ :: content := by simp
  have noEnd : ∀ s ∈ attributes ++ modifiers, (!s.value.endsTag) = true := by
    intro s among
    rw [Bool.not_eq_true']
    rcases List.mem_append.mp among with given | modifier
    · exact forall_of_mapM endsTag_of_planAttribute attributesDone s given
    · exact forall_of_mapM endsTag_of_planModifier modifiersDone s modifier
  refine ⟨start, attributes, modifiers, scope, content, laidOut, ?_, started,
    forall₂_of_mapM attributesDone, forall₂_of_mapM modifiersDone⟩
  rw [laidOut, insideTag, List.cons_append, List.tail_cons, List.takeWhile_append_of_pos noEnd]
  simp [Statement.endsTag]

/-! ### Elements -/

/-- An element that is planned starts with the opening tag, whatever its content. -/
theorem exists_planOpening {rename : String → String} {e : Element Template.Statement}
    {before after : Progress} {planned : List (Located Statement)}
    (done : planStatement rename (.element e) before = .ok (planned, after)) :
    ∃ scope opening content, planOpening rename (kindAt before e) e scope = .ok opening ∧
      planned = opening ++ content := by
  obtain ⟨tag, attributes, modifiers, children, names, selfClosing, loc⟩ := e
  rw [planStatement] at done
  obtain ⟨bound, q, asked, done⟩ := ok_of_step done
  obtain ⟨rfl, rfl⟩ := ok_of_isLocal asked
  dsimp only at done
  obtain ⟨_, _, done⟩ := ok_of_lift done
  split at done
  · obtain ⟨inner, _, _, done⟩ := ok_of_step done
    obtain ⟨opening, opened, done⟩ := ok_of_lift done
    obtain ⟨_, _, _, done⟩ := ok_of_step done
    split at done
    all_goals
      obtain ⟨content, _, _, done⟩ := ok_of_step done
      obtain ⟨_, _, _, done⟩ := ok_of_step done
      cases done
      exact ⟨some inner, opening, _, opened, List.append_assoc ..⟩
  · obtain ⟨opening, opened, done⟩ := ok_of_lift done
    obtain ⟨content, _, _, done⟩ := ok_of_step done
    cases done
    exact ⟨none, opening, _, opened, List.append_assoc ..⟩

section LeftOut

variable {σ : Type} (e : Element σ)

/-- An element without the attributes that its last `type` takes the place of. -/
def withLastType : Element σ := { e with attributes := attributeOrder e.attributes }

theorem withLastType_attributes : (withLastType e).attributes = attributeOrder e.attributes := rfl

/-- Whether an element merges attributes does not depend on those named `type`. -/
theorem hasSplat_eq_any_other :
    e.hasSplat = (otherAttributes e.attributes).any (·.name == Template.splattributes) := by
  rw [Element.hasSplat, otherAttributes, List.any_filter]
  congr 1
  funext a
  by_cases typed : a.name = "type"
  · rw [typed]
    decide
  · simp [typed]

/-- Leaving out attributes named `type` does not change what an element is. -/
theorem kind_withLastType (isLocal : String → Bool) :
    (withLastType e).kind isLocal = e.kind isLocal := by
  have splat : (withLastType e).hasSplat = e.hasSplat := by
    rw [hasSplat_eq_any_other, hasSplat_eq_any_other, withLastType_attributes,
      otherAttributes_attributeOrder]
  unfold Element.kind
  rw [splat]
  rfl

/-- The attributes that are left out make no difference to the opening tag. -/
theorem planOpening_withLastType (rename : String → String) (kind : TagKind)
    (scope : Option Nat) :
    planOpening rename kind (withLastType e) scope = planOpening rename kind e scope := by
  have same : planAttributes kind e.tag (withLastType e).attributes =
      planAttributes kind e.tag e.attributes := by
    rw [planAttributes, withLastType_attributes, attributeOrder_attributeOrder, planAttributes]
  show (openStatement rename kind e _ >>= fun _ => planAttributes kind e.tag _ >>= _) = _
  rw [same]
  rfl

end LeftOut

/-- Attributes that are left out make no difference to anything, rejections included. -/
theorem planStatement_withLastType (rename : String → String) (e : Element Template.Statement) :
    planStatement rename (.element (withLastType e)) = planStatement rename (.element e) := by
  have kinds := kind_withLastType e
  have openings := planOpening_withLastType e rename
  obtain ⟨tag, attributes, modifiers, children, names, selfClosing, loc⟩ := e
  rw [withLastType] at kinds openings ⊢
  rw [planStatement, planStatement]
  simp only [kinds, openings]
  rfl

/-- What becomes of the attributes of an element. If it is planned, all that are not named `type`
are set, then the last one that is, then the modifiers; none is missing exactly if at most one is
named `type`. If one of those that are set cannot be planned, neither can the element. The others
make no difference. -/
theorem startsWithTag_of_planStatement (rename : String → String) (e : Element Template.Statement)
    (before : Progress) :
    (∀ planned after, planStatement rename (.element e) before = .ok (planned, after) →
      StartsWithTag rename (kindAt before e) e (attributeOrder e.attributes) planned ∧
      (insideTag planned).length + ((typeAttributes e.attributes).length - 1) =
        e.attributes.length + e.modifiers.length ∧
      (StartsWithTag rename (kindAt before e) e
          (otherAttributes e.attributes ++ typeAttributes e.attributes) planned ↔
        (typeAttributes e.attributes).length ≤ 1)) ∧
    (∀ a ∈ attributeOrder e.attributes, ∀ r, planAttribute (kindAt before e) e.tag a = .error r →
      ∃ failure, planStatement rename (.element e) before = .error failure) ∧
    planStatement rename (.element { e with attributes := attributeOrder e.attributes }) before =
      planStatement rename (.element e) before := by
  refine ⟨?_, ?_, congrFun (planStatement_withLastType rename e) before⟩
  · intro planned after done
    obtain ⟨scope, opening, content, opened, rfl⟩ := exists_planOpening done
    have starts := startsWithTag_of_planOpening opened content
    have number := starts.length
    have ordered := length_attributeOrder_add e.attributes
    refine ⟨starts, by omega, ?_, ?_⟩
    · intro keepsAll
      have all := keepsAll.length
      have both := length_otherAttributes_add e.attributes
      rw [List.length_append] at all
      omega
    · intro once
      rw [attributeOrder_eq, lastType_of_length_le once] at starts
      exact starts
  · intro a set r failed
    cases done : planStatement rename (.element e) before with
    | error failure => exact ⟨failure, rfl⟩
    | ok result =>
      obtain ⟨statements, after⟩ := result
      obtain ⟨scope, opening, content, opened, _⟩ := exists_planOpening done
      obtain ⟨_, _, _, _, _, _, _, _, setDone, _⟩ := startsWithTag_of_planOpening opened content
      obtain ⟨s, planned⟩ := exists_ok_of_mapM (mapM_eq_ok.mpr setDone) set
      rw [failed] at planned
      cases planned

def Progress.start : Progress := ⟨.empty, .singleton SymbolTable.rootScope, 0⟩

/-- A value that no attribute may have: arguments are passed to a path with a dot. -/
def dottedCall : Template.AttributeValue :=
  .mustache (.escaping (.named "this.kind") [.named "@size"] [])

/-- An input with a `type` that cannot be planned, a name, another `type` and a modifier. -/
def retypedInput : Element Template.Statement :=
  Element.of "input"
    |>.addAttribute "type" dottedCall .synthetic
    |>.addAttribute "name" (.text (.of "count")) .synthetic
    |>.addAttribute "type" (.text (.of "number")) .synthetic
    |>.addModifier "focus" [] []

def untypedInput : Element Template.Statement :=
  Element.of "input" |>.addAttribute "type" dottedCall .synthetic

/-- A `type` that cannot be planned does no harm if another one follows it. -/
theorem startsWithTag_of_planStatement_retypedInput :
    (∃ planned after, planStatement id (.element retypedInput) .start = .ok (planned, after) ∧
      StartsWithTag id .dynamic retypedInput
        [⟨"name", .text (.of "count"), .synthetic⟩, ⟨"type", .text (.of "number"), .synthetic⟩]
        planned ∧
      (insideTag planned).length = 3) ∧
    ∃ failure, planStatement id (.element untypedInput) .start = .error failure := by
  refine ⟨?_, ?_⟩
  · have accepted : (planStatement id (.element retypedInput) .start).isOk = true := by
      decide +kernel
    cases done : planStatement id (.element retypedInput) .start with
    | error failure =>
      rw [done] at accepted
      cases accepted
    | ok result =>
      have law := startsWithTag_of_planStatement id retypedInput .start
      obtain ⟨starts, number, _⟩ := law.1 result.1 result.2 done
      have four : (insideTag result.1).length + 1 = 4 := number
      exact ⟨result.1, result.2, rfl, starts, by omega⟩
  · have law := startsWithTag_of_planStatement id untypedInput .start
    have only : attributeOrder untypedInput.attributes = [⟨"type", dottedCall, .synthetic⟩] := rfl
    exact law.2.1 _ (only ▸ List.mem_singleton_self _) _ rfl

/-- An input with two `type` attributes. -/
def doublyTyped : Element Template.Statement :=
  Element.of "input"
    |>.addAttribute "type" (.text (.of "text")) .synthetic
    |>.addAttribute "type" (.text (.of "number")) .synthetic

/-- Only one of two attributes is set, and an element is accepted with an attribute that cannot be
planned. -/
theorem doublyTyped_setOnce :
    (∃ planned after, planStatement id (.element doublyTyped) .start = .ok (planned, after) ∧
      insideTag planned = [⟨.attr .static "type" none
        ⟨.literal (.string "number"), .synthetic⟩, .synthetic⟩] ∧
      doublyTyped.attributes.length = 2) ∧
    (planStatement id (.element retypedInput) .start).isOk = true ∧
      ∃ a ∈ retypedInput.attributes, (planAttribute .dynamic "input" a).isOk = false :=
  ⟨⟨_, _, rfl, rfl, rfl⟩, by decide +kernel, _, List.mem_cons_self, rfl⟩

end TemplateCompiler.Plan

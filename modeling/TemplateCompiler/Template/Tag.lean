import TemplateCompiler.Template.Basic
import TemplateCompiler.Text.Classes

/-!
What an element is, by its tag and the names in scope.
-/

namespace TemplateCompiler.Template

inductive TagKind where
  /-- A block passed to a component under a name: `:header`. -/
  | namedBlock
  /-- A component read from a path: `@card`, `this.form`, or a name in scope. -/
  | dynamicTag (path : Path)
  /-- A component by its own name, which starts with a capital letter. -/
  | component
  /-- A plain element that merges attributes when it is rendered. -/
  | dynamic
  | html

namespace TagKind

/-- Takes arguments and a block. -/
def isComponentLike : TagKind → Bool
  | .component | .dynamicTag _ => true
  | _ => false

/-- Takes arguments, and marks its attributes as a component's. -/
def hasComponentFeatures : TagKind → Bool
  | .component | .dynamicTag _ | .dynamic => true
  | _ => false

end TagKind

/-- The attribute that stands for all attributes the caller passes. -/
def splattributes : String := "...attributes"

def startsWith (text : String) (c : Char) : Bool := text.toList.head? == some c

def Element.hasSplat {σ : Type} (e : Element σ) : Bool :=
  e.attributes.any fun a => a.name == splattributes

/-- A tag read as a path, at the place of its element. What it starts from is told by its first part
as it stands, and then taken off. -/
def Element.tagPath {σ : Type} (e : Element σ) : Path :=
  let (first, others) := splitDots e.tag.toList
  let isThis := String.ofList first == "this"
  let isArg := first.head? == some '@'
  let parts :=
    if isThis then others
    else if isArg then first.tail :: others
    else first :: others
  ⟨e.tag, isThis, isArg, parts.map String.ofList, e.loc⟩

/-- Reading a tag agrees with reading any dotted text. -/
theorem Element.tagPath_eq_ofText {σ : Type} (e : Element σ) :
    e.tagPath = Path.ofText e.loc e.tag := by
  simp only [Element.tagPath, Path.ofText]
  generalize splitDots e.tag.toList = split
  obtain ⟨first, others⟩ := split
  dsimp only
  by_cases self : String.ofList first = "this"
  · have spelled : first = "this".toList := by rw [← self, String.toList_ofList]
    subst spelled
    simp
  · have other : (String.ofList first == "this") = false := beq_eq_false_iff_ne.mpr self
    rw [if_neg self]
    simp only [other, Bool.false_eq_true, if_false]
    cases first with
    | nil => rfl
    | cons c rest =>
      by_cases arg : c = '@'
      · subst arg
        rfl
      · have bare : ((c :: rest).head? == some '@') = false := by simpa using arg
        simp only [bare, Bool.false_eq_true, if_false, List.map_cons]
        split
        · next same => exact absurd (List.cons.inj same).1 arg
        · rfl

/-- The first rule that applies decides. -/
def Element.kind {σ : Type} (isLocal : String → Bool) (e : Element σ) : TagKind :=
  let head := headSegment e.tag
  if startsWith e.tag ':' then .namedBlock
  else if startsWith e.tag '@' || head == "this" || isLocal head then
    .dynamicTag e.tagPath
  else if e.tag.toList.head?.any Text.isUppercase then .component
  else if !e.modifiers.isEmpty || e.hasSplat then .dynamic
  else .html

theorem Element.eq_tagPath_of_kind {σ : Type} {isLocal : String → Bool} {e : Element σ}
    {path : Path} (read : e.kind isLocal = .dynamicTag path) : path = e.tagPath := by
  unfold Element.kind at read
  dsimp only at read
  repeat' split at read
  all_goals cases read
  rfl

end TemplateCompiler.Template

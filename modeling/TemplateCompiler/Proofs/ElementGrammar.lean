import TemplateCompiler.Proofs.WireTree
import TemplateCompiler.Template.Tag

/-!
# The grammar of elements

In a compiled template elements are not nested as trees: an element is a run of statements, from its
opening over what stands in its tag to its end. The grammar of such runs is `Wire.Body`. What may
stand in the tag of an element differs from what a component is given, and the kind of an attribute
tells which it is and whether its value is a constant.
-/

namespace TemplateCompiler

namespace AttributeKind

/-- Whether the value of such an attribute is a constant. -/
def isStatic : AttributeKind → Bool
  | .static | .staticComponent => true
  | _ => false

/-- Whether such an attribute is merged with those that a caller passes. -/
def onComponent : AttributeKind → Bool
  | .component | .staticComponent | .trustingComponent => true
  | _ => false

end AttributeKind

namespace Wire

def Expression.isLiteral : Expression → Bool
  | .value _ | .undefined => true
  | _ => false

namespace Statement

/-- Whether a statement shows something by itself. -/
def isContent : Statement → Bool
  | .append _ | .trustingAppend _ | .comment _ | .block _ _ _ _ | .component _ _ _ _ | .yield _ _
  | .partialTemplate _ _ | .debugger _ | .inElement _ _ _ _ => true
  | _ => false

/-- Whether a statement may stand in the tag of a plain element. -/
def isPlainAttribute : Statement → Bool
  | .attr kind _ _ _ => !kind.onComponent
  | _ => false

/-- Whether a statement adds attributes that are known at run time only. -/
def addsAttributes : Statement → Bool
  | .attrSplat _ | .modifier _ _ _ => true
  | _ => false

/-- Whether a statement may be among the attributes of a component. -/
def isComponentAttribute : Statement → Bool
  | .attr kind _ _ _ => kind.onComponent
  | s => s.addsAttributes

end Statement

/-- Statements that belong together: content, and whole elements around such statements. -/
inductive Body : List Statement → Prop
  | nil : Body []
  | content {s : Statement} {rest : List Statement} (shows : s.isContent = true)
      (more : Body rest) : Body (s :: rest)
  | element {tag : String} {attrs inner rest : List Statement}
      (plain : ∀ s ∈ attrs, s.isPlainAttribute = true) (inside : Body inner) (more : Body rest) :
      Body (.openElement tag :: (attrs ++ .flushElement :: (inner ++ .closeElement :: rest)))
  | splatElement {tag : String} {attrs inner rest : List Statement}
      (merged : ∀ s ∈ attrs, s.isComponentAttribute = true ∨ s.arg?.isSome = true)
      (added : ∃ s ∈ attrs, s.addsAttributes = true) (inside : Body inner) (more : Body rest) :
      Body (.openElementWithSplat tag ::
        (attrs ++ .flushElement :: (inner ++ .closeElement :: rest)))

/-- What attributes, arguments and components have in them. -/
def Statement.WellMade : Statement → Prop
  | .attr kind _ value _ => kind.isStatic = true ↔ value.isLiteral = true
  | .staticArg name value => Template.startsWith name '@' = true ∧ value.isLiteral = true
  | .dynamicArg name value => Template.startsWith name '@' = true ∧ value.isLiteral = false
  | .component _ attrs args _ =>
    (∀ s ∈ attrs, s.isComponentAttribute = true) ∧
      ∀ arg ∈ args, Template.startsWith arg.1 '@' = true
  | _ => True

/-- A statement and all statements inside it are well made, and the blocks in it are bodies. -/
structure Statement.WellStructured (s : Statement) : Prop where
  wellMade : ∀ part ∈ s.parts, part.WellMade
  body : ∀ part ∈ s.parts, ∀ block ∈ part.blocks, Body block.statements

/-- Two bodies in a row are a body. -/
theorem Body.append {xs ys : List Statement} (first : Body xs) (second : Body ys) :
    Body (xs ++ ys) := by
  induction first with
  | nil => exact second
  | content shows _ ih => exact .content shows ih
  | element plain inside _ _ ih =>
    simp only [List.cons_append, List.append_assoc]
    exact .element plain inside ih
  | splatElement merged added inside _ _ ih =>
    simp only [List.cons_append, List.append_assoc]
    exact .splatElement merged added inside ih

/-- The structure of a statement is that of the statement itself, of its blocks and of all in it. -/
theorem Statement.wellStructured_iff {s : Statement} :
    s.WellStructured ↔ s.WellMade ∧ (∀ block ∈ s.blocks, Body block.statements) ∧
      ∀ part ∈ s.inner, part.WellStructured := by
  constructor
  · rintro ⟨made, body⟩
    rw [s.parts_eq] at made body
    obtain ⟨own, below⟩ := List.forall_mem_cons.mp made
    obtain ⟨ownBody, bodyBelow⟩ := List.forall_mem_cons.mp body
    refine ⟨own, ownBody, fun part here => ⟨fun k deeper => ?_, fun k deeper => ?_⟩⟩
    · exact below k (List.mem_flatMap.mpr ⟨part, here, deeper⟩)
    · exact bodyBelow k (List.mem_flatMap.mpr ⟨part, here, deeper⟩)
  · rintro ⟨own, ownBody, inside⟩
    constructor
    · rw [s.parts_eq]
      refine List.forall_mem_cons.mpr ⟨own, fun k deeper => ?_⟩
      obtain ⟨part, here, deeper⟩ := List.mem_flatMap.mp deeper
      exact (inside part here).wellMade k deeper
    · rw [s.parts_eq]
      refine List.forall_mem_cons.mpr ⟨ownBody, fun k deeper => ?_⟩
      obtain ⟨part, here, deeper⟩ := List.mem_flatMap.mp deeper
      exact (inside part here).body k deeper

/-- A statement with nothing in it only has to be well made. -/
theorem Statement.WellStructured.of_flat {s : Statement} (noAttributes : s.attributes = [])
    (noBlocks : s.blocks = []) (made : s.WellMade) : s.WellStructured := by
  have flat : s.inner = [] := by rw [inner, noAttributes, noBlocks]; rfl
  refine wellStructured_iff.mpr ⟨made, ?_, ?_⟩
  · simp [noBlocks]
  · simp [flat]

/-- A body of well structured statements. -/
structure Arranged (statements : List Statement) : Prop where
  body : Body statements
  each : ∀ s ∈ statements, s.WellStructured

/-- Statements that are arranged can be put in a row. -/
theorem Arranged.append {xs ys : List Statement} (first : Arranged xs) (second : Arranged ys) :
    Arranged (xs ++ ys) :=
  ⟨first.body.append second.body, List.forall_mem_append.mpr ⟨first.each, second.each⟩⟩

theorem Arranged.nil : Arranged [] := ⟨.nil, by simp⟩

/-- Content with arranged blocks. -/
theorem Arranged.content {s : Statement} (shows : s.isContent = true) (made : s.WellMade)
    (attrs : ∀ k ∈ s.attributes, k.WellStructured)
    (blocks : ∀ block ∈ s.blocks, Arranged block.statements) : Arranged [s] := by
  refine ⟨.content shows .nil, List.forall_mem_singleton.mpr ?_⟩
  refine Statement.wellStructured_iff.mpr ⟨made, fun block here => (blocks block here).body, ?_⟩
  refine List.forall_mem_append.mpr ⟨attrs, fun k deeper => ?_⟩
  obtain ⟨block, here, deeper⟩ := List.mem_flatMap.mp deeper
  exact (blocks block here).each k deeper

theorem Arranged.leaf {s : Statement} (shows : s.isContent = true) (made : s.WellMade)
    (noAttributes : s.attributes = []) (noBlocks : s.blocks = []) : Arranged [s] :=
  .content shows made (by simp [noAttributes]) (by simp [noBlocks])

end Wire

end TemplateCompiler

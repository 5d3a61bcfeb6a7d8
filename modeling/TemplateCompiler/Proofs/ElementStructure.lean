import TemplateCompiler.Proofs.Compilation
import TemplateCompiler.Proofs.ElementGrammar

/-!
# The structure of elements

Every list of statements in a compiled template is a body, at any depth. The kind of an element,
which is told from its opening tag, decides what stands in the tag: plain attributes, or those of a
component together with something that adds attributes at run time.
-/

namespace TemplateCompiler

open Template (Attribute AttributeValue Block Element Modifier TagKind)

/-! ### Opening tags -/

open Wire (Arranged Body)

/-- Only attributes that were written are set. -/
theorem Plan.mem_of_mem_attributeOrder {attributes : List Attribute} {a : Attribute}
    (ordered : a ∈ attributeOrder attributes) : a ∈ attributes := by
  rcases List.mem_append.mp ordered with other | last
  · exact List.mem_of_mem_filter other
  · exact List.mem_of_mem_filter (List.mem_of_getLast? (Option.mem_toList.mp last))

/-- All attributes that are not named `type` are set. -/
theorem Plan.mem_attributeOrder {attributes : List Attribute} {a : Attribute}
    (here : a ∈ attributes) (other : a.name ≠ "type") : a ∈ attributeOrder attributes :=
  List.mem_append_left _ (List.mem_filter.mpr ⟨here, by simpa using other⟩)

section OpeningTags

variable (mode : Program.Mode) (table : SymbolTable) (scope : Nat)

/-- A planned expression is a constant exactly if its translation is one. -/
theorem isLiteral_plannedAt (e : Plan.Expression) :
    (Direct.plannedAt mode table scope e).isLiteral = e.isLiteral := by
  cases e with
  | literal value => cases value <;> rfl
  | «variable» name context =>
    rw [Direct.plannedAt, Direct.read]
    split
    · rfl
    · split <;> rfl
  | _ => rfl

/-- The value of an accepted attribute is a constant exactly if it is written as one. -/
theorem isLiteral_attributeValue {value : AttributeValue} {e : Located Plan.Expression}
    (done : Plan.planAttributeValue value = .ok e) :
    (Direct.attributeValue mode table scope value).isLiteral = Direct.isConstant value := by
  rw [← (renders_attributeValue done).value, ← isLiteral_of_attributeValue done]
  obtain ⟨e, span⟩ := e
  exact isLiteral_plannedAt mode table scope e

/-- The kind of an attribute is static if its value is a constant. -/
theorem isStatic_attributeKind (literal trusting component : Bool) :
    (Plan.attributeKind literal trusting component).isStatic = literal := by
  cases literal <;> cases trusting <;> cases component <;> rfl

/-- The kind of an attribute tells what the attribute is on. -/
theorem onComponent_attributeKind (literal trusting component : Bool) :
    (Plan.attributeKind literal trusting component).onComponent = component := by
  cases literal <;> cases trusting <;> cases component <;> rfl

variable {mode table scope} {kind : TagKind}

/-- What the statement for an attribute is. -/
inductive AttributeForm (kind : TagKind) (a : Attribute) : Wire.Statement → Prop
  | staticArg {value : Wire.Expression} (sigil : Template.startsWith a.name '@' = true)
      (features : kind.hasComponentFeatures = true) (constant : value.isLiteral = true) :
      AttributeForm kind a (.staticArg a.name value)
  | dynamicArg {value : Wire.Expression} (sigil : Template.startsWith a.name '@' = true)
      (features : kind.hasComponentFeatures = true) (computed : value.isLiteral = false) :
      AttributeForm kind a (.dynamicArg a.name value)
  | splat {slot : Nat} (named : a.name = Template.splattributes) :
      AttributeForm kind a (.attrSplat slot)
  | attr {attributeKind : AttributeKind} {value : Wire.Expression} {space : Option String}
      (named : a.name ≠ Template.splattributes)
      (agrees : attributeKind.isStatic = value.isLiteral)
      (placed : attributeKind.onComponent = kind.hasComponentFeatures) :
      AttributeForm kind a (.attr attributeKind a.name value space)

/-- An attribute that is planned becomes an argument, a splat or an attribute of its kind. -/
theorem attributeForm {tag : String} {a : Attribute} {s : Located Plan.Statement}
    (done : Plan.planAttribute kind tag a = .ok s) :
    AttributeForm kind a (Direct.attributeStatement mode table scope kind a) := by
  unfold Plan.planAttribute at done
  unfold Direct.attributeStatement
  by_cases sigil : Template.startsWith a.name '@' = true
  · simp only [sigil, if_true] at done ⊢
    by_cases features : kind.hasComponentFeatures = true
    · rw [if_pos features] at done
      obtain ⟨value, valueDone, _⟩ := ok_of_bind done
      have constant := isLiteral_attributeValue mode table scope valueDone
      cases written : Direct.isConstant a.value with
      | true => exact .staticArg sigil features (constant.trans written)
      | false => exact .dynamicArg sigil features (constant.trans written)
    · rw [if_neg features] at done
      cases done
  · simp only [sigil, Bool.false_eq_true, if_false] at done ⊢
    by_cases splat : a.name = Template.splattributes
    · rw [if_pos splat]
      exact .splat splat
    · simp only [splat, if_false] at done ⊢
      obtain ⟨value, valueDone, _⟩ := ok_of_bind done
      have constant := isLiteral_attributeValue mode table scope valueDone
      refine .attr splat ?_ (onComponent_attributeKind _ _ _)
      rw [isStatic_attributeKind, constant]

theorem AttributeForm.wellStructured {a : Attribute} {s : Wire.Statement}
    (form : AttributeForm kind a s) : s.WellStructured := by
  cases form with
  | staticArg sigil _ constant => exact .of_flat rfl rfl ⟨sigil, constant⟩
  | dynamicArg sigil _ computed => exact .of_flat rfl rfl ⟨sigil, computed⟩
  | splat _ => exact .of_flat rfl rfl trivial
  | attr _ agrees _ => exact .of_flat rfl rfl (iff_of_eq (congrArg (· = true) agrees))

/-- On a component there are arguments and attributes of components. -/
theorem AttributeForm.of_component {a : Attribute} {s : Wire.Statement}
    (form : AttributeForm kind a s) (features : kind.hasComponentFeatures = true) :
    s.isComponentAttribute = true ∨ s.arg?.isSome = true := by
  cases form with
  | staticArg _ _ _ | dynamicArg _ _ _ => exact .inr rfl
  | splat _ => exact .inl rfl
  | attr _ _ placed => exact .inl (placed.trans features)

/-- On a plain element there are plain attributes only. -/
theorem AttributeForm.of_element {a : Attribute} {s : Wire.Statement}
    (form : AttributeForm kind a s) (features : kind.hasComponentFeatures = false)
    (named : a.name ≠ Template.splattributes) : s.isPlainAttribute = true := by
  cases form with
  | staticArg _ has _ | dynamicArg _ has _ =>
    rw [has] at features
    cases features
  | splat splat => exact (named splat).elim
  | attr _ _ placed => simp [Wire.Statement.isPlainAttribute, placed, features]

theorem AttributeForm.startsWith_of_arg? {a : Attribute} {s : Wire.Statement}
    (form : AttributeForm kind a s) {arg : String × Wire.Expression} (found : s.arg? = some arg) :
    Template.startsWith arg.1 '@' = true := by
  cases form with
  | staticArg sigil _ _ | dynamicArg sigil _ _ =>
    cases found
    exact sigil
  | splat _ | attr _ _ _ => cases found

section Opened

variable {σ : Type} {rename : String → String} {e : Element σ} {inner : Option Nat}
  {list : List (Located Plan.Statement)}

/-- What stands in an opening tag is an attribute or a modifier. -/
theorem mem_openingTag (opened : Plan.planOpening rename kind e inner = .ok list)
    {s : Wire.Statement} (here : s ∈ Direct.openingTag mode table scope kind e) :
    (∃ a ∈ e.attributes, AttributeForm kind a s) ∨
      ∃ m ∈ e.modifiers, s = Direct.modifier mode table scope m := by
  obtain ⟨_, _, opened⟩ := ok_of_bind opened
  obtain ⟨attributes, attributesDone, _⟩ := ok_of_bind opened
  rcases List.mem_append.mp here with given | modifier
  · obtain ⟨a, ordered, rfl⟩ := List.mem_map.mp given
    rw [Direct.setAttributes_eq] at ordered
    obtain ⟨_, done⟩ := exists_ok_of_mapM attributesDone ordered
    exact .inl ⟨a, Plan.mem_of_mem_attributeOrder ordered, attributeForm done⟩
  · obtain ⟨m, found, rfl⟩ := List.mem_map.mp modifier
    exact .inr ⟨m, found, rfl⟩

theorem wellStructured_openingTag (opened : Plan.planOpening rename kind e inner = .ok list) :
    ∀ s ∈ Direct.openingTag mode table scope kind e, s.WellStructured := by
  intro s here
  rcases mem_openingTag opened here with ⟨a, _, form⟩ | ⟨m, _, rfl⟩
  · exact form.wellStructured
  · exact .of_flat rfl rfl trivial

theorem openingTag_of_component (opened : Plan.planOpening rename kind e inner = .ok list)
    (features : kind.hasComponentFeatures = true) :
    ∀ s ∈ Direct.openingTag mode table scope kind e,
      s.isComponentAttribute = true ∨ s.arg?.isSome = true := by
  intro s here
  rcases mem_openingTag opened here with ⟨a, _, form⟩ | ⟨m, _, rfl⟩
  · exact form.of_component features
  · exact .inl rfl

/-- A plain element without modifiers and splat sets plain attributes only. -/
theorem openingTag_of_html (opened : Plan.planOpening rename kind e inner = .ok list)
    (features : kind.hasComponentFeatures = false) (noModifiers : e.modifiers = [])
    (noSplat : e.hasSplat = false) :
    ∀ s ∈ Direct.openingTag mode table scope kind e, s.isPlainAttribute = true := by
  intro s here
  rcases mem_openingTag opened here with ⟨a, given, form⟩ | ⟨m, found, _⟩
  · refine form.of_element features fun named => ?_
    have found := List.any_eq_false.mp noSplat a given
    simp [named] at found
  · rw [noModifiers] at found
    cases found

/-- An element with a modifier or with passed attributes adds attributes at run time. -/
theorem openingTag_adds (needed : e.modifiers ≠ [] ∨ e.hasSplat = true) :
    ∃ s ∈ Direct.openingTag mode table scope kind e, s.addsAttributes = true := by
  rcases needed with modified | splat
  · obtain ⟨m, rest, same⟩ := List.exists_cons_of_ne_nil modified
    refine ⟨Direct.modifier mode table scope m, List.mem_append_right _ ?_, rfl⟩
    rw [same]
    exact List.mem_cons_self
  · obtain ⟨a, given, named⟩ := List.any_eq_true.mp splat
    have name : a.name = Template.splattributes := by simpa using named
    have plain : Template.startsWith a.name '@' = false := by rw [name]; decide
    have set : a ∈ Direct.setAttributes e.attributes := by
      rw [Direct.setAttributes_eq]
      exact Plan.mem_attributeOrder given (by rw [name]; decide)
    refine ⟨_, List.mem_append_left _ (List.mem_map_of_mem set), ?_⟩
    simp only [Direct.attributeStatement, plain, Bool.false_eq_true, if_false, if_pos name]
    rfl

/-- The arguments of a component are named with a sigil. -/
theorem startsWith_of_mem_args (opened : Plan.planOpening rename kind e inner = .ok list) :
    ∀ arg ∈ (Direct.openingTag mode table scope kind e).filterMap Wire.Statement.arg?,
      Template.startsWith arg.1 '@' = true := by
  intro arg found
  obtain ⟨s, here, same⟩ := List.mem_filterMap.mp found
  rcases mem_openingTag opened here with ⟨a, _, form⟩ | ⟨m, _, rfl⟩
  · exact form.startsWith_of_arg? same
  · cases same

end Opened

end OpeningTags

/-! ### Kinds of elements -/

section Kinds

variable {σ : Type} {isLocal : String → Bool} {e : Element σ}

/-- Only what adds attributes at run time makes a plain element dynamic. -/
theorem adds_of_kind {kind : TagKind} (told : kind = e.kind isLocal)
    (plain : kind.isComponentLike = false) :
    kind = .namedBlock ∨ (kind = .dynamic ∧ (e.modifiers ≠ [] ∨ e.hasSplat = true)) ∨
      (kind = .html ∧ e.modifiers = [] ∧ e.hasSplat = false) := by
  simp only [Element.kind] at told
  split at told
  · exact .inl told
  split at told
  · subst told
    cases plain
  split at told
  · subst told
    cases plain
  split at told
  · next needed => exact .inr (.inl ⟨told, by simpa using needed⟩)
  · next unneeded => exact .inr (.inr ⟨told, by simpa using unneeded⟩)

end Kinds

namespace Outline

mutual

/-- Every element has the kind that its opening tag calls for. -/
def Kinded : Outline → Prop
  | .invocation ⟨_, _, _, program, inverse, _⟩ _ _ => KindedBlock program ∧ KindedInverse inverse
  | .inElement ⟨_, _, _, program, _, _⟩ _ _ => KindedBlock program
  | .element kind ⟨tag, attributes, modifiers, children, blockParams, selfClosing, loc⟩ =>
    kind.isComponentLike = false ∧
      (∃ isLocal, kind = Element.kind isLocal
        (⟨tag, attributes, modifiers, children, blockParams, selfClosing, loc⟩ : Element Outline)) ∧
      KindedAll children
  | .component kind _ ⟨_, _, _, children, _, _, _⟩ =>
    kind.isComponentLike = true ∧ KindedAll children
  | .namedBlock _ ⟨_, _, _, children, _, _, _⟩ => KindedAll children
  | _ => True

def KindedAll : List Outline → Prop
  | [] => True
  | s :: rest => Kinded s ∧ KindedAll rest

def KindedBlock : Block Outline → Prop
  | ⟨body, _, _⟩ => KindedAll body

def KindedInverse : Option (Block Outline) → Prop
  | none => True
  | some block => KindedBlock block

end

mutual

/-- In the outline of a template, every element is of the kind that its place asks for. -/
theorem kinded_ofStatement (enclosing : List Binder) (c : Count) :
    (s : Template.Statement) → (ofStatement enclosing c s).1.Kinded
  | .mustache m => trivial
  | .block ⟨path, params, hash, program, inverse, loc⟩ => by
    simp only [ofStatement]
    split
    · exact kinded_ofBlock enclosing _ program
    · exact ⟨kinded_ofBlock enclosing _ program, kinded_ofInverse enclosing _ inverse⟩
  | .element ⟨tag, attributes, modifiers, children, blockParams, selfClosing, loc⟩ => by
    simp only [ofStatement]
    split
    · next component =>
      refine ⟨component, ?_⟩
      split
      · exact kinded_ofNamedBlocks _ _ tag children
      · exact kinded_ofStatements _ _ children
    · next plain =>
      exact ⟨by simpa using plain, ⟨Binder.binds enclosing, rfl⟩, kinded_ofStatements _ _ children⟩
  | .text node => trivial
  | .comment node => trivial
  | .mustacheComment node => trivial

theorem kinded_ofStatements (enclosing : List Binder) (c : Count) :
    (list : List Template.Statement) → KindedAll (ofStatements enclosing c list).1
  | [] => trivial
  | s :: rest => ⟨kinded_ofStatement enclosing c s, kinded_ofStatements enclosing _ rest⟩

theorem kinded_ofBlock (enclosing : List Binder) (c : Count) :
    (block : Block Template.Statement) → KindedBlock (ofBlock enclosing c block).1
  | ⟨body, _, _⟩ => kinded_ofStatements _ _ body

theorem kinded_ofInverse (enclosing : List Binder) (c : Count) :
    (inverse : Option (Block Template.Statement)) → KindedInverse (ofInverse enclosing c inverse).1
  | none => trivial
  | some block => kinded_ofBlock enclosing c block

theorem kinded_ofNamedBlocks (enclosing : List Binder) (c : Count) (component : String) :
    (list : List Template.Statement) → KindedAll (ofNamedBlocks enclosing c component list).1
  | [] => trivial
  | s :: rest =>
    ⟨kinded_ofNamedBlock enclosing c component s, kinded_ofNamedBlocks enclosing _ component rest⟩

theorem kinded_ofNamedBlock (enclosing : List Binder) (c : Count) (component : String) :
    (s : Template.Statement) → (ofNamedBlock enclosing c component s).1.Kinded
  | .element ⟨tag, attributes, modifiers, children, blockParams, selfClosing, loc⟩ => by
    simp only [ofNamedBlock]
    split
    · exact kinded_ofStatements _ _ children
    · trivial
  | .mustache m => by
    simp only [ofNamedBlock]
    split <;> trivial
  | .block b => by
    simp only [ofNamedBlock]
    split <;> trivial
  | .text node => by
    simp only [ofNamedBlock]
    split <;> trivial
  | .comment node => by
    simp only [ofNamedBlock]
    split <;> trivial
  | .mustacheComment node => by
    simp only [ofNamedBlock]
    split <;> trivial

end

end Outline

/-! ### Statements -/

section Outlines

variable (mode : Program.Mode) (rename : String → String) (table : SymbolTable)

theorem arranged_append (trusting : Bool) (value : Wire.Expression) :
    Arranged [Direct.append trusting value] := by
  cases trusting <;> exact .leaf rfl trivial rfl rfl

/-- A mustache becomes one statement of content. -/
theorem arranged_mustache (scope : Nat) (m : Template.Mustache) :
    Arranged [Direct.mustache mode table scope m] := by
  unfold Direct.mustache
  split
  · split
    · exact .leaf rfl trivial rfl rfl
    · exact .leaf rfl trivial rfl rfl
    · exact .leaf rfl trivial rfl rfl
    · exact arranged_append m.trusting _
  · exact arranged_append m.trusting _

variable {mode rename table}

/-- A plain element around arranged content. -/
theorem arranged_element {σ : Type} {scope : Nat} {kind : TagKind} {e : Element σ}
    {isLocal : String → Bool} {list : List (Located Plan.Statement)} {u : Unit}
    {content : List Wire.Statement} (plain : kind.isComponentLike = false)
    (told : kind = e.kind isLocal) (checked : Plan.checkElement kind e = .ok u)
    (opened : Plan.planOpening rename kind e none = .ok list) (inside : Arranged content) :
    Arranged (Direct.elementStart kind e.tag :: Direct.openingTag mode table scope kind e ++
      [.flushElement] ++ content ++ [.closeElement]) := by
  have tag : ∀ s ∈ Direct.openingTag mode table scope kind e, s.WellStructured :=
    wellStructured_openingTag opened
  have start : (Direct.elementStart kind e.tag).WellStructured := by
    cases kind <;> exact .of_flat rfl rfl trivial
  have flush : Wire.Statement.flushElement.WellStructured := .of_flat rfl rfl trivial
  have close : Wire.Statement.closeElement.WellStructured := .of_flat rfl rfl trivial
  simp only [List.cons_append, List.append_assoc, List.nil_append]
  constructor
  · rcases adds_of_kind told plain with rfl | ⟨rfl, needed⟩ | ⟨rfl, noModifiers, noSplat⟩
    · cases checked
    · exact .splatElement (openingTag_of_component opened rfl) (openingTag_adds needed) inside.body
        .nil
    · exact .element (openingTag_of_html opened rfl noModifiers noSplat) inside.body .nil
  · simp only [List.forall_mem_cons, List.forall_mem_append]
    exact ⟨start, tag, flush, inside.each, close, List.forall_mem_nil _⟩

theorem isComponentAttribute_of_isAttribute {s : Wire.Statement} (filed : s.isAttribute = true)
    (placed : s.isComponentAttribute = true ∨ s.arg?.isSome = true) :
    s.isComponentAttribute = true := by
  rcases placed with attr | arg
  · exact attr
  · cases s with
    | attr _ _ _ _ | attrSplat _ | modifier _ _ _ => cases arg
    | _ => cases filed

/-- A component with arranged blocks. -/
theorem arranged_component {σ : Type} {scope : Nat} {kind : TagKind} {e : Element σ}
    {inner : Option Nat} {list : List (Located Plan.Statement)} {tag : Wire.Expression}
    {blocks : Option (List (String × Wire.InlineBlock Wire.Statement))}
    (component : kind.isComponentLike = true)
    (opened : Plan.planOpening rename kind e inner = .ok list)
    (inside : ∀ block ∈ (blocks.getD []).map Prod.snd, Arranged block.statements) :
    Arranged [.component tag
      ((Direct.openingTag mode table scope kind e).filter Wire.Statement.isAttribute)
      ((Direct.openingTag mode table scope kind e).filterMap Wire.Statement.arg?) blocks] := by
  have features : kind.hasComponentFeatures = true := by
    cases kind <;> first | rfl | cases component
  refine .content rfl ⟨fun s here => ?_, startsWith_of_mem_args opened⟩ (fun s here => ?_) inside
  · obtain ⟨given, filed⟩ := List.mem_filter.mp here
    exact isComponentAttribute_of_isAttribute filed (openingTag_of_component opened features s given)
  · exact wellStructured_openingTag opened s (List.mem_of_mem_filter here)

variable (mode rename table)

mutual

/-- What is translated from an outline is arranged as the grammar says. -/
theorem arranged_outline (scope : Nat) : (o : Outline) → o.Kinded →
    {list : List (Located Plan.Statement)} → o.plan rename = .ok list →
    Arranged (Direct.statement mode rename table scope o)
  | .mustache m, _, _, _ => arranged_mustache mode table scope m
  | .text node, _, _, _ => .leaf rfl trivial rfl rfl
  | .comment node, _, _, _ => .leaf rfl trivial rfl rfl
  | .hidden, _, _, _ => .nil
  | .misplaced parent loc, _, _, done => by cases done
  | .invocation ⟨path, params, hash, program, inverse, loc⟩ inner other, kinded, _, done => by
    rw [Outline.plan] at done
    obtain ⟨block, blockDone, done⟩ := ok_of_bind done
    obtain ⟨otherBlock, otherDone, _⟩ := ok_of_bind done
    refine .content rfl trivial (by simp [Wire.Statement.attributes]) ?_
    refine List.forall_mem_cons.mpr ⟨?_, ?_⟩
    · exact arranged_inline inner "default" program kinded.1 blockDone
    · exact arranged_inverse other inverse kinded.2 otherDone
  | .inElement ⟨path, params, hash, program, inverse, loc⟩ inner cursor, kinded, _, done => by
    rw [Outline.plan] at done
    obtain ⟨⟨destination, before⟩, _, done⟩ := ok_of_bind done
    obtain ⟨block, blockDone, _⟩ := ok_of_bind done
    refine .content rfl trivial (by simp [Wire.Statement.attributes]) ?_
    exact List.forall_mem_singleton.mpr
      (arranged_inline inner "default" program kinded blockDone)
  | .element kind ⟨tag, attributes, modifiers, children, names, selfClosing, loc⟩, kinded, _,
      done => by
    rw [Outline.plan] at done
    obtain ⟨_, checked, done⟩ := ok_of_bind done
    obtain ⟨opening, opened, done⟩ := ok_of_bind done
    obtain ⟨content, contentDone, _⟩ := ok_of_bind done
    obtain ⟨plain, ⟨isLocal, told⟩, kindedContent⟩ := kinded
    have inside := arranged_outlines scope children kindedContent contentDone
    exact arranged_element plain told checked opened inside
  | .component kind inner ⟨tag, attributes, modifiers, children, names, selfClosing, loc⟩, kinded,
      _, done => by
    rw [Outline.plan] at done
    obtain ⟨_, _, done⟩ := ok_of_bind done
    obtain ⟨opening, opened, done⟩ := ok_of_bind done
    obtain ⟨content, contentDone, _⟩ := ok_of_bind done
    refine arranged_component kinded.1 opened ?_
    split
    · simp
    · split
      · exact arranged_named children kinded.2 contentDone
      · exact List.forall_mem_singleton.mpr
          (arranged_outlines inner children kinded.2 contentDone)
  | .namedBlock _ _, _, _, _ => .nil

theorem arranged_outlines (scope : Nat) : (list : List Outline) → Outline.KindedAll list →
    {planned : List (Located Plan.Statement)} → Outline.planAll rename list = .ok planned →
    Arranged (Direct.statements mode rename table scope list)
  | [], _, _, _ => .nil
  | s :: rest, kinded, _, done => by
    rw [Outline.planAll] at done
    obtain ⟨first, firstDone, done⟩ := ok_of_bind done
    obtain ⟨others, restDone, _⟩ := ok_of_bind done
    rw [Direct.statements]
    exact (arranged_outline scope s kinded.1 firstDone).append
      (arranged_outlines scope rest kinded.2 restDone)

theorem arranged_inline (inner : Nat) (name : String) : (block : Block Outline) →
    Outline.KindedBlock block → {planned : Plan.NamedBlock (Located Plan.Statement)} →
    Outline.planBlock rename name inner block = .ok planned →
    Arranged (Direct.inlineBlock mode rename table inner block).statements
  | ⟨body, names, loc⟩, kinded, _, done => by
    rw [Outline.planBlock] at done
    obtain ⟨content, contentDone, _⟩ := ok_of_bind done
    exact arranged_outlines inner body kinded contentDone

theorem arranged_inverse (inner : Nat) : (inverse : Option (Block Outline)) →
    Outline.KindedInverse inverse → {planned : Option (Plan.NamedBlock (Located Plan.Statement))} →
    Outline.planInverse rename inner inverse = .ok planned →
    ∀ block ∈ (Direct.inverseBlock mode rename table inner inverse).map Prod.snd,
      Arranged block.statements
  | none, _, _, _ => by simp [Direct.inverseBlock]
  | some block, kinded, _, done => by
    rw [Outline.planInverse] at done
    obtain ⟨planned, blockDone, _⟩ := ok_of_bind done
    exact List.forall_mem_singleton.mpr (arranged_inline inner "else" block kinded blockDone)

theorem arranged_named : (list : List Outline) → Outline.KindedAll list →
    {planned : List (Located Plan.Statement)} → Outline.planAll rename list = .ok planned →
    ∀ block ∈ (Direct.namedBlocks mode rename table list).map Prod.snd, Arranged block.statements
  | [], _, _, _ => by simp [Direct.namedBlocks]
  | s :: rest, kinded, _, done => by
    rw [Outline.planAll] at done
    obtain ⟨first, firstDone, done⟩ := ok_of_bind done
    obtain ⟨others, restDone, _⟩ := ok_of_bind done
    rw [Direct.namedBlocks, List.map_append]
    exact List.forall_mem_append.mpr ⟨arranged_amongNamed s kinded.1 firstDone,
      arranged_named rest kinded.2 restDone⟩

theorem arranged_amongNamed : (o : Outline) → o.Kinded →
    {list : List (Located Plan.Statement)} → o.plan rename = .ok list →
    ∀ block ∈ (Direct.namedBlock mode rename table o).map Prod.snd, Arranged block.statements
  | .namedBlock inner ⟨tag, attributes, modifiers, children, names, selfClosing, loc⟩, kinded, _,
      done => by
    rw [Outline.plan] at done
    obtain ⟨_, _, done⟩ := ok_of_bind done
    obtain ⟨content, contentDone, _⟩ := ok_of_bind done
    exact List.forall_mem_singleton.mpr (arranged_outlines inner children kinded contentDone)
  | .mustache _, _, _, _ | .text _, _, _, _ | .comment _, _, _, _ | .hidden, _, _, _
  | .misplaced _ _, _, _, _ | .invocation _ _ _, _, _, _ | .inElement _ _ _, _, _, _
  | .element _ _, _, _, _ | .component _ _ _, _, _, _ => by simp [Direct.namedBlock]

end

end Outlines

/-! ### Templates -/

/-- In a compiled template every list of statements is a body: that of the template itself and those
of all blocks. All statements, at any depth, are well made. -/
theorem bodies_of_compile (o : Options) (t : Template) (compiled : CompiledTemplate)
    (done : t.compile o = .ok compiled) :
    Body compiled.statements ∧
      ∀ part ∈ Wire.partsOfAll compiled.statements,
        part.WellMade ∧ ∀ block ∈ part.blocks, Body block.statements := by
  obtain ⟨plan, stream, table, compiles⟩ := compiles_of_compile done
  rw [compiles.compile_eq] at done
  cases done
  have kinded : Outline.KindedAll (Outline.ofTemplate t) :=
    Outline.kinded_ofStatements [] ⟨1, 0⟩ t.body
  have arranged := arranged_outlines o.mode o.rename table SymbolTable.rootScope
    (Outline.ofTemplate t) kinded compiles.outlined
  refine ⟨arranged.body, fun part found => ?_⟩
  rw [Wire.partsOfAll_eq_flatMap] at found
  obtain ⟨s, here, inside⟩ := List.mem_flatMap.mp found
  exact ⟨(arranged.each s here).wellMade part inside, (arranged.each s here).body part inside⟩

/-- A section that merges passed attributes, around a component with an argument and a trusted
attribute and a plain element with a constant one. -/
def mergedSection : Template :=
  .of [.element ⟨"section",
    [⟨Template.splattributes, .text (.of ""), .synthetic⟩,
      ⟨"class", .mustache (.escaping (.named "@tone") [] []), .synthetic⟩], [],
    [.element (((Template.Element.of "Card").addAttribute "@title" (.text (.of "Hi"))
        .synthetic).addAttribute "id" (.mustache (.raw (.named "@key") [] [])) .synthetic),
      .element ((Template.Element.of "br").addAttribute "class" (.text (.of "wide")) .synthetic)],
    [], false, .synthetic⟩]

theorem bodies_of_compile_mergedSection :
    ∃ compiled, mergedSection.compile .default = .ok compiled ∧
      Body compiled.statements ∧
      ∀ part ∈ Wire.partsOfAll compiled.statements,
        part.WellMade ∧ ∀ block ∈ part.blocks, Body block.statements := by
  have accepted : (mergedSection.compile .default).isOk = true := by decide +kernel
  cases done : mergedSection.compile .default with
  | error failure =>
    rw [done] at accepted
    cases accepted
  | ok compiled => exact ⟨compiled, rfl, bodies_of_compile .default mergedSection compiled done⟩

end TemplateCompiler

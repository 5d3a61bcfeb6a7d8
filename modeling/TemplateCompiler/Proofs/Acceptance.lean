import TemplateCompiler.Proofs.Compilation
import TemplateCompiler.Proofs.OpeningTags
import TemplateCompiler.Proofs.Validity

/-!
# Accepted templates

Planning accepts a template exactly if what it sees of the template is valid. So no valid template is
rejected. A template that is not valid is accepted if all that is wrong with it stands where planning
does not look: in an attribute `type` that another one replaces, in the value of `...attributes`, or
among the arguments of a mustache whose head is no path. What stands there makes no difference to the
plan.
-/

namespace TemplateCompiler

/-! ### Outcomes -/

section Except

variable {ε α β : Type}

/-- A sequence succeeds if its steps do. -/
theorem isOk_bind {x : Except ε α} {f : α → Except ε β} {first later : Bool}
    (here : x.isOk = first) (next : ∀ a, x = .ok a → (f a).isOk = later) :
    (x >>= f).isOk = (first && later) := by
  subst here
  cases x with
  | error e => rfl
  | ok a => exact next a rfl

theorem isOk_last {x : Except ε α} {f : α → β} {first : Bool} (here : x.isOk = first) :
    (x >>= fun a => pure (f a)).isOk = first := by
  rw [← Bool.and_true first]
  exact isOk_bind here fun _ _ => rfl

theorem isOk_mapM (f : α → Except ε β) (xs : List α) :
    (xs.mapM f).isOk = xs.all fun x => (f x).isOk := by
  induction xs with
  | nil => rfl
  | cons x rest ih =>
    rw [List.mapM_cons, List.all_cons]
    exact isOk_bind rfl fun _ _ => isOk_last ih

end Except

namespace Plan

open Template

theorem isOk_require (condition : Bool) (r : Rejection) :
    (require condition r).isOk = condition := by
  cases condition <;> rfl

theorem isOk_planPath (context : Context) (p : Path) : (planPath context p).isOk = p.isValid := by
  rw [planPath, Path.isValid]
  cases p.isThis with
  | true => rfl
  | false => cases p.parts <;> rfl

theorem isBlockTest_eq (p : Path) : p.isBlockTest = (BlockTest.ofPath? p).isSome := by
  rw [Path.isBlockTest, BlockTest.ofPath?, BlockTest.keyword, BlockTest.keyword]
  split
  · next named => simp [named]
  · next other => split <;> simp_all

theorem isOk_blockTest (test : BlockTest) (params : List Template.Expression)
    (hash : Hash Template.Expression) (span : Span) :
    (test.plan params hash span).isOk = namesBlock params hash.pairs := by
  unfold BlockTest.plan namesBlock Hash.isEmpty
  cases hash.pairs.isEmpty with
  | false => rfl
  | true =>
    match params with
    | [] => rfl
    | [.literal (.string _) _] => rfl
    | [.literal (.boolean _) _] | [.literal (.number _) _] | [.literal .null _]
    | [.literal .undefined _] | [.path _] | [.call _ _ _ _] => rfl
    | _ :: _ :: _ =>
      simp only [List.length_cons, Nat.reduceLeDiff, decide_false, Bool.and_false, Bool.false_and]
      rfl

mutual

/-- An expression is planned exactly if it is valid. -/
theorem isOk_planExpression (context : Context) : (e : Template.Expression) →
    (planExpression context e).isOk = e.isValid
  | .path p => isOk_planPath context p
  | .literal _ _ => rfl
  | .call callee params ⟨named, _⟩ loc => by
    rw [planExpression, Template.Expression.isValid, isBlockTest_eq]
    cases BlockTest.ofPath? callee with
    | some test => exact isOk_blockTest test params _ loc
    | none =>
      refine (isOk_bind (isOk_planPath .callHead callee) fun _ _ =>
        isOk_bind (isOk_planExpressions params) fun _ _ =>
          isOk_last (isOk_planPairs named)).trans ?_
      exact (Bool.and_assoc ..).symm

theorem isOk_planExpressions : (list : List Template.Expression) →
    (planExpressions list).isOk = paramsAreValid list
  | [] => rfl
  | e :: rest => by
    rw [planExpressions, paramsAreValid]
    exact isOk_bind (isOk_planExpression _ e) fun _ _ => isOk_last (isOk_planExpressions rest)

theorem isOk_planPairs : (pairs : List (Pair Template.Expression)) →
    (planPairs pairs).isOk = pairsAreValid pairs
  | [] => rfl
  | ⟨_, value, _⟩ :: rest => by
    rw [planPairs, pairsAreValid]
    exact isOk_bind (isOk_planExpression _ value) fun _ _ => isOk_last (isOk_planPairs rest)

end

theorem isOk_planParams (params : List Template.Expression) :
    (planParams params).isOk = paramsAreValid params :=
  isOk_last (isOk_planExpressions params)

theorem isOk_planHash (hash : Hash Template.Expression) :
    (planHash hash).isOk = pairsAreValid hash.pairs :=
  isOk_last (isOk_planPairs hash.pairs)

/-- Whatever is made of them, a head and its arguments are planned exactly if they are valid. -/
theorem isOk_headAndArguments {α : Type} (context : Context) (head : Path)
    (params : List Template.Expression) (hash : Hash Template.Expression)
    (make : Located Expression → Params (Located Expression) → Hash (Located Expression) → α) :
    Except.isOk (do
      let head ← planPath context head
      let params ← planParams params
      let hash ← planHash hash
      pure (make head params hash)) = callIsValid head params hash.pairs := by
  rw [callIsValid, Bool.and_assoc]
  exact isOk_bind (isOk_planPath context head) fun _ _ =>
    isOk_bind (isOk_planParams params) fun _ _ => isOk_last (isOk_planHash hash)

theorem isOk_planCall (callee : Path) (params : List Template.Expression)
    (hash : Hash Template.Expression) (span : Span) :
    (planCall callee params hash span).isOk = callIsValid callee params hash.pairs :=
  isOk_headAndArguments .callHead callee params hash _

/-! ### Opening tags -/

theorem hasArguments_eq (params : List Template.Expression) (hash : Hash Template.Expression) :
    hasArguments params hash = !(params.isEmpty && hash.pairs.isEmpty) := by
  rw [hasArguments, Hash.isEmpty, Bool.not_and]

theorem isOk_planAttributeMustache (m : Mustache) :
    (planAttributeMustache m).isOk = m.seen.isValidValue := by
  obtain ⟨head, params, hash, trusting, loc⟩ := m
  unfold planAttributeMustache Mustache.isValidValue
  cases head with
  | call callee inner named at_ =>
    exact (isOk_planExpression _ (.call callee inner named at_)).trans (Bool.and_true _).symm
  | literal value at_ => rfl
  | path p =>
    simp only [Mustache.seen, isBlockTest_eq, hasArguments_eq]
    cases BlockTest.ofPath? p with
    | some test => exact isOk_blockTest test params hash loc
    | none =>
      by_cases bare : (params.isEmpty && hash.pairs.isEmpty) = true
      · simp only [bare, Bool.not_true, Bool.false_eq_true, if_false]
        exact isOk_planPath _ p
      · simp only [bare, Bool.not_false, if_true]
        cases p.isSimple with
        | true => exact isOk_planCall p params hash loc
        | false => rfl

theorem isOk_planAttributeValue (value : AttributeValue) :
    (planAttributeValue value).isOk = value.seen.isValid := by
  cases value with
  | text node => rfl
  | mustache m => exact isOk_planAttributeMustache m
  | concat parts loc =>
    have each (part : ConcatPart) : (planConcatPart part).isOk = part.seen.isValid := by
      cases part with
      | text node => rfl
      | mustache m => exact isOk_planAttributeMustache m
    refine isOk_last ?_
    simp only [isOk_mapM, each, AttributeValue.seen, AttributeValue.isValid, List.all_map]
    rfl

/-- An attribute is planned exactly if what is seen of it is valid. -/
theorem isOk_planAttribute (kind : TagKind) (tag : String) (a : Attribute) :
    (planAttribute kind tag a).isOk = a.seen.isValid kind := by
  unfold planAttribute Attribute.isValid Attribute.seen
  by_cases splat : a.name = splattributes
  · simp only [splat, startsWith_splattributes, Bool.false_eq_true, if_false, if_true]
    rfl
  · simp only [splat, if_false]
    cases startsWith a.name '@' with
    | false => exact isOk_last (isOk_planAttributeValue a.value)
    | true =>
      cases kind.hasComponentFeatures with
      | true => exact isOk_last (isOk_planAttributeValue a.value)
      | false => rfl

/-- An attribute `type` is set last, unless another one replaces it. -/
theorem attributeOrder_cons (a : Attribute) (rest : List Attribute) :
    attributeOrder (a :: rest) =
      if a.isReplaced rest then attributeOrder rest
      else if a.name = "type" then attributeOrder rest ++ [a]
      else a :: attributeOrder rest := by
  unfold attributeOrder Attribute.isReplaced
  by_cases typed : a.name = "type"
  · cases later : rest.filter (·.name == "type") with
    | nil =>
      have none_later : rest.any (·.name == "type") = false := by
        simpa [List.filter_eq_nil_iff] using later
      simp [typed, later, none_later]
    | cons b others =>
      have some_later : rest.any (·.name == "type") = true := by
        have found : b ∈ rest.filter (·.name == "type") := later ▸ List.mem_cons_self
        exact List.any_eq_true.mpr ⟨b, List.mem_filter.mp found⟩
      simp [typed, later, some_later]
  · simp [typed]

/-- The attributes that are set are those that are seen. -/
theorem all_attributeOrder (kind : TagKind) (attributes : List Attribute) :
    (attributeOrder attributes).all (fun a => a.seen.isValid kind) =
      (seenAttributes attributes).all (Attribute.isValid kind) := by
  induction attributes with
  | nil => rfl
  | cons a rest ih =>
    rw [attributeOrder_cons, seenAttributes]
    split
    · exact ih
    · split <;> simp [ih, Bool.and_comm]

theorem isOk_planAttributes (kind : TagKind) (tag : String) (attributes : List Attribute) :
    (planAttributes kind tag attributes).isOk =
      (seenAttributes attributes).all (Attribute.isValid kind) := by
  simp only [planAttributes, isOk_mapM, isOk_planAttribute, all_attributeOrder]

theorem isOk_planModifier (m : Modifier) : (planModifier m).isOk = m.isValid :=
  isOk_headAndArguments .modifierHead m.path m.params m.hash _

/-! ### Statements -/

theorem isOk_planYield (m : Mustache) :
    (planYield m).isOk = (yieldsToBlock m.hash.pairs && paramsAreValid m.params) := by
  have target : (yieldTarget m.hash.pairs).isOk = yieldsToBlock m.hash.pairs := by
    match m.hash.pairs with
    | [] => rfl
    | [⟨key, value, _⟩] =>
      by_cases known : key = "to"
      · subst known
        match value with
        | .literal (.string _) _ => rfl
        | .literal (.boolean _) _ | .literal (.number _) _ | .literal .null _
        | .literal .undefined _ | .path _ | .call _ _ _ _ => rfl
      · simp [yieldTarget, yieldsToBlock, known, Except.isOk, Except.toBool]
    | _ :: _ :: _ => simp [yieldTarget, yieldsToBlock, Except.isOk, Except.toBool]
  exact isOk_bind target fun _ _ => isOk_last (isOk_planParams m.params)

theorem isOk_planPartial (m : Mustache) :
    (planPartial m).isOk = (m.params.length == 1 && m.hash.pairs.isEmpty && !m.trusting &&
      paramsAreValid m.params) := by
  unfold planPartial
  match m.params with
  | [] => rfl
  | [name] =>
    refine (isOk_bind (isOk_require _ _) fun _ _ => isOk_bind (isOk_require _ _) fun _ _ =>
      isOk_last (isOk_planExpression _ name)).trans ?_
    simp [paramsAreValid, Hash.isEmpty, Bool.and_assoc]
  | _ :: _ :: _ => simp [Except.isOk, Except.toBool]

theorem isOk_planDebugger (m : Mustache) :
    (planDebugger m).isOk = (m.hash.pairs.isEmpty && m.params.isEmpty) :=
  isOk_bind (isOk_require _ _) fun _ _ => isOk_last (isOk_require _ _)

theorem isOk_planMustacheValue (p : Path) (m : Mustache) :
    (planMustacheValue p m).isOk = (if p.isBlockTest then namesBlock m.params m.hash.pairs
      else callIsValid p m.params m.hash.pairs) := by
  unfold planMustacheValue
  simp only [isBlockTest_eq, hasArguments_eq]
  cases BlockTest.ofPath? p with
  | some test => exact isOk_blockTest test m.params m.hash m.loc
  | none =>
    cases bare : m.params.isEmpty && m.hash.pairs.isEmpty with
    | true =>
      rw [Bool.and_eq_true, List.isEmpty_iff, List.isEmpty_iff] at bare
      simp only [bare.1, bare.2, callIsValid, paramsAreValid, pairsAreValid, Bool.and_true]
      exact isOk_planPath _ p
    | false => exact isOk_planCall p m.params m.hash m.loc

/-- A mustache is planned exactly if what is seen of it is valid. -/
theorem isOk_planMustache (m : Mustache) : (planMustache m).isOk = m.seen.isValid := by
  obtain ⟨head, params, hash, trusting, loc⟩ := m
  unfold planMustache Mustache.isValid
  cases head with
  | call callee inner named at_ =>
    exact isOk_last ((isOk_planExpression _ (.call callee inner named at_)).trans
      (Bool.and_true _).symm)
  | literal value at_ => rfl
  | path p =>
    dsimp only [Mustache.seen]
    unfold Keyword.ofPath?
    by_cases isYield : p.written = "yield"
    · simp only [isYield, if_true, beq_self_eq_true, isOk_planYield]
    by_cases isPartial : p.written = "partial"
    · simp [isPartial, isOk_planPartial]
    by_cases isDebugger : p.written = "debugger"
    · simp [isDebugger, isOk_planDebugger]
    simp only [isYield, isPartial, isDebugger, if_false, beq_iff_eq]
    exact isOk_last (isOk_planMustacheValue p ⟨.path p, params, hash, trusting, loc⟩)

theorem isOk_planInsertBefore (found : Option (Located Expression))
    (named : List (Pair Template.Expression)) :
    (planInsertBefore found named).isOk =
      (named.all (·.key == "insertBefore") && pairsAreValid named) := by
  induction named generalizing found with
  | nil => rfl
  | cons pair rest ih =>
    rw [planInsertBefore, List.all_cons, pairsAreValid]
    by_cases known : pair.key = "insertBefore"
    · simp only [known, if_true]
      refine (isOk_bind (isOk_planExpression _ pair.value) fun value _ => ih (some value)).trans ?_
      simp [Bool.and_left_comm]
    · simp only [known, beq_false_of_ne known, if_false, Bool.false_and]
      split <;> rfl

/-- An `in-element` block is planned exactly if its arguments and its blocks are allowed. -/
theorem isOk_planDestination {σ : Type} (b : BlockNode σ) :
    (planDestination b).isOk = b.isValidInElement := by
  unfold planDestination BlockNode.isValidInElement
  match b.params with
  | [] => rfl
  | [destination] =>
    refine (isOk_bind (isOk_planInsertBefore none b.hash.pairs) fun _ _ =>
      isOk_bind (isOk_require _ _) fun _ _ =>
        isOk_last (isOk_planExpression _ destination)).trans ?_
    simp only [paramsAreValid, List.length_singleton, beq_self_eq_true, Bool.true_and,
      Bool.and_true]
    ac_rfl
  | _ :: _ :: _ => simp [Except.isOk, Except.toBool]

/-- A tag can always be read as a path. -/
theorem isValid_ofText (loc : Span) (tag : String) : (Path.ofText loc tag).isValid = true := by
  unfold Path.ofText
  dsimp only
  split
  · rfl
  · split <;> rfl

theorem isOk_openStatement {σ : Type} (rename : String → String) (isLocal : String → Bool)
    (e : Element σ) (scope : Nat) :
    (openStatement rename (e.kind isLocal) e scope).isOk = true := by
  have opens (path : Path) (read : e.kind isLocal = .dynamicTag path) : path.isValid = true := by
    rw [Element.eq_tagPath_of_kind read, Element.tagPath_eq_ofText]
    exact isValid_ofText e.loc e.tag
  unfold openStatement
  split
  · rfl
  · next path read => exact isOk_last ((isOk_planPath _ path).trans (opens path read))
  · rfl
  · rfl

/-- An element is a named block by its first character. -/
theorem kind_eq_namedBlock {σ : Type} (isLocal : String → Bool) (e : Element σ) :
    e.kind isLocal = .namedBlock ↔ startsWith e.tag ':' = true := by
  unfold Element.kind
  cases startsWith e.tag ':' with
  | true => simp
  | false =>
    simp only [Bool.false_eq_true, if_false, iff_false]
    repeat' split
    all_goals exact TagKind.noConfusion

/-- What is checked and planned of an element before its content. -/
theorem isOk_element {α : Type} (rename : String → String) (isLocal : String → Bool)
    (e : Element Template.Statement) (scope : Option Nat) {content : Planned α}
    {f : List (Located Statement) → α → List (Located Statement)} {inside : Bool}
    (planned : content.isOk = inside) :
    Except.isOk (do
      checkElement (e.kind isLocal) e
      let opening ← planOpening rename (e.kind isLocal) e scope
      let inner ← content
      pure (f opening inner)) = (e.seen.isValidOpening (e.kind isLocal) && inside) := by
  have checked : (checkElement (e.kind isLocal) e).isOk =
      (!startsWith e.tag ':' && ((!e.selfClosing || e.children.isEmpty) &&
        ((e.kind isLocal).isComponentLike || e.blockParams.isEmpty))) := by
    refine isOk_bind ((isOk_require _ _).trans ?_) fun _ _ =>
      isOk_bind (isOk_require _ _) fun _ _ => isOk_require _ _
    rw [Bool.not_inj_iff]
    split
    · next named => exact ((kind_eq_namedBlock isLocal e).mp named).symm
    · next other => simpa using fun named => other ((kind_eq_namedBlock isLocal e).mpr named)
  have opened : (planOpening rename (e.kind isLocal) e scope).isOk =
      ((seenAttributes e.attributes).all (Attribute.isValid (e.kind isLocal)) &&
        e.modifiers.all Modifier.isValid) := by
    refine (isOk_bind (isOk_openStatement rename isLocal e _) fun _ _ =>
      isOk_bind (isOk_planAttributes _ e.tag e.attributes) fun _ _ =>
        isOk_last (isOk_mapM planModifier e.modifiers)).trans ?_
    simp only [isOk_planModifier, Bool.true_and]
  refine (isOk_bind checked fun _ _ => isOk_bind opened fun _ _ => isOk_last planned).trans ?_
  simp only [Element.isValidOpening, Element.seen, isEmpty_seenAll, Bool.and_assoc]

end Plan

/-- The names that are visible inside some blocks. -/
def Binder.visible (enclosing : List Binder) : List String := enclosing.flatMap Binder.names

theorem Binder.contains_visible (enclosing : List Binder) :
    (visible enclosing).contains = binds enclosing := by
  funext name
  rw [Bool.eq_iff_iff]
  simp [visible, binds]

namespace Outline

open Template hiding body
open Plan hiding body

variable (rename : String → String)

theorem isOk_plan_element (isLocal : String → Bool) (e : Element Template.Statement)
    {content : List Outline} {inside : Bool} (empty : content.isEmpty = e.children.isEmpty)
    (planned : (planAll rename content).isOk = inside) :
    ((Outline.element (e.kind isLocal) { e with children := content }).plan rename).isOk =
      (e.seen.isValidOpening (e.kind isLocal) && inside) := by
  rw [plan, checkElement_of_isEmpty _ e empty, planOpening_of_children rename _ e]
  exact isOk_element rename isLocal e none planned

theorem isOk_plan_component (isLocal : String → Bool) (e : Element Template.Statement)
    (scope : Nat) {content : List Outline} {inside : Bool}
    (empty : content.isEmpty = e.children.isEmpty)
    (planned : (planAll rename content).isOk = inside) :
    ((Outline.component (e.kind isLocal) scope { e with children := content }).plan rename).isOk =
      (e.seen.isValidOpening (e.kind isLocal) && inside) := by
  rw [plan, checkElement_of_isEmpty _ e empty, planOpening_of_children rename _ e]
  exact isOk_element rename isLocal e (some scope) planned

mutual

/-- The outline of a statement can be planned just if what is seen of the statement is valid. -/
theorem isOk_plan_ofStatement (enclosing : List Binder) (c : Count) : (s : Template.Statement) →
    ((ofStatement enclosing c s).1.plan rename).isOk = s.seen.isValid (Binder.visible enclosing)
  | .mustache m => isOk_last (isOk_planMustache m)
  | .text _ => rfl
  | .comment _ => rfl
  | .mustacheComment _ => rfl
  | .block ⟨path, params, hash, program, inverse, loc⟩ => by
    rw [ofStatement, Template.Statement.seen, Template.Statement.isValid, isInElement]
    by_cases moved : path.written = "in-element"
    · simp only [moved, decide_true, if_true, beq_self_eq_true, plan]
      refine isOk_bind ?_ fun _ _ =>
        isOk_last (isOk_planBlock_ofBlock enclosing _ "default" c.scopes program)
      rw [planDestination_of_isNone (⟨path, params, hash, program, inverse, loc⟩ :
        BlockNode Template.Statement) _ _ (by cases inverse <;> rfl), isOk_planDestination]
      simp only [BlockNode.isValidInElement, isNone_seenInverse]
    · simp only [moved, decide_false, Bool.false_eq_true, if_false, beq_iff_eq, plan]
      refine (isOk_bind (isOk_planBlock_ofBlock enclosing c "default" c.scopes program) fun _ _ =>
        isOk_bind (isOk_planInverse_ofInverse enclosing _ _ inverse) fun _ _ =>
          isOk_headAndArguments _ path params hash _).trans ?_
      ac_rfl
  | .element ⟨tag, attributes, modifiers, children, names, selfClosing, loc⟩ => by
    have kinds := Element.kind_seen (Binder.binds enclosing)
      ⟨tag, attributes, modifiers, children, names, selfClosing, loc⟩
    rw [ofStatement, Template.Statement.seen, Template.Statement.isValid, Binder.contains_visible]
    dsimp only [Element.seen] at kinds ⊢
    rw [kinds, any_isNamedBlock_seenAll]
    split
    · next component =>
      cases named : children.any isNamedBlock with
      | true =>
        simp only [if_true]
        exact isOk_plan_component rename _
          ⟨tag, attributes, modifiers, children, names, selfClosing, loc⟩ c.scopes
          (ofNamedBlocks_isEmpty _ _ _ _) (isOk_planAll_ofNamedBlocks _ _ tag children)
      | false =>
        simp only [Bool.false_eq_true, if_false]
        exact isOk_plan_component rename _
          ⟨tag, attributes, modifiers, children, names, selfClosing, loc⟩ c.scopes
          (ofStatements_isEmpty _ _ _) (isOk_planAll_ofStatements _ _ children)
    · exact isOk_plan_element rename _
        ⟨tag, attributes, modifiers, children, names, selfClosing, loc⟩
        (ofStatements_isEmpty _ _ _) (isOk_planAll_ofStatements _ _ children)

theorem isOk_planAll_ofStatements (enclosing : List Binder) (c : Count) :
    (list : List Template.Statement) →
    (planAll rename (ofStatements enclosing c list).1).isOk =
      areValid (Binder.visible enclosing) (seenAll list)
  | [] => rfl
  | s :: rest => by
    rw [ofStatements, planAll, seenAll, areValid]
    exact isOk_bind (isOk_plan_ofStatement enclosing c s) fun _ _ =>
      isOk_last (isOk_planAll_ofStatements enclosing _ rest)

theorem isOk_planBlock_ofBlock (enclosing : List Binder) (c : Count) (name : String)
    (scope : Nat) : (block : Block Template.Statement) →
    (planBlock rename name scope (ofBlock enclosing c block).1).isOk =
      blockIsValid (Binder.visible enclosing) (seenBlock block)
  | ⟨body, names, _⟩ => by
    rw [ofBlock, planBlock, seenBlock, blockIsValid]
    exact isOk_last (isOk_planAll_ofStatements (⟨c.scopes, names, true⟩ :: enclosing) _ body)

theorem isOk_planInverse_ofInverse (enclosing : List Binder) (c : Count) (scope : Nat) :
    (inverse : Option (Block Template.Statement)) →
    (planInverse rename scope (ofInverse enclosing c inverse).1).isOk =
      inverseIsValid (Binder.visible enclosing) (seenInverse inverse)
  | none => rfl
  | some block => by
    rw [ofInverse, planInverse, seenInverse, inverseIsValid]
    exact isOk_last (isOk_planBlock_ofBlock enclosing c "else" scope block)

theorem isOk_planAll_ofNamedBlocks (enclosing : List Binder) (c : Count) (component : String) :
    (list : List Template.Statement) →
    (planAll rename (ofNamedBlocks enclosing c component list).1).isOk =
      namedAreValid (Binder.visible enclosing) (seenAll list)
  | [] => rfl
  | s :: rest => by
    rw [ofNamedBlocks, planAll, seenAll, namedAreValid]
    exact isOk_bind (isOk_plan_ofNamedBlock enclosing c component s) fun _ _ =>
      isOk_last (isOk_planAll_ofNamedBlocks enclosing _ component rest)

theorem isOk_plan_ofNamedBlock (enclosing : List Binder) (c : Count) (component : String) :
    (s : Template.Statement) →
    ((ofNamedBlock enclosing c component s).1.plan rename).isOk =
      s.seen.isValidNamed (Binder.visible enclosing)
  | .mustache _ => rfl
  | .block _ => rfl
  | .text node => by
    rw [ofNamedBlock, Template.Statement.seen, Template.Statement.isValidNamed, isNothing]
    · cases Text.isBlankText node.chars <;> rfl
    · simp
  | .comment _ => rfl
  | .mustacheComment _ => rfl
  | .element ⟨tag, attributes, modifiers, children, names, selfClosing, loc⟩ => by
    rw [ofNamedBlock, Template.Statement.seen, Template.Statement.isValidNamed,
      isEmpty_seenAttributes]
    cases startsWith tag ':' with
    | false => rfl
    | true =>
      simp only [if_true, Bool.true_and, plan]
      exact isOk_bind (isOk_require _ _) fun _ _ =>
        isOk_last (isOk_planAll_ofStatements (⟨c.scopes, names, true⟩ :: enclosing) _ children)

end

end Outline

/-- A template is accepted just if what is seen of it is valid. -/
theorem Template.isOk_plan (o : Options) (t : Template) : (t.plan o).isOk = t.seen.isValid := by
  have decided : (Outline.planAll o.rename (Outline.ofTemplate t)).isOk = t.seen.isValid :=
    Outline.isOk_planAll_ofStatements o.rename [] ⟨1, 0⟩ t.body
  have agrees := Plan.traceTemplate_agrees o.rename t
  rw [← decided, Template.plan, Plan.ofTemplate_eq_trace]
  cases outlined : Outline.planAll o.rename (Outline.ofTemplate t) with
  | error r =>
    rw [outlined] at agrees
    rw [agrees]
    rfl
  | ok body =>
    rw [outlined] at agrees
    obtain ⟨table, recorded, _⟩ := agrees
    rw [recorded]
    rfl

/-! ### What is overlooked makes no difference -/

namespace Plan

open Template

theorem planAttributeMustache_seen (m : Mustache) :
    planAttributeMustache m.seen = planAttributeMustache m := by
  obtain ⟨head, params, hash, trusting, loc⟩ := m
  cases head <;> rfl

theorem planMustache_seen (m : Mustache) : planMustache m.seen = planMustache m := by
  obtain ⟨head, params, hash, trusting, loc⟩ := m
  cases head <;> rfl

theorem planAttributeValue_seen (value : AttributeValue) :
    planAttributeValue value.seen = planAttributeValue value := by
  cases value with
  | text node => rfl
  | mustache m => exact planAttributeMustache_seen m
  | concat parts loc =>
    have each : planConcatPart ∘ ConcatPart.seen = planConcatPart := by
      funext part
      cases part with
      | text node => rfl
      | mustache m => exact planAttributeMustache_seen m
    rw [AttributeValue.seen, planAttributeValue, planAttributeValue, List.mapM_map, each]

theorem isTrusting_seen (value : AttributeValue) : isTrusting value.seen = isTrusting value := by
  cases value with
  | text | concat => rfl
  | mustache m =>
    obtain ⟨head, params, hash, trusting, loc⟩ := m
    cases head <;> rfl

theorem planAttribute_seen (kind : TagKind) (tag : String) (a : Attribute) :
    planAttribute kind tag a.seen = planAttribute kind tag a := by
  unfold Attribute.seen
  split
  · next splat => simp only [planAttribute, splat]; rfl
  · simp only [planAttribute, planAttributeValue_seen, isTrusting_seen]

theorem attributeOrder_seenAttributes (attributes : List Attribute) :
    attributeOrder (seenAttributes attributes) = (attributeOrder attributes).map Attribute.seen := by
  induction attributes with
  | nil => rfl
  | cons a rest ih =>
    rw [seenAttributes, attributeOrder_cons]
    cases replaced : a.isReplaced rest with
    | true => exact ih
    | false =>
      have kept : a.seen.isReplaced (seenAttributes rest) = false := by
        rw [← replaced, Attribute.isReplaced, Attribute.name_seen, any_name_seenAttributes]
        rfl
      simp only [Bool.false_eq_true, if_false, attributeOrder_cons, kept, Attribute.name_seen, ih]
      split <;> simp

theorem planAttributes_seen (kind : TagKind) (tag : String) (attributes : List Attribute) :
    planAttributes kind tag (seenAttributes attributes) = planAttributes kind tag attributes := by
  have each : planAttribute kind tag ∘ Attribute.seen = planAttribute kind tag :=
    funext (planAttribute_seen kind tag)
  rw [planAttributes, attributeOrder_seenAttributes, List.mapM_map, each, planAttributes]

theorem planOpening_seen (rename : String → String) (kind : TagKind)
    (e : Element Template.Statement) (scope : Option Nat) :
    planOpening rename kind e.seen scope = planOpening rename kind e scope := by
  show (openStatement rename kind e _ >>= fun _ => planAttributes kind e.tag _ >>= _) = _
  rw [show e.seen.attributes = seenAttributes e.attributes from rfl, planAttributes_seen]
  rfl

theorem checkElement_seen (kind : TagKind) (e : Element Template.Statement) :
    checkElement kind e.seen = checkElement kind e := by
  simp only [checkElement, Element.seen, isEmpty_seenAll]

mutual

/-- What planning overlooks in a statement makes no difference to its plan. -/
theorem planStatement_seen (rename : String → String) : (s : Template.Statement) →
    planStatement rename s.seen = planStatement rename s
  | .mustache m => by rw [Statement.seen, planStatement, planStatement, planMustache_seen]
  | .text _ => rfl
  | .comment _ => rfl
  | .mustacheComment _ => rfl
  | .block ⟨path, params, hash, program, inverse, loc⟩ => by
    have destination := planDestination_of_isNone
      (⟨path, params, hash, program, inverse, loc⟩ : BlockNode Template.Statement)
      (seenBlock program) (seenInverse inverse) (isNone_seenInverse inverse)
    rw [Statement.seen, planStatement, planStatement, planBlock_seen rename "default" program,
      planInverse_seen rename inverse, ← destination]
  | .element ⟨tag, attributes, modifiers, children, names, selfClosing, loc⟩ => by
    have kinds (isLocal : String → Bool) := Element.kind_seen isLocal
      ⟨tag, attributes, modifiers, children, names, selfClosing, loc⟩
    have opens := fun kind => planOpening_seen rename kind
      ⟨tag, attributes, modifiers, children, names, selfClosing, loc⟩
    have checks := fun kind => checkElement_seen kind
      ⟨tag, attributes, modifiers, children, names, selfClosing, loc⟩
    dsimp only [Element.seen] at kinds opens checks
    rw [Statement.seen, planStatement, planStatement, planStatements_seen rename children,
      planNamedBlocks_seen rename tag children, any_isNamedBlock_seenAll]
    simp only [kinds, opens, checks]

theorem planStatements_seen (rename : String → String) : (list : List Template.Statement) →
    planStatements rename (seenAll list) = planStatements rename list
  | [] => rfl
  | s :: rest => by
    rw [seenAll, planStatements, planStatements, planStatement_seen rename s,
      planStatements_seen rename rest]

theorem planBlock_seen (rename : String → String) (name : String) :
    (block : Block Template.Statement) →
    planBlock rename name (seenBlock block) = planBlock rename name block
  | ⟨body, names, loc⟩ => by
    rw [seenBlock, planBlock, planBlock, planStatements_seen rename body]

theorem planInverse_seen (rename : String → String) :
    (inverse : Option (Block Template.Statement)) →
    planInverse rename (seenInverse inverse) = planInverse rename inverse
  | none => rfl
  | some block => by
    rw [seenInverse, planInverse, planInverse, planBlock_seen rename "else" block]

theorem planNamedBlocks_seen (rename : String → String) (component : String) :
    (list : List Template.Statement) →
    planNamedBlocks rename component (seenAll list) = planNamedBlocks rename component list
  | [] => rfl
  | s :: rest => by
    rw [seenAll, planNamedBlocks, planNamedBlocks, planNamedBlock_seen rename component s,
      planNamedBlocks_seen rename component rest]

theorem planNamedBlock_seen (rename : String → String) (component : String) :
    (s : Template.Statement) →
    planNamedBlock rename component s.seen = planNamedBlock rename component s
  | .mustache m => by
    obtain ⟨head, params, hash, trusting, loc⟩ := m
    cases head <;> rfl
  | .block ⟨path, params, hash, program, inverse, loc⟩ => rfl
  | .text _ => rfl
  | .comment _ => rfl
  | .mustacheComment _ => rfl
  | .element ⟨tag, attributes, modifiers, children, names, selfClosing, loc⟩ => by
    rw [Statement.seen, planNamedBlock, planNamedBlock, isEmpty_seenAttributes,
      planStatements_seen rename children]

end

end Plan

/-- A template is planned as if nothing overlooked were written in it. -/
theorem Template.plan_seen (o : Options) (t : Template) : t.seen.plan o = t.plan o := by
  rw [Template.plan, Plan.ofTemplate, Template.seen, Plan.planStatements_seen]
  rfl

/-- Planning accepts a template exactly if what is seen of it is valid, and rejects it otherwise; the
rest makes no difference to the plan. Validity asks for more, just by what is overlooked: a template
is valid if it is accepted and all that is overlooked in it is valid. So acceptance and validity
agree on a template unless a mistake is overlooked in it and there is no other. -/
theorem plan_accepts_iff_seen_valid (o : Options) (t : Template) :
    ((∃ plan, t.plan o = .ok plan) ↔ t.seen.isValid = true) ∧
      ((∃ r, t.plan o = .error (.rejected r)) ↔ t.seen.isValid = false) ∧
      t.seen.plan o = t.plan o ∧
      (t.isValid = true ↔
        (∃ plan, t.plan o = .ok plan) ∧ ∀ part ∈ t.overlooked, part.isValid = true) ∧
      (((∃ plan, t.plan o = .ok plan) ↔ t.isValid = true) ↔
        ((∃ plan, t.plan o = .ok plan) → ∀ part ∈ t.overlooked, part.isValid = true)) := by
  have accepted : (∃ plan, t.plan o = .ok plan) ↔ t.seen.isValid = true := by
    rw [← t.isOk_plan o]
    cases t.plan o <;> simp [Except.isOk, Except.toBool]
  have rejected : (∃ r, t.plan o = .error (.rejected r)) ↔ t.seen.isValid = false := by
    rw [← t.isOk_plan o]
    rcases compiles_or_rejected o t with ⟨r, failed⟩ | ⟨plan, _, _, compiles⟩
    · simp [failed, Except.isOk, Except.toBool]
    · simp [compiles.planned, Except.isOk, Except.toBool]
  have valid : t.isValid = true ↔
      (∃ plan, t.plan o = .ok plan) ∧ ∀ part ∈ t.overlooked, part.isValid = true := by
    rw [t.isValid_iff_seen, accepted]
  refine ⟨accepted, rejected, t.plan_seen o, valid, ?_⟩
  rw [valid]
  exact ⟨fun agree found => (agree.mp found).2, fun inOrder =>
    ⟨fun found => ⟨found, inOrder found⟩, And.left⟩⟩

-- Only where `x` is a name in scope is `<x as |z|>` a component, which may have block params.
example : (Template.of [.wrap "x" ["z"] []]).isValid = false := by decide +kernel

example : (Template.of [.invokeBlock "let" [.named "@a"] []
    (.of ["x"] [.wrap "x" ["z"] []]) none]).isValid = true := by decide +kernel

/-- The first `type` passes arguments to a path with a dot, and another one replaces it. -/
def replacedType : Template :=
  .of [.element (Template.Element.of "input"
    |>.addAttribute "type" Plan.dottedCall .synthetic
    |>.addAttribute "type" (.text (.of "number")) .synthetic)]

/-- The value of `...attributes` passes arguments to a path with a dot. -/
def valuedSplat : Template :=
  .of [.element (Template.Element.of "div"
    |>.addAttribute Template.splattributes Plan.dottedCall .synthetic)]

/-- A text is called on a test for a block, and the test has a named argument. -/
def calledText : Template :=
  .of [.mustache (.escaping (.constant (.string "a"))
    [.invoke "has-block" [] [.of "to" (.constant (.string "b"))]] [])]

/-- Three templates that are not valid are accepted. -/
theorem overlooked_mistakes_accepted :
    (replacedType.isValid = false ∧ (replacedType.plan .default).isOk = true) ∧
      (valuedSplat.isValid = false ∧ (valuedSplat.plan .default).isOk = true) ∧
      calledText.isValid = false ∧ (calledText.plan .default).isOk = true := by
  decide +kernel

end TemplateCompiler

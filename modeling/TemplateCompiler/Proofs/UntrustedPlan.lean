import TemplateCompiler.Proofs.Planning
import TemplateCompiler.Proofs.Untrusting

/-!
# Plans without trust

Planning a template without trust gives the plan without trust, in the same scopes. Nothing is said
about templates that are rejected: a partial in triple curly braces is, and one in double curly
braces is not.
-/

namespace TemplateCompiler

open Template (Attribute AttributeValue Block BlockNode ConcatPart Element Mustache TagKind)

namespace Plan

/-! ### Opening tags -/

theorem planConcatPart_untrust (part : ConcatPart) :
    planConcatPart part.untrust = planConcatPart part := by
  cases part <;> rfl

theorem planAttributeValue_untrust (value : AttributeValue) :
    planAttributeValue value.untrust = planAttributeValue value := by
  cases value with
  | text node => rfl
  | mustache m => rfl
  | concat parts loc =>
    have same : (parts.map ConcatPart.untrust).mapM planConcatPart =
        parts.mapM planConcatPart := by
      rw [List.mapM_map]
      congr 1
      exact funext planConcatPart_untrust
    simp only [AttributeValue.untrust, planAttributeValue, same]

theorem attributeKind_untrust (literal trusting component : Bool) :
    (attributeKind literal trusting component).untrust = attributeKind literal false component := by
  cases literal <;> cases trusting <;> cases component <;> rfl

theorem isTrusting_untrust (value : AttributeValue) : isTrusting value.untrust = false := by
  cases value <;> rfl

/-- The plan of an untrusted attribute is the untrusted plan. -/
theorem planAttribute_untrust {kind : TagKind} {tag : String} {a : Attribute}
    {s : Located Statement} (done : planAttribute kind tag a = .ok s) :
    planAttribute kind tag a.untrust = .ok (untrustLocated s) := by
  unfold planAttribute at done ⊢
  simp only [Attribute.untrust, planAttributeValue_untrust, isTrusting_untrust]
  by_cases sigil : Template.startsWith a.name '@' = true
  · simp only [sigil, if_true] at done ⊢
    by_cases features : kind.hasComponentFeatures = true
    · rw [if_pos features] at done ⊢
      obtain ⟨value, valueDone, done⟩ := ok_of_bind done
      cases done
      rw [valueDone]
      rfl
    · rw [if_neg features] at done
      cases done
  · simp only [sigil, Bool.false_eq_true, if_false] at done ⊢
    by_cases splat : a.name = Template.splattributes
    · rw [if_pos splat] at done ⊢
      cases done
      rfl
    · rw [if_neg splat] at done ⊢
      obtain ⟨value, valueDone, done⟩ := ok_of_bind done
      cases done
      rw [valueDone, untrustLocated, Statement.untrust, attributeKind_untrust]
      rfl

/-- Trust plays no part in the order of attributes. -/
theorem attributeOrder_untrust (attributes : List Attribute) :
    attributeOrder (attributes.map Attribute.untrust) =
      (attributeOrder attributes).map Attribute.untrust := by
  have other : (attributes.map Attribute.untrust).filter (·.name != "type") =
      (attributes.filter (·.name != "type")).map Attribute.untrust := List.filter_map ..
  have type : (attributes.map Attribute.untrust).filter (·.name == "type") =
      (attributes.filter (·.name == "type")).map Attribute.untrust := List.filter_map ..
  rw [attributeOrder, other, type, attributeOrder, List.map_append, List.getLast?_map]
  congr 1
  cases (attributes.filter (·.name == "type")).getLast? <;> rfl

theorem planAttributes_untrust {kind : TagKind} {tag : String} {attributes : List Attribute}
    {list : List (Located Statement)} (done : planAttributes kind tag attributes = .ok list) :
    planAttributes kind tag (attributes.map Attribute.untrust) = .ok (untrustAll list) := by
  rw [planAttributes, attributeOrder_untrust, untrustAll_eq_map]
  refine mapM_eq_ok.mpr ?_
  rw [List.forall₂_map_left_iff, List.forall₂_map_right_iff]
  exact (mapM_eq_ok.mp done).imp fun _ _ => planAttribute_untrust

theorem planModifiers_untrust {modifiers : List Template.Modifier} {list : List (Located Statement)}
    (done : modifiers.mapM planModifier = .ok list) : untrustAll list = list := by
  have each := mapM_eq_ok.mp done
  clear done
  induction each with
  | nil => rfl
  | cons first _ ih =>
    obtain ⟨head, _, first⟩ := ok_of_bind first
    obtain ⟨params, _, first⟩ := ok_of_bind first
    obtain ⟨hash, _, first⟩ := ok_of_bind first
    cases first
    rw [untrustAll, ih]
    rfl

theorem openStatement_untrust {σ : Type} {rename : String → String} {kind : TagKind}
    {e : Element σ} {scope : Nat} {s : Statement}
    (done : openStatement rename kind e scope = .ok s) : s.untrust = s := by
  cases kind with
  | dynamicTag path =>
    obtain ⟨tag, _, done⟩ := ok_of_bind done
    cases done
    rfl
  | component | dynamic | html | namedBlock =>
    cases done
    rfl

section Elements

variable {tag : String} {attributes : List Attribute} {modifiers : List Template.Modifier}
  {children : List Template.Statement} {blockParams : List String} {selfClosing : Bool} {loc : Span}

/-- The kind of an element does not depend on trust. -/
theorem kind_untrust (isLocal : String → Bool) :
    Element.kind isLocal (⟨tag, attributes.map Attribute.untrust, modifiers,
      Template.untrustAll children, blockParams, selfClosing, loc⟩ : Element Template.Statement) =
      Element.kind isLocal
        ⟨tag, attributes, modifiers, children, blockParams, selfClosing, loc⟩ := by
  have splat : (attributes.map Attribute.untrust).any (fun a => a.name == Template.splattributes) =
      attributes.any fun a => a.name == Template.splattributes := List.any_map ..
  simp only [Element.kind, Element.hasSplat, splat]
  rfl

theorem checkElement_untrust (kind : TagKind) :
    checkElement kind (⟨tag, attributes.map Attribute.untrust, modifiers,
      Template.untrustAll children, blockParams, selfClosing, loc⟩ : Element Template.Statement) =
      checkElement kind ⟨tag, attributes, modifiers, children, blockParams, selfClosing, loc⟩ := by
  cases children <;> rfl

theorem planOpening_untrust {rename : String → String} {kind : TagKind} {scope : Option Nat}
    {list : List (Located Statement)}
    (done : planOpening rename kind (⟨tag, attributes, modifiers, children, blockParams,
      selfClosing, loc⟩ : Element Template.Statement) scope = .ok list) :
    planOpening rename kind (⟨tag, attributes.map Attribute.untrust, modifiers,
      Template.untrustAll children, blockParams, selfClosing, loc⟩ : Element Template.Statement)
      scope = .ok (untrustAll list) := by
  obtain ⟨opening, openingDone, done⟩ := ok_of_bind done
  obtain ⟨given, attributesDone, done⟩ := ok_of_bind done
  obtain ⟨modified, modifiersDone, done⟩ := ok_of_bind done
  cases done
  have kept := openStatement_untrust openingDone
  refine bind_eq_ok.mpr ⟨opening, openingDone, bind_eq_ok.mpr ⟨untrustAll given,
    planAttributes_untrust attributesDone, bind_eq_ok.mpr ⟨modified, modifiersDone, ?_⟩⟩⟩
  simp only [untrustAll_append, List.cons_append, untrustAll, kept,
    planModifiers_untrust modifiersDone]
  rfl

end Elements

/-! ### Mustaches -/

theorem appendStatement_untrust (trusting : Bool) (value : Located Expression) (span : Span) :
    untrustLocated (appendStatement trusting value span) = appendStatement false value span := by
  cases trusting <;> rfl

theorem planYield_untrust {m : Mustache} {s : Located Statement} (done : planYield m = .ok s) :
    planYield m.untrust = .ok (untrustLocated s) := by
  obtain ⟨target, targetDone, done⟩ := ok_of_bind done
  obtain ⟨params, paramsDone, done⟩ := ok_of_bind done
  cases done
  exact bind_eq_ok.mpr ⟨target, targetDone, bind_eq_ok.mpr ⟨params, paramsDone, rfl⟩⟩

theorem planDebugger_untrust {m : Mustache} {s : Located Statement}
    (done : planDebugger m = .ok s) : planDebugger m.untrust = .ok (untrustLocated s) := by
  obtain ⟨_, noHash, done⟩ := ok_of_bind done
  obtain ⟨_, noParams, done⟩ := ok_of_bind done
  cases done
  exact bind_eq_ok.mpr ⟨_, noHash, bind_eq_ok.mpr ⟨_, noParams, rfl⟩⟩

/-- A partial is accepted without trust only. -/
theorem planPartial_untrust {m : Mustache} {s : Located Statement}
    (done : planPartial m = .ok s) : planPartial m.untrust = .ok (untrustLocated s) := by
  have whole := done
  unfold planPartial at done
  split at done
  · cases done
  · obtain ⟨_, _, done⟩ := ok_of_bind done
    obtain ⟨_, allowed, done⟩ := ok_of_bind done
    obtain ⟨name, _, done⟩ := ok_of_bind done
    cases done
    have escaped : m.trusting = false := by simpa using require_ok allowed
    rw [Mustache.untrust_eq_self escaped]
    exact whole
  · cases done

/-- A mustache that is accepted is accepted without trust. -/
theorem planMustache_untrust {m : Mustache} {s : Located Statement}
    (done : planMustache m = .ok s) : planMustache m.untrust = .ok (untrustLocated s) := by
  obtain ⟨path, params, hash, trusting, loc⟩ := m
  cases path with
  | path p =>
    simp only [planMustache, Mustache.untrust] at done ⊢
    cases found : Keyword.ofPath? p with
    | none =>
      simp only [found] at done ⊢
      obtain ⟨value, valueDone, done⟩ := ok_of_bind done
      cases done
      rw [appendStatement_untrust]
      exact bind_eq_ok.mpr ⟨value, valueDone, rfl⟩
    | some keyword =>
      simp only [found] at done ⊢
      cases keyword with
      | yield => exact planYield_untrust done
      | partialTemplate => exact planPartial_untrust done
      | debugger => exact planDebugger_untrust done
  | call callee inner keyed span =>
    obtain ⟨value, valueDone, done⟩ := ok_of_bind done
    cases done
    rw [appendStatement_untrust]
    exact bind_eq_ok.mpr ⟨value, valueDone, rfl⟩
  | literal value span =>
    obtain ⟨value, valueDone, done⟩ := ok_of_bind done
    cases done
    rw [appendStatement_untrust]
    exact bind_eq_ok.mpr ⟨value, valueDone, rfl⟩

/-! ### Statements -/

theorem repeats_lift {α β : Type} {convert : α → β} {x : Planned α} {y : Planned β}
    (same : ∀ a, x = .ok a → y = .ok (convert a)) :
    Repeats convert (monadLift x : Planning α) (monadLift y : Planning β) := by
  intro s a s' done
  cases x with
  | error r => cases done
  | ok b =>
    cases done
    rw [same a rfl]
    rfl

/-- Trust plays no part in whether a statement reads names. -/
theorem readsNames_untrust (s : Statement) : s.untrust.readsNames = s.readsNames := by
  cases s <;> rfl

theorem isNamedBlock_untrust (s : Template.Statement) :
    isNamedBlock s.untrust = isNamedBlock s := by
  cases s <;> rfl

theorem any_isNamedBlock_untrust (list : List Template.Statement) :
    (Template.untrustAll list).any isNamedBlock = list.any isNamedBlock := by
  induction list with
  | nil => rfl
  | cons s rest ih =>
    rw [Template.untrustAll, List.any_cons, ih, isNamedBlock_untrust, List.any_cons]

theorem planDestination_untrust (path : Template.Path) (params : List Template.Expression)
    (hash : Template.Hash Template.Expression) (program : Block Template.Statement)
    (inverse : Option (Block Template.Statement)) (loc : Span) :
    planDestination ⟨path, params, hash, Template.untrustBlock program,
      Template.untrustInverse inverse, loc⟩ =
      planDestination ⟨path, params, hash, program, inverse, loc⟩ := by
  refine planDestination_of_isNone ⟨path, params, hash, program, inverse, loc⟩ _ _ ?_
  cases inverse <;> rfl

theorem untrustAll_element (opening content : List (Located Statement)) (kind : TagKind)
    (span : Span) :
    untrustAll (opening ++ content ++ [⟨closeStatement kind, span⟩]) =
      untrustAll opening ++ untrustAll content ++ [⟨closeStatement kind, span⟩] := by
  have close : (closeStatement kind).untrust = closeStatement kind := by cases kind <;> rfl
  simp only [untrustAll_append, untrustAll, close]

variable (rename : String → String)

/-- What stands beside named blocks shows nothing, trusted or not. -/
theorem repeats_beside (component : String) {s : Template.Statement}
    (other : ∀ e, s ≠ .element e) :
    Repeats untrustAll (planNamedBlock rename component s)
      (planNamedBlock rename component s.untrust) := by
  cases s with
  | element e => exact (other e rfl).elim
  | mustache m | block b | text node | comment node | mustacheComment node =>
    exact Repeats.bind (repeats_lift fun _ done => done) fun _ => .pure rfl

mutual

/-- Scopes and cursors are opened alike, whatever is trusted. -/
theorem repeats_planStatement : (s : Template.Statement) →
    Repeats untrustAll (planStatement rename s) (planStatement rename s.untrust)
  | .mustache m => by
    rw [Template.Statement.untrust, planStatement, planStatement]
    refine Repeats.bind (repeats_lift fun _ => planMustache_untrust) fun s => ?_
    simp only [untrustLocated, readsNames_untrust]
    split
    · exact Repeats.bind (.refl markEval) fun _ => .pure rfl
    · exact .pure rfl
  | .block ⟨path, params, hash, program, inverse, loc⟩ => by
    rw [Template.Statement.untrust, planStatement, planStatement, planDestination_untrust]
    split
    · refine Repeats.bind (repeats_lift fun _ done => done) fun (destination, before) => ?_
      refine Repeats.bind (.refl newCursor) fun guid => ?_
      exact Repeats.bind (repeats_planBlock "default" program) fun _ => .pure rfl
    · refine Repeats.bind (repeats_planBlock "default" program) fun _ => ?_
      refine Repeats.bind (repeats_planInverse inverse) fun _ => ?_
      refine Repeats.bind (repeats_lift fun _ done => done) fun _ => ?_
      refine Repeats.bind (repeats_lift fun _ done => done) fun _ => ?_
      exact Repeats.bind (repeats_lift fun _ done => done) fun _ => .pure rfl
  | .element ⟨tag, attributes, modifiers, children, blockParams, selfClosing, loc⟩ => by
    rw [Template.Statement.untrust, planStatement, planStatement]
    refine Repeats.bind (.refl isLocal) fun names => ?_
    simp only [id, kind_untrust, checkElement_untrust, any_isNamedBlock_untrust]
    refine Repeats.bind (repeats_lift fun _ done => done) fun _ => ?_
    split
    · refine Repeats.bind (.refl (newScope blockParams)) fun inner => ?_
      refine Repeats.bind (repeats_lift fun _ => planOpening_untrust) fun opening => ?_
      refine Repeats.bind (.refl (enterScope inner)) fun _ => ?_
      split
      · refine Repeats.bind (repeats_planNamedBlocks tag children) fun content => ?_
        exact Repeats.bind (.refl exitScope) fun _ => .pure (untrustAll_element _ _ _ _)
      · refine Repeats.bind (repeats_planStatements children) fun content => ?_
        exact Repeats.bind (.refl exitScope) fun _ => .pure (untrustAll_element _ _ _ _)
    · refine Repeats.bind (repeats_lift fun _ => planOpening_untrust) fun opening => ?_
      exact Repeats.bind (repeats_planStatements children) fun content =>
        .pure (untrustAll_element _ _ _ _)
  | .text node => .pure rfl
  | .comment node => .pure rfl
  | .mustacheComment node => .pure rfl

theorem repeats_planStatements : (list : List Template.Statement) →
    Repeats untrustAll (planStatements rename list)
      (planStatements rename (Template.untrustAll list))
  | [] => .pure rfl
  | s :: rest => by
    rw [Template.untrustAll, planStatements, planStatements]
    refine Repeats.bind (repeats_planStatement s) fun first => ?_
    exact Repeats.bind (repeats_planStatements rest) fun others =>
      .pure (untrustAll_append first others)

theorem repeats_planBlock (name : String) : (block : Block Template.Statement) →
    Repeats untrustBlock (planBlock rename name block)
      (planBlock rename name (Template.untrustBlock block))
  | ⟨body, params, loc⟩ => by
    rw [Template.untrustBlock, planBlock, planBlock]
    refine Repeats.bind (.refl (newScope params)) fun inner => ?_
    refine Repeats.bind (.refl (enterScope inner)) fun _ => ?_
    refine Repeats.bind (repeats_planStatements body) fun _ => ?_
    exact Repeats.bind (.refl exitScope) fun _ => .pure rfl

theorem repeats_planInverse : (inverse : Option (Block Template.Statement)) →
    Repeats untrustInverse (planInverse rename inverse)
      (planInverse rename (Template.untrustInverse inverse))
  | none => .pure rfl
  | some block => by
    rw [Template.untrustInverse, planInverse, planInverse]
    exact Repeats.bind (repeats_planBlock "else" block) fun _ => .pure rfl

theorem repeats_planNamedBlocks (component : String) : (list : List Template.Statement) →
    Repeats untrustAll (planNamedBlocks rename component list)
      (planNamedBlocks rename component (Template.untrustAll list))
  | [] => .pure rfl
  | s :: rest => by
    rw [Template.untrustAll, planNamedBlocks, planNamedBlocks]
    refine Repeats.bind (repeats_planNamedBlock component s) fun first => ?_
    exact Repeats.bind (repeats_planNamedBlocks component rest) fun others =>
      .pure (untrustAll_append first others)

theorem repeats_planNamedBlock (component : String) : (s : Template.Statement) →
    Repeats untrustAll (planNamedBlock rename component s)
      (planNamedBlock rename component s.untrust)
  | .element ⟨tag, attributes, modifiers, children, blockParams, selfClosing, loc⟩ => by
    rw [Template.Statement.untrust, planNamedBlock, planNamedBlock, List.isEmpty_map]
    split
    · refine Repeats.bind (repeats_lift fun _ done => done) fun _ => ?_
      refine Repeats.bind (.refl (newScope blockParams)) fun inner => ?_
      refine Repeats.bind (.refl (enterScope inner)) fun _ => ?_
      refine Repeats.bind (repeats_planStatements children) fun content => ?_
      refine Repeats.bind (.refl exitScope) fun _ => .pure ?_
      rw [List.cons_append, untrustAll, untrustAll_append]
      rfl
    · exact .throw _ _
  | .mustache m => repeats_beside rename component (by simp)
  | .block b => repeats_beside rename component (by simp)
  | .text node => repeats_beside rename component (by simp)
  | .comment node => repeats_beside rename component (by simp)
  | .mustacheComment node => repeats_beside rename component (by simp)

end

/-- A template without trust has the plan without trust. -/
theorem ofTemplate_untrust {rename : String → String} {t : Template} {plan : Plan}
    (done : ofTemplate rename t = .ok plan) : ofTemplate rename t.untrust = .ok plan.untrust := by
  obtain ⟨⟨body, progress⟩, planned, done⟩ := ok_of_bind done
  have again := repeats_planStatements rename t.body _ body progress planned
  refine bind_eq_ok.mpr ⟨(untrustAll body, progress), again, ?_⟩
  dsimp only at done ⊢
  split at done
  · next balanced =>
    rw [if_pos balanced]
    cases done
    rfl
  · cases done

end Plan

end TemplateCompiler

import Mathlib.Data.List.Forall2
import TemplateCompiler.Proofs.Content
import TemplateCompiler.Proofs.Mentions
import TemplateCompiler.Proofs.Outcomes

/-!
# Planned expressions and their source

What is planned for a piece of the source has the value that the direct translation gives to that
piece, and the bare names that stand in it. Both facts follow the same cases, so they are carried
together: `Renders` for expressions, and `Plan.Statement.Renders` for statements without content.

Nothing is said here about pieces that are rejected.
-/

namespace TemplateCompiler

open Template (Attribute AttributeValue ConcatPart Hash Modifier Mustache Pair Path TagKind)
open Plan (BlockTest Keyword)

/-- What is read off the source, given the mode, the finished table and the scope. -/
abbrev Reading (α : Type) := Program.Mode → SymbolTable → Nat → α

/-- A planned expression has a value and bare names. -/
structure Renders (e : Located Plan.Expression) (value : Reading Wire.Expression)
    (names : List Mention) : Prop where
  value : ∀ mode table scope, Direct.planned mode table scope e = value mode table scope
  mentions : Plan.mentions e = names

structure RendersList (list : List (Located Plan.Expression))
    (values : Reading (List Wire.Expression)) (names : List Mention) : Prop where
  value : ∀ mode table scope, Direct.plannedList mode table scope list = values mode table scope
  mentions : Plan.mentionsOfList list = names

structure RendersPairs (named : List (Pair (Located Plan.Expression)))
    (values : Reading (List (String × Wire.Expression))) (names : List Mention) : Prop where
  value : ∀ mode table scope, Direct.plannedPairs mode table scope named = values mode table scope
  mentions : Plan.mentionsOfPairs named = names

/-! ### Expressions -/

/-- A planned path has the value and the names of the path that was written. -/
theorem renders_path {context : Context} {p : Path} {e : Located Plan.Expression}
    (done : Plan.planPath context p = .ok e) :
    Renders e (fun mode table scope => Direct.path mode table scope context p)
      (p.mentions context) := by
  obtain ⟨written, isThis, isArg, parts, loc⟩ := p
  cases isThis with
  | true =>
    cases done
    cases parts with
    | nil => exact ⟨fun _ _ _ => rfl, rfl⟩
    | cons first tail => exact ⟨fun _ _ _ => rfl, rfl⟩
  | false =>
    cases parts with
    | nil => cases done
    | cons first tail =>
      cases done
      cases isArg <;> cases tail <;> exact ⟨fun _ _ _ => rfl, rfl⟩

/-- A planned block test asks for the block that was written, and reads no names. -/
theorem renders_blockTest {test : BlockTest} {params : List Template.Expression}
    {hash : Hash Template.Expression} {span : Span} {e : Located Plan.Expression}
    (done : test.plan params hash span = .ok e) :
    Renders e (fun _ table _ => Direct.blockTest table test (Direct.testTarget params)) [] := by
  unfold BlockTest.plan at done
  split at done
  · cases done
  · split at done
    · cases done
      cases test <;> exact ⟨fun _ _ _ => rfl, rfl⟩
    · cases done
      cases test <;> exact ⟨fun _ _ _ => rfl, rfl⟩
    · cases done
    · cases done

mutual

/-- A planned expression has the value and the names of the one that was written. -/
theorem renders_expression (context : Context) : (e : Template.Expression) →
    {planned : Located Plan.Expression} → Plan.planExpression context e = .ok planned →
      Renders planned (fun mode table scope => Direct.expression mode table scope context e)
        (e.mentions context)
  | .path p, _, done => by
    rw [Plan.planExpression] at done
    simpa only [Direct.expression, Template.Expression.mentions] using renders_path done
  | .literal value loc, _, done => by
    cases done
    exact ⟨fun _ _ _ => rfl, rfl⟩
  | .call callee params ⟨named, hashLoc⟩ loc, planned, done => by
    rw [Plan.planExpression] at done
    cases tested : BlockTest.ofPath? callee with
    | some test =>
      simp only [tested] at done
      simpa only [Direct.expression, Template.Expression.mentions, tested]
        using renders_blockTest done
    | none =>
      simp only [tested] at done
      obtain ⟨head, headDone, done⟩ := ok_of_bind done
      obtain ⟨list, listDone, done⟩ := ok_of_bind done
      obtain ⟨pairs, pairsDone, done⟩ := ok_of_bind done
      cases done
      have callee := renders_path headDone
      have positional := renders_expressions params listDone
      have keyed := renders_pairs named pairsDone
      constructor
      · intro mode table scope
        simp only [Direct.expression, tested, Direct.planned, Direct.plannedAt, callee.value,
          positional.value, keyed.value]
      · simp only [Template.Expression.mentions, tested, Plan.mentions, Plan.mentionsAt,
          callee.mentions, positional.mentions, keyed.mentions]

theorem renders_expressions : (params : List Template.Expression) →
    {list : List (Located Plan.Expression)} → Plan.planExpressions params = .ok list →
      RendersList list (fun mode table scope => Direct.expressions mode table scope params)
        (Template.mentionsOfParams params)
  | [], _, done => by
    cases done
    exact ⟨fun _ _ _ => rfl, rfl⟩
  | e :: rest, _, done => by
    rw [Plan.planExpressions] at done
    obtain ⟨planned, firstDone, done⟩ := ok_of_bind done
    obtain ⟨others, restDone, done⟩ := ok_of_bind done
    cases done
    have first := renders_expression .expression e firstDone
    have later := renders_expressions rest restDone
    constructor
    · intro mode table scope
      simp only [Direct.plannedList, Direct.expressions, first.value, later.value]
    · simp only [Plan.mentionsOfList, Template.mentionsOfParams, first.mentions, later.mentions]

theorem renders_pairs : (named : List (Pair Template.Expression)) →
    {pairs : List (Pair (Located Plan.Expression))} → Plan.planPairs named = .ok pairs →
      RendersPairs pairs (fun mode table scope => Direct.pairs mode table scope named)
        (Template.mentionsOfPairs named)
  | [], _, done => by
    cases done
    exact ⟨fun _ _ _ => rfl, rfl⟩
  | ⟨key, value, loc⟩ :: rest, _, done => by
    rw [Plan.planPairs] at done
    obtain ⟨planned, firstDone, done⟩ := ok_of_bind done
    obtain ⟨others, restDone, done⟩ := ok_of_bind done
    cases done
    have first := renders_expression .expression value firstDone
    have later := renders_pairs rest restDone
    constructor
    · intro mode table scope
      simp only [Direct.plannedPairs, Direct.pairs, first.value, later.value]
    · simp only [Plan.mentionsOfPairs, Template.mentionsOfPairs, first.mentions, later.mentions]

end

theorem renders_params {params : List Template.Expression}
    {planned : Plan.Params (Located Plan.Expression)}
    (done : Plan.planParams params = .ok planned) :
    RendersList planned.list (fun mode table scope => Direct.expressions mode table scope params)
      (Template.mentionsOfParams params) := by
  obtain ⟨list, listDone, done⟩ := ok_of_bind done
  cases done
  exact renders_expressions params listDone

theorem renders_hash {hash : Hash Template.Expression} {planned : Hash (Located Plan.Expression)}
    (done : Plan.planHash hash = .ok planned) :
    RendersPairs planned.pairs (fun mode table scope => Direct.pairs mode table scope hash.pairs)
      (Template.mentionsOfPairs hash.pairs) := by
  obtain ⟨pairs, pairsDone, done⟩ := ok_of_bind done
  cases done
  exact renders_pairs hash.pairs pairsDone

theorem renders_call {callee : Path} {params : List Template.Expression}
    {hash : Hash Template.Expression} {span : Span} {e : Located Plan.Expression}
    (done : Plan.planCall callee params hash span = .ok e) :
    Renders e (fun mode table scope => .call (Direct.path mode table scope .callHead callee)
        (Direct.expressions mode table scope params) (Direct.pairs mode table scope hash.pairs))
      (Template.mentionsOfCall .callHead callee params hash) := by
  obtain ⟨head, headDone, done⟩ := ok_of_bind done
  obtain ⟨list, listDone, done⟩ := ok_of_bind done
  obtain ⟨pairs, pairsDone, done⟩ := ok_of_bind done
  cases done
  have first := renders_path headDone
  have positional := renders_params listDone
  have keyed := renders_hash pairsDone
  constructor
  · intro mode table scope
    simp only [Direct.planned, Direct.plannedAt, first.value, positional.value, keyed.value]
  · simp only [Plan.mentions, Plan.mentionsAt, Template.mentionsOfCall, first.mentions,
      positional.mentions, keyed.mentions]

/-! ### Attributes -/

theorem renders_text (node : Template.TextNode) :
    Renders (Plan.planText node) (fun _ _ _ => .value (.string node.chars)) [] :=
  ⟨fun _ _ _ => rfl, rfl⟩

theorem renders_attributeMustache {m : Mustache} {e : Located Plan.Expression}
    (done : Plan.planAttributeMustache m = .ok e) :
    Renders e (fun mode table scope => Direct.attributeMustache mode table scope m)
      m.valueMentions := by
  obtain ⟨path, params, hash, trusting, loc⟩ := m
  cases path with
  | path p =>
    simp only [Plan.planAttributeMustache] at done
    cases tested : BlockTest.ofPath? p with
    | some test =>
      simp only [tested] at done
      simpa only [Direct.attributeMustache, Mustache.valueMentions, tested]
        using renders_blockTest done
    | none =>
      simp only [tested] at done
      cases called : Plan.hasArguments params hash with
      | true =>
        simp only [called, if_true] at done
        split at done
        · simpa only [Direct.attributeMustache, Mustache.valueMentions, tested, called, if_true]
            using renders_call done
        · cases done
      | false =>
        simp only [called, Bool.false_eq_true, if_false] at done
        simpa only [Direct.attributeMustache, Mustache.valueMentions, tested, called,
          Bool.false_eq_true, if_false] using renders_path done
  | call callee inner keyed span => exact renders_expression .expression _ done
  | literal value span => exact renders_expression .expression _ done

theorem renders_concatPart {part : ConcatPart} {e : Located Plan.Expression}
    (done : Plan.planConcatPart part = .ok e) :
    Renders e (fun mode table scope => Direct.concatPart mode table scope part) part.mentions := by
  cases part with
  | text node =>
    cases done
    exact renders_text node
  | mustache m => exact renders_attributeMustache done

theorem renders_concatParts {parts : List ConcatPart} {list : List (Located Plan.Expression)}
    (done : List.Forall₂ (fun part e => Plan.planConcatPart part = .ok e) parts list) :
    RendersList list (fun mode table scope => parts.map (Direct.concatPart mode table scope))
      (Template.mentionsOfParts parts) := by
  induction done with
  | nil => exact ⟨fun _ _ _ => rfl, rfl⟩
  | cons firstDone _ later =>
    have first := renders_concatPart firstDone
    constructor
    · intro mode table scope
      simp only [Direct.plannedList, List.map_cons, first.value, later.value]
    · simp only [Plan.mentionsOfList, Template.mentionsOfParts, first.mentions, later.mentions]

theorem renders_attributeValue {value : AttributeValue} {e : Located Plan.Expression}
    (done : Plan.planAttributeValue value = .ok e) :
    Renders e (fun mode table scope => Direct.attributeValue mode table scope value)
      value.mentions := by
  cases value with
  | text node =>
    cases done
    exact renders_text node
  | mustache m => exact renders_attributeMustache done
  | concat parts loc =>
    obtain ⟨list, listDone, done⟩ := ok_of_bind done
    cases done
    have each := renders_concatParts (forall₂_of_mapM listDone)
    constructor
    · intro mode table scope
      simp only [Direct.planned, Direct.plannedAt, Direct.attributeValue, each.value]
    · simp only [Plan.mentions, Plan.mentionsAt, AttributeValue.mentions, each.mentions]

theorem isLiteral_of_path {context : Context} {p : Path} {e : Located Plan.Expression}
    (done : Plan.planPath context p = .ok e) : e.value.isLiteral = false := by
  obtain ⟨written, isThis, isArg, parts, loc⟩ := p
  cases isThis <;> rcases parts with _ | ⟨first, _ | ⟨second, tail⟩⟩ <;> cases done <;>
    cases isArg <;> rfl

theorem isLiteral_of_blockTest {test : BlockTest} {params : List Template.Expression}
    {hash : Hash Template.Expression} {span : Span} {e : Located Plan.Expression}
    (done : test.plan params hash span = .ok e) : e.value.isLiteral = false := by
  unfold BlockTest.plan at done
  split at done
  · cases done
  · split at done <;> cases done <;> cases test <;> rfl

theorem isLiteral_of_call {callee : Path} {params : List Template.Expression}
    {hash : Hash Template.Expression} {span : Span} {e : Located Plan.Expression}
    (done : Plan.planCall callee params hash span = .ok e) : e.value.isLiteral = false := by
  obtain ⟨head, _, done⟩ := ok_of_bind done
  obtain ⟨list, _, done⟩ := ok_of_bind done
  obtain ⟨pairs, _, done⟩ := ok_of_bind done
  cases done
  rfl

/-- A planned mustache is a constant exactly if it is written as one. -/
theorem isLiteral_of_attributeMustache {m : Mustache} {e : Located Plan.Expression}
    (done : Plan.planAttributeMustache m = .ok e) :
    e.value.isLiteral = m.path.literal?.isSome := by
  obtain ⟨path, params, hash, trusting, loc⟩ := m
  cases path with
  | path p =>
    show _ = false
    simp only [Plan.planAttributeMustache] at done
    cases tested : BlockTest.ofPath? p with
    | some test =>
      simp only [tested] at done
      exact isLiteral_of_blockTest done
    | none =>
      simp only [tested] at done
      split at done
      · split at done
        · exact isLiteral_of_call done
        · cases done
      · exact isLiteral_of_path done
  | call callee inner keyed span =>
    show _ = false
    obtain ⟨named, hashLoc⟩ := keyed
    simp only [Plan.planAttributeMustache, Plan.planExpression] at done
    cases tested : BlockTest.ofPath? callee with
    | some test =>
      simp only [tested] at done
      exact isLiteral_of_blockTest done
    | none =>
      simp only [tested] at done
      obtain ⟨head, _, done⟩ := ok_of_bind done
      obtain ⟨list, _, done⟩ := ok_of_bind done
      obtain ⟨pairs, _, done⟩ := ok_of_bind done
      cases done
      rfl
  | literal value span =>
    cases done
    rfl

/-- A planned attribute value is a constant exactly if it was written as one. -/
theorem isLiteral_of_attributeValue {value : AttributeValue} {e : Located Plan.Expression}
    (done : Plan.planAttributeValue value = .ok e) :
    e.value.isLiteral = Direct.isConstant value := by
  cases value with
  | text node =>
    cases done
    rfl
  | mustache m => exact isLiteral_of_attributeMustache done
  | concat parts loc =>
    obtain ⟨list, _, done⟩ := ok_of_bind done
    cases done
    rfl

/-! ### Statements without content -/

/-- A planned statement without content stands for one statement and has bare names. -/
structure Plan.Statement.Renders (s : Plan.Statement) (value : Reading Wire.Statement)
    (names : List Mention) : Prop where
  leaf : s.isLeaf = true
  value : ∀ mode table scope, Direct.leaf mode table scope s = value mode table scope
  mentions : s.mentions = names

/-- A planned attribute becomes the statement of the one that was written. -/
theorem renders_attribute {kind : TagKind} {tag : String} {a : Attribute}
    {s : Located Plan.Statement} (done : Plan.planAttribute kind tag a = .ok s) :
    s.value.Renders (fun mode table scope => Direct.attributeStatement mode table scope kind a)
      a.mentions := by
  unfold Plan.planAttribute at done
  by_cases isArg : Template.startsWith a.name '@' = true
  · simp only [isArg, if_true] at done
    split at done
    · obtain ⟨value, valueDone, done⟩ := ok_of_bind done
      cases done
      have content := renders_attributeValue valueDone
      have constant := isLiteral_of_attributeValue valueDone
      refine ⟨rfl, fun mode table scope => ?_, ?_⟩
      · simp only [Direct.leaf, Direct.attributeStatement, isArg, if_true, constant, content.value]
      · simp only [Plan.Statement.mentions, Attribute.mentions, isArg, content.mentions,
          Bool.not_true, Bool.false_and, Bool.false_eq_true, if_false]
    · cases done
  · simp only [isArg, Bool.false_eq_true, if_false] at done
    by_cases splat : a.name = Template.splattributes
    · simp only [splat, if_true] at done
      cases done
      refine ⟨rfl, fun mode table scope => ?_, ?_⟩
      · simp only [Direct.leaf, Direct.attributeStatement, if_neg isArg, if_pos splat]
      · simp only [Plan.Statement.mentions, Attribute.mentions, if_pos (And.intro isArg splat),
          Bool.not_eq_true', Bool.and_eq_true, decide_eq_true_eq, Bool.eq_false_iff, ne_eq]
    · simp only [splat, if_false] at done
      obtain ⟨value, valueDone, done⟩ := ok_of_bind done
      cases done
      have content := renders_attributeValue valueDone
      have constant := isLiteral_of_attributeValue valueDone
      refine ⟨rfl, fun mode table scope => ?_, ?_⟩
      · simp only [Direct.leaf, Direct.attributeStatement, if_neg isArg, if_neg splat, constant,
          content.value]
      · simp [Plan.Statement.mentions, Attribute.mentions, splat, content.mentions]

theorem renders_modifier {m : Modifier} {s : Located Plan.Statement}
    (done : Plan.planModifier m = .ok s) :
    s.value.Renders (fun mode table scope => Direct.modifier mode table scope m) m.mentions := by
  obtain ⟨head, headDone, done⟩ := ok_of_bind done
  obtain ⟨list, listDone, done⟩ := ok_of_bind done
  obtain ⟨pairs, pairsDone, done⟩ := ok_of_bind done
  cases done
  have first := renders_path headDone
  have positional := renders_params listDone
  have keyed := renders_hash pairsDone
  refine ⟨rfl, fun mode table scope => ?_, ?_⟩
  · simp only [Direct.leaf, Direct.modifier, first.value, positional.value, keyed.value]
  · simp only [Plan.Statement.mentions, Modifier.mentions, Plan.mentionsOfCall,
      Template.mentionsOfCall, first.mentions, positional.mentions, keyed.mentions]

theorem renders_append {e : Located Plan.Expression} {value : Reading Wire.Expression}
    {names : List Mention} (renders : Renders e value names) (trusting : Bool) (span : Span) :
    (Plan.appendStatement trusting e span).value.Renders
      (fun mode table scope => Direct.append trusting (value mode table scope)) names := by
  cases trusting with
  | false =>
    refine ⟨rfl, fun mode table scope => ?_, renders.mentions⟩
    exact congrArg _ (renders.value mode table scope)
  | true =>
    refine ⟨rfl, fun mode table scope => ?_, renders.mentions⟩
    exact congrArg _ (renders.value mode table scope)

/-- A `yield` that is planned goes to the block that it names. -/
theorem yieldTarget_eq {named : List (Pair Template.Expression)} {target : String}
    (done : Plan.yieldTarget named = .ok target) : Direct.yieldTarget named = target := by
  unfold Plan.yieldTarget at done
  split at done
  · cases done
    rfl
  · next first rest =>
    split at done
    · next only =>
      have alone : rest = [] := by simpa using (Bool.and_eq_true_iff.mp only).2
      subst alone
      obtain ⟨key, value, loc⟩ := first
      split at done
      · next literal =>
        cases done
        cases literal
        rfl
      · cases done
    · cases done

theorem require_ok {condition : Bool} {r : Plan.Rejection} {u : Unit}
    (done : Plan.require condition r = .ok u) : condition = true := by
  cases condition with
  | true => rfl
  | false => cases done

theorem renders_mustacheValue {p : Path} {m : Mustache} {e : Located Plan.Expression}
    (done : Plan.planMustacheValue p m = .ok e) :
    Renders e (fun mode table scope => Direct.mustacheValue mode table scope p m)
      (m.shownMentions p) := by
  unfold Plan.planMustacheValue at done
  cases tested : BlockTest.ofPath? p with
  | some test =>
    simp only [tested] at done
    simpa only [Direct.mustacheValue, Mustache.shownMentions, tested] using renders_blockTest done
  | none =>
    simp only [tested] at done
    cases called : Plan.hasArguments m.params m.hash with
    | true =>
      simp only [called, if_true] at done
      simpa only [Direct.mustacheValue, Mustache.shownMentions, tested, called, if_true]
        using renders_call done
    | false =>
      simp only [called, Bool.false_eq_true, if_false] at done
      simpa only [Direct.mustacheValue, Mustache.shownMentions, tested, called,
        Bool.false_eq_true, if_false] using renders_path done

theorem renders_yield {m : Mustache} {s : Located Plan.Statement}
    (done : Plan.planYield m = .ok s) :
    s.value.Renders (fun mode table scope =>
        .yield (Direct.blockSlot table (Direct.yieldTarget m.hash.pairs))
          (Direct.expressions mode table scope m.params))
      (Template.mentionsOfParams m.params) := by
  obtain ⟨target, targetDone, done⟩ := ok_of_bind done
  obtain ⟨params, paramsDone, done⟩ := ok_of_bind done
  cases done
  have positional := renders_params paramsDone
  refine ⟨rfl, fun mode table scope => ?_, positional.mentions⟩
  simp only [Direct.leaf, yieldTarget_eq targetDone, positional.value]

theorem renders_partial {m : Mustache} {s : Located Plan.Statement}
    (done : Plan.planPartial m = .ok s) :
    s.value.Renders (fun mode table scope =>
        .partialTemplate (Direct.onlyExpression mode table scope m.params) (table.evalInfo scope))
      (Template.mentionsOfParams m.params) := by
  unfold Plan.planPartial at done
  split at done
  · cases done
  · next name same =>
    obtain ⟨_, _, done⟩ := ok_of_bind done
    obtain ⟨_, _, done⟩ := ok_of_bind done
    obtain ⟨planned, nameDone, done⟩ := ok_of_bind done
    cases done
    have renders := renders_expression .expression name nameDone
    refine ⟨rfl, fun mode table scope => ?_, ?_⟩
    · simp only [Direct.leaf, same, Direct.onlyExpression, renders.value]
    · simp only [Plan.Statement.mentions, same, Template.mentionsOfParams, renders.mentions,
        List.nil_append]
  · cases done

theorem renders_debugger {m : Mustache} {s : Located Plan.Statement}
    (done : Plan.planDebugger m = .ok s) :
    s.value.Renders (fun _ table scope => .debugger (table.evalInfo scope)) [] := by
  obtain ⟨_, _, done⟩ := ok_of_bind done
  obtain ⟨_, _, done⟩ := ok_of_bind done
  cases done
  exact ⟨rfl, fun _ _ _ => rfl, rfl⟩

/-- A planned mustache becomes the statement of the one that was written. -/
theorem renders_mustache {m : Mustache} {s : Located Plan.Statement}
    (done : Plan.planMustache m = .ok s) :
    s.value.Renders (fun mode table scope => Direct.mustache mode table scope m) m.mentions := by
  obtain ⟨path, params, hash, trusting, loc⟩ := m
  cases path with
  | path p =>
    simp only [Plan.planMustache] at done
    cases word : Keyword.ofPath? p with
    | some keyword =>
      simp only [word] at done
      cases keyword with
      | yield => simpa only [Direct.mustache, Mustache.mentions, word] using renders_yield done
      | partialTemplate =>
        simpa only [Direct.mustache, Mustache.mentions, word] using renders_partial done
      | debugger =>
        simpa only [Direct.mustache, Mustache.mentions, word] using renders_debugger done
    | none =>
      simp only [word] at done
      obtain ⟨value, valueDone, done⟩ := ok_of_bind done
      cases done
      simpa only [Direct.mustache, Mustache.mentions, word]
        using renders_append (renders_mustacheValue valueDone) trusting loc
  | call callee inner keyed span =>
    obtain ⟨value, valueDone, done⟩ := ok_of_bind done
    cases done
    exact renders_append (renders_expression .expression _ valueDone) trusting loc
  | literal value span =>
    obtain ⟨value, valueDone, done⟩ := ok_of_bind done
    cases done
    exact renders_append (renders_expression .expression _ valueDone) trusting loc

/-! ### Destinations -/

/-- Of several `insertBefore` the last one counts. -/
theorem renders_insertBefore {named : List (Pair Template.Expression)}
    {found result : Option (Located Plan.Expression)}
    (done : Plan.planInsertBefore found named = .ok result) :
    (∀ mode table scope, result.map (Direct.planned mode table scope) =
      (Direct.lastValue mode table scope named).or (found.map (Direct.planned mode table scope))) ∧
    result.map Plan.mentions =
      (named.getLast?.map fun pair => pair.value.mentions .expression).or
        (found.map Plan.mentions) := by
  induction named generalizing found with
  | nil =>
    cases done
    exact ⟨fun _ _ _ => rfl, rfl⟩
  | cons pair rest ih =>
    unfold Plan.planInsertBefore at done
    split at done
    · obtain ⟨value, valueDone, done⟩ := ok_of_bind done
      have renders := renders_expression .expression pair.value valueDone
      obtain ⟨values, names⟩ := ih done
      constructor
      · intro mode table scope
        rw [values]
        simp only [Direct.lastValue, List.getLast?_cons]
        cases rest.getLast? <;> simp [renders.value]
      · rw [names]
        simp only [List.getLast?_cons]
        cases rest.getLast? <;> simp [renders.mentions]
    · split at done <;> cases done

/-- A planned destination is the only argument that was written. -/
theorem renders_destination {σ : Type} {b : Template.BlockNode σ}
    {destination : Located Plan.Expression} {before : Option (Located Plan.Expression)}
    (done : Plan.planDestination b = .ok (destination, before)) :
    (∀ mode table scope, Direct.planned mode table scope destination =
      Direct.onlyExpression mode table scope b.params) ∧
    (∀ mode table scope, before.map (Direct.planned mode table scope) =
      Direct.lastValue mode table scope b.hash.pairs) ∧
    Plan.mentions destination ++ (before.map Plan.mentions).getD [] = b.destinationMentions := by
  unfold Plan.planDestination at done
  split at done
  · next only same =>
    obtain ⟨last, lastDone, done⟩ := ok_of_bind done
    obtain ⟨_, _, done⟩ := ok_of_bind done
    obtain ⟨planned, plannedDone, done⟩ := ok_of_bind done
    cases done
    have renders := renders_expression .expression only plannedDone
    obtain ⟨values, names⟩ := renders_insertBefore lastDone
    refine ⟨fun mode table scope => ?_, fun mode table scope => ?_, ?_⟩
    · simp only [same, Direct.onlyExpression, renders.value]
    · simp [values]
    · simp [Template.BlockNode.destinationMentions, same, Template.mentionsOfParams,
        renders.mentions, names]
  · cases done

/-! ### Opening tags -/

/-- Planned statements without content, one for each statement of a list. -/
structure RendersAll (list : List (Located Plan.Statement)) (values : Reading (List Wire.Statement))
    (names : List Mention) : Prop where
  leaf : ∀ s ∈ list, s.value.isLeaf = true
  value : ∀ mode table scope,
    list.map (fun s => Direct.leaf mode table scope s.value) = values mode table scope
  mentions : list.flatMap (fun s => s.value.mentions) = names

theorem RendersAll.append {xs ys : List (Located Plan.Statement)}
    {as bs : Reading (List Wire.Statement)} {names others : List Mention}
    (first : RendersAll xs as names) (second : RendersAll ys bs others) :
    RendersAll (xs ++ ys) (fun mode table scope => as mode table scope ++ bs mode table scope)
      (names ++ others) := by
  refine ⟨?_, fun mode table scope => ?_, ?_⟩
  · intro s found
    rcases List.mem_append.mp found with here | there
    · exact first.leaf s here
    · exact second.leaf s there
  · simp only [List.map_append, first.value, second.value]
  · simp only [List.flatMap_append, first.mentions, second.mentions]

theorem rendersAll_of_forall₂ {α : Type} {f : α → Plan.Planned (Located Plan.Statement)}
    {value : α → Reading Wire.Statement} {names : α → List Mention} {xs : List α}
    {list : List (Located Plan.Statement)}
    (each : ∀ {x s}, f x = .ok s → s.value.Renders (value x) (names x))
    (done : List.Forall₂ (fun x s => f x = .ok s) xs list) :
    RendersAll list (fun mode table scope => xs.map fun x => value x mode table scope)
      (xs.flatMap names) := by
  induction done with
  | nil => exact ⟨by simp, fun _ _ _ => rfl, rfl⟩
  | @cons x s rest others firstDone _ later =>
    have first := each firstDone
    refine ⟨?_, fun mode table scope => ?_, ?_⟩
    · intro t found
      rcases List.mem_cons.mp found with rfl | there
      · exact first.leaf
      · exact later.leaf t there
    · simp only [List.map_cons, first.value, later.value]
    · simp only [List.flatMap_cons, first.mentions, later.mentions]

/-- An opening tag is planned as an opening statement, what stands in the tag, and its end. -/
theorem renders_opening {σ : Type} {rename : String → String} {kind : TagKind}
    {e : Template.Element σ} {scope : Option Nat} {list : List (Located Plan.Statement)}
    (done : Plan.planOpening rename kind e scope = .ok list) :
    ∃ opening entries, Plan.openStatement rename kind e (scope.getD 0) = .ok opening ∧
      list = ⟨opening, e.loc⟩ :: entries ++ [⟨.flushElement scope, e.loc⟩] ∧
      RendersAll entries (fun mode table scope => Direct.openingTag mode table scope kind e)
        e.openingMentions := by
  obtain ⟨opening, openingDone, done⟩ := ok_of_bind done
  obtain ⟨attributes, attributesDone, done⟩ := ok_of_bind done
  obtain ⟨modifiers, modifiersDone, done⟩ := ok_of_bind done
  cases done
  have first := rendersAll_of_forall₂ renders_attribute (forall₂_of_mapM attributesDone)
  have second := rendersAll_of_forall₂ renders_modifier (forall₂_of_mapM modifiersDone)
  refine ⟨opening, attributes ++ modifiers, openingDone, rfl, ?_⟩
  simp only [Direct.openingTag, Direct.setAttributes_eq]
  exact first.append second

theorem openStatement_of_element {σ : Type} {rename : String → String} {kind : TagKind}
    {e : Template.Element σ} {scope : Nat} {s : Plan.Statement}
    (plain : kind.isComponentLike = false) (done : Plan.openStatement rename kind e scope = .ok s) :
    s.Renders (fun _ _ _ => Direct.elementStart kind e.tag) [] := by
  cases kind <;> cases plain <;> cases done <;> exact ⟨rfl, fun _ _ _ => rfl, rfl⟩

/-- A component is opened by the tag that was written, with the scope of its content. -/
theorem openStatement_of_component {σ : Type} {rename : String → String} {kind : TagKind}
    {e : Template.Element σ} {scope : Nat} {s : Plan.Statement}
    (component : kind.isComponentLike = true)
    (done : Plan.openStatement rename kind e scope = .ok s) :
    ∃ tag, s = .openComponent tag e.selfClosing scope ∧
      Renders tag (fun mode table scope => Direct.tagExpression mode table scope rename kind e)
        (e.tagMentions rename kind) := by
  cases kind with
  | component =>
    cases done
    exact ⟨_, rfl, fun _ _ _ => rfl, rfl⟩
  | dynamicTag p =>
    obtain ⟨tag, tagDone, done⟩ := ok_of_bind done
    cases done
    exact ⟨tag, rfl, renders_path tagDone⟩
  | namedBlock => cases component
  | dynamic => cases component
  | html => cases component

theorem tagMentions_of_element {σ : Type} {rename : String → String} {kind : TagKind}
    {e : Template.Element σ} (plain : kind.isComponentLike = false) :
    e.tagMentions rename kind = [] := by
  cases kind with
  | component => cases plain
  | dynamicTag p => cases plain
  | namedBlock => rfl
  | dynamic => rfl
  | html => rfl

/-- The bare names of a planned opening tag are those of the tag and of what stands in it. -/
theorem mentions_of_planOpening {σ : Type} {rename : String → String} {kind : TagKind}
    {e : Template.Element σ} {scope : Option Nat} {list : List (Located Plan.Statement)}
    (done : Plan.planOpening rename kind e scope = .ok list) :
    list.flatMap (fun s => s.value.mentions) =
      e.tagMentions rename kind ++ e.openingMentions := by
  obtain ⟨opening, entries, openingDone, rfl, written⟩ := renders_opening done
  have tagged : opening.mentions = e.tagMentions rename kind := by
    cases component : kind.isComponentLike with
    | false =>
      rw [(openStatement_of_element component openingDone).mentions,
        tagMentions_of_element component]
    | true =>
      obtain ⟨tag, rfl, renders⟩ := openStatement_of_component component openingDone
      exact renders.mentions
  have flushed : (Plan.Statement.flushElement scope).mentions = [] := rfl
  simp [tagged, flushed, written.mentions]

/-- What stands in an opening tag is filed as an attribute or as an argument. -/
theorem openingTag_filed {σ : Type} (mode : Program.Mode) (table : SymbolTable) (scope : Nat)
    (kind : TagKind) (e : Template.Element σ) (s : Wire.Statement)
    (found : s ∈ Direct.openingTag mode table scope kind e) :
    s.isAttribute = true ∨ s.arg?.isSome = true := by
  rcases List.mem_append.mp found with here | there
  · obtain ⟨a, _, rfl⟩ := List.mem_map.mp here
    unfold Direct.attributeStatement
    split
    · split <;> exact .inr rfl
    · split <;> exact .inl rfl
  · obtain ⟨m, _, rfl⟩ := List.mem_map.mp there
    exact .inl rfl

end TemplateCompiler

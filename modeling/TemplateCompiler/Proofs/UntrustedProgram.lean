import TemplateCompiler.Program.OfPlan
import TemplateCompiler.Proofs.Outcomes
import TemplateCompiler.Proofs.Untrusting

/-!
# Programs without trust

The program of a plan without trust is the program of the plan without trust in its operations, and
all names have the slots that they had: operations on expressions have nothing to do with trust.
-/

namespace TemplateCompiler.Program

def Neutral (ops : List (Located Op)) : Prop := untrustOps ops = ops

theorem Neutral.append {xs ys : List (Located Op)} (first : Neutral xs) (second : Neutral ys) :
    Neutral (xs ++ ys) := by
  rw [Neutral, untrustOps_append, first, second]

/-- Whatever names are known, the operations found trust no value. -/
def FindsNeutral (x : Naming) : Prop := ∀ table, Neutral (x table).1

theorem FindsNeutral.pure {ops : List (Located Op)} (neutral : Neutral ops) :
    FindsNeutral (pure ops) :=
  fun _ => neutral

theorem FindsNeutral.bind {x : Naming} {f : List (Located Op) → Naming} (first : FindsNeutral x)
    (then_ : ∀ ops, Neutral ops → FindsNeutral (f ops)) : FindsNeutral (x >>= f) :=
  fun table => then_ _ (first table) _

theorem neutral_variableOp (mode : Mode) (scope : Nat) (name : String) (context : Context)
    (span : Span) (table : SymbolTable) :
    Neutral [⟨(variableOp mode scope name context table).1, span⟩] := by
  unfold variableOp
  split
  · rfl
  · show Neutral [⟨freeOp mode _ context, span⟩]
    unfold freeOp
    split <;> rfl

section Expressions

variable (mode : Mode) (scope : Nat)

mutual

/-- Reading a value has nothing to do with trust. -/
theorem neutral_ofExpression : (e : Located Plan.Expression) →
    FindsNeutral (ofExpression mode scope e)
  | ⟨e, span⟩ => neutral_ofExpressionAt span e

theorem neutral_ofExpressionAt (span : Span) : (e : Plan.Expression) →
    FindsNeutral (ofExpressionAt mode scope span e)
  | .literal _ => .pure rfl
  | .path head _ => (neutral_ofExpression head).bind fun _ kept => .pure (kept.append rfl)
  | .arg _ => fun _ => rfl
  | .self => .pure rfl
  | .variable name context => neutral_variableOp mode scope name context span
  | .hasBlock _ => fun _ => rfl
  | .hasBlockParams _ => fun _ => rfl
  | .concat ⟨list, _⟩ => (neutral_ofReversed list).bind fun _ kept => .pure (kept.append rfl)
  | .call head ⟨list, _⟩ ⟨pairs, _⟩ =>
    (neutral_ofReversedPairs pairs).bind fun _ hash =>
    (neutral_ofReversed list).bind fun _ params =>
    (neutral_ofExpression head).bind fun _ head =>
    .pure (.append (.append (.append (.append hash rfl) (.append params rfl)) head) rfl)

theorem neutral_ofReversed : (list : List (Located Plan.Expression)) →
    FindsNeutral (ofReversed mode scope list)
  | [] => .pure rfl
  | e :: rest =>
    (neutral_ofReversed rest).bind fun _ others =>
    (neutral_ofExpression e).bind fun _ first => .pure (others.append first)

theorem neutral_ofReversedPairs : (list : List (Template.Pair (Located Plan.Expression))) →
    FindsNeutral (ofReversedPairs mode scope list)
  | [] => .pure rfl
  | ⟨_, value, _⟩ :: rest =>
    (neutral_ofReversedPairs rest).bind fun _ others =>
    (neutral_ofExpression value).bind fun _ first => .pure ((others.append first).append rfl)

end

theorem neutral_ofParams (params : Plan.Params (Located Plan.Expression)) :
    FindsNeutral (ofParams mode scope params) :=
  (neutral_ofReversed mode scope params.list).bind fun _ kept => .pure (kept.append rfl)

/-- The operations for a call have nothing to do with trust. -/
theorem neutral_ofCall (head : Located Plan.Expression)
    (params : Plan.Params (Located Plan.Expression))
    (hash : Template.Hash (Located Plan.Expression)) :
    FindsNeutral (ofCall mode scope head params hash) :=
  FindsNeutral.bind ((neutral_ofReversedPairs mode scope hash.pairs).bind fun _ kept =>
    .pure (kept.append rfl)) fun _ hash =>
  (neutral_ofParams mode scope params).bind fun _ params =>
  (neutral_ofExpression mode scope head).bind fun _ head =>
  .pure ((hash.append params).append head)

end Expressions

/-- Neutral operations are found again. -/
theorem repeats_naming {f : Nat → Naming} (neutral : ∀ scope, FindsNeutral (f scope)) :
    Repeats untrustOps (naming f) (naming f) := by
  intro names ops names' done
  have kept : untrustOps ops = ops := by
    unfold naming at done
    dsimp only at done
    split at done
    · cases done
      exact neutral _ _
    · cases done
  rw [done, kept]

theorem repeats_value (mode : Mode) (e : Located Plan.Expression) :
    Repeats untrustOps (naming (ofExpression mode · e)) (naming (ofExpression mode · e)) :=
  repeats_naming fun scope => neutral_ofExpression mode scope e

theorem repeats_call (mode : Mode) (head : Located Plan.Expression)
    (params : Plan.Params (Located Plan.Expression))
    (hash : Template.Hash (Located Plan.Expression)) :
    Repeats untrustOps (naming (ofCall mode · head params hash))
      (naming (ofCall mode · head params hash)) :=
  repeats_naming fun scope => neutral_ofCall mode scope head params hash

mutual

/-- The operations for an untrusted statement are the untrusted operations. -/
theorem repeats_ofStatement (mode : Mode) : (s : Located Plan.Statement) →
    Repeats untrustOps (ofStatement mode s) (ofStatement mode (Plan.untrustLocated s))
  | ⟨s, span⟩ => repeats_ofStatementAt mode span s

/-- Operands are pushed alike; only the last operation of an append or an attribute differs. -/
theorem repeats_ofStatementAt (mode : Mode) (span : Span) : (s : Plan.Statement) →
    Repeats untrustOps (ofStatementAt mode span s) (ofStatementAt mode span s.untrust)
  | .append value => (repeats_value mode value).bind fun _ => .pure (untrustOps_append _ _)
  | .appendTrusted value => (repeats_value mode value).bind fun _ => .pure (untrustOps_append _ _)
  | .comment _ => .pure rfl
  | .openElement _ => .pure rfl
  | .openElementWithSplat _ => .pure rfl
  | .openComponent tag _ _ =>
    (repeats_value mode tag).bind fun _ =>
    (Repeats.refl _).bind fun _ => .pure (untrustOps_append _ _)
  | .openNamedBlock _ _ => (Repeats.refl _).bind fun _ => (Repeats.refl _).bind fun _ => .pure rfl
  | .flushElement _ => (Repeats.refl _).bind fun _ => .pure rfl
  | .closeElement => .pure rfl
  | .closeComponent => (Repeats.refl _).bind fun _ => .pure rfl
  | .closeDynamicComponent => (Repeats.refl _).bind fun _ => .pure rfl
  | .closeNamedBlock => (Repeats.refl _).bind fun _ => .pure rfl
  | .attr _ _ _ value => (repeats_value mode value).bind fun _ => .pure (untrustOps_append _ _)
  | .arg name value => by
    refine (repeats_value mode value).bind fun ops => ?_
    refine .pure ?_
    rw [untrustOps_append]
    split <;> rfl
  | .attrSplat => (Repeats.refl _).bind fun _ => .pure rfl
  | .modifier head params hash =>
    (repeats_call mode head params hash).bind fun _ => .pure (untrustOps_append _ _)
  | .invokeBlock head params hash program inverse => by
    refine (repeats_ofInverse mode inverse).bind fun other => ?_
    refine (repeats_ofBlock mode program).bind fun default => ?_
    refine (repeats_call mode head params hash).bind fun operands => ?_
    have same : (Plan.untrustInverse inverse).isSome = inverse.isSome := by
      cases inverse <;> rfl
    refine .pure ?_
    rw [same, untrustOps_append, untrustOps_append, untrustOps_append]
    rfl
  | .yield _ params =>
    (repeats_naming fun scope => neutral_ofParams mode scope params).bind fun _ =>
    (Repeats.refl _).bind fun _ => .pure (untrustOps_append _ _)
  | .partialTemplate name =>
    (repeats_value mode name).bind fun _ =>
    (Repeats.refl _).bind fun _ => .pure (untrustOps_append _ _)
  | .debugger => (Repeats.refl _).bind fun _ => .pure rfl
  | .inElement destination none guid block => by
    refine (repeats_ofBlock mode block).bind fun body => ?_
    refine (repeats_value mode destination).bind fun place => ?_
    refine .pure ?_
    simp only [untrustOps_append, List.append_nil]
    rfl
  | .inElement destination (some before) guid block => by
    refine (repeats_ofBlock mode block).bind fun body => ?_
    refine (repeats_value mode destination).bind fun place => ?_
    refine (repeats_value mode before).bind fun sibling => ?_
    refine .pure ?_
    simp only [untrustOps_append]
    rfl

theorem repeats_ofStatements (mode : Mode) : (list : List (Located Plan.Statement)) →
    Repeats untrustOps (ofStatements mode list) (ofStatements mode (Plan.untrustAll list))
  | [] => .pure rfl
  | s :: rest =>
    (repeats_ofStatement mode s).bind fun _ =>
    (repeats_ofStatements mode rest).bind fun _ => .pure (untrustOps_append _ _)

theorem repeats_ofBlock (mode : Mode) : (block : Plan.NamedBlock (Located Plan.Statement)) →
    Repeats untrustOps (ofBlock mode block) (ofBlock mode (Plan.untrustBlock block))
  | ⟨name, scope, body, span⟩ => by
    refine (Repeats.refl _).bind fun parameters => ?_
    refine (Repeats.refl _).bind fun _ => ?_
    refine (repeats_ofStatements mode body).bind fun ops => ?_
    refine (Repeats.refl _).bind fun _ => .pure ?_
    exact untrustOps_append (_ :: ops) _

theorem repeats_ofInverse (mode : Mode) :
    (inverse : Option (Plan.NamedBlock (Located Plan.Statement))) →
    Repeats untrustOps (ofInverse mode inverse) (ofInverse mode (Plan.untrustInverse inverse))
  | none => .pure rfl
  | some block => repeats_ofBlock mode block

end

/-- A plan without trust has the operations without trust, and the same names. -/
theorem ofPlan_untrust {mode : Mode} {plan : Plan} {program : Program}
    (done : ofPlan mode plan = .ok program) : ofPlan mode plan.untrust = .ok program.untrust := by
  obtain ⟨⟨ops, names⟩, found, done⟩ := ok_of_bind done
  have again := repeats_ofStatements mode plan.body _ ops names found
  refine bind_eq_ok.mpr ⟨(untrustOps ops, names), again, ?_⟩
  dsimp only at done ⊢
  split at done
  · next balanced =>
    rw [if_pos balanced]
    cases done
    rfl
  · cases done

end TemplateCompiler.Program

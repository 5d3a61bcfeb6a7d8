import TemplateCompiler.Proofs.Compilation
import TemplateCompiler.Proofs.Rereading

/-!
# Strict mode

In strict mode a free variable is read without a context, and nothing else is different: the same
templates are rejected for the same reasons, all names have the same slots and indices, and the
statements are those of the other mode with every context dropped.

The two runs are compared twice. The programs are compared operation by operation, which gives equal
tables. The statements are then compared as direct translations, both read with that one table.
-/

namespace TemplateCompiler

/-! ### Contexts of free variables -/

namespace Program

def Op.dropContext : Op → Op
  | .getFreeWithContext index _ => .getFree index
  | op => op

/-- The same operations, with free variables read without a context. -/
def dropContexts (ops : List (Located Op)) : List (Located Op) :=
  ops.map fun op => ⟨op.value.dropContext, op.span⟩

theorem dropContexts_append (xs ys : List (Located Op)) :
    dropContexts (xs ++ ys) = dropContexts xs ++ dropContexts ys :=
  List.map_append

end Program

namespace Wire.Expression

def dropContext : Expression → Expression
  | .getContextualFree index _ => .getFree index
  | e => e

/-- A free variable without a context is given one. -/
def addContext : Expression → Expression
  | .getFree index => .getContextualFree index .expression
  | e => e

theorem inner_dropContext (e : Expression) : e.dropContext.inner = e.inner := by
  cases e <;> rfl

theorem inner_addContext (e : Expression) : e.addContext.inner = e.inner := by
  cases e <;> rfl

end Wire.Expression

/-- The same template with free variables read without a context. -/
def CompiledTemplate.dropContexts (c : CompiledTemplate) : CompiledTemplate :=
  { c with statements := c.statements.map (Wire.Statement.reread Wire.Expression.dropContext) }

/-! ### Programs -/

namespace Program

/-- Names are found by the one as by the other, for operations that differ in contexts only. -/
def FindsAlike (x y : Naming) : Prop := ∀ table, y table = (dropContexts (x table).1, (x table).2)

theorem FindsAlike.pure {ops ops' : List (Located Op)} (same : dropContexts ops = ops') :
    FindsAlike (pure ops) (pure ops') :=
  fun table => congrArg (·, table) same.symm

theorem FindsAlike.bind {x y : Naming} {f g : List (Located Op) → Naming} (first : FindsAlike x y)
    (then_ : ∀ ops, FindsAlike (f ops) (g (dropContexts ops))) :
    FindsAlike (x >>= f) (y >>= g) := by
  intro table
  show g (y table).1 (y table).2 = _
  rw [first table]
  exact then_ _ _

section Expressions

variable (scope : Nat)

/-- In both modes a name is looked up alike, and only the context of a free one is dropped. -/
theorem findsAlike_variable (name : String) (context : Context) (span : Span) :
    FindsAlike (ofExpressionAt ⟨false⟩ scope span (.variable name context))
      (ofExpressionAt ⟨true⟩ scope span (.variable name context)) := by
  intro table
  show ([⟨(variableOp ⟨true⟩ scope name context table).1, span⟩],
    (variableOp ⟨true⟩ scope name context table).2) =
      (dropContexts [⟨(variableOp ⟨false⟩ scope name context table).1, span⟩],
        (variableOp ⟨false⟩ scope name context table).2)
  unfold variableOp
  split <;> rfl

mutual

/-- An expression asks for the same names in the same order, whatever the mode. -/
theorem findsAlike_ofExpression : (e : Located Plan.Expression) →
    FindsAlike (ofExpression ⟨false⟩ scope e) (ofExpression ⟨true⟩ scope e)
  | ⟨e, span⟩ => findsAlike_ofExpressionAt span e

theorem findsAlike_ofExpressionAt (span : Span) : (e : Plan.Expression) →
    FindsAlike (ofExpressionAt ⟨false⟩ scope span e) (ofExpressionAt ⟨true⟩ scope span e)
  | .literal _ => .pure rfl
  | .path head _ => (findsAlike_ofExpression head).bind fun _ => .pure (dropContexts_append _ _)
  | .arg _ => fun _ => rfl
  | .self => .pure rfl
  | .variable name context => findsAlike_variable scope name context span
  | .hasBlock _ => fun _ => rfl
  | .hasBlockParams _ => fun _ => rfl
  | .concat ⟨list, _⟩ => (findsAlike_ofReversed list).bind fun _ => .pure (dropContexts_append _ _)
  | .call head ⟨list, _⟩ ⟨pairs, _⟩ => by
    refine (findsAlike_ofReversedPairs pairs).bind fun hash => ?_
    refine (findsAlike_ofReversed list).bind fun params => ?_
    refine (findsAlike_ofExpression head).bind fun head => .pure ?_
    simp only [dropContexts_append]
    rfl

theorem findsAlike_ofReversed : (list : List (Located Plan.Expression)) →
    FindsAlike (ofReversed ⟨false⟩ scope list) (ofReversed ⟨true⟩ scope list)
  | [] => .pure rfl
  | e :: rest =>
    (findsAlike_ofReversed rest).bind fun _ =>
    (findsAlike_ofExpression e).bind fun _ => .pure (dropContexts_append _ _)

theorem findsAlike_ofReversedPairs : (list : List (Template.Pair (Located Plan.Expression))) →
    FindsAlike (ofReversedPairs ⟨false⟩ scope list) (ofReversedPairs ⟨true⟩ scope list)
  | [] => .pure rfl
  | ⟨_, value, _⟩ :: rest => by
    refine (findsAlike_ofReversedPairs rest).bind fun others => ?_
    refine (findsAlike_ofExpression value).bind fun first => .pure ?_
    simp only [dropContexts_append]
    rfl

end

theorem findsAlike_ofParams (params : Plan.Params (Located Plan.Expression)) :
    FindsAlike (ofParams ⟨false⟩ scope params) (ofParams ⟨true⟩ scope params) :=
  (findsAlike_ofReversed scope params.list).bind fun _ => .pure (dropContexts_append _ _)

theorem findsAlike_ofCall (head : Located Plan.Expression)
    (params : Plan.Params (Located Plan.Expression))
    (hash : Template.Hash (Located Plan.Expression)) :
    FindsAlike (ofCall ⟨false⟩ scope head params hash) (ofCall ⟨true⟩ scope head params hash) := by
  have named : FindsAlike (ofHash ⟨false⟩ scope hash) (ofHash ⟨true⟩ scope hash) :=
    (findsAlike_ofReversedPairs scope hash.pairs).bind fun _ => .pure (dropContexts_append _ _)
  refine named.bind fun _ => ?_
  refine (findsAlike_ofParams scope params).bind fun _ => ?_
  refine (findsAlike_ofExpression scope head).bind fun _ => .pure ?_
  simp only [dropContexts_append]

end Expressions

theorem strictly_naming {f g : Nat → Naming} (alike : ∀ scope, FindsAlike (f scope) (g scope)) :
    Repeats dropContexts (naming f) (naming g) := by
  intro names ops names' done
  unfold naming at done ⊢
  dsimp only at done ⊢
  split at done
  · next known =>
    cases done
    rw [if_pos known, alike]
  · cases done

theorem strictly_value (e : Located Plan.Expression) :
    Repeats dropContexts (naming (ofExpression ⟨false⟩ · e)) (naming (ofExpression ⟨true⟩ · e)) :=
  strictly_naming fun scope => findsAlike_ofExpression scope e

theorem strictly_call (head : Located Plan.Expression)
    (params : Plan.Params (Located Plan.Expression))
    (hash : Template.Hash (Located Plan.Expression)) :
    Repeats dropContexts (naming (ofCall ⟨false⟩ · head params hash))
      (naming (ofCall ⟨true⟩ · head params hash)) :=
  strictly_naming fun scope => findsAlike_ofCall scope head params hash

mutual

/-- In strict mode the operations for a statement are the same ones without contexts. -/
theorem strictly_ofStatement : (s : Located Plan.Statement) →
    Repeats dropContexts (ofStatement ⟨false⟩ s) (ofStatement ⟨true⟩ s)
  | ⟨s, span⟩ => strictly_ofStatementAt span s

/-- A statement enters and leaves the same scopes in both modes, and its last operation is the
same. -/
theorem strictly_ofStatementAt (span : Span) : (s : Plan.Statement) →
    Repeats dropContexts (ofStatementAt ⟨false⟩ span s) (ofStatementAt ⟨true⟩ span s)
  | .append value => (strictly_value value).bind fun _ => .pure (dropContexts_append _ _)
  | .appendTrusted value => (strictly_value value).bind fun _ => .pure (dropContexts_append _ _)
  | .comment _ => .pure rfl
  | .openElement _ => .pure rfl
  | .openElementWithSplat _ => .pure rfl
  | .openComponent tag _ _ =>
    (strictly_value tag).bind fun _ =>
    (Repeats.refl _).bind fun _ => .pure (dropContexts_append _ _)
  | .openNamedBlock _ _ => (Repeats.refl _).bind fun _ => (Repeats.refl _).bind fun _ => .pure rfl
  | .flushElement _ => (Repeats.refl _).bind fun _ => .pure rfl
  | .closeElement => .pure rfl
  | .closeComponent => (Repeats.refl _).bind fun _ => .pure rfl
  | .closeDynamicComponent => (Repeats.refl _).bind fun _ => .pure rfl
  | .closeNamedBlock => (Repeats.refl _).bind fun _ => .pure rfl
  | .attr _ _ _ value => (strictly_value value).bind fun _ => .pure (dropContexts_append _ _)
  | .arg name value => by
    refine (strictly_value value).bind fun ops => .pure ?_
    rw [dropContexts_append]
    split <;> rfl
  | .attrSplat => (Repeats.refl _).bind fun _ => .pure rfl
  | .modifier head params hash =>
    (strictly_call head params hash).bind fun _ => .pure (dropContexts_append _ _)
  | .invokeBlock head params hash program inverse => by
    refine (strictly_ofInverse inverse).bind fun other => ?_
    refine (strictly_ofBlock program).bind fun default => ?_
    refine (strictly_call head params hash).bind fun operands => .pure ?_
    simp only [dropContexts_append]
    rfl
  | .yield _ params =>
    (strictly_naming fun scope => findsAlike_ofParams scope params).bind fun _ =>
    (Repeats.refl _).bind fun _ => .pure (dropContexts_append _ _)
  | .partialTemplate name =>
    (strictly_value name).bind fun _ =>
    (Repeats.refl _).bind fun _ => .pure (dropContexts_append _ _)
  | .debugger => (Repeats.refl _).bind fun _ => .pure rfl
  | .inElement destination none guid block => by
    refine (strictly_ofBlock block).bind fun body => ?_
    refine (strictly_value destination).bind fun place => .pure ?_
    simp only [dropContexts_append, List.append_nil]
    rfl
  | .inElement destination (some before) guid block => by
    refine (strictly_ofBlock block).bind fun body => ?_
    refine (strictly_value destination).bind fun place => ?_
    refine (strictly_value before).bind fun sibling => .pure ?_
    simp only [dropContexts_append]
    rfl

theorem strictly_ofStatements : (list : List (Located Plan.Statement)) →
    Repeats dropContexts (ofStatements ⟨false⟩ list) (ofStatements ⟨true⟩ list)
  | [] => .pure rfl
  | s :: rest =>
    (strictly_ofStatement s).bind fun _ =>
    (strictly_ofStatements rest).bind fun _ => .pure (dropContexts_append _ _)

theorem strictly_ofBlock : (block : Plan.NamedBlock (Located Plan.Statement)) →
    Repeats dropContexts (ofBlock ⟨false⟩ block) (ofBlock ⟨true⟩ block)
  | ⟨name, scope, body, span⟩ => by
    refine (Repeats.refl _).bind fun parameters => ?_
    refine (Repeats.refl _).bind fun _ => ?_
    refine (strictly_ofStatements body).bind fun ops => ?_
    refine (Repeats.refl _).bind fun _ => .pure ?_
    exact dropContexts_append (_ :: ops) _

theorem strictly_ofInverse : (inverse : Option (Plan.NamedBlock (Located Plan.Statement))) →
    Repeats dropContexts (ofInverse ⟨false⟩ inverse) (ofInverse ⟨true⟩ inverse)
  | none => .pure rfl
  | some block => strictly_ofBlock block

end

/-- In strict mode a plan has the same operations but for the contexts, and the same table. -/
theorem ofPlan_strictly {plan : Plan} {program : Program}
    (done : ofPlan ⟨false⟩ plan = .ok program) :
    ofPlan ⟨true⟩ plan = .ok ⟨dropContexts program.ops, program.table⟩ := by
  obtain ⟨⟨ops, names⟩, found, done⟩ := ok_of_bind done
  have again := strictly_ofStatements plan.body _ ops names found
  refine bind_eq_ok.mpr ⟨(dropContexts ops, names), again, ?_⟩
  dsimp only at done ⊢
  split at done
  · next balanced =>
    rw [if_pos balanced]
    cases done
    rfl
  · cases done

end Program

/-! ### Compiled templates -/

/-- Strict mode is loose mode with the contexts dropped. -/
theorem Direct.rereads_dropContext : Direct.Rereads Wire.Expression.dropContext ⟨false⟩ ⟨true⟩ where
  free _ _ := rfl
  other e bound := by
    cases e with
    | getContextualFree => cases bound
    | _ => rfl

/-- In loose mode no free variable is without a context. -/
theorem Direct.rereads_addContext : Direct.Rereads Wire.Expression.addContext ⟨false⟩ ⟨false⟩ where
  free _ _ := rfl
  other e bound := by
    cases e with
    | getFree => cases bound
    | _ => rfl

/-- The two results of one template, read with one table. -/
theorem Compiles.strictly {hook : Option (String → String)} {t : Template} {plan : Plan}
    {stream : List Program.Traced} {table : SymbolTable}
    (compiles : Compiles ⟨hook, false⟩ t plan stream table) :
    t.compile ⟨hook, true⟩ = .ok ⟨table.symbols, table.upvars, table.hasEval,
      Direct.statements ⟨true⟩ (Options.rename ⟨hook, true⟩) table SymbolTable.rootScope
        (Outline.ofTemplate t)⟩ := by
  have planned : t.plan ⟨hook, true⟩ = .ok plan := compiles.planned
  have resolved := Program.ofPlan_strictly compiles.resolved
  obtain ⟨stream', table', again⟩ := compiles_of_plan planned
  have sameTable : table' = table := by
    have agree := again.resolved.symm.trans resolved
    exact congrArg Program.table (Except.ok.inj agree)
  rw [again.compile_eq, sameTable]
  rfl

/-- Strict mode accepts the same templates, and drops the contexts of free variables. Without it
every free variable has a context. -/
theorem compile_strict (hook : Option (String → String)) (t : Template) :
    t.compile ⟨hook, true⟩ = (t.compile ⟨hook, false⟩).map CompiledTemplate.dropContexts ∧
      (∀ compiled, t.compile ⟨hook, true⟩ = .ok compiled →
        ∀ e ∈ compiled.expressions, ∀ index context, e ≠ .getContextualFree index context) ∧
      ∀ compiled, t.compile ⟨hook, false⟩ = .ok compiled →
        ∀ e ∈ compiled.expressions, ∀ index, e ≠ .getFree index := by
  rcases compiles_or_rejected ⟨hook, false⟩ t with ⟨r, rejected⟩ | ⟨plan, stream, table, compiles⟩
  · have refused : ∀ mode, t.compile ⟨hook, mode⟩ = .error (.rejected r) := by
      intro mode
      have planned : t.plan ⟨hook, mode⟩ = .error (.rejected r) := rejected
      rw [Template.compile, Template.program, planned]
      rfl
    simp [refused, Except.map]
  · have loosely := compiles.compile_eq
    have strictly := compiles.strictly
    have dropped : (Direct.statements ⟨false⟩ (Options.rename ⟨hook, false⟩) table
        SymbolTable.rootScope (Outline.ofTemplate t)).map
          (Wire.Statement.reread Wire.Expression.dropContext) =
        Direct.statements ⟨true⟩ (Options.rename ⟨hook, true⟩) table SymbolTable.rootScope
          (Outline.ofTemplate t) :=
      Direct.rereads_dropContext.statements _ _
    -- To give contexts to free variables that have none changes nothing, so there are none.
    have complete : (Direct.statements ⟨false⟩ (Options.rename ⟨hook, false⟩) table
        SymbolTable.rootScope (Outline.ofTemplate t)).map
          (Wire.Statement.reread Wire.Expression.addContext) =
        Direct.statements ⟨false⟩ (Options.rename ⟨hook, false⟩) table SymbolTable.rootScope
          (Outline.ofTemplate t) :=
      Direct.rereads_addContext.statements _ _
    refine ⟨?_, ?_, ?_⟩
    · rw [strictly, loosely, ← dropped]
      rfl
    · intro compiled done e inside index context
      rw [strictly] at done
      cases done
      obtain ⟨old, rfl⟩ := CompiledTemplate.of_mem_expressions
        Wire.Expression.inner_dropContext dropped.symm inside
      cases old <;> simp [Wire.Expression.dropContext]
    · intro compiled done e inside index
      rw [loosely] at done
      cases done
      obtain ⟨old, rfl⟩ := CompiledTemplate.of_mem_expressions
        Wire.Expression.inner_addContext complete.symm inside
      cases old <;> simp [Wire.Expression.addContext]

/-- A helper with two arguments in a loop, whose `else` block holds a component with a modifier. -/
def freeNames : Template :=
  .of [.invokeBlock "each" [.named "items"] []
    (.of ["item"] [.mustache (.escaping (.named "format") [.named "item", .named "style"] [])])
    (some (.of [] [.element ((Template.Element.of "Empty").addModifier "on" [.named "click"] [])]))]

theorem compile_strict_freeNames :
    ∃ loose strict, freeNames.compile ⟨some ("my-" ++ ·), false⟩ = .ok loose ∧
      freeNames.compile ⟨some ("my-" ++ ·), true⟩ = .ok strict ∧ strict = loose.dropContexts ∧
      (∃ e ∈ loose.expressions, e.isFree = true) ∧
      (∀ e ∈ strict.expressions, ∀ index context, e ≠ .getContextualFree index context) ∧
      ∀ e ∈ loose.expressions, ∀ index, e ≠ .getFree index := by
  have accepted : ((freeNames.compile ⟨some ("my-" ++ ·), false⟩).toOption.any fun compiled =>
      compiled.expressions.any Wire.Expression.isFree) = true := by
    decide +kernel
  obtain ⟨same, noContext, noneBare⟩ := compile_strict (some ("my-" ++ ·)) freeNames
  cases done : freeNames.compile ⟨some ("my-" ++ ·), false⟩ with
  | error failure =>
    rw [done] at accepted
    cases accepted
  | ok loose =>
    rw [done] at accepted same
    exact ⟨loose, loose.dropContexts, rfl, same, rfl, List.any_eq_true.mp accepted,
      noContext _ same, noneBare loose done⟩

end TemplateCompiler

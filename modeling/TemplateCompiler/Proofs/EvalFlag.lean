import TemplateCompiler.Proofs.BlockParams
import TemplateCompiler.Proofs.Sites

/-!
# The flag for reads at run time

A compiled template says in a flag whether one of its statements reads names at run time. The flag
is set while the template is planned, long before the statements have their final form; it is
nevertheless exact, as every mustache that sets it becomes a statement of the output.

Both sides are compared with the template: what planning notes, and what the sites of the output
come to.
-/

namespace TemplateCompiler

open Template (Block Element)

namespace Template

mutual

/-- Whether names are read at run time in a statement, at any depth. -/
def Statement.readsNames : Statement → Bool
  | .mustache m => m.readsNames
  | .block ⟨_, _, _, program, inverse, _⟩ =>
    readsNamesInBlock program || readsNamesInInverse inverse
  | .element ⟨_, _, _, children, _, _, _⟩ => readsNamesInAll children
  | .text _ | .comment _ | .mustacheComment _ => false

def readsNamesInAll : List Statement → Bool
  | [] => false
  | s :: rest => s.readsNames || readsNamesInAll rest

def readsNamesInBlock : Block Statement → Bool
  | ⟨body, _, _⟩ => readsNamesInAll body

def readsNamesInInverse : Option (Block Statement) → Bool
  | none => false
  | some block => readsNamesInBlock block

end

end Template

open Template (readsNamesInAll readsNamesInBlock readsNamesInInverse)

/-! ### Planning -/

namespace Plan

/-- Whenever a part of planning succeeds, it has set the flag exactly if `reads` says so. -/
def Notes {α : Type} (reads : Bool) (x : Planning α) : Prop :=
  ∀ p a p', x p = .ok (a, p') → p'.table.hasEval = (p.table.hasEval || reads)

section Rules

variable {α β : Type} {reads later : Bool}

theorem Notes.pure (a : α) : Notes false (pure a : Planning α) := by
  intro p a' p' done
  cases done
  exact (Bool.or_false _).symm

/-- Two computations in a row set the flag if one of them does. -/
theorem Notes.bind {x : Planning α} {f : α → Planning β} (first : Notes reads x)
    (then_ : ∀ a, Notes later (f a)) : Notes (reads || later) (x >>= f) := by
  intro p b p' done
  obtain ⟨a, between, begun, done⟩ := ok_of_step done
  rw [then_ a between b p' done, first p a between begun, Bool.or_assoc]

/-- A step that sets no flag. -/
theorem Notes.after {x : Planning α} {f : α → Planning β} (first : Notes false x)
    (then_ : ∀ a, Notes reads (f a)) : Notes reads (x >>= f) :=
  first.bind then_

/-- A step after which no flag is set. -/
theorem Notes.before {x : Planning α} {f : α → Planning β} (first : Notes reads x)
    (then_ : ∀ a, Notes false (f a)) : Notes reads (x >>= f) := by
  have whole := first.bind then_
  rwa [Bool.or_false] at whole

/-- A check does not touch the flag. -/
theorem Notes.lift {planned : Planned α} {f : α → Planning β}
    (then_ : ∀ a, planned = .ok a → Notes reads (f a)) :
    Notes reads (monadLift planned >>= f) := by
  intro p b p' done
  obtain ⟨a, found, done⟩ := ok_of_lift done
  exact then_ a found p b p' done

theorem notes_newScope (names : List String) : Notes false (newScope names) := by
  intro p scope p' done
  rw [newScope_eq] at done
  cases done
  rw [SymbolTable.child_eq, Bool.or_false]

theorem notes_enterScope (scope : Nat) : Notes false (enterScope scope) := by
  intro p u p' done
  cases done
  exact (Bool.or_false _).symm

theorem notes_exitScope : Notes false exitScope := by
  intro p u p' done
  rw [exitScope] at done
  split at done
  · cases done
  · cases done
    exact (Bool.or_false _).symm

theorem notes_isLocal : Notes false isLocal := by
  intro p bound p' done
  obtain ⟨-, rfl⟩ := ok_of_isLocal done
  exact (Bool.or_false _).symm

theorem notes_newCursor : Notes false newCursor := by
  intro p guid p' done
  cases done
  exact (Bool.or_false _).symm

theorem notes_markEval : Notes true markEval := by
  intro p u p' done
  cases done
  exact (Bool.or_true _).symm

/-- Content that is planned in a scope of its own. -/
theorem Notes.scoped {scope : Nat} {x : Planning α} {f : α → β} (content : Notes reads x) :
    Notes reads (do enterScope scope; let a ← x; exitScope; return f a) := by
  refine (notes_enterScope scope).after fun _ => ?_
  exact content.before fun _ => notes_exitScope.after fun _ => .pure _

/-- Beside named blocks stands nothing that reads names. -/
theorem notes_besideNamed {component : String} {loc : Span} {s : Template.Statement}
    (silent : isNothing s = true → s.readsNames = false) :
    Notes s.readsNames (do
      require (isNothing s) (.contentBesideNamedBlocks component loc)
      return ([] : List (Located Statement))) := by
  refine Notes.lift fun _ allowed => ?_
  rw [silent (require_ok allowed)]
  exact .pure _

end Rules

/-- A mustache that reads names is planned as a statement that does. -/
theorem readsNames_of_planMustache {m : Template.Mustache} {s : Located Statement}
    (planned : planMustache m = .ok s) : s.value.readsNames = m.readsNames := by
  rw [← evaluates_mustache ⟨false⟩ .empty 0, ← (renders_mustache planned).value, evaluates_leaf]

variable (rename : String → String)

mutual

/-- Planning a statement sets the flag exactly if something in the statement reads names. -/
theorem notes_planStatement : (s : Template.Statement) →
    Notes s.readsNames (planStatement rename s)
  | .mustache m => by
    rw [planStatement]
    refine Notes.lift fun s planned => ?_
    rw [Template.Statement.readsNames, ← readsNames_of_planMustache planned]
    cases s.value.readsNames with
    | true => exact notes_markEval.bind fun _ => .pure _
    | false => exact .pure _
  | .block ⟨path, params, hash, program, inverse, loc⟩ => by
    rw [planStatement, Template.Statement.readsNames]
    split
    · refine Notes.lift fun ⟨destination, before⟩ planned => ?_
      have noInverse : inverse = none := inverse_of_planDestination planned
      subst noInverse
      refine notes_newCursor.after fun _ => ?_
      exact (notes_planBlock "default" program).bind fun _ => .pure _
    · refine (notes_planBlock "default" program).bind fun _ => ?_
      refine (notes_planInverse inverse).before fun _ => ?_
      exact Notes.lift fun _ _ => Notes.lift fun _ _ => Notes.lift fun _ _ => .pure _
  | .element ⟨tag, attributes, modifiers, children, names, selfClosing, loc⟩ => by
    rw [planStatement, Template.Statement.readsNames]
    refine notes_isLocal.after fun bound => Notes.lift fun _ _ => ?_
    split
    · refine (notes_newScope names).after fun inner => Notes.lift fun opening _ => ?_
      refine (notes_enterScope inner).after fun _ => ?_
      split
      · exact (notes_planNamedBlocks tag children).before fun _ =>
          notes_exitScope.after fun _ => .pure _
      · exact (notes_planStatements children).before fun _ =>
          notes_exitScope.after fun _ => .pure _
    · refine Notes.lift fun opening _ => ?_
      exact (notes_planStatements children).before fun _ => .pure _
  | .text _ => .pure _
  | .comment _ => .pure _
  | .mustacheComment _ => .pure _

theorem notes_planStatements : (list : List Template.Statement) →
    Notes (readsNamesInAll list) (planStatements rename list)
  | [] => .pure _
  | s :: rest => by
    rw [planStatements, readsNamesInAll]
    exact (notes_planStatement s).bind fun _ => (notes_planStatements rest).before fun _ => .pure _

theorem notes_planBlock (name : String) : (block : Block Template.Statement) →
    Notes (readsNamesInBlock block) (planBlock rename name block)
  | ⟨body, names, loc⟩ => by
    rw [planBlock, readsNamesInBlock]
    exact (notes_newScope names).after fun _ => (notes_planStatements body).scoped

theorem notes_planInverse : (inverse : Option (Block Template.Statement)) →
    Notes (readsNamesInInverse inverse) (planInverse rename inverse)
  | none => .pure _
  | some block => by
    rw [planInverse, readsNamesInInverse]
    exact (notes_planBlock "else" block).before fun _ => .pure _

theorem notes_planNamedBlocks (component : String) : (list : List Template.Statement) →
    Notes (readsNamesInAll list) (planNamedBlocks rename component list)
  | [] => .pure _
  | s :: rest => by
    rw [planNamedBlocks, readsNamesInAll]
    exact (notes_planNamedBlock component s).bind fun _ =>
      (notes_planNamedBlocks component rest).before fun _ => .pure _

theorem notes_planNamedBlock (component : String) : (s : Template.Statement) →
    Notes s.readsNames (planNamedBlock rename component s)
  | .element ⟨tag, attributes, modifiers, children, names, selfClosing, loc⟩ => by
    rw [planNamedBlock, Template.Statement.readsNames]
    split
    · refine Notes.lift fun _ _ => ?_
      exact (notes_newScope names).after fun _ => (notes_planStatements children).scoped
    · intro p list p' done
      cases done
  | .mustache m => notes_besideNamed fun silent => by cases silent
  | .block b => notes_besideNamed fun silent => by cases silent
  | .text _ => notes_besideNamed fun _ => rfl
  | .comment _ => notes_besideNamed fun _ => rfl
  | .mustacheComment _ => notes_besideNamed fun _ => rfl

end

/-- A plan has the flag set if the template reads names at run time. -/
theorem hasEval_of_plan {o : Options} {t : Template} {plan : Plan} (done : t.plan o = .ok plan) :
    plan.table.hasEval = readsNamesInAll t.body := by
  rw [Template.plan, ofTemplate] at done
  obtain ⟨⟨body, progress⟩, planned, done⟩ := ok_of_bind done
  dsimp only at done
  split at done
  · cases done
    exact notes_planStatements o.rename t.body _ _ _ planned
  · cases done

end Plan

/-! ### Sites -/

def Site.evaluates : Site → Bool
  | .node _ (.mustache m) => m.readsNames
  | _ => false

/-- A site is translated to a statement that reads names exactly if the site does. -/
theorem evaluates_own (mode : Program.Mode) (rename : String → String) (table : SymbolTable)
    (site : Site) :
    (Direct.own mode rename table site).any Wire.Statement.evaluates = site.evaluates := by
  have opening : ∀ scope kind (e : Element Outline),
      (Direct.openingTag mode table scope kind e).any Wire.Statement.evaluates = false := by
    intro scope kind e
    refine List.any_eq_false.mpr fun s found => ?_
    rw [(Wire.Statement.of_filed (openingTag_filed mode table scope kind e s found)).2]
    exact Bool.false_ne_true
  cases site with
  | closing => rfl
  | node enclosing o =>
    cases o with
    | mustache m =>
      rw [Direct.own, Direct.statement, List.any_cons, evaluates_mustache]
      · exact Bool.or_false _
      all_goals simp
    | element kind e =>
      have start : (Direct.elementStart kind e.tag).evaluates = false := by cases kind <;> rfl
      have flush : Wire.Statement.flushElement.evaluates = false := rfl
      simp [Direct.own, opening, start, flush, Site.evaluates]
    | component kind scope e =>
      obtain ⟨tag, attributes, modifiers, children, names, selfClosing, loc⟩ := e
      have given := List.any_eq_false.mp (opening (Binder.current enclosing) kind
        ⟨tag, attributes, modifiers, children, names, selfClosing, loc⟩)
      refine List.any_eq_false.mpr fun s found => ?_
      rcases List.mem_append.mp found with own | filed
      · rw [Direct.statement, List.mem_singleton] at own
        rw [own]
        exact Bool.false_ne_true
      · exact given s (List.mem_of_mem_filter filed)
    | _ => rfl

namespace Outline

variable {rename : String → String}

mutual

/-- Every mustache of a statement that is accepted has a site. -/
theorem evaluates_ofStatement : (s : Template.Statement) → (enclosing : List Binder) →
    (c : Count) → (around : List Binder) → {list : List (Located Plan.Statement)} →
    (ofStatement enclosing c s).1.plan rename = .ok list →
    ((ofStatement enclosing c s).1.sites around).any Site.evaluates = s.readsNames
  | .mustache m, _, _, _, _, _ => Bool.or_false _
  | .text _, _, _, _, _, _ => rfl
  | .comment _, _, _, _, _, _ => rfl
  | .mustacheComment _, _, _, _, _, _ => rfl
  | .block ⟨path, params, hash, program, inverse, loc⟩, enclosing, c, around, _, done => by
    by_cases moved : Plan.isInElement path = true
    · simp only [ofStatement, if_pos moved, plan] at done ⊢
      obtain ⟨⟨destination, before⟩, goes, done⟩ := ok_of_bind done
      obtain ⟨block, blockDone, _⟩ := ok_of_bind done
      have noInverse : inverse = none :=
        Option.map_eq_none_iff.mp (Plan.inverse_of_planDestination goes)
      subst noInverse
      rw [sites, List.any_cons, evaluates_ofBlock program _ _ _ _ _ blockDone]
      exact (Bool.or_false _).symm
    · simp only [ofStatement, if_neg moved, plan] at done ⊢
      obtain ⟨block, blockDone, done⟩ := ok_of_bind done
      obtain ⟨other, otherDone, _⟩ := ok_of_bind done
      rw [sites, List.any_cons, List.any_append, evaluates_ofBlock program _ _ _ _ _ blockDone,
        evaluates_ofInverse inverse _ _ _ _ otherDone]
      rfl
  | .element ⟨tag, attributes, modifiers, children, names, selfClosing, loc⟩, enclosing, c,
      around, _, done => by
    rw [ofStatement] at done ⊢
    dsimp only at done ⊢
    split at done
    · next component =>
      rw [if_pos component]
      rw [plan] at done
      obtain ⟨_, _, done⟩ := ok_of_bind done
      obtain ⟨opening, _, done⟩ := ok_of_bind done
      obtain ⟨content, contentDone, _⟩ := ok_of_bind done
      rw [sites, List.any_cons]
      by_cases named : children.any Plan.isNamedBlock = true
      · rw [if_pos named] at contentDone ⊢
        exact evaluates_ofNamedBlocks children _ _ _ _ contentDone
      · rw [if_neg named] at contentDone ⊢
        exact evaluates_ofStatements children _ _ _ contentDone
    · next plain =>
      rw [if_neg plain]
      rw [plan] at done
      obtain ⟨_, _, done⟩ := ok_of_bind done
      obtain ⟨opening, _, done⟩ := ok_of_bind done
      obtain ⟨content, contentDone, _⟩ := ok_of_bind done
      rw [sites, List.any_cons, List.any_append, evaluates_ofStatements children _ _ _ contentDone]
      exact Bool.or_false _

theorem evaluates_ofStatements : (list : List Template.Statement) → (enclosing : List Binder) →
    (c : Count) → (around : List Binder) → {planned : List (Located Plan.Statement)} →
    planAll rename (ofStatements enclosing c list).1 = .ok planned →
    (sitesOfAll around (ofStatements enclosing c list).1).any Site.evaluates = readsNamesInAll list
  | [], _, _, _, _, _ => rfl
  | s :: rest, enclosing, c, around, _, done => by
    simp only [ofStatements, planAll] at done ⊢
    obtain ⟨first, firstDone, done⟩ := ok_of_bind done
    obtain ⟨others, restDone, _⟩ := ok_of_bind done
    rw [sitesOfAll, List.any_append, evaluates_ofStatement s _ _ _ firstDone,
      evaluates_ofStatements rest _ _ _ restDone]
    rfl

theorem evaluates_ofBlock : (block : Block Template.Statement) → (enclosing : List Binder) →
    (c : Count) → (around : List Binder) → (name : String) → (scope : Nat) →
    {planned : Plan.NamedBlock (Located Plan.Statement)} →
    planBlock rename name scope (ofBlock enclosing c block).1 = .ok planned →
    (sitesOfBlock around scope (ofBlock enclosing c block).1).any Site.evaluates =
      readsNamesInBlock block
  | ⟨body, names, loc⟩, enclosing, c, around, _, _, _, done => by
    simp only [ofBlock, planBlock] at done ⊢
    obtain ⟨content, contentDone, _⟩ := ok_of_bind done
    exact evaluates_ofStatements body _ _ _ contentDone

theorem evaluates_ofInverse : (inverse : Option (Block Template.Statement)) →
    (enclosing : List Binder) → (c : Count) → (around : List Binder) → (scope : Nat) →
    {planned : Option (Plan.NamedBlock (Located Plan.Statement))} →
    planInverse rename scope (ofInverse enclosing c inverse).1 = .ok planned →
    (sitesOfInverse around scope (ofInverse enclosing c inverse).1).any Site.evaluates =
      readsNamesInInverse inverse
  | none, _, _, _, _, _, _ => rfl
  | some block, enclosing, c, around, scope, _, done => by
    simp only [ofInverse, planInverse] at done ⊢
    obtain ⟨planned, blockDone, _⟩ := ok_of_bind done
    exact evaluates_ofBlock block _ _ _ _ _ blockDone

theorem evaluates_ofNamedBlocks : (list : List Template.Statement) → (enclosing : List Binder) →
    (c : Count) → (around : List Binder) → (component : String) →
    {planned : List (Located Plan.Statement)} →
    planAll rename (ofNamedBlocks enclosing c component list).1 = .ok planned →
    (sitesOfAll around (ofNamedBlocks enclosing c component list).1).any Site.evaluates =
      readsNamesInAll list
  | [], _, _, _, _, _, _ => rfl
  | s :: rest, enclosing, c, around, parent, _, done => by
    simp only [ofNamedBlocks, planAll] at done ⊢
    obtain ⟨first, firstDone, done⟩ := ok_of_bind done
    obtain ⟨others, restDone, _⟩ := ok_of_bind done
    rw [sitesOfAll, List.any_append, evaluates_ofNamedBlock s _ _ _ _ firstDone,
      evaluates_ofNamedBlocks rest _ _ _ _ restDone]
    rfl

theorem evaluates_ofNamedBlock : (s : Template.Statement) → (enclosing : List Binder) →
    (c : Count) → (around : List Binder) → (component : String) →
    {list : List (Located Plan.Statement)} →
    (ofNamedBlock enclosing c component s).1.plan rename = .ok list →
    ((ofNamedBlock enclosing c component s).1.sites around).any Site.evaluates = s.readsNames
  | .element ⟨tag, attributes, modifiers, children, names, selfClosing, loc⟩, enclosing, c,
      around, parent, _, done => by
    rw [ofNamedBlock] at done ⊢
    dsimp only at done ⊢
    split at done
    · next named =>
      rw [if_pos named]
      rw [plan] at done
      obtain ⟨_, _, done⟩ := ok_of_bind done
      obtain ⟨content, contentDone, _⟩ := ok_of_bind done
      exact evaluates_ofStatements children _ _ _ contentDone
    · cases done
  | .mustache m, _, _, _, _, _, done => by cases done
  | .block b, _, _, _, _, _, done => by cases done
  | .text node, _, _, _, _, _, _ => by
    rw [ofNamedBlock]
    · dsimp only
      split <;> rfl
    · simp
  | .comment _, _, _, _, _, _, _ => rfl
  | .mustacheComment _, _, _, _, _, _, _ => rfl

end

/-- Some site of a template reads names exactly if something in its body does. -/
theorem evaluates_ofTemplate {o : Options} {t : Template} {plan : Plan}
    {stream : List Program.Traced} {table : SymbolTable}
    (compiles : Compiles o t plan stream table) :
    t.sites.any Site.evaluates = readsNamesInAll t.body :=
  evaluates_ofStatements t.body [] _ [] compiles.outlined

end Outline

/-! ### Compiled templates -/

/-- The flag is set if and only if there is a statement, at any depth, that reads names at run
time. -/
theorem hasEval_of_compile (o : Options) (t : Template) (compiled : CompiledTemplate)
    (done : t.compile o = .ok compiled) :
    compiled.hasEval = true ↔ ∃ part ∈ Wire.partsOfAll compiled.statements,
      (∃ name slots, part = .partialTemplate name slots) ∨ ∃ slots, part = .debugger slots := by
  obtain ⟨plan, stream, table, compiles⟩ := compiles_of_compile done
  rw [compiles.compile_eq] at done
  cases done
  have flagged : table.hasEval =
      (Wire.partsOfAll (Direct.statements o.mode o.rename table SymbolTable.rootScope
        (Outline.ofTemplate t))).any Wire.Statement.evaluates := by
    calc
      table.hasEval = plan.table.hasEval := compiles.grows.hasEval
      _ = readsNamesInAll t.body := Plan.hasEval_of_plan compiles.planned
      _ = t.sites.any Site.evaluates := (Outline.evaluates_ofTemplate compiles).symm
      _ = t.sites.any fun site =>
          (Direct.own o.mode o.rename table site).any Wire.Statement.evaluates := by
        simp only [evaluates_own]
      _ = (t.sites.flatMap (Direct.own o.mode o.rename table)).any Wire.Statement.evaluates :=
        List.any_flatMap.symm
      _ = _ := by rw [compiles.parts_eq]
  rw [flagged, List.any_eq_true]
  refine exists_congr fun part => and_congr_right fun _ => ?_
  cases part <;> simp [Wire.Statement.evaluates]

/-- A debugger in an `in-element` block, which stands in a named block of a component. -/
def watchedPanel : Template :=
  .of [.wrap "Panel" ["item"] [.wrap ":body" [] [.invokeBlock "in-element" [.named "@place"] []
    (.of [] [.append "debugger"]) none]]]

theorem hasEval_of_compile_watchedPanel :
    ∃ compiled, watchedPanel.compile .default = .ok compiled ∧ compiled.hasEval = true ∧
      ∃ part ∈ Wire.partsOfAll compiled.statements,
        (∃ name slots, part = .partialTemplate name slots) ∨ ∃ slots, part = .debugger slots := by
  have flagged : (watchedPanel.compile .default).toOption.any CompiledTemplate.hasEval = true := by
    decide +kernel
  cases done : watchedPanel.compile .default with
  | error failure =>
    rw [done] at flagged
    cases flagged
  | ok compiled =>
    rw [done] at flagged
    have exact_ := hasEval_of_compile .default watchedPanel compiled done
    exact ⟨compiled, rfl, flagged, exact_.mp flagged⟩

end TemplateCompiler

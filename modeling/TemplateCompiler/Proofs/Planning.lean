import TemplateCompiler.Proofs.Layout
import TemplateCompiler.Proofs.PlanTrace
import TemplateCompiler.Proofs.References
import TemplateCompiler.Proofs.Rendering

/-!
# Planning follows the outline

The planner keeps a table, a stack of scopes and a counter. What it plans is nevertheless what the
outline of the template says: the same statements, with the scopes and cursors of the outline, or
the same rejection. It comes upon every bare name in the scope that the outline has for it. It
leaves the stack as it was, and its table has every scope of the outline where the outline says it
is. In particular the planner itself has no defect.

The induction is on the template, with one case for each form of statement. It is on the planner
that keeps a record.
-/

namespace TemplateCompiler

open Template (Block BlockNode Element TagKind)

namespace Plan

/-! ### Computations that agree with a stateless one -/

/-- Started from some progress, a computation gives what a stateless one gives, with a record, and
ends in a state with a property; or it is rejected as the stateless one is. -/
def Agrees {α : Type} (x : Planning (α × List Sighting)) (p : Progress) (result : Planned α)
    (seen : List Sighting) (after : Progress → Prop) : Prop :=
  match result with
  | .ok a => ∃ p', x p = .ok ((a, seen), p') ∧ after p'
  | .error r => x p = .error (.rejected r)

section Rules

variable {α β : Type} {p : Progress} {seen : List Sighting} {after : Progress → Prop}

theorem Agrees.pure (a : α) {noted : List Sighting} (same : noted = seen) (holds : after p) :
    Agrees (Pure.pure (a, noted)) p (.ok a) seen after :=
  ⟨p, same ▸ rfl, holds⟩

/-- A check agrees with itself, and what follows needs to agree only where it passes. -/
theorem Agrees.lift (planned : Planned α) {f : α → Planning (β × List Sighting)}
    {g : α → Planned β} (later : ∀ a, planned = .ok a → Agrees (f a) p (g a) seen after) :
    Agrees (monadLift planned >>= f) p (planned >>= g) seen after := by
  cases planned with
  | error r => rfl
  | ok a => exact later a rfl

/-- Sequences agree if their steps do, in the state that the first step leaves. -/
theorem Agrees.bind {x : Planning (α × List Sighting)}
    {f : α × List Sighting → Planning (β × List Sighting)} {result : Planned α}
    {g : α → Planned β} {noted : List Sighting} {between : Progress → Prop}
    (first : Agrees x p result noted between)
    (second : ∀ a p', between p' → Agrees (f (a, noted)) p' (g a) seen after) :
    Agrees (x >>= f) p (result >>= g) seen after := by
  cases result with
  | error r => exact bind_of_error first
  | ok a =>
    obtain ⟨p', ran, holds⟩ := first
    have later := second a p' holds
    unfold Agrees at later ⊢
    rw [bind_of_ok ran]
    exact later

/-- A step that only moves the progress has no counterpart. -/
theorem Agrees.step {x : Planning α} {f : α → Planning (β × List Sighting)} {result : Planned β}
    {a : α} {p' : Progress} (ran : x p = .ok (a, p'))
    (later : Agrees (f a) p' result seen after) : Agrees (x >>= f) p result seen after := by
  unfold Agrees at later ⊢
  rw [bind_of_ok ran]
  exact later

/-- Names are recorded in the current scope. -/
theorem Agrees.note {list : List Mention} {scope : Nat}
    {f : List Sighting → Planning (β × List Sighting)} {result : Planned β}
    (current : p.scopes.current = scope)
    (later : Agrees (f (sightings scope list)) p result seen after) :
    Agrees (Plan.note list >>= f) p result seen after := by
  subst current
  exact Agrees.step rfl later

end Rules

/-! ### Where planning stands -/

/-- Planning stands inside some blocks, with so many scopes and cursors in use. -/
structure Stands (enclosing : List Binder) (c : Outline.Count) (p : Progress) : Prop where
  encloses : Binder.Encloses p.table.scopes enclosing
  current : p.scopes.current = Binder.current enclosing
  scopes : p.table.scopes.length = c.scopes
  cursors : p.cursors = c.cursors

/-- Planning has gone on from one state to another, in the same scope. -/
structure Follows (p : Progress) (c : Outline.Count) (p' : Progress) : Prop where
  stack : p'.scopes = p.scopes
  table : p.table.Extends p'.table
  scopes : p'.table.scopes.length = c.scopes
  cursors : p'.cursors = c.cursors

theorem Stands.follows {enclosing : List Binder} {c : Outline.Count} {p : Progress}
    (stands : Stands enclosing c p) : Follows p c p :=
  ⟨rfl, .refl, stands.scopes, stands.cursors⟩

theorem Follows.stands {enclosing : List Binder} {c c' : Outline.Count} {p p' : Progress}
    (follows : Follows p c' p') (stands : Stands enclosing c p) : Stands enclosing c' p' :=
  ⟨stands.encloses.mono follows.table.scopes, follows.stack ▸ stands.current, follows.scopes,
    follows.cursors⟩

theorem Follows.trans {c c' : Outline.Count} {p p' p'' : Progress} (first : Follows p c p')
    (second : Follows p' c' p'') : Follows p c' p'' :=
  ⟨second.stack.trans first.stack, first.table.trans second.table, second.scopes, second.cursors⟩

/-- The state in which the content of a new scope is planned. -/
def Progress.enter (names : List String) (p : Progress) : Progress :=
  ⟨(p.table.child p.scopes.current names).2, p.scopes.push p.table.scopes.length, p.cursors⟩

/-- Entering a block puts it in front of the blocks around a statement. -/
theorem Stands.enter {enclosing : List Binder} {c : Outline.Count} {p : Progress}
    (stands : Stands enclosing c p) (names : List String) (passed : Bool) :
    Stands (⟨c.scopes, names, passed⟩ :: enclosing) c.scope (p.enter names) := by
  have bound : Bound (p.enter names).table.scopes (Binder.current enclosing) c.scopes names := by
    rw [← stands.scopes, ← stands.current]
    exact Bound.of_child (stands.current ▸ stands.encloses.lt_length)
  have extends_ : p.table.Extends (p.enter names).table :=
    SymbolTable.Extends.refl.child p.scopes.current names
  refine ⟨⟨bound, stands.encloses.mono extends_.scopes⟩, ?_, ?_, stands.cursors⟩
  · exact stands.scopes
  · simp [Progress.enter, SymbolTable.child_eq, Outline.Count.scope, stands.scopes]

/-- A new scope gets the next number, and its parent is the current one. -/
theorem newScope_eq (names : List String) (p : Progress) :
    newScope names p = .ok (p.table.scopes.length,
      { p with table := (p.table.child p.scopes.current names).2 }) := by
  simp [newScope, SymbolTable.child_eq]

theorem exitScope_of_push {p : Progress} {scopes : Stack Nat} {scope : Nat}
    (same : p.scopes = scopes.push scope) :
    exitScope p = .ok ((), { p with scopes := scopes }) := by
  simp [exitScope, same]

/-- Content is planned in a scope of its own, which is entered for it and left again. -/
theorem Agrees.scoped {α β : Type} {enclosing : List Binder} {c c' : Outline.Count} {p : Progress}
    {names : List String} {x : Planning (α × List Sighting)} {result : Planned α}
    {k : α × List Sighting → Planning (β × List Sighting)} {f : α → Planning (β × List Sighting)}
    {g : α → Planned β} {inside seen : List Sighting} {after : Progress → Prop}
    (laid : List Scope → Prop) (stands : Stands enclosing c p)
    (content : Agrees x (p.enter names) result inside
      fun p' => Follows (p.enter names) c' p' ∧ laid p'.table.scopes)
    (leaves : ∀ a, k (a, inside) = exitScope >>= fun _ => f a)
    (later : ∀ a p', Follows p c' p' →
      Bound p'.table.scopes (Binder.current enclosing) c.scopes names → laid p'.table.scopes →
        Agrees (f a) p' (g a) seen after) :
    Agrees (enterScope c.scopes >>= fun _ => x >>= k)
      { p with table := (p.table.child p.scopes.current names).2 } (result >>= g) seen after := by
  have entered : enterScope c.scopes
      { p with table := (p.table.child p.scopes.current names).2 } = .ok ((), p.enter names) := by
    rw [← stands.scopes]
    rfl
  refine Agrees.step entered (Agrees.bind content ?_)
  rintro a p' ⟨follows, isLaid⟩
  rw [leaves]
  have inside := (stands.enter names true).encloses.1.mono follows.table.scopes
  refine Agrees.step (exitScope_of_push follows.stack) (later a _ ?_ inside isLaid)
  have extends_ : p.table.Extends (p.enter names).table :=
    SymbolTable.Extends.refl.child p.scopes.current names
  exact ⟨rfl, extends_.trans follows.table, follows.scopes, follows.cursors⟩

/-! ### What does not depend on the content of a node -/

/-- The check of an element asks no more of its content than whether there is any. -/
theorem checkElement_of_isEmpty {σ τ : Type} (kind : TagKind) (e : Element σ)
    {children : List τ} (empty : children.isEmpty = e.children.isEmpty) :
    checkElement kind { e with children := children } = checkElement kind e := by
  simp only [checkElement, empty]

theorem planOpening_of_children {σ τ : Type} (rename : String → String) (kind : TagKind)
    (e : Element σ) (children : List τ) (scope : Option Nat) :
    planOpening rename kind { e with children := children } scope =
      planOpening rename kind e scope :=
  rfl

/-- The destination does not depend on the content of a block. -/
theorem planDestination_of_isNone {σ τ : Type} (b : BlockNode σ) (program : Block τ)
    (inverse : Option (Block τ)) (same : inverse.isNone = b.inverse.isNone) :
    planDestination { b with program := program, inverse := inverse } = planDestination b := by
  simp only [planDestination, same]

end Plan

namespace Outline

theorem ofStatements_isEmpty (enclosing : List Binder) (c : Count)
    (list : List Template.Statement) :
    (ofStatements enclosing c list).1.isEmpty = list.isEmpty := by
  cases list <;> rfl

theorem ofNamedBlocks_isEmpty (enclosing : List Binder) (c : Count) (component : String)
    (list : List Template.Statement) :
    (ofNamedBlocks enclosing c component list).1.isEmpty = list.isEmpty := by
  cases list <;> rfl

/-- Outside of components there are no named blocks in an outline. -/
theorem ofStatements_any (enclosing : List Binder) (c : Count) (list : List Template.Statement) :
    (ofStatements enclosing c list).1.any isNamed = false := by
  induction list generalizing c with
  | nil => rfl
  | cons s rest ih =>
    have first : (ofStatement enclosing c s).1.isNamed = false := by
      cases s with
      | block node =>
        rw [ofStatement]
        split <;> rfl
      | element node =>
        rw [ofStatement]
        dsimp only
        split <;> rfl
      | _ => rfl
    simp only [ofStatements, List.any_cons, first, ih, Bool.or_false]

/-- In a component, the named blocks of the template are those of the outline. -/
theorem ofNamedBlocks_any (enclosing : List Binder) (c : Count) (component : String)
    (list : List Template.Statement) :
    (ofNamedBlocks enclosing c component list).1.any isNamed = list.any Plan.isNamedBlock := by
  induction list generalizing c with
  | nil => rfl
  | cons s rest ih =>
    have first : (ofNamedBlock enclosing c component s).1.isNamed = Plan.isNamedBlock s := by
      cases s with
      | element node =>
        rw [ofNamedBlock, Plan.isNamedBlock]
        cases Template.startsWith node.tag ':' <;> rfl
      | _ =>
        rw [ofNamedBlock]
        · split <;> rfl
        · simp
    simp only [ofNamedBlocks, List.any_cons, first, ih]

end Outline

namespace Plan

open Outline (Count)

section Statements

variable (rename : String → String)

/-- A component, whichever way its content is planned. -/
theorem agrees_component {enclosing : List Binder} {c c' : Count} {p : Progress}
    (stands : Stands enclosing c p) (e : Element Template.Statement) {kind : TagKind}
    (component : kind.isComponentLike = true) {content : List Outline}
    (empty : content.isEmpty = e.children.isEmpty)
    {x : Planning (List (Located Statement) × List Sighting)}
    (planned : Agrees x (p.enter e.blockParams) (Outline.planAll rename content)
      ((Outline.placesOfAll rename
        (⟨c.scopes, e.blockParams, !content.any Outline.isNamed⟩ :: enclosing)
        content).flatMap Place.sightings)
      fun p' => Follows (p.enter e.blockParams) c' p' ∧
        if content.any Outline.isNamed then Outline.LaidNamed p'.table.scopes c.scopes content
        else Outline.LaidAll p'.table.scopes c.scopes content) :
    Agrees (do
      checkElement kind e
      let inner ← newScope e.blockParams
      let opening ← planOpening rename kind e (some inner)
      let seen ← note (opening.flatMap fun s => s.value.mentions)
      enterScope inner
      let (content, inside) ← x
      exitScope
      return (opening ++ content ++ [⟨closeStatement kind, e.loc⟩], seen ++ inside)) p
      ((Outline.component kind c.scopes { e with children := content }).plan rename)
      (((Outline.component kind c.scopes { e with children := content }).places rename
        enclosing).flatMap Place.sightings)
      fun p' => Follows p c' p' ∧
        (Outline.component kind c.scopes { e with children := content }).Laid p'.table.scopes
          (Binder.current enclosing) := by
  rw [Outline.plan, checkElement_of_isEmpty kind e empty, planOpening_of_children rename kind e]
  refine Agrees.lift _ fun _ _ => ?_
  refine Agrees.step (newScope_eq e.blockParams p) ?_
  rw [stands.scopes]
  refine Agrees.lift _ fun opening opened => ?_
  refine Agrees.note stands.current ?_
  refine Agrees.scoped (fun scopes => if content.any Outline.isNamed then
    Outline.LaidNamed scopes c.scopes content else Outline.LaidAll scopes c.scopes content)
    stands planned (fun _ => rfl) ?_
  intro inside p' follows bound laid
  refine Agrees.pure _ ?_ ⟨follows, component, bound, laid⟩
  rw [mentions_of_planOpening opened]
  rfl

/-- A statement among named blocks that is none itself. -/
theorem agrees_besideNamed {enclosing : List Binder} {c : Count} {p : Progress}
    (stands : Stands enclosing c p) (component : String) (loc : Span) (quiet : Bool) :
    Agrees (do
      require quiet (.contentBesideNamedBlocks component loc)
      return (([] : List (Located Statement)), [])) p
      ((if quiet then Outline.hidden else .misplaced component loc).plan rename)
      (((if quiet then Outline.hidden else .misplaced component loc).places rename
        enclosing).flatMap Place.sightings)
      fun p' => Follows p c p' ∧
        (if quiet then Outline.hidden else .misplaced component loc).LaidAmongNamed p'.table.scopes
          (Binder.current enclosing) := by
  cases quiet with
  | false => rfl
  | true => exact ⟨p, rfl, stands.follows, trivial⟩

mutual

/-- A statement is planned as its outline is. -/
theorem traceStatement_agrees (enclosing : List Binder) (c : Count) (p : Progress)
    (stands : Stands enclosing c p) : (s : Template.Statement) →
    Agrees (traceStatement rename s) p ((Outline.ofStatement enclosing c s).1.plan rename)
      (((Outline.ofStatement enclosing c s).1.places rename enclosing).flatMap Place.sightings)
      fun p' => Follows p (Outline.ofStatement enclosing c s).2 p' ∧
        (Outline.ofStatement enclosing c s).1.Laid p'.table.scopes (Binder.current enclosing)
  | .mustache m => by
    rw [traceStatement, Outline.ofStatement, Outline.plan]
    refine Agrees.lift _ fun s planned => Agrees.note stands.current ?_
    have same : sightings (Binder.current enclosing) s.value.mentions =
        ((Outline.mustache m).places rename enclosing).flatMap Place.sightings := by
      simp [Outline.places, Place.sightings, (renders_mustache planned).mentions]
    split
    · exact Agrees.step rfl
        (Agrees.pure _ same ⟨⟨rfl, .eval .refl, stands.scopes, stands.cursors⟩, trivial⟩)
    · exact Agrees.pure _ same ⟨stands.follows, trivial⟩
  | .text node => by
    rw [traceStatement]
    exact Agrees.pure _ rfl ⟨stands.follows, trivial⟩
  | .comment node => by
    rw [traceStatement]
    exact Agrees.pure _ rfl ⟨stands.follows, trivial⟩
  | .mustacheComment node => by
    rw [traceStatement]
    exact Agrees.pure _ rfl ⟨stands.follows, trivial⟩
  | .block ⟨path, params, hash, program, inverse, loc⟩ => by
    rw [traceStatement, Outline.ofStatement]
    split
    · next moved =>
      have same := planDestination_of_isNone
        (⟨path, params, hash, program, inverse, loc⟩ : BlockNode Template.Statement)
        (Outline.ofBlock enclosing ⟨c.scopes, c.cursors + 1⟩ program).1
        (inverse.map fun b => ⟨[], b.params, b.loc⟩) (by cases inverse <;> rfl)
      rw [Outline.plan, same]
      refine Agrees.lift _ fun goes planned => ?_
      obtain ⟨destination, before⟩ := goes
      refine Agrees.note stands.current ?_
      have next : Stands enclosing ⟨c.scopes, c.cursors + 1⟩ { p with cursors := p.cursors + 1 } :=
        ⟨stands.encloses, stands.current, stands.scopes, congrArg (· + 1) stands.cursors⟩
      refine Agrees.step rfl
        (Agrees.bind (traceBlock_agrees enclosing _ _ next "default" program) ?_)
      rintro block p' ⟨follows, laid⟩
      rw [stands.cursors]
      refine Agrees.pure _ ?_
        ⟨⟨follows.stack, follows.table, follows.scopes, follows.cursors⟩, laid⟩
      rw [(renders_destination planned).2.2]
      simp [Outline.places, Place.sightings, Template.BlockNode.destinationMentions]
    · next call =>
      rw [Outline.plan]
      refine Agrees.bind (traceBlock_agrees enclosing c p stands "default" program) ?_
      rintro block p₁ ⟨follows₁, laid₁⟩
      refine Agrees.bind (traceInverse_agrees enclosing _ p₁ (follows₁.stands stands) inverse) ?_
      rintro other p₂ ⟨follows₂, laid₂⟩
      have followed := follows₁.trans follows₂
      refine Agrees.lift _ fun head headDone => ?_
      refine Agrees.lift _ fun positional paramsDone => ?_
      refine Agrees.lift _ fun keyed hashDone => ?_
      refine Agrees.note (followed.stands stands).current ?_
      refine Agrees.pure _ ?_ ⟨followed, laid₁.mono follows₂.table.scopes _ _ _, laid₂⟩
      simp [Outline.places, Place.sightings, mentionsOfCall, Template.mentionsOfCall,
        (renders_path headDone).mentions, (renders_params paramsDone).mentions,
        (renders_hash hashDone).mentions]
  | .element ⟨tag, attributes, modifiers, children, blockParams, selfClosing, loc⟩ => by
    rw [traceStatement, Outline.ofStatement]
    have asked : isLocal p = .ok (Binder.binds enclosing, p) := by
      have known : p.scopes.current < p.table.scopes.length :=
        stands.current ▸ stands.encloses.lt_length
      have same : p.table.has p.scopes.current = Binder.binds enclosing :=
        stands.current ▸ Binder.has_of_encloses stands.encloses
      simp only [isLocal, known, if_true, same]
    refine Agrees.step asked ?_
    dsimp only
    split
    · next component =>
      by_cases named : children.any isNamedBlock = true
      · simp only [named, if_true]
        have content :=
          traceNamedBlocks_agrees _ _ _ (stands.enter blockParams (!true)) tag children
        refine agrees_component rename stands
          ⟨tag, attributes, modifiers, children, blockParams, selfClosing, loc⟩ component
          (Outline.ofNamedBlocks_isEmpty _ _ _ _) ?_
        rw [Outline.ofNamedBlocks_any, named]
        exact content
      · rw [Bool.not_eq_true] at named
        simp only [named, Bool.false_eq_true, if_false]
        have content := traceStatements_agrees _ _ _ (stands.enter blockParams (!false)) children
        refine agrees_component rename stands
          ⟨tag, attributes, modifiers, children, blockParams, selfClosing, loc⟩ component
          (Outline.ofStatements_isEmpty _ _ _) ?_
        rw [Outline.ofStatements_any]
        exact content
    · next plain =>
      rw [Bool.not_eq_true] at plain
      rw [Outline.plan, checkElement_of_isEmpty _ ⟨tag, attributes, modifiers, children,
        blockParams, selfClosing, loc⟩ (Outline.ofStatements_isEmpty _ _ _),
        planOpening_of_children rename _ ⟨tag, attributes, modifiers, children, blockParams,
        selfClosing, loc⟩]
      refine Agrees.lift _ fun _ _ => ?_
      refine Agrees.lift _ fun opening opened => ?_
      refine Agrees.note stands.current ?_
      refine Agrees.bind (traceStatements_agrees enclosing c p stands children) ?_
      rintro planned p' ⟨follows, laid⟩
      refine Agrees.pure _ ?_ ⟨follows, plain, laid⟩
      rw [mentions_of_planOpening opened, tagMentions_of_element plain]
      rfl

theorem traceStatements_agrees (enclosing : List Binder) (c : Count) (p : Progress)
    (stands : Stands enclosing c p) : (list : List Template.Statement) →
    Agrees (traceStatements rename list) p
      (Outline.planAll rename (Outline.ofStatements enclosing c list).1)
      ((Outline.placesOfAll rename enclosing
        (Outline.ofStatements enclosing c list).1).flatMap Place.sightings)
      fun p' => Follows p (Outline.ofStatements enclosing c list).2 p' ∧
        Outline.LaidAll p'.table.scopes (Binder.current enclosing)
          (Outline.ofStatements enclosing c list).1
  | [] => by
    rw [traceStatements]
    exact Agrees.pure _ rfl ⟨stands.follows, trivial⟩
  | s :: rest => by
    rw [traceStatements, Outline.ofStatements, Outline.planAll, Outline.placesOfAll]
    refine Agrees.bind (traceStatement_agrees enclosing c p stands s) ?_
    rintro first p₁ ⟨follows₁, laid₁⟩
    refine Agrees.bind (traceStatements_agrees enclosing _ p₁ (follows₁.stands stands) rest) ?_
    rintro others p₂ ⟨follows₂, laid₂⟩
    exact Agrees.pure _ List.flatMap_append.symm
      ⟨follows₁.trans follows₂, laid₁.mono follows₂.table.scopes _ _, laid₂⟩

theorem traceBlock_agrees (enclosing : List Binder) (c : Count) (p : Progress)
    (stands : Stands enclosing c p) (name : String) : (block : Block Template.Statement) →
    Agrees (traceBlock rename name block) p
      (Outline.planBlock rename name c.scopes (Outline.ofBlock enclosing c block).1)
      ((Outline.placesOfBlock rename enclosing c.scopes
        (Outline.ofBlock enclosing c block).1).flatMap Place.sightings)
      fun p' => Follows p (Outline.ofBlock enclosing c block).2 p' ∧
        Outline.LaidBlock p'.table.scopes (Binder.current enclosing) c.scopes
          (Outline.ofBlock enclosing c block).1
  | ⟨body, params, loc⟩ => by
    rw [traceBlock, Outline.ofBlock, Outline.planBlock]
    refine Agrees.step (newScope_eq params p) ?_
    have content := traceStatements_agrees _ _ _ (stands.enter params true) body
    rw [stands.scopes]
    refine Agrees.scoped (Outline.LaidAll · c.scopes _) stands content (fun _ => rfl) ?_
    intro planned p' follows bound laid
    exact Agrees.pure _ rfl ⟨follows, bound, laid⟩

theorem traceInverse_agrees (enclosing : List Binder) (c : Count) (p : Progress)
    (stands : Stands enclosing c p) : (inverse : Option (Block Template.Statement)) →
    Agrees (traceInverse rename inverse) p
      (Outline.planInverse rename c.scopes (Outline.ofInverse enclosing c inverse).1)
      ((Outline.placesOfInverse rename enclosing c.scopes
        (Outline.ofInverse enclosing c inverse).1).flatMap Place.sightings)
      fun p' => Follows p (Outline.ofInverse enclosing c inverse).2 p' ∧
        Outline.LaidInverse p'.table.scopes (Binder.current enclosing) c.scopes
          (Outline.ofInverse enclosing c inverse).1
  | none => by
    rw [traceInverse]
    exact Agrees.pure _ rfl ⟨stands.follows, trivial⟩
  | some block => by
    rw [traceInverse, Outline.ofInverse, Outline.planInverse]
    refine Agrees.bind (traceBlock_agrees enclosing c p stands "else" block) ?_
    rintro planned p' ⟨follows, laid⟩
    exact Agrees.pure _ rfl ⟨follows, laid⟩

theorem traceNamedBlocks_agrees (enclosing : List Binder) (c : Count) (p : Progress)
    (stands : Stands enclosing c p) (component : String) : (list : List Template.Statement) →
    Agrees (traceNamedBlocks rename component list) p
      (Outline.planAll rename (Outline.ofNamedBlocks enclosing c component list).1)
      ((Outline.placesOfAll rename enclosing
        (Outline.ofNamedBlocks enclosing c component list).1).flatMap Place.sightings)
      fun p' => Follows p (Outline.ofNamedBlocks enclosing c component list).2 p' ∧
        Outline.LaidNamed p'.table.scopes (Binder.current enclosing)
          (Outline.ofNamedBlocks enclosing c component list).1
  | [] => by
    rw [traceNamedBlocks]
    exact Agrees.pure _ rfl ⟨stands.follows, trivial⟩
  | s :: rest => by
    rw [traceNamedBlocks, Outline.ofNamedBlocks, Outline.planAll, Outline.placesOfAll]
    refine Agrees.bind (traceNamedBlock_agrees enclosing c p stands component s) ?_
    rintro first p₁ ⟨follows₁, laid₁⟩
    refine Agrees.bind
      (traceNamedBlocks_agrees enclosing _ p₁ (follows₁.stands stands) component rest) ?_
    rintro others p₂ ⟨follows₂, laid₂⟩
    exact Agrees.pure _ List.flatMap_append.symm
      ⟨follows₁.trans follows₂, laid₁.mono follows₂.table.scopes _ _, laid₂⟩

theorem traceNamedBlock_agrees (enclosing : List Binder) (c : Count) (p : Progress)
    (stands : Stands enclosing c p) (component : String) : (s : Template.Statement) →
    Agrees (traceNamedBlock rename component s) p
      ((Outline.ofNamedBlock enclosing c component s).1.plan rename)
      (((Outline.ofNamedBlock enclosing c component s).1.places rename
        enclosing).flatMap Place.sightings)
      fun p' => Follows p (Outline.ofNamedBlock enclosing c component s).2 p' ∧
        (Outline.ofNamedBlock enclosing c component s).1.LaidAmongNamed p'.table.scopes
          (Binder.current enclosing)
  | .element ⟨tag, attributes, modifiers, children, blockParams, selfClosing, loc⟩ => by
    rw [traceNamedBlock, Outline.ofNamedBlock]
    split
    · rw [Outline.plan]
      refine Agrees.lift _ fun _ _ => ?_
      refine Agrees.step (newScope_eq blockParams p) ?_
      have content := traceStatements_agrees _ _ _ (stands.enter blockParams true) children
      rw [stands.scopes]
      refine Agrees.scoped (Outline.LaidAll · c.scopes _) stands content (fun _ => rfl) ?_
      intro planned p' follows bound laid
      exact Agrees.pure _ rfl ⟨follows, bound, laid⟩
    · exact rfl
  | .mustache m => agrees_besideNamed rename stands component m.loc false
  | .block node => agrees_besideNamed rename stands component node.loc false
  | .text node =>
    agrees_besideNamed rename stands component node.loc (Text.isBlankText node.chars)
  | .comment node => agrees_besideNamed rename stands component node.loc true
  | .mustacheComment node => agrees_besideNamed rename stands component node.loc true

end

end Statements

/-- A template is planned as its outline is, every bare name in the scope around it, and its scopes
are laid out in the table. -/
theorem traceTemplate_agrees (rename : String → String) (t : Template) :
    match Outline.planAll rename (Outline.ofTemplate t) with
    | .error r => traceTemplate rename t = .error (.rejected r)
    | .ok body => ∃ table, traceTemplate rename t =
          .ok (⟨body, table⟩, (t.places rename).flatMap Place.sightings) ∧
        SymbolTable.empty.Extends table ∧
        Outline.LaidAll table.scopes SymbolTable.rootScope (Outline.ofTemplate t) := by
  have stands : Stands [] ⟨1, 0⟩ ⟨.empty, .singleton SymbolTable.rootScope, 0⟩ :=
    ⟨rfl, rfl, rfl, rfl⟩
  have agrees := traceStatements_agrees rename [] ⟨1, 0⟩ _ stands t.body
  unfold Agrees at agrees
  rw [Outline.ofTemplate]
  split at agrees
  · next body planned =>
    rw [planned]
    obtain ⟨p, ran, follows, laid⟩ := agrees
    refine ⟨p.table, ?_, follows.table, laid⟩
    show ((traceStatements rename t.body) _ >>= _) = _
    rw [ran]
    show (if p.scopes.size = 1 then _ else _) = _
    rw [follows.stack]
    rfl
  · next r planned =>
    rw [planned]
    show ((traceStatements rename t.body) _ >>= _) = _
    rw [agrees]
    rfl

end Plan

end TemplateCompiler

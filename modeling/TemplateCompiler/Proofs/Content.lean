import TemplateCompiler.Proofs.Operands

/-!
# Operations of planned statements

One rule for each form of statement: if the parts of a statement give operations that fill a
machine as the direct translation says, so does the whole. The rules speak of planned statements
only and do not ask where a plan comes from.

A rule holds for every state of the names that agrees on the scopes of the table and on the current
scope. It leaves the open scopes as they were, and the table only grows. Each rule also says which
bare names are read, and in which scopes.
-/

namespace TemplateCompiler

/-- Whether a statement neither opens nor closes anything but a plain element. -/
def Plan.Statement.isLeaf : Plan.Statement → Bool
  | .append _ | .appendTrusted _ | .comment _ | .openElement _ | .openElementWithSplat _
  | .closeElement | .attr _ _ _ _ | .arg _ _ | .attrSplat | .modifier _ _ _ | .yield _ _
  | .partialTemplate _ | .debugger => true
  | _ => false

/-- The statement that a planned one stands for, if it is a leaf. -/
def Direct.leaf (mode : Program.Mode) (table : SymbolTable) (scope : Nat) :
    Plan.Statement → Wire.Statement
  | .append value => .append (planned mode table scope value)
  | .appendTrusted value => .trustingAppend (planned mode table scope value)
  | .comment value => .comment value
  | .openElement tag => .openElement tag
  | .openElementWithSplat tag => .openElementWithSplat tag
  | .attr kind name space value => .attr kind name (planned mode table scope value) space
  | .arg name value =>
    if value.value.isLiteral then .staticArg name (planned mode table scope value)
    else .dynamicArg name (planned mode table scope value)
  | .attrSplat => .attrSplat (blockSlot table "attrs")
  | .modifier head params hash =>
    .modifier (planned mode table scope head) (plannedList mode table scope params.list)
      (plannedPairs mode table scope hash.pairs)
  | .yield target params =>
    .yield (blockSlot table target) (plannedList mode table scope params.list)
  | .partialTemplate name =>
    .partialTemplate (planned mode table scope name) (table.evalInfo scope)
  | .debugger => .debugger (table.evalInfo scope)
  | _ => .closeElement

namespace Program

open Assembly (Machine)
open Assembly.Machine (Adds Fills Runs Supplies Suspends add apply opening)

/-! ### Finding names -/

/-- The computation succeeds in a scope, closes what it opens, gives operations with a property of
the finished table, and reads bare names. -/
def Resolves (mode : Mode) (x : Resolving (List Traced)) (scopes : List Scope) (scope : Nat)
    (meets : SymbolTable → List (Located Op) → Prop) (seen : List Sighting) : Prop :=
  ∀ names : Names, names.table.scopes = scopes → names.scopes.current = scope →
    ∃ stream table, x names = .ok (stream, ⟨table, names.scopes⟩) ∧ names.table.Grows table ∧
      ∀ final, table.Grows final → meets final (erase stream) ∧ Reads mode final seen stream

section Rules

variable {mode : Mode} {scopes : List Scope} {scope : Nat}

/-- A weaker property holds of the operations as well. -/
theorem Resolves.mono {x : Resolving (List Traced)}
    {meets meets' : SymbolTable → List (Located Op) → Prop} {seen seen' : List Sighting}
    (resolves : Resolves mode x scopes scope meets seen)
    (weaker : ∀ final ops, final.scopes = scopes → meets final ops → meets' final ops)
    (same : seen = seen') : Resolves mode x scopes scope meets' seen' := by
  subst same
  intro names sameScopes current
  obtain ⟨stream, table, found, grows, holds⟩ := resolves names sameScopes current
  refine ⟨stream, table, found, grows, fun final later => ?_⟩
  obtain ⟨met, reads⟩ := holds final later
  exact ⟨weaker final _ (later.scopes.trans (grows.scopes.trans sameScopes)) met, reads⟩

theorem Resolves.nil {meets : SymbolTable → List (Located Op) → Prop}
    (holds : ∀ final, meets final []) : Resolves mode (pure []) scopes scope meets [] :=
  fun names _ _ => ⟨[], names.table, rfl, .refl _, fun final _ => ⟨holds final, .nil⟩⟩

/-- An operation that is always the same. -/
theorem Resolves.pure (op : Op) (span : Span) {meets : SymbolTable → List (Located Op) → Prop}
    (holds : ∀ final, meets final [⟨op, span⟩]) :
    Resolves mode (pure [unmarked op span]) scopes scope meets [] :=
  fun names _ _ => ⟨_, names.table, rfl, .refl _, fun final _ => ⟨holds final, .unmarked op span⟩⟩

/-- In a scope that exists, names can be looked up. -/
theorem naming_of_known {α : Type} (f : Nat → StateM SymbolTable α) {names : Names}
    (known : names.scopes.current < names.table.scopes.length) :
    naming f names = .ok ((f names.scopes.current names.table).1,
      { names with table := (f names.scopes.current names.table).2 }) := by
  simp only [naming, known, if_true]
  rfl

/-- The operands of a statement. -/
theorem Resolves.operands (x : Nat → Tracing) {operands : SymbolTable → List Assembly.Operand}
    {mentioned : List Mention} (leaves : Leaves mode scope (x scope) operands mentioned)
    (known : scope < scopes.length) :
    Resolves mode (naming x) scopes scope
      (fun final ops =>
        ∀ m : Machine, Runs ops m { m with operands := operands final ++ m.operands })
      (sightings scope mentioned) := by
  intro names sameScopes current
  subst sameScopes
  subst current
  obtain ⟨grows, holds⟩ := leaves names.table
  exact ⟨_, _, naming_of_known x known, grows, holds⟩

theorem slotsOf_eq {names : Names} {scope : Nat} {found : Scope}
    (at_ : names.table.scopes[scope]? = some found) :
    slotsOf scope names = .ok (found.slots, names) := by
  simp [slotsOf, at_]

/-! ### Lists of statements -/

/-- Statements in a row are traced one after the other. -/
theorem traceStatements_append (xs ys : List (Located Plan.Statement)) {names between after : Names}
    {first second : List Traced} (one : traceStatements mode xs names = .ok (first, between))
    (two : traceStatements mode ys between = .ok (second, after)) :
    traceStatements mode (xs ++ ys) names = .ok (first ++ second, after) := by
  induction xs generalizing names first with
  | nil =>
    cases one
    exact two
  | cons s rest ih =>
    cases here : traceStatement mode s names with
    | error d =>
      rw [traceStatements, bind_of_error here] at one
      cases one
    | ok done =>
      obtain ⟨ops, next⟩ := done
      cases others : traceStatements mode rest next with
      | error d =>
        rw [traceStatements, bind_of_ok here, bind_of_error others] at one
        cases one
      | ok last =>
        obtain ⟨more, end_⟩ := last
        rw [traceStatements, bind_of_ok here, bind_of_ok others] at one
        cases one
        rw [List.cons_append, traceStatements, bind_of_ok here, bind_of_ok (ih others),
          List.append_assoc]
        rfl

theorem traceStatements_single {s : Located Plan.Statement} {names after : Names}
    {stream : List Traced} (one : traceStatement mode s names = .ok (stream, after)) :
    traceStatements mode [s] names = .ok (stream, after) := by
  rw [traceStatements, bind_of_ok one]
  show Except.ok (stream ++ [], after) = _
  rw [List.append_nil]

/-- Properties of two runs of operations are joined to one of the whole run. -/
theorem Resolves.append {xs ys : List (Located Plan.Statement)}
    {first second both : SymbolTable → List (Located Op) → Prop} {before after : List Sighting}
    (one : Resolves mode (traceStatements mode xs) scopes scope first before)
    (two : Resolves mode (traceStatements mode ys) scopes scope second after)
    (join : ∀ final as bs, first final as → second final bs → both final (as ++ bs)) :
    Resolves mode (traceStatements mode (xs ++ ys)) scopes scope both (before ++ after) := by
  intro names sameScopes current
  obtain ⟨as, table, found, grows, holds⟩ := one names sameScopes current
  obtain ⟨bs, table', found', grows', holds'⟩ :=
    two ⟨table, names.scopes⟩ (grows.scopes.trans sameScopes) current
  refine ⟨as ++ bs, table', traceStatements_append xs ys found found', grows.trans grows', ?_⟩
  intro final later
  obtain ⟨met, reads⟩ := holds final (grows'.trans later)
  obtain ⟨met', reads'⟩ := holds' final later
  rw [erase_append]
  exact ⟨join final _ _ met met', reads.append reads'⟩

/-- The content of two runs of statements is put together. -/
theorem Resolves.fills {xs ys : List (Located Plan.Statement)}
    {before after : SymbolTable → List Wire.Statement} {seen later : List Sighting}
    (one : Resolves mode (traceStatements mode xs) scopes scope
      (fun final ops => Fills ops (before final)) seen)
    (two : Resolves mode (traceStatements mode ys) scopes scope
      (fun final ops => Fills ops (after final)) later) :
    Resolves mode (traceStatements mode (xs ++ ys)) scopes scope
      (fun final ops => Fills ops (before final ++ after final)) (seen ++ later) :=
  one.append two fun _ _ _ => Fills.append

theorem Resolves.single {s : Located Plan.Statement}
    {meets : SymbolTable → List (Located Op) → Prop} {seen : List Sighting}
    (one : Resolves mode (traceStatement mode s) scopes scope meets seen) :
    Resolves mode (traceStatements mode [s]) scopes scope meets seen := by
  intro names sameScopes current
  obtain ⟨stream, table, found, grows, holds⟩ := one names sameScopes current
  exact ⟨stream, table, traceStatements_single found, grows, holds⟩

/-! ### Statements that stand alone -/

/-- An operation that takes operands and adds a statement. -/
theorem Resolves.leaf (x : Nat → Tracing) {operands : SymbolTable → List Assembly.Operand}
    {mentioned : List Mention} (leaves : Leaves mode scope (x scope) operands mentioned)
    (known : scope < scopes.length) (op : Op) (span : Span) {added : SymbolTable → Wire.Statement}
    (applied : ∀ final (m : Machine), apply op { m with operands := operands final } =
      add (added final) { m with operands := [] }) :
    Resolves mode (do let a ← naming x; return a ++ [unmarked op span]) scopes scope
      (fun final ops => Adds ops [added final]) (sightings scope mentioned) := by
  intro names sameScopes current
  obtain ⟨stream, table, found, grows, holds⟩ :=
    Resolves.operands x leaves known names sameScopes current
  refine ⟨stream ++ [unmarked op span], table, ?_, grows, ?_⟩
  · rw [bind_of_ok found]
    rfl
  · intro final later
    obtain ⟨runs, reads⟩ := holds final later
    rw [erase_append]
    exact ⟨Adds.of_operands runs (applied final), reads.andThen op span⟩

/-- An operation that adds a statement without operands adds it from anywhere. -/
theorem adds_single {op : Op} {span : Span} {s : Wire.Statement}
    (applied : ∀ m : Machine,
      apply op { m with operands := [] } = add s { m with operands := [] }) :
    Adds [⟨op, span⟩] [s] := by
  have pushes : ∀ m : Machine, Runs [] m { m with operands := [] ++ m.operands } :=
    fun m => Runs.nil m
  exact Adds.of_operands pushes applied

theorem resolves_attrSplat (span : Span) (known : scope < scopes.length) :
    Resolves mode (traceStatementAt mode span .attrSplat) scopes scope
      (fun final ops => Adds ops [.attrSplat (Direct.blockSlot final "attrs")]) [] := by
  intro names sameScopes current
  subst sameScopes
  subst current
  refine ⟨_, _, bind_of_ok (naming_of_known _ known), SymbolTable.allocateBlock_grows "attrs" _, ?_⟩
  intro final later
  dsimp only
  rw [blockSlot_of_grows "attrs" names.table final later]
  exact ⟨adds_single fun _ => rfl, .unmarked _ span⟩

/-- A `yield` is added with the slot of its block and with its arguments. -/
theorem resolves_yield (span : Span) (target : String)
    (params : Plan.Params (Located Plan.Expression)) (known : scope < scopes.length) :
    Resolves mode (traceStatementAt mode span (.yield target params)) scopes scope
      (fun final ops => Adds ops [.yield (Direct.blockSlot final target)
        (Direct.plannedList mode final scope params.list)])
      (sightings scope (Plan.mentionsOfList params.list)) := by
  intro names sameScopes current
  obtain ⟨stream, table, found, grows, holds⟩ :=
    Resolves.operands (traceParams mode · params) (leaves_ofParams mode scope params) known
      names sameScopes current
  have knownStill : names.scopes.current < table.scopes.length := by
    rw [grows.scopes, sameScopes, current]
    exact known
  have allocated := SymbolTable.allocateBlock_grows target table
  refine ⟨stream ++ [unmarked (.yield (table.allocateBlock target).1) span],
    (table.allocateBlock target).2, ?_, grows.trans allocated, ?_⟩
  · rw [traceStatementAt, bind_of_ok found, bind_of_ok (naming_of_known _ knownStill)]
    rfl
  · intro final later
    obtain ⟨runs, reads⟩ := holds final (allocated.trans later)
    dsimp only
    rw [blockSlot_of_grows target table final later, erase_append]
    exact ⟨Adds.of_operands runs fun _ => rfl, reads.andThen _ span⟩

theorem evalInfo_eq {names : Names} (known : names.scopes.current < names.table.scopes.length) :
    evalInfo names = .ok (names.table.evalInfo names.scopes.current, names) :=
  naming_of_known _ known

/-- A partial takes along the slots of all visible names. -/
theorem resolves_partialTemplate (span : Span) (name : Located Plan.Expression)
    (known : scope < scopes.length) :
    Resolves mode (traceStatementAt mode span (.partialTemplate name)) scopes scope
      (fun final ops => Adds ops
        [.partialTemplate (Direct.planned mode final scope name) (final.evalInfo scope)])
      (sightings scope (Plan.mentions name)) := by
  intro names sameScopes current
  obtain ⟨stream, table, found, grows, holds⟩ :=
    Resolves.operands (traceExpression mode · name) (leaves_expression mode scope name) known
      names sameScopes current
  have knownStill : names.scopes.current < table.scopes.length := by
    rw [grows.scopes, sameScopes, current]
    exact known
  refine ⟨stream ++ [unmarked (.partialTemplate (table.evalInfo scope)) span], table, ?_, grows, ?_⟩
  · rw [traceStatementAt, bind_of_ok found, bind_of_ok (evalInfo_eq knownStill), ← current]
    rfl
  · intro final later
    obtain ⟨runs, reads⟩ := holds final later
    dsimp only
    rw [SymbolTable.evalInfo_of_scopes later.scopes, erase_append]
    exact ⟨Adds.of_operands runs fun _ => rfl, reads.andThen _ span⟩

/-- A debugger takes along the slots of all visible names. -/
theorem resolves_debugger (span : Span) (known : scope < scopes.length) :
    Resolves mode (traceStatementAt mode span .debugger) scopes scope
      (fun final ops => Adds ops [.debugger (final.evalInfo scope)]) [] := by
  intro names sameScopes current
  subst sameScopes
  subst current
  refine ⟨_, _, bind_of_ok (evalInfo_eq known), .refl _, ?_⟩
  intro final later
  dsimp only
  rw [SymbolTable.evalInfo_of_scopes later.scopes]
  exact ⟨adds_single fun _ => rfl, .unmarked _ span⟩

/-- A statement that neither opens nor closes anything becomes one statement. -/
theorem resolves_leaf {s : Plan.Statement} (leaf : s.isLeaf = true) (span : Span)
    (known : scope < scopes.length) :
    Resolves mode (traceStatement mode ⟨s, span⟩) scopes scope
      (fun final ops => Adds ops [Direct.leaf mode final scope s])
      (sightings scope s.mentions) := by
  show Resolves mode (traceStatementAt mode span s) scopes scope _ _
  cases s with
  | append value =>
    exact Resolves.leaf (traceExpression mode · value) (leaves_expression mode scope value) known
      .append span fun _ _ => rfl
  | appendTrusted value =>
    exact Resolves.leaf (traceExpression mode · value) (leaves_expression mode scope value) known
      .trustingAppend span fun _ _ => rfl
  | attr kind name space value =>
    exact Resolves.leaf (traceExpression mode · value) (leaves_expression mode scope value) known
      (.attr kind name space) span fun _ _ => rfl
  | arg name value =>
    refine Resolves.leaf (traceExpression mode · value) (leaves_expression mode scope value) known
      _ span fun final m => ?_
    cases literal : value.value.isLiteral
    · simp only [Direct.leaf, literal, Bool.false_eq_true, if_false]
      rfl
    · simp only [Direct.leaf, literal, if_true]
      rfl
  | modifier head params hash =>
    exact Resolves.leaf (traceCall mode · head params hash)
      (leaves_ofCall mode scope head params hash) known .modifier span fun _ _ => rfl
  | attrSplat => exact resolves_attrSplat span known
  | yield target params => exact resolves_yield span target params known
  | partialTemplate name => exact resolves_partialTemplate span name known
  | debugger => exact resolves_debugger span known
  | comment value => exact Resolves.pure _ span fun _ => adds_single fun _ => rfl
  | openElement tag => exact Resolves.pure _ span fun _ => adds_single fun _ => rfl
  | openElementWithSplat tag => exact Resolves.pure _ span fun _ => adds_single fun _ => rfl
  | closeElement => exact Resolves.pure _ span fun _ => adds_single fun _ => rfl
  | _ => cases leaf

/-- Statements without content are added in order. -/
theorem resolves_leaves {list : List (Located Plan.Statement)} (known : scope < scopes.length)
    (leaves : ∀ s ∈ list, s.value.isLeaf = true) :
    Resolves mode (traceStatements mode list) scopes scope
      (fun final ops => Adds ops (list.map fun s => Direct.leaf mode final scope s.value))
      (sightings scope (list.flatMap fun s => s.value.mentions)) := by
  induction list with
  | nil => exact Resolves.nil fun _ => .nil
  | cons s rest ih =>
    have first : Resolves mode (traceStatements mode [s]) scopes scope
        (fun final ops => Adds ops [Direct.leaf mode final scope s.value])
        (sightings scope s.value.mentions) :=
      (resolves_leaf (leaves s List.mem_cons_self) s.span known).single
    have later := ih fun t found => leaves t (List.mem_cons_of_mem s found)
    rw [List.flatMap_cons, sightings_append]
    exact first.append later fun _ _ _ => Adds.append

/-- A plain element: its opening, what stands in the tag, the end of the tag, content, closing. -/
theorem resolves_element {opening : Plan.Statement}
    {entries content : List (Located Plan.Statement)}
    {span : Span} {out : SymbolTable → List Wire.Statement} {inside : List Sighting}
    (known : scope < scopes.length) (leaf : opening.isLeaf = true)
    (leaves : ∀ s ∈ entries, s.value.isLeaf = true)
    (fills : Resolves mode (traceStatements mode content) scopes scope
      (fun final ops => Fills ops (out final)) inside) :
    Resolves mode (traceStatements mode (⟨opening, span⟩ :: entries ++
      [⟨.flushElement none, span⟩] ++ content ++ [⟨.closeElement, span⟩])) scopes scope
      (fun final ops => Fills ops (Direct.leaf mode final scope opening ::
        entries.map (fun s => Direct.leaf mode final scope s.value) ++ [.flushElement] ++
          out final ++ [.closeElement]))
      (sightings scope (opening.mentions ++ entries.flatMap fun s => s.value.mentions) ++
        inside) := by
  have tagged : Resolves mode (traceStatements mode (⟨opening, span⟩ :: entries)) scopes scope
      (fun final ops => Fills ops (Direct.leaf mode final scope opening ::
        entries.map fun s => Direct.leaf mode final scope s.value))
      (sightings scope (opening.mentions ++ entries.flatMap fun s => s.value.mentions)) := by
    refine Resolves.mono (resolves_leaves known ?_) (fun final ops _ adds => adds.fills) rfl
    intro s found
    rcases List.mem_cons.mp found with rfl | there
    · exact leaf
    · exact leaves s there
  have flushes : Resolves mode (traceStatement mode ⟨.flushElement none, span⟩) scopes scope
      (fun _ ops => Fills ops [.flushElement]) [] :=
    Resolves.pure _ span fun _ => .flushElement span
  have closes : Resolves mode (traceStatement mode ⟨.closeElement, span⟩) scopes scope
      (fun _ ops => Fills ops [.closeElement]) [] :=
    (resolves_leaf rfl span known).mono (fun _ _ _ adds => adds.fills) rfl
  refine (((tagged.fills flushes.single).fills fills).fills closes.single).mono
    (fun _ _ _ filled => filled) ?_
  simp only [List.append_nil]

/-! ### Scopes around content -/

theorem enterScope_eq (names : Names) (inner : Nat) :
    enterScope inner names = .ok ((), ⟨names.table, names.scopes.push inner⟩) := rfl

theorem exitScope_push (table : SymbolTable) (open_ : Stack Nat) (inner : Nat) :
    exitScope ⟨table, open_.push inner⟩ = .ok ((), ⟨table, open_⟩) := rfl

/-- A block is resolved in its own scope, with the slots of that scope as parameters. -/
theorem resolves_block {name : String} {inner : Nat} {body : List (Located Plan.Statement)}
    {span : Span} {found : Scope} {out : SymbolTable → List Wire.Statement} {inside : List Sighting}
    (bound : scopes[inner]? = some found)
    (content : Resolves mode (traceStatements mode body) scopes inner
      (fun final ops => Fills ops (out final)) inside) :
    Resolves mode (traceBlock mode ⟨name, inner, body, span⟩) scopes scope
      (fun final ops => Suspends ops [⟨name, ⟨out final, found.slots⟩⟩]) inside := by
  intro names sameScopes current
  obtain ⟨stream, table, resolved, grows, holds⟩ :=
    content ⟨names.table, names.scopes.push inner⟩ sameScopes rfl
  refine ⟨unmarked (.startBlock name found.slots) span :: stream ++ [unmarked .endBlock span],
    table, ?_, grows, ?_⟩
  · rw [traceBlock, bind_of_ok (slotsOf_eq (sameScopes ▸ bound)),
      bind_of_ok (enterScope_eq names inner), bind_of_ok resolved,
      bind_of_ok (exitScope_push table names.scopes inner)]
    rfl
  · intro final later
    obtain ⟨fills, reads⟩ := holds final later
    rw [erase_append]
    refine ⟨fills.block name found.slots span, ?_⟩
    exact ((Reads.unmarked (.startBlock name found.slots) span).append reads).andThen _ span

/-- A named block is supplied under its name, with the slots of its parameters. -/
theorem resolves_namedBlock {name : String} {inner : Nat} {body : List (Located Plan.Statement)}
    {span : Span} {found : Scope} {out : SymbolTable → List Wire.Statement} {inside : List Sighting}
    (bound : scopes[inner]? = some found)
    (content : Resolves mode (traceStatements mode body) scopes inner
      (fun final ops => Fills ops (out final)) inside) :
    Resolves mode (traceStatements mode
      (⟨.openNamedBlock name inner, span⟩ :: body ++ [⟨.closeNamedBlock, span⟩])) scopes scope
      (fun final ops => Supplies ops [(name, ⟨out final, found.slots⟩)]) inside := by
  intro names sameScopes current
  obtain ⟨stream, table, resolved, grows, holds⟩ :=
    content ⟨names.table, names.scopes.push inner⟩ sameScopes rfl
  have opens : traceStatement mode ⟨.openNamedBlock name inner, span⟩ names =
      .ok ([unmarked (.openNamedBlock name found.slots) span],
        ⟨names.table, names.scopes.push inner⟩) := by
    show (slotsOf inner >>= _) names = _
    rw [bind_of_ok (slotsOf_eq (sameScopes ▸ bound)), bind_of_ok (enterScope_eq names inner)]
    rfl
  have closes : traceStatement mode ⟨.closeNamedBlock, span⟩ ⟨table, names.scopes.push inner⟩ =
      .ok ([unmarked .closeNamedBlock span], ⟨table, names.scopes⟩) := rfl
  have whole := traceStatements_append _ _ (traceStatements_append [_] body
    (traceStatements_single opens) resolved) (traceStatements_single closes)
  refine ⟨_, table, whole, grows, ?_⟩
  intro final later
  obtain ⟨fills, reads⟩ := holds final later
  rw [erase_append]
  refine ⟨fills.namedBlock name found.slots span, ?_⟩
  exact ((Reads.unmarked (.openNamedBlock name found.slots) span).append reads).andThen _ span

/-- The rule for components, whatever their content does to the one that is open. -/
theorem resolves_component {tag : Located Plan.Expression} {selfClosing : Bool} {inner : Nat}
    {attributes content : List (Located Plan.Statement)} {close : Plan.Statement}
    {span : Span} {found : Scope} {entries : SymbolTable → List Wire.Statement}
    {written : List Mention} {inside : List Sighting}
    (closed : SymbolTable → Assembly.Component) (known : scope < scopes.length)
    (bound : scopes[inner]? = some found)
    (closing : close = .closeComponent ∨ close = .closeDynamicComponent)
    (opens : Resolves mode (traceStatements mode attributes) scopes scope
      (fun final ops => Adds ops (entries final)) (sightings scope written))
    (filed : ∀ final, ∀ s ∈ entries final, s.isAttribute = true ∨ s.arg?.isSome = true)
    (fills : Resolves mode (traceStatements mode content) scopes inner (fun final ops =>
      ∀ (m : Machine) (rest : List Assembly.Container), m.operands = [] →
        m.opened = .component (opening (Direct.planned mode final scope tag) selfClosing found.slots
          (entries final)) :: rest →
          Runs ops m { m with opened := .component (closed final) :: rest }) inside) :
    Resolves mode (traceStatements mode (⟨.openComponent tag selfClosing inner, span⟩ ::
      attributes ++ [⟨.flushElement (some inner), span⟩] ++ content ++ [⟨close, span⟩])) scopes
      scope (fun final ops => Fills ops [(closed final).finish])
      (sightings scope (Plan.mentions tag ++ written) ++ inside) := by
  intro names sameScopes current
  obtain ⟨tagOps, table₁, tagFound, grows₁, tagHolds⟩ :=
    Resolves.operands (traceExpression mode · tag) (leaves_expression mode scope tag) known
      names sameScopes current
  have sameScopes₁ : table₁.scopes = scopes := grows₁.scopes.trans sameScopes
  obtain ⟨attributeOps, table₂, opened, grows₂, attributesHold⟩ :=
    opens ⟨table₁, names.scopes⟩ sameScopes₁ current
  obtain ⟨contentOps, table₃, filled, grows₃, contentHolds⟩ :=
    fills ⟨table₂, names.scopes.push inner⟩ (grows₂.scopes.trans sameScopes₁) rfl
  have starts : traceStatement mode ⟨.openComponent tag selfClosing inner, span⟩ names =
      .ok (tagOps ++ [unmarked (.openComponent selfClosing found.slots) span],
        ⟨table₁, names.scopes⟩) := by
    show (naming _ >>= _) names = _
    rw [bind_of_ok tagFound, bind_of_ok (slotsOf_eq (sameScopes₁ ▸ bound))]
    rfl
  have flushes : traceStatement mode ⟨.flushElement (some inner), span⟩ ⟨table₂, names.scopes⟩ =
      .ok ([unmarked .flushElement span], ⟨table₂, names.scopes.push inner⟩) := rfl
  have closes : traceStatement mode ⟨close, span⟩ ⟨table₃, names.scopes.push inner⟩ =
      .ok ([unmarked .closeComponent span], ⟨table₃, names.scopes⟩) := by
    rcases closing with rfl | rfl <;> rfl
  have whole := traceStatements_append _ _ (traceStatements_append _ _ (traceStatements_append _ _
    (traceStatements_append [_] attributes (traceStatements_single starts) opened)
    (traceStatements_single flushes)) filled) (traceStatements_single closes)
  refine ⟨_, table₃, whole, (grows₁.trans grows₂).trans grows₃, ?_⟩
  intro final later
  obtain ⟨pushes, tagReads⟩ := tagHolds final ((grows₂.trans grows₃).trans later)
  obtain ⟨adds, attributeReads⟩ := attributesHold final (grows₃.trans later)
  obtain ⟨runs, contentReads⟩ := contentHolds final later
  constructor
  · simp only [erase_append]
    exact Fills.component pushes adds (filed final) runs
  · rw [sightings_append]
    exact (((tagReads.andThen _ span).append attributeReads).andThen _ span |>.append
      contentReads).andThen _ span

/-! ### Block statements -/

/-- A block statement takes its call and its waiting blocks. -/
theorem adds_invocation {blockOps callOps : List (Located Op)} {program : Assembly.NamedBlock}
    {inverse : Option Assembly.NamedBlock} {head : Wire.Expression} {params : List Wire.Expression}
    {hash : List (String × Wire.Expression)} {span : Span}
    (waits : Suspends blockOps (program :: inverse.toList))
    (pushes : ∀ m : Machine, Runs callOps m
      { m with operands := [.expression head, .params params, .hash hash] ++ m.operands }) :
    Adds (blockOps ++ callOps ++ [⟨.invokeBlock inverse.isSome, span⟩])
      [.block head params hash
        (("default", program.block) :: (inverse.map fun b => ("else", b.block)).toList)] := by
  apply Adds.of_prepared
  intro m noOperands
  refine ⟨_, (waits m noOperands).append (pushes _), ?_⟩
  obtain ⟨operands, template, opened, finished⟩ := m
  cases noOperands
  cases inverse <;> rfl

/-- An `in-element` block takes its destination and its waiting block. -/
theorem adds_inElement {blockOps destinationOps beforeOps : List (Located Op)}
    {program : Assembly.NamedBlock} {destination : Wire.Expression}
    {before : Option Wire.Expression} {guid : String} {span : Span}
    (waits : Suspends blockOps [program])
    (pushes : ∀ m : Machine, Runs destinationOps m
      { m with operands := [.expression destination] ++ m.operands })
    (pushesBefore : ∀ m : Machine, Runs beforeOps m
      { m with operands := before.toList.map .expression ++ m.operands }) :
    Adds (blockOps ++ destinationOps ++ beforeOps ++ [⟨.inElement guid before.isSome, span⟩])
      [.inElement program.block guid destination before] := by
  apply Adds.of_prepared
  intro m noOperands
  refine ⟨_, ((waits m noOperands).append (pushes _)).append (pushesBefore _), ?_⟩
  obtain ⟨operands, template, opened, finished⟩ := m
  cases noOperands
  cases before <;> rfl

/-- The operands of a block statement are pushed after its blocks have ended. -/
theorem resolves_invocation {head : Located Plan.Expression}
    {params : Plan.Params (Located Plan.Expression)}
    {hash : Template.Hash (Located Plan.Expression)}
    {program : Plan.NamedBlock (Located Plan.Statement)}
    {inverse : Option (Plan.NamedBlock (Located Plan.Statement))} {span : Span}
    {body : SymbolTable → Assembly.NamedBlock} {other : SymbolTable → Option Assembly.NamedBlock}
    {inside inOther : List Sighting} (known : scope < scopes.length)
    (sameShape : ∀ final, (other final).isSome = inverse.isSome)
    (inverseWaits : Resolves mode (traceInverse mode inverse) scopes scope
      (fun final ops => Suspends ops (other final).toList) inOther)
    (programWaits : Resolves mode (traceBlock mode program) scopes scope
      (fun final ops => Suspends ops [body final]) inside) :
    Resolves mode (traceStatement mode ⟨.invokeBlock head params hash program inverse, span⟩)
      scopes scope
      (fun final ops => Adds ops [.block (Direct.planned mode final scope head)
        (Direct.plannedList mode final scope params.list)
        (Direct.plannedPairs mode final scope hash.pairs)
        (("default", (body final).block) ::
          ((other final).map fun b => ("else", b.block)).toList)])
      (inOther ++ inside ++ sightings scope (Plan.mentionsOfCall head params hash)) := by
  intro names sameScopes current
  obtain ⟨otherOps, table₁, otherFound, grows₁, otherHolds⟩ :=
    inverseWaits names sameScopes current
  have sameScopes₁ : table₁.scopes = scopes := grows₁.scopes.trans sameScopes
  obtain ⟨blockOps, table₂, blockFound, grows₂, blockHolds⟩ :=
    programWaits ⟨table₁, names.scopes⟩ sameScopes₁ current
  obtain ⟨callOps, table₃, callFound, grows₃, callHolds⟩ :=
    Resolves.operands (traceCall mode · head params hash)
      (leaves_ofCall mode scope head params hash) known ⟨table₂, names.scopes⟩
      (grows₂.scopes.trans sameScopes₁) current
  refine ⟨otherOps ++ blockOps ++ callOps ++ [unmarked (.invokeBlock inverse.isSome) span], table₃,
    ?_, (grows₁.trans grows₂).trans grows₃, ?_⟩
  · rw [traceStatement, traceStatementAt, bind_of_ok otherFound, bind_of_ok blockFound,
      bind_of_ok callFound]
    rfl
  · intro final later
    obtain ⟨otherWaits, otherReads⟩ := otherHolds final ((grows₂.trans grows₃).trans later)
    obtain ⟨blockWaits, blockReads⟩ := blockHolds final (grows₃.trans later)
    obtain ⟨pushes, callReads⟩ := callHolds final later
    constructor
    · simp only [erase_append]
      rw [← sameShape final]
      exact adds_invocation (otherWaits.append blockWaits) pushes
    · exact ((otherReads.append blockReads).append callReads).andThen _ span

/-- An `in-element` block is added with its content, its id and its destination. -/
theorem resolves_inElement {destination : Located Plan.Expression}
    {before : Option (Located Plan.Expression)} {guid : String}
    {block : Plan.NamedBlock (Located Plan.Statement)} {span : Span}
    {body : SymbolTable → Assembly.NamedBlock} {inside : List Sighting}
    (known : scope < scopes.length)
    (waits : Resolves mode (traceBlock mode block) scopes scope
      (fun final ops => Suspends ops [body final]) inside) :
    Resolves mode (traceStatement mode ⟨.inElement destination before guid block, span⟩) scopes
      scope (fun final ops => Adds ops [.inElement (body final).block guid
        (Direct.planned mode final scope destination)
        (before.map (Direct.planned mode final scope))])
      (inside ++ sightings scope
        (Plan.mentions destination ++ (before.map Plan.mentions).getD [])) := by
  intro names sameScopes current
  obtain ⟨blockOps, table₁, blockFound, grows₁, blockHolds⟩ := waits names sameScopes current
  have sameScopes₁ : table₁.scopes = scopes := grows₁.scopes.trans sameScopes
  obtain ⟨destinationOps, table₂, destinationFound, grows₂, destinationHolds⟩ :=
    Resolves.operands (traceExpression mode · destination)
      (leaves_expression mode scope destination) known ⟨table₁, names.scopes⟩ sameScopes₁ current
  have pushesBefore : Resolves mode
      (before.elim (Pure.pure []) fun value => naming (traceExpression mode · value)) scopes scope
      (fun final ops => ∀ m : Machine, Runs ops m { m with operands :=
        (before.map (Direct.planned mode final scope)).toList.map .expression ++ m.operands })
      (sightings scope ((before.map Plan.mentions).getD [])) := by
    cases before with
    | none => exact Resolves.nil fun _ m => Runs.nil m
    | some value =>
      exact Resolves.operands (traceExpression mode · value) (leaves_expression mode scope value)
        known
  obtain ⟨beforeOps, table₃, beforeFound, grows₃, beforeHolds⟩ :=
    pushesBefore ⟨table₂, names.scopes⟩ (grows₂.scopes.trans sameScopes₁) current
  refine ⟨blockOps ++ destinationOps ++ beforeOps ++
    [unmarked (.inElement guid before.isSome) span], table₃, ?_,
    (grows₁.trans grows₂).trans grows₃, ?_⟩
  · rw [traceStatement, traceStatementAt, bind_of_ok blockFound, bind_of_ok destinationFound]
    cases before with
    | none => exact bind_of_ok beforeFound
    | some value => exact bind_of_ok beforeFound
  · intro final later
    obtain ⟨blockWaits, blockReads⟩ := blockHolds final ((grows₂.trans grows₃).trans later)
    obtain ⟨pushes, destinationReads⟩ := destinationHolds final (grows₃.trans later)
    obtain ⟨beforeRuns, beforeReads⟩ := beforeHolds final later
    have sameShape : before.isSome = (before.map (Direct.planned mode final scope)).isSome :=
      Option.isSome_map.symm
    constructor
    · simp only [erase_append]
      rw [sameShape]
      exact adds_inElement blockWaits pushes beforeRuns
    · rw [sightings_append, ← List.append_assoc]
      exact ((blockReads.append destinationReads).append beforeReads).andThen _ span

end Rules

end Program

end TemplateCompiler

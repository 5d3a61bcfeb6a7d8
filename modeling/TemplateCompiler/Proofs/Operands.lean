import TemplateCompiler.Proofs.Direct
import TemplateCompiler.Proofs.Growth
import TemplateCompiler.Proofs.ProgramTrace
import TemplateCompiler.Proofs.Running

/-!
# Operands of planned expressions

The operations for an expression leave its value on top of the operands and touch nothing else of
the machine. The value is that of the direct translation, in the table that the names were found in
and in every table that grows from it.

The operations are taken with their marks, so that it can be said at the same time which of them
read the bare names of the expression, and how.
-/

namespace TemplateCompiler

open Assembly (Machine Operand)
open Template (Hash Pair)

namespace Direct

variable (mode : Program.Mode) (table : SymbolTable) (scope : Nat)

mutual

def planned : Located Plan.Expression → Wire.Expression
  | ⟨e, _⟩ => plannedAt e

def plannedAt : Plan.Expression → Wire.Expression
  | .literal value => literal value
  | .path head tail => .getPath (planned head) tail
  | .arg name => .getSymbol (argSlot table name)
  | .self => .getSymbol 0
  | .variable name context => read mode table scope name context
  | .hasBlock target => .hasBlock (.getSymbol (blockSlot table target))
  | .hasBlockParams target => .hasBlockParams (.getSymbol (blockSlot table target))
  | .concat ⟨list, _⟩ => .concat (plannedList list)
  | .call head ⟨list, _⟩ ⟨named, _⟩ => .call (planned head) (plannedList list) (plannedPairs named)

def plannedList : List (Located Plan.Expression) → List Wire.Expression
  | [] => []
  | e :: rest => planned e :: plannedList rest

def plannedPairs : List (Pair (Located Plan.Expression)) → List (String × Wire.Expression)
  | [] => []
  | ⟨key, value, _⟩ :: rest => (key, planned value) :: plannedPairs rest

end

/-- Every argument is translated by itself, in order. -/
theorem plannedList_eq_map (list : List (Located Plan.Expression)) :
    plannedList mode table scope list = list.map (planned mode table scope) := by
  induction list with
  | nil => rfl
  | cons e rest ih => rw [plannedList, ih, List.map_cons]

/-- Every key stays with its own value. -/
theorem plannedPairs_eq_map (named : List (Pair (Located Plan.Expression))) :
    plannedPairs mode table scope named =
      named.map fun pair => (pair.key, planned mode table scope pair.value) := by
  induction named with
  | nil => rfl
  | cons pair rest ih => rw [plannedPairs, ih, List.map_cons]

theorem plannedList_length (list : List (Located Plan.Expression)) :
    (plannedList mode table scope list).length = list.length := by
  rw [plannedList_eq_map, List.length_map]

theorem plannedPairs_length (named : List (Pair (Located Plan.Expression))) :
    (plannedPairs mode table scope named).length = named.length := by
  rw [plannedPairs_eq_map, List.length_map]

end Direct

namespace Assembly.Machine

/-- Keys and values as they lie on the stack, each key above its value. -/
def pairOperands (named : List (String × Wire.Expression)) : List Operand :=
  named.flatMap fun (key, value) => [.string key, .expression value]

/-- Operands are taken in the order in which they lie. -/
theorem popExpressions_map (list : List Wire.Expression) (m : Machine) :
    popExpressions list.length { m with operands := list.map .expression ++ m.operands } =
      .ok (list, m) := by
  induction list with
  | nil => rfl
  | cons e rest ih =>
    have first : popExpression { m with operands := (e :: rest).map .expression ++ m.operands } =
        .ok (e, { m with operands := rest.map .expression ++ m.operands }) := rfl
    rw [List.length_cons, popExpressions, bind_of_ok first, bind_of_ok ih]
    rfl

theorem popPairs_pairOperands (named : List (String × Wire.Expression)) (m : Machine) :
    popPairs named.length { m with operands := pairOperands named ++ m.operands } =
      .ok (named, m) := by
  induction named with
  | nil => rfl
  | cons pair rest ih =>
    obtain ⟨key, value⟩ := pair
    have first : popString
        { m with operands := pairOperands ((key, value) :: rest) ++ m.operands } = .ok (key,
          { m with operands := .expression value :: (pairOperands rest ++ m.operands) }) := rfl
    have second : popExpression
        { m with operands := .expression value :: (pairOperands rest ++ m.operands) } =
        .ok (value, { m with operands := pairOperands rest ++ m.operands }) := rfl
    rw [List.length_cons, popPairs, bind_of_ok first, bind_of_ok second, bind_of_ok ih]
    rfl

end Assembly.Machine

namespace Program

open Assembly.Machine (Runs step pairOperands)

/-- The operation that reads a bare name in a scope of a table. -/
def readOp (mode : Mode) (table : SymbolTable) (seen : Sighting) : Op :=
  match table.get? seen.scope seen.mention.name with
  | some slot => .getSymbol slot
  | none => freeOp mode (table.upvars.idxOf seen.mention.name) seen.mention.context

/-- The marked operations of a stream read bare names, each in its scope of the finished table. -/
structure Reads (mode : Mode) (final : SymbolTable) (seen : List Sighting) (stream : List Traced) :
    Prop where
  ops : lookups stream = seen.map fun s => (s, readOp mode final s)
  known : ∀ s ∈ seen, final.get? s.scope s.mention.name = none → s.mention.name ∈ final.upvars

theorem Reads.nil {mode : Mode} {final : SymbolTable} : Reads mode final [] [] := ⟨rfl, by simp⟩

/-- Two streams in a row read their names in a row. -/
theorem Reads.append {mode : Mode} {final : SymbolTable} {before after : List Sighting}
    {xs ys : List Traced} (first : Reads mode final before xs)
    (second : Reads mode final after ys) :
    Reads mode final (before ++ after) (xs ++ ys) := by
  refine ⟨?_, ?_⟩
  · rw [lookups_append, List.map_append, first.ops, second.ops]
  · intro s found
    rcases List.mem_append.mp found with here | there
    · exact first.known s here
    · exact second.known s there

/-- Operations without a mark read no bare name. -/
theorem Reads.unmarked {mode : Mode} {final : SymbolTable} (op : Op) (span : Span) :
    Reads mode final [] [unmarked op span] :=
  ⟨rfl, by simp⟩

theorem Reads.andThen {mode : Mode} {final : SymbolTable} {seen : List Sighting}
    {stream : List Traced} (reads : Reads mode final seen stream) (op : Op) (span : Span) :
    Reads mode final seen (stream ++ [Program.unmarked op span]) := by
  have whole := reads.append (Reads.unmarked op span)
  rwa [List.append_nil] at whole

/-- The operations leave operands, the last one first, on every machine, and read bare names in one
scope. Both are those of any table that grows from the one the names are found in. -/
def Leaves (mode : Mode) (scope : Nat) (x : Tracing) (operands : SymbolTable → List Operand)
    (names : List Mention) : Prop :=
  ∀ table : SymbolTable, table.Grows (x table).2 ∧
    ∀ final, (x table).2.Grows final →
      (∀ m : Machine,
        Runs (erase (x table).1) m { m with operands := operands final ++ m.operands }) ∧
      Reads mode final (sightings scope names) (x table).1

section Rules

variable {mode : Mode} {scope : Nat}

theorem Leaves.nil : Leaves mode scope (return []) (fun _ => []) [] :=
  fun table => ⟨.refl table, fun _ _ => ⟨fun m => .nil m, .nil⟩⟩

/-- What is computed later lies above. -/
theorem Leaves.seq {x y : Tracing} {below above : SymbolTable → List Operand}
    {names others : List Mention} (first : Leaves mode scope x below names)
    (second : Leaves mode scope y above others) :
    Leaves mode scope (do let a ← x; let b ← y; return a ++ b) (fun t => above t ++ below t)
      (names ++ others) := by
  intro table
  obtain ⟨grows, holds⟩ := first table
  obtain ⟨growsOn, holdsOn⟩ := second (x table).2
  refine ⟨grows.trans growsOn, fun final later => ?_⟩
  obtain ⟨runs, reads⟩ := holds final (growsOn.trans later)
  obtain ⟨runsOn, readsOn⟩ := holdsOn final later
  refine ⟨fun m => ?_, ?_⟩
  · have start := runs m
    have next := runsOn { m with operands := below final ++ m.operands }
    simp only [← List.append_assoc] at next
    have whole := start.append next
    rw [← erase_append] at whole
    exact whole
  · rw [sightings_append]
    exact reads.append readsOn

/-- One more operation, which works on what is there. -/
theorem Leaves.andThen {x : Tracing} {before after : SymbolTable → List Operand}
    {names : List Mention} (leaves : Leaves mode scope x before names) (op : Op) (span : Span)
    (stepped : ∀ final (m : Machine), step op { m with operands := before final ++ m.operands } =
      .ok ((), { m with operands := after final ++ m.operands })) :
    Leaves mode scope (do let a ← x; return a ++ [unmarked op span]) after names := by
  intro table
  obtain ⟨grows, holds⟩ := leaves table
  refine ⟨grows, fun final later => ?_⟩
  obtain ⟨runs, reads⟩ := holds final later
  refine ⟨fun m => ?_, reads.andThen op span⟩
  have last : Runs [⟨op, span⟩] _ _ := Runs.single (stepped final m)
  show Runs (erase ((x table).1 ++ [unmarked op span])) m _
  rw [erase_append]
  exact (runs m).append last

/-- A single operation whose slot is found in the table. -/
theorem Leaves.found (found : StateM SymbolTable Op) {operand : SymbolTable → Operand} {span : Span}
    (grows : ∀ table : SymbolTable, table.Grows (found table).2)
    (stepped : ∀ (table final : SymbolTable) (m : Machine), (found table).2.Grows final →
      step (found table).1 m = .ok ((), { m with operands := operand final :: m.operands })) :
    Leaves mode scope (do let op ← found; return [unmarked op span]) (fun t => [operand t]) [] := by
  intro table
  refine ⟨grows table, fun final later => ⟨fun m => ?_, .unmarked _ span⟩⟩
  exact Runs.single (stepped table final m later)

end Rules

/-! ### Names -/

/-- Looking a name up takes nothing from the table. -/
theorem variableOp_grows (mode : Mode) (scope : Nat) (name : String) (context : Context)
    (table : SymbolTable) : table.Grows (variableOp mode scope name context table).2 := by
  unfold variableOp
  split
  · exact .refl table
  · exact SymbolTable.allocateFree_grows name table

/-- The operation for a bare name is the one that the finished table asks for. -/
theorem variableOp_eq (mode : Mode) (scope : Nat) (name : String) (context : Context)
    (table final : SymbolTable) (later : (variableOp mode scope name context table).2.Grows final) :
    (variableOp mode scope name context table).1 = readOp mode final ⟨scope, name, context⟩ ∧
      (final.get? scope name = none → name ∈ final.upvars) := by
  have same : final.get? scope name = table.get? scope name :=
    SymbolTable.get?_of_scopes
      (later.scopes.trans (variableOp_grows mode scope name context table).scopes) scope name
  cases found : table.get? scope name with
  | some slot => simp [variableOp, readOp, same, found]
  | none =>
    simp only [variableOp, found] at later ⊢
    have inside : name ∈ (table.allocateFree name).2.upvars :=
      SymbolTable.mem_allocateFree name table
    have index : final.upvars.idxOf name = (table.allocateFree name).1 :=
      (later.idxOf inside).trans (SymbolTable.allocateFree_index name table)
    simp only [readOp, same, found, index, true_and]
    exact fun _ => later.upvars.subset inside

/-- The operation for a name puts the translated name on top. -/
theorem step_readOp (mode : Mode) (table : SymbolTable) (scope : Nat) (name : String)
    (context : Context) (m : Machine) :
    step (readOp mode table ⟨scope, name, context⟩) m = .ok ((), { m with
      operands := .expression (Direct.read mode table scope name context) :: m.operands }) := by
  cases found : table.get? scope name with
  | some slot =>
    simp only [readOp, found, Direct.read]
    rfl
  | none =>
    simp only [readOp, found, Direct.read, freeOp]
    split <;> rfl

/-- A name leaves its translation and reads itself. -/
theorem leaves_variable (mode : Mode) (scope : Nat) (name : String) (context : Context)
    (span : Span) :
    Leaves mode scope (traceExpressionAt mode scope span (.variable name context))
      (fun t => [.expression (Direct.read mode t scope name context)]) [⟨name, context⟩] := by
  intro table
  refine ⟨variableOp_grows mode scope name context table, fun final later => ?_⟩
  obtain ⟨sameOp, known⟩ := variableOp_eq mode scope name context table final later
  refine ⟨fun m => ?_, ?_, ?_⟩
  · have stepped := step_readOp mode final scope name context m
    rw [← sameOp] at stepped
    exact Runs.single stepped
  · exact congrArg (fun op => [((⟨scope, name, context⟩ : Sighting), op)]) sameOp
  · intro s found
    cases List.mem_singleton.mp found
    exact known

/-- The slot that an argument was given stays its slot. -/
theorem argSlot_of_grows (name : String) (table final : SymbolTable)
    (later : (table.allocateNamed name).2.Grows final) :
    Direct.argSlot final name = (table.allocateNamed name).1 := by
  simp [Direct.argSlot, later.named name _ (SymbolTable.allocateNamed_lookup name table)]

theorem blockSlot_of_grows (name : String) (table final : SymbolTable)
    (later : (table.allocateBlock name).2.Grows final) :
    Direct.blockSlot final name = (table.allocateBlock name).1 := by
  simp [Direct.blockSlot_eq, later.blocks _ _ (SymbolTable.allocateBlock_lookup name table)]

/-! ### Expressions -/

/-- Operands are collected to positional arguments, in source order. -/
theorem prepareArray_step (list : List Wire.Expression) (m : Machine) :
    step (.prepareArray list.length) { m with operands := list.map .expression ++ m.operands } =
      .ok ((), { m with operands := .params list :: m.operands }) := by
  have popped := Machine.popExpressions_map list m
  have applied : Machine.apply (.prepareArray list.length)
      { m with operands := list.map .expression ++ m.operands } =
      .ok ((), { m with operands := .params list :: m.operands }) := bind_of_ok popped
  rw [step, bind_of_ok applied]
  rfl

/-- Operands are collected to named arguments, each value with its key. -/
theorem prepareObject_step (named : List (String × Wire.Expression)) (m : Machine) :
    step (.prepareObject named.length) { m with operands := pairOperands named ++ m.operands } =
      .ok ((), { m with operands := .hash named :: m.operands }) := by
  have popped := Machine.popPairs_pairOperands named m
  have applied : Machine.apply (.prepareObject named.length)
      { m with operands := pairOperands named ++ m.operands } =
      .ok ((), { m with operands := .hash named :: m.operands }) := bind_of_ok popped
  rw [step, bind_of_ok applied]
  rfl

section Values

variable (mode : Mode) (scope : Nat)

theorem leaves_params {list : List (Located Plan.Expression)} {x : Tracing} (span : Span)
    {names : List Mention}
    (leaves : Leaves mode scope x
      (fun t => (Direct.plannedList mode t scope list).map .expression) names) :
    Leaves mode scope (do let a ← x; return a ++ [unmarked (.prepareArray list.length) span])
      (fun t => [.params (Direct.plannedList mode t scope list)]) names := by
  refine leaves.andThen _ span fun final m => ?_
  have stepped := prepareArray_step (Direct.plannedList mode final scope list) m
  rw [Direct.plannedList_length] at stepped
  exact stepped

theorem leaves_hash {named : List (Pair (Located Plan.Expression))} {x : Tracing} (span : Span)
    {names : List Mention}
    (leaves : Leaves mode scope x
      (fun t => pairOperands (Direct.plannedPairs mode t scope named)) names) :
    Leaves mode scope (do let a ← x; return a ++ [unmarked (.prepareObject named.length) span])
      (fun t => [.hash (Direct.plannedPairs mode t scope named)]) names := by
  refine leaves.andThen _ span fun final m => ?_
  have stepped := prepareObject_step (Direct.plannedPairs mode final scope named) m
  rw [Direct.plannedPairs_length] at stepped
  exact stepped

mutual

/-- The operations for an expression leave its value and read its bare names. -/
theorem leaves_expression : (e : Located Plan.Expression) →
    Leaves mode scope (traceExpression mode scope e)
      (fun t => [.expression (Direct.planned mode t scope e)]) (Plan.mentions e)
  | ⟨e, span⟩ => leaves_expressionAt span e

theorem leaves_expressionAt (span : Span) : (e : Plan.Expression) →
    Leaves mode scope (traceExpressionAt mode scope span e)
      (fun t => [.expression (Direct.plannedAt mode t scope e)]) (Plan.mentionsAt e)
  | .literal value => by
    simp only [Direct.plannedAt, Direct.literal_eq]
    exact fun table => ⟨.refl table, fun _ _ => ⟨fun _ => Runs.single rfl, .unmarked _ span⟩⟩
  | .path head tail => (leaves_expression head).andThen (.getPath tail) span fun _ _ => rfl
  | .arg name => by
    refine Leaves.found (fun t => (.getSymbol (t.allocateNamed name).1,
      (t.allocateNamed name).2)) (SymbolTable.allocateNamed_grows name) ?_
    intro table final m later
    rw [Direct.plannedAt, argSlot_of_grows name table final later]
    rfl
  | .self =>
    fun table => ⟨.refl table, fun _ _ => ⟨fun _ => Runs.single rfl, .unmarked _ span⟩⟩
  | .variable name context => leaves_variable mode scope name context span
  | .hasBlock target => by
    refine Leaves.found (fun t => (.hasBlock (t.allocateBlock target).1,
      (t.allocateBlock target).2)) (SymbolTable.allocateBlock_grows target) ?_
    intro table final m later
    rw [Direct.plannedAt, blockSlot_of_grows target table final later]
    rfl
  | .hasBlockParams target => by
    refine Leaves.found (fun t => (.hasBlockParams (t.allocateBlock target).1,
      (t.allocateBlock target).2)) (SymbolTable.allocateBlock_grows target) ?_
    intro table final m later
    rw [Direct.plannedAt, blockSlot_of_grows target table final later]
    rfl
  | .concat ⟨list, listSpan⟩ => by
    have parts := leaves_params mode scope listSpan (leaves_reversed list)
    have whole : Leaves mode scope _
        (fun t => [.expression (.concat (Direct.plannedList mode t scope list))]) _ :=
      parts.andThen .concat span fun _ _ => rfl
    simpa [traceExpressionAt, Direct.plannedAt, Plan.mentionsAt] using whole
  | .call head ⟨list, listSpan⟩ ⟨named, hashSpan⟩ => by
    have hash := leaves_hash mode scope hashSpan (leaves_reversedPairs named)
    have params := leaves_params mode scope listSpan (leaves_reversed list)
    have operands := (hash.seq params).seq (leaves_expression head)
    exact operands.andThen .call span fun _ _ => rfl

theorem leaves_reversed : (list : List (Located Plan.Expression)) →
    Leaves mode scope (traceReversed mode scope list)
      (fun t => (Direct.plannedList mode t scope list).map .expression) (Plan.mentionsOfList list)
  | [] => Leaves.nil
  | e :: rest => (leaves_reversed rest).seq (leaves_expression e)

theorem leaves_reversedPairs : (named : List (Pair (Located Plan.Expression))) →
    Leaves mode scope (traceReversedPairs mode scope named)
      (fun t => pairOperands (Direct.plannedPairs mode t scope named)) (Plan.mentionsOfPairs named)
  | [] => Leaves.nil
  | ⟨key, value, span⟩ :: rest =>
    ((leaves_reversedPairs rest).seq (leaves_expression value)).andThen (.pushString key) span
      fun _ _ => rfl

end

theorem leaves_ofHash (hash : Hash (Located Plan.Expression)) :
    Leaves mode scope (traceHash mode scope hash)
      (fun t => [.hash (Direct.plannedPairs mode t scope hash.pairs)])
      (Plan.mentionsOfPairs hash.pairs) :=
  leaves_hash mode scope hash.loc (leaves_reversedPairs mode scope hash.pairs)

theorem leaves_ofParams (params : Plan.Params (Located Plan.Expression)) :
    Leaves mode scope (traceParams mode scope params)
      (fun t => [.params (Direct.plannedList mode t scope params.list)])
      (Plan.mentionsOfList params.list) :=
  leaves_params mode scope params.span (leaves_reversed mode scope params.list)

/-- The operands of a call: its head on top, then positional and named arguments. -/
theorem leaves_ofCall (head : Located Plan.Expression)
    (params : Plan.Params (Located Plan.Expression)) (hash : Hash (Located Plan.Expression)) :
    Leaves mode scope (traceCall mode scope head params hash) (fun t =>
      [.expression (Direct.planned mode t scope head),
        .params (Direct.plannedList mode t scope params.list),
        .hash (Direct.plannedPairs mode t scope hash.pairs)])
      (Plan.mentionsOfCall head params hash) := by
  have arguments := (leaves_ofHash mode scope hash).seq (leaves_ofParams mode scope params)
  exact arguments.seq (leaves_expression mode scope head)

end Values

/-! ### One operand each -/

/-- The operations put one operand on any stack and leave the rest of the machine as it is. -/
def PushesOne (ops : List (Located Op)) (operand : Operand) : Prop :=
  ∀ m : Machine, Runs ops m { m with operands := operand :: m.operands }

/-- The table that the names are found in already has the slots that the operand asks for. -/
theorem Leaves.pushesOne {mode : Mode} {scope : Nat} {x : Tracing}
    {emitted : StateM SymbolTable (List (Located Op))} {operand : SymbolTable → Operand}
    {names : List Mention} (leaves : Leaves mode scope x (fun t => [operand t]) names)
    (marked : emitted = erase <$> x) (table : SymbolTable) :
    PushesOne (emitted table).1 (operand (emitted table).2) := by
  subst marked
  intro m
  obtain ⟨-, holds⟩ := leaves table
  obtain ⟨runs, -⟩ := holds (x table).2 (.refl _)
  exact runs m

/-- Expressions, positional and named arguments each leave exactly one operand, on every machine and
whatever lies below. Its parts are the parts of what was planned, in order and each key with its own
value. -/
theorem pushesOne_of_planned (mode : Mode) (scope : Nat) (table : SymbolTable) :
    (∀ e : Located Plan.Expression,
      PushesOne (ofExpression mode scope e table).1
        (.expression (Direct.planned mode (ofExpression mode scope e table).2 scope e))) ∧
    (∀ params : Plan.Params (Located Plan.Expression),
      PushesOne (ofParams mode scope params table).1 (.params
        (params.list.map (Direct.planned mode (ofParams mode scope params table).2 scope)))) ∧
    ∀ hash : Hash (Located Plan.Expression),
      PushesOne (ofHash mode scope hash table).1 (.hash (hash.pairs.map fun pair =>
        (pair.key, Direct.planned mode (ofHash mode scope hash table).2 scope pair.value))) := by
  refine ⟨?_, ?_, ?_⟩
  · intro e
    exact (leaves_expression mode scope e).pushesOne (ofExpression_eq_trace mode scope e) table
  · intro params
    rw [← Direct.plannedList_eq_map]
    exact (leaves_ofParams mode scope params).pushesOne (ofParams_eq_trace mode scope params) table
  · intro hash
    rw [← Direct.plannedPairs_eq_map]
    exact (leaves_ofHash mode scope hash).pushesOne (ofHash_eq_trace mode scope hash) table

end Program

end TemplateCompiler

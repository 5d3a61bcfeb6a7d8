import TemplateCompiler.Proofs.Sites
import TemplateCompiler.Proofs.TableHistory

/-!
# Requests for names, and references to them

While names get their slots, the table is asked for arguments, for blocks and for free variables,
each time for something that is written down in the compiled template: what was asked for is
referred to there, and nothing is referred to that is not in the table.

A computation that asks for names is followed from its first table to its last. What is said of the
references holds in every table that grows from the last one, so that computations can be put
together.
-/

namespace TemplateCompiler

/-! ### References -/

namespace Wire

/-- What can be referred to in a compiled template. -/
inductive Ref where
  | slot (slot : Nat)
  /-- A free variable, by its index. -/
  | free (index : Nat)
  /-- A block that the template was given, by the expression that stands for it. -/
  | block (operand : Expression)

/-- The references of an expression, apart from those of its parts. -/
def Expression.own : Expression → List Ref
  | .getSymbol slot => [.slot slot]
  | .getFree index | .getContextualFree index _ => [.free index]
  | .hasBlock operand | .hasBlockParams operand => [.block operand]
  | _ => []

def Expression.refs (e : Expression) : List Ref := e.parts.flatMap Expression.own

/-- The references of a statement that are in none of its expressions. -/
def Statement.own : Statement → List Ref
  | .yield slot _ | .attrSplat slot => [.slot slot, .block (.getSymbol slot)]
  | .partialTemplate _ slots | .debugger slots => slots.map .slot
  | _ => []

/-- The references of a statement, apart from those of the statements inside it. -/
def Statement.refs (s : Statement) : List Ref := s.own ++ s.expressions.flatMap Expression.refs

namespace Expression

@[simp] theorem refs_getSymbol (slot : Nat) : (getSymbol slot).refs = [.slot slot] := rfl

@[simp] theorem refs_hasBlock (slot : Nat) :
    (hasBlock (.getSymbol slot)).refs = [.block (.getSymbol slot), .slot slot] := rfl

@[simp] theorem refs_hasBlockParams (slot : Nat) :
    (hasBlockParams (.getSymbol slot)).refs = [.block (.getSymbol slot), .slot slot] := rfl

@[simp] theorem refs_getPath (head : Expression) (tail : List String) :
    (getPath head tail).refs = head.refs := by
  simp [refs, parts, own]

@[simp] theorem refs_concat (list : List Expression) :
    (concat list).refs = list.flatMap refs := by
  rw [refs, parts, List.flatMap_cons, partsOfList_eq_flatMap, List.flatMap_assoc]
  rfl

@[simp] theorem refs_call (head : Expression) (params : List Expression)
    (hash : List (String × Expression)) :
    (call head params hash).refs =
      head.refs ++ (params.flatMap refs ++ (hash.map Prod.snd).flatMap refs) := by
  rw [refs, parts, List.flatMap_cons, List.flatMap_append, List.flatMap_append,
    partsOfList_eq_flatMap, partsOfHash_eq_flatMap, List.flatMap_assoc, List.flatMap_assoc]
  rfl

end Expression

/-- A component refers by its tag and by its arguments. -/
theorem Statement.mem_refs_component {tag : Expression} {attributes : List Statement}
    {args : List (String × Expression)} {blocks : Option (List (String × InlineBlock Statement))}
    {ref : Ref} :
    ref ∈ (component tag attributes args blocks).refs ↔
      ref ∈ tag.refs ∨ ref ∈ (args.map Prod.snd).flatMap Expression.refs := by
  rw [show (component tag attributes args blocks).refs =
    tag.refs ++ (args.map Prod.snd).flatMap Expression.refs from rfl, List.mem_append]

end Wire

def CompiledTemplate.refs (c : CompiledTemplate) : List Wire.Ref :=
  (Wire.partsOfAll c.statements).flatMap Wire.Statement.refs

namespace SymbolTable

open Wire (Ref)

/-! ### Requests for names -/

def Request.IsName : Request → Prop
  | .free _ | .arg _ | .block _ => True
  | .slot _ | .scope _ _ | .eval => False

/-- How a template with a table refers to what was asked for. -/
def Request.ref (final : SymbolTable) : Request → Ref
  | .free name => .free (final.upvars.idxOf name)
  | .arg name => .slot (Direct.argSlot final name)
  | .block name => .slot (Direct.blockSlot final name)
  | .slot _ | .scope _ _ | .eval => .slot 0

/-- What a template can be given under a name. -/
inductive Given where
  | arg (name : String)
  | block (name : String)

def Given.slot? (t : SymbolTable) : Given → Option Nat
  | .arg name => t.named.lookup name
  | .block name => t.blocks.lookup name

/-- A reference to something in the table. -/
def Known (final : SymbolTable) : Ref → Prop
  | .slot slot => slot = 0 ∨ (∃ given : Given, given.slot? final = some slot) ∨
      ∃ scope, slot ∈ final.slots scope
  | .free index => index < final.upvars.length
  | .block operand =>
    ∃ name slot, operand = .getSymbol slot ∧ (Given.block name).slot? final = some slot

theorem mem_of_mem_ancestry {scopes : List Scope} {fuel id : Nat} {s : Scope}
    (found : s ∈ ancestry scopes fuel id) : ∃ i : Nat, scopes[i]? = some s := by
  induction fuel generalizing id with
  | zero => cases found
  | succ fuel ih =>
    rw [ancestry] at found
    split at found
    · cases found
    · next scope here =>
      rcases List.mem_cons.mp found with rfl | above
      · exact ⟨id, here⟩
      · split at above
        · cases above
        · exact ih above

/-- The slots that can be read from a scope belong to scopes. -/
theorem exists_slots_of_chain {t : SymbolTable} {scope slot : Nat} {s : Scope} {name : String}
    (above : s ∈ t.chain scope) (inside : (name, slot) ∈ s.locals.zip s.slots) :
    ∃ i, slot ∈ t.slots i := by
  obtain ⟨i, at_⟩ := mem_of_mem_ancestry above
  exact ⟨i, mem_slots.mpr ⟨s, at_, (List.of_mem_zip inside).2⟩⟩

/-- A slot that a name has belongs to some scope. -/
theorem exists_slots_of_get? {t : SymbolTable} {scope slot : Nat} {name : String}
    (found : t.get? scope name = some slot) : ∃ i, slot ∈ t.slots i := by
  obtain ⟨s, above, here⟩ := List.exists_of_findSome?_eq_some found
  exact exists_slots_of_chain above (mem_of_lookup here)

theorem exists_slots_of_evalInfo {t : SymbolTable} {scope slot : Nat}
    (visible : slot ∈ t.evalInfo scope) : ∃ i, slot ∈ t.slots i := by
  obtain ⟨name, found⟩ := mem_evalInfo.mp visible
  obtain ⟨s, above, inside⟩ := List.mem_flatMap.mp (mem_of_lookup found)
  exact exists_slots_of_chain above (List.mem_reverse.mp inside)

/-- All requests are referred to, and nothing that the table does not have. -/
structure Settles (final : SymbolTable) (requests : List Request) (refs : List Ref) : Prop where
  shown : ∀ r ∈ requests, r.ref final ∈ refs
  known : ∀ ref ∈ refs, final.Known ref

/-- One table becomes another by requests for names, which some references settle. -/
def Asks (t t' : SymbolTable) (refs : SymbolTable → List Ref) : Prop :=
  ∃ requests, (∀ r ∈ requests, r.IsName) ∧ t' = t.serveAll requests ∧
    ∀ final, t'.Grows final → final.Settles requests (refs final)

/-- Serving a request for a name takes nothing from the table. -/
theorem serve_grows {r : Request} (isName : r.IsName) (t : SymbolTable) :
    t.Grows (serve r t).2 := by
  cases r with
  | free name => exact allocateFree_grows name t
  | arg name => exact allocateNamed_grows name t
  | block name => exact allocateBlock_grows name t
  | slot | scope | eval => cases isName

theorem serveAll_grows {requests : List Request} (names : ∀ r ∈ requests, r.IsName)
    (t : SymbolTable) : t.Grows (t.serveAll requests) := by
  induction requests generalizing t with
  | nil => exact .refl t
  | cons r rest ih =>
    obtain ⟨first, others⟩ := List.forall_mem_cons.mp names
    exact (serve_grows first t).trans (ih others _)

theorem serveAll_append (requests later : List Request) (t : SymbolTable) :
    t.serveAll (requests ++ later) = (t.serveAll requests).serveAll later :=
  List.foldl_append

namespace Asks

variable {t t' t'' : SymbolTable} {refs refs' : SymbolTable → List Ref}

theorem grows (asks : Asks t t' refs) : t.Grows t' := by
  obtain ⟨requests, names, rfl, _⟩ := asks
  exact serveAll_grows names t

theorem none (t : SymbolTable)
    (known : ∀ final, t.Grows final → ∀ ref ∈ refs final, final.Known ref) : Asks t t refs :=
  ⟨[], by simp, rfl, fun final grows => ⟨by simp, known final grows⟩⟩

theorem nil (t : SymbolTable) : Asks t t fun _ => [] := none t (by simp)

/-- What two computations ask for, one after the other, settles what both refer to. -/
theorem trans (first : Asks t t' refs) (second : Asks t' t'' refs') :
    Asks t t'' fun final => refs final ++ refs' final := by
  have later := second.grows
  obtain ⟨requests, names, rfl, settles⟩ := first
  obtain ⟨more, names', rfl, settles'⟩ := second
  refine ⟨requests ++ more, List.forall_mem_append.mpr ⟨names, names'⟩,
    (serveAll_append requests more t).symm, fun final grows => ?_⟩
  have one := settles final (later.trans grows)
  have two := settles' final grows
  constructor
  · rw [List.forall_mem_append]
    exact ⟨fun r asked => List.mem_append_left _ (one.shown r asked),
      fun r asked => List.mem_append_right _ (two.shown r asked)⟩
  · exact List.forall_mem_append.mpr ⟨one.known, two.known⟩

/-- It does not matter in which order references come, and how often. -/
theorem congr (asks : Asks t t' refs)
    (same : ∀ final, t'.Grows final → ∀ ref, ref ∈ refs' final ↔ ref ∈ refs final) :
    Asks t t' refs' := by
  obtain ⟨requests, names, reached, settles⟩ := asks
  refine ⟨requests, names, reached, fun final grows => ⟨?_, ?_⟩⟩
  · intro r asked
    exact (same final grows _).mpr ((settles final grows).shown r asked)
  · intro ref inside
    exact (settles final grows).known ref ((same final grows ref).mp inside)

/-- One request, and what refers to it. -/
theorem single {r : Request} (isName : r.IsName) (t : SymbolTable)
    (settles : ∀ final, (serve r t).2.Grows final → final.Settles [r] (refs final)) :
    Asks t (serve r t).2 refs :=
  ⟨[r], by simpa using isName, rfl, settles⟩

/-- An argument is asked for once, and referred to by its slot. -/
theorem arg (name : String) (t : SymbolTable) :
    Asks t (t.allocateNamed name).2 fun final => [.slot (Direct.argSlot final name)] := by
  refine single (r := .arg name) trivial t fun final grows => ⟨by simp [Request.ref], ?_⟩
  have found := grows.named name _ (allocateNamed_lookup name t)
  rw [List.forall_mem_singleton, Direct.argSlot, found]
  exact .inr (.inl ⟨.arg name, found⟩)

theorem block (name : String) (t : SymbolTable) :
    Asks t (t.allocateBlock name).2 fun final =>
      [.slot (Direct.blockSlot final name), .block (.getSymbol (Direct.blockSlot final name))] := by
  refine single (r := .block name) trivial t fun final grows => ⟨by simp [Request.ref], ?_⟩
  have found := grows.blocks _ _ (allocateBlock_lookup name t)
  have slot : Direct.blockSlot final name = (t.allocateBlock name).1 := by
    rw [Direct.blockSlot_eq, found]
    rfl
  rw [List.forall_mem_cons, List.forall_mem_singleton, slot]
  exact ⟨.inr (.inl ⟨.block (blockName name), found⟩), _, _, rfl, found⟩

theorem free (name : String) (t : SymbolTable) :
    Asks t (t.allocateFree name).2 fun final => [.free (final.upvars.idxOf name)] := by
  refine single (r := .free name) trivial t fun final grows => ⟨by simp [Request.ref], ?_⟩
  rw [List.forall_mem_singleton]
  exact List.idxOf_lt_length_iff.mpr (grows.upvars.subset (mem_allocateFree name t))

end Asks

end SymbolTable

namespace Program

open SymbolTable (Asks)
open Template (Pair)

/-! ### Expressions -/

variable (mode : Mode)

/-- A name in scope is known already; any other is asked for. -/
theorem asks_variable (scope : Nat) (name : String) (context : Context) (t : SymbolTable) :
    Asks t (variableOp mode scope name context t).2
      fun final => (Direct.read mode final scope name context).refs := by
  unfold variableOp Direct.read
  cases found : t.get? scope name with
  | some slot =>
    refine .none t fun final grows => ?_
    rw [SymbolTable.get?_of_scopes grows.scopes, found]
    obtain ⟨i, inside⟩ := SymbolTable.exists_slots_of_get? found
    rw [Wire.Expression.refs_getSymbol, List.forall_mem_singleton]
    exact .inr (.inr ⟨i, SymbolTable.slots_of_scopes grows.scopes i ▸ inside⟩)
  | none =>
    refine (Asks.free name t).congr fun final grows ref => ?_
    have added := SymbolTable.allocateFree_grows name t
    rw [SymbolTable.get?_of_scopes (grows.scopes.trans added.scopes), found]
    cases mode.strict <;> rfl

mutual

/-- The operations for an expression ask for exactly what its value refers to. -/
theorem asks_expression (scope : Nat) : (e : Located Plan.Expression) → (t : SymbolTable) →
    Asks t (traceExpression mode scope e t).2
      fun final => (Direct.planned mode final scope e).refs
  | ⟨e, span⟩, t => asks_expressionAt scope span e t

theorem asks_expressionAt (scope : Nat) (span : Span) : (e : Plan.Expression) →
    (t : SymbolTable) → Asks t (traceExpressionAt mode scope span e t).2
      fun final => (Direct.plannedAt mode final scope e).refs
  | .literal value, t => by
    cases value <;> exact Asks.nil t
  | .path head tail, t => by
    simp only [Direct.plannedAt, Wire.Expression.refs_getPath]
    exact asks_expression scope head t
  | .arg name, t => Asks.arg name t
  | .self, t => .none t fun final _ => by
    rw [Direct.plannedAt, Wire.Expression.refs_getSymbol, List.forall_mem_singleton]
    exact .inl rfl
  | .variable name context, t => asks_variable mode scope name context t
  | .hasBlock target, t =>
    (Asks.block target t).congr fun final _ ref => by simp [Direct.plannedAt, or_comm]
  | .hasBlockParams target, t =>
    (Asks.block target t).congr fun final _ ref => by simp [Direct.plannedAt, or_comm]
  | .concat ⟨list, listSpan⟩, t => by
    simp only [Direct.plannedAt, Wire.Expression.refs_concat]
    exact asks_reversed scope list t
  | .call head ⟨list, listSpan⟩ ⟨pairs, hashSpan⟩, t => by
    -- Operands are found from the last to the first, and the callee after them.
    have named := asks_reversedPairs scope pairs t
    have positional := asks_reversed scope list (traceReversedPairs mode scope pairs t).2
    have callee := asks_expression scope head
      (traceReversed mode scope list (traceReversedPairs mode scope pairs t).2).2
    refine ((named.trans positional).trans callee).congr fun final _ ref => ?_
    simp [Direct.plannedAt, or_comm, or_assoc]

theorem asks_reversed (scope : Nat) : (list : List (Located Plan.Expression)) →
    (t : SymbolTable) → Asks t (traceReversed mode scope list t).2
      fun final => (Direct.plannedList mode final scope list).flatMap Wire.Expression.refs
  | [], t => Asks.nil t
  | e :: rest, t => by
    have others := asks_reversed scope rest t
    have first := asks_expression scope e (traceReversed mode scope rest t).2
    refine (others.trans first).congr fun final _ ref => ?_
    rw [Direct.plannedList, List.flatMap_cons, List.mem_append, List.mem_append, or_comm]

theorem asks_reversedPairs (scope : Nat) : (pairs : List (Pair (Located Plan.Expression))) →
    (t : SymbolTable) → Asks t (traceReversedPairs mode scope pairs t).2
      fun final => ((Direct.plannedPairs mode final scope pairs).map Prod.snd).flatMap
        Wire.Expression.refs
  | [], t => Asks.nil t
  | ⟨key, value, _⟩ :: rest, t => by
    have others := asks_reversedPairs scope rest t
    have first := asks_expression scope value (traceReversedPairs mode scope rest t).2
    refine (others.trans first).congr fun final _ ref => ?_
    rw [Direct.plannedPairs, List.map_cons, List.flatMap_cons, List.mem_append, List.mem_append,
      or_comm]

end

theorem asks_params (scope : Nat) (params : Plan.Params (Located Plan.Expression))
    (t : SymbolTable) : Asks t (traceParams mode scope params t).2
      fun final => (Direct.plannedList mode final scope params.list).flatMap
        Wire.Expression.refs :=
  asks_reversed mode scope params.list t

/-- A call asks for what its head and its arguments refer to. -/
theorem asks_call (scope : Nat) (head : Located Plan.Expression)
    (params : Plan.Params (Located Plan.Expression))
    (hash : Template.Hash (Located Plan.Expression)) (t : SymbolTable) :
    Asks t (traceCall mode scope head params hash t).2 fun final =>
      (Direct.planned mode final scope head :: (Direct.plannedList mode final scope params.list ++
        (Direct.plannedPairs mode final scope hash.pairs).map Prod.snd)).flatMap
          Wire.Expression.refs := by
  have named := asks_reversedPairs mode scope hash.pairs t
  have positional := asks_params mode scope params (traceHash mode scope hash t).2
  have callee := asks_expression mode scope head
    (traceParams mode scope params (traceHash mode scope hash t).2).2
  refine ((named.trans positional).trans callee).congr fun final _ ref => ?_
  simp [or_comm, or_assoc]

/-! ### Statements that stand alone -/

section Statements

variable {mode}

theorem ok_of_naming {α : Type} {f : Nat → StateM SymbolTable α} {names names' : Names} {a : α}
    (done : naming f names = .ok (a, names')) :
    names' = { names with table := (f names.scopes.current names.table).2 } := by
  unfold naming at done
  dsimp only at done
  split at done
  · cases done
    rfl
  · cases done

/-- A run that leaves the open scopes as they were, and asks for names. -/
structure Draws (names names' : Names) (refs : SymbolTable → List Wire.Ref) : Prop where
  stack : names'.scopes = names.scopes
  asks : Asks names.table names'.table refs

namespace Draws

variable {names between names' : Names} {refs refs' : SymbolTable → List Wire.Ref}

theorem nil (names : Names) : Draws names names fun _ => [] := ⟨rfl, .nil _⟩

theorem trans (first : Draws names between refs) (second : Draws between names' refs') :
    Draws names names' fun final => refs final ++ refs' final :=
  ⟨second.stack.trans first.stack, first.asks.trans second.asks⟩

theorem congr (draws : Draws names names' refs)
    (same : ∀ final, ∀ ref, ref ∈ refs' final ↔ ref ∈ refs final) : Draws names names' refs' :=
  ⟨draws.stack, draws.asks.congr fun final _ => same final⟩

/-- Names are asked for in the current scope, which is left as it is. -/
theorem naming {α : Type} {f : Nat → StateM SymbolTable α} {a : α}
    (asks : ∀ t, Asks t (f names.scopes.current t).2 refs)
    (done : Program.naming f names = .ok (a, names')) : Draws names names' refs := by
  rw [ok_of_naming done]
  exact ⟨rfl, asks names.table⟩

/-- A statement that only takes operands. -/
theorem operands {x : Nat → Tracing} {f : List Traced → List Traced} {stream : List Traced}
    (asks : ∀ t, Asks t (x names.scopes.current t).2 refs)
    (done : (do let a ← Program.naming x; return f a) names = .ok (stream, names')) :
    Draws names names' refs := by
  obtain ⟨a, between, named, done⟩ := ok_of_step done
  cases done
  exact .naming asks named

end Draws

theorem draws_evalInfo {names names' : Names} {slots : List Nat}
    (done : evalInfo names = .ok (slots, names')) :
    Draws names names' fun final => (final.evalInfo names.scopes.current).map .slot := by
  refine .naming (fun t => .none t fun final _ => ?_) done
  rw [List.forall_mem_map]
  exact fun slot visible => .inr (.inr (SymbolTable.exists_slots_of_evalInfo visible))

/-- A statement without content asks for what it refers to. -/
theorem draws_leaf {s : Plan.Statement} (leaf : s.isLeaf = true) {span : Span}
    {names names' : Names} {stream : List Traced}
    (done : traceStatementAt mode span s names = .ok (stream, names')) :
    Draws names names' fun final => (Direct.leaf mode final names.scopes.current s).refs := by
  cases s with
  | append value | appendTrusted value | attr kind name space value =>
    refine (Draws.operands (asks_expression mode _ value) done).congr fun final ref => ?_
    simp [Direct.leaf, Wire.Statement.refs, Wire.Statement.own, Wire.Statement.expressions]
  | arg name value =>
    refine (Draws.operands (asks_expression mode _ value) done).congr fun final ref => ?_
    rw [Direct.leaf]
    split <;> simp [Wire.Statement.refs, Wire.Statement.own, Wire.Statement.expressions]
  | modifier head params hash =>
    exact (Draws.operands (asks_call mode _ head params hash) done).congr fun final ref => .rfl
  | attrSplat =>
    obtain ⟨slot, between, named, done⟩ := ok_of_step done
    cases done
    exact .naming (Asks.block "attrs") named
  | yield target params =>
    rw [traceStatementAt] at done
    obtain ⟨operands, between, listed, done⟩ := ok_of_step done
    obtain ⟨slot, last, named, done⟩ := ok_of_step done
    cases done
    have first : Draws names between _ := .naming (asks_params mode _ params) listed
    have second : Draws between names' _ := .naming (Asks.block target) named
    refine (first.trans second).congr fun final ref => ?_
    rw [List.mem_append, or_comm, ← List.mem_append]
    rfl
  | partialTemplate name =>
    rw [traceStatementAt] at done
    obtain ⟨operands, between, listed, done⟩ := ok_of_step done
    obtain ⟨slots, last, visible, done⟩ := ok_of_step done
    cases done
    have first : Draws names between _ := .naming (asks_expression mode _ name) listed
    have second := draws_evalInfo visible
    rw [first.stack] at second
    refine (first.trans second).congr fun final ref => ?_
    rw [List.mem_append, or_comm, ← List.mem_append]
    simp [Direct.leaf, Wire.Statement.refs, Wire.Statement.own, Wire.Statement.expressions]
  | debugger =>
    obtain ⟨slots, between, visible, done⟩ := ok_of_step done
    cases done
    refine (draws_evalInfo visible).congr fun final ref => ?_
    simp [Direct.leaf, Wire.Statement.refs, Wire.Statement.own, Wire.Statement.expressions]
  | comment value | openElement tag | openElementWithSplat tag | closeElement =>
    cases done
    exact .nil names
  | _ => cases leaf

/-! ### Statements in order -/

/-- Statements in a row are traced one after the other. -/
theorem ok_of_trace_append {xs ys : List (Located Plan.Statement)} {names names' : Names}
    {stream : List Traced} (done : traceStatements mode (xs ++ ys) names = .ok (stream, names')) :
    ∃ first between second, traceStatements mode xs names = .ok (first, between) ∧
      traceStatements mode ys between = .ok (second, names') := by
  induction xs generalizing names stream with
  | nil => exact ⟨[], names, stream, rfl, done⟩
  | cons s rest ih =>
    rw [List.cons_append, traceStatements] at done
    obtain ⟨here, next, one, done⟩ := ok_of_step done
    obtain ⟨others, last, two, done⟩ := ok_of_step done
    cases done
    obtain ⟨first, between, second, restDone, later⟩ := ih two
    refine ⟨here ++ first, between, second, ?_, later⟩
    rw [traceStatements, bind_of_ok one, bind_of_ok restDone]
    rfl

theorem ok_of_trace_single {s : Plan.Statement} {span : Span} {names names' : Names}
    {stream : List Traced}
    (done : traceStatements mode [⟨s, span⟩] names = .ok (stream, names')) :
    ∃ ops, traceStatementAt mode span s names = .ok (ops, names') := by
  rw [traceStatements] at done
  obtain ⟨ops, between, one, done⟩ := ok_of_step done
  cases done
  exact ⟨ops, one⟩

theorem draws_leaves {list : List (Located Plan.Statement)}
    (leaves : ∀ s ∈ list, s.value.isLeaf = true) {names names' : Names} {stream : List Traced}
    (done : traceStatements mode list names = .ok (stream, names')) :
    Draws names names' fun final => (list.map fun s =>
      Direct.leaf mode final names.scopes.current s.value).flatMap Wire.Statement.refs := by
  induction list generalizing names stream with
  | nil =>
    cases done
    exact .nil names'
  | cons s rest ih =>
    obtain ⟨value, span⟩ := s
    rw [traceStatements] at done
    obtain ⟨first, between, one, done⟩ := ok_of_step done
    obtain ⟨others, last, two, done⟩ := ok_of_step done
    cases done
    have here := draws_leaf (leaves _ List.mem_cons_self) one
    have later := ih (fun t found => leaves t (List.mem_cons_of_mem _ found)) two
    rw [here.stack] at later
    exact here.trans later

/-- Content in a scope that is entered for it and left again. -/
theorem Draws.scoped {inner : Nat} {names last names' : Names}
    {refs : SymbolTable → List Wire.Ref}
    (content : Draws { names with scopes := names.scopes.push inner } last refs)
    (left : exitScope last = .ok ((), names')) : Draws names names' refs := by
  rw [exitScope, content.stack] at left
  cases left
  exact ⟨rfl, content.asks⟩

theorem ok_of_slotsOf {scope : Nat} {names names' : Names} {slots : List Nat}
    (done : slotsOf scope names = .ok (slots, names')) : names = names' := by
  unfold slotsOf at done
  split at done
  · cases done
    rfl
  · cases done

/-- A block asks for what its content refers to. -/
theorem draws_block {name : String} {inner : Nat} {body : List (Located Plan.Statement)}
    {span : Span} {names names' : Names} {stream : List Traced}
    {refs : SymbolTable → List Wire.Ref}
    (content : ∀ {stream last},
      traceStatements mode body { names with scopes := names.scopes.push inner } =
        .ok (stream, last) →
      Draws { names with scopes := names.scopes.push inner } last refs)
    (done : traceBlock mode ⟨name, inner, body, span⟩ names = .ok (stream, names')) :
    Draws names names' refs := by
  rw [traceBlock] at done
  obtain ⟨slots, between, found, done⟩ := ok_of_step done
  obtain rfl := ok_of_slotsOf found
  have entered : enterScope inner names =
    .ok ((), { names with scopes := names.scopes.push inner }) := rfl
  rw [bind_of_ok entered] at done
  obtain ⟨inside, last, one, done⟩ := ok_of_step done
  obtain ⟨_, _, left, done⟩ := ok_of_step done
  cases done
  exact (content one).scoped left

theorem draws_namedBlock {title : String} {inner : Nat} {body : List (Located Plan.Statement)}
    {span : Span} {names names' : Names} {stream : List Traced}
    {refs : SymbolTable → List Wire.Ref}
    (content : ∀ {stream last},
      traceStatements mode body { names with scopes := names.scopes.push inner } =
        .ok (stream, last) →
      Draws { names with scopes := names.scopes.push inner } last refs)
    (done : traceStatements mode (⟨.openNamedBlock title inner, span⟩ :: body ++
      [⟨.closeNamedBlock, span⟩]) names = .ok (stream, names')) :
    Draws names names' refs := by
  obtain ⟨opened, last, _, done, closing⟩ := ok_of_trace_append done
  rw [traceStatements] at done
  obtain ⟨_, between, start, done⟩ := ok_of_step done
  obtain ⟨slots, same, found, start⟩ := ok_of_step start
  obtain rfl := ok_of_slotsOf found
  cases start
  obtain ⟨inside, last, one, done⟩ := ok_of_step done
  cases done
  obtain ⟨_, closing⟩ := ok_of_trace_single closing
  obtain ⟨_, _, left, closing⟩ := ok_of_step closing
  cases closing
  exact (content one).scoped left

/-- The tag and what stands in it are outside of the scope of the content. -/
theorem draws_component {tag : Located Plan.Expression} {selfClosing : Bool} {inner : Nat}
    {entries body : List (Located Plan.Statement)} {close : Plan.Statement} {span : Span}
    {names names' : Names} {stream : List Traced} {refs : SymbolTable → List Wire.Ref}
    (closing : close = .closeComponent ∨ close = .closeDynamicComponent)
    (leaves : ∀ s ∈ entries, s.value.isLeaf = true)
    (content : ∀ {stream between last}, between.scopes = names.scopes.push inner →
      traceStatements mode body between = .ok (stream, last) → Draws between last refs)
    (done : traceStatements mode (⟨.openComponent tag selfClosing inner, span⟩ :: entries ++
      [⟨.flushElement (some inner), span⟩] ++ body ++ [⟨close, span⟩]) names =
        .ok (stream, names')) :
    Draws names names' fun final =>
      (Direct.planned mode final names.scopes.current tag).refs ++
        (entries.map fun s => Direct.leaf mode final names.scopes.current s.value).flatMap
          Wire.Statement.refs ++ refs final := by
  obtain ⟨_, last, _, done, closed⟩ := ok_of_trace_append done
  obtain ⟨_, flushed, _, done, inside⟩ := ok_of_trace_append done
  obtain ⟨_, filled, _, done, flush⟩ := ok_of_trace_append done
  -- The tag and its entries are followed with the old scope; only the flush enters the new one.
  rw [traceStatements] at done
  obtain ⟨_, opened, start, done⟩ := ok_of_step done
  obtain ⟨_, filled, listed, done⟩ := ok_of_step done
  cases done
  have tagged : Draws names opened fun final =>
      (Direct.planned mode final names.scopes.current tag).refs := by
    obtain ⟨_, between, named, start⟩ := ok_of_step start
    obtain ⟨_, _, found, start⟩ := ok_of_step start
    obtain rfl := ok_of_slotsOf found
    cases start
    exact .naming (asks_expression mode _ tag) named
  have entered := draws_leaves leaves listed
  rw [tagged.stack] at entered
  have before := tagged.trans entered
  obtain ⟨_, flush⟩ := ok_of_trace_single flush
  cases flush
  have within := content (congrArg (Stack.push inner) before.stack) inside
  obtain ⟨_, closed⟩ := ok_of_trace_single closed
  have left : exitScope last = .ok ((), names') := by
    rcases closing with rfl | rfl
    all_goals
      obtain ⟨_, _, left, closed⟩ := ok_of_step closed
      cases closed
      exact left
  exact before.trans (within.scoped left)

/-- An element asks for what its tag and its content refer to. -/
theorem draws_element {opening : Plan.Statement} {entries body : List (Located Plan.Statement)}
    {span : Span} {names names' : Names} {stream : List Traced}
    {refs : SymbolTable → List Wire.Ref} (leaf : opening.isLeaf = true)
    (leaves : ∀ s ∈ entries, s.value.isLeaf = true)
    (content : ∀ {stream between last}, between.scopes = names.scopes →
      traceStatements mode body between = .ok (stream, last) → Draws between last refs)
    (done : traceStatements mode (⟨opening, span⟩ :: entries ++ [⟨.flushElement none, span⟩] ++
      body ++ [⟨.closeElement, span⟩]) names = .ok (stream, names')) :
    Draws names names' fun final =>
      ((⟨opening, span⟩ :: entries).map fun s =>
        Direct.leaf mode final names.scopes.current s.value).flatMap Wire.Statement.refs ++
          refs final := by
  obtain ⟨_, last, _, done, closed⟩ := ok_of_trace_append done
  obtain ⟨_, flushed, _, done, inside⟩ := ok_of_trace_append done
  obtain ⟨_, filled, _, done, flush⟩ := ok_of_trace_append done
  have before := draws_leaves (List.forall_mem_cons.mpr ⟨leaf, leaves⟩) done
  obtain ⟨_, flush⟩ := ok_of_trace_single flush
  cases flush
  obtain ⟨_, closed⟩ := ok_of_trace_single closed
  cases closed
  exact before.trans (content before.stack inside)

/-- A block statement asks for what its blocks and its call refer to. -/
theorem draws_invocation {head : Located Plan.Expression}
    {params : Plan.Params (Located Plan.Expression)}
    {hash : Template.Hash (Located Plan.Expression)}
    {program : Plan.NamedBlock (Located Plan.Statement)}
    {inverse : Option (Plan.NamedBlock (Located Plan.Statement))} {span : Span}
    {names names' : Names} {stream : List Traced} {inOther inside : SymbolTable → List Wire.Ref}
    (other : ∀ {stream last}, traceInverse mode inverse names = .ok (stream, last) →
      Draws names last inOther)
    (block : ∀ {stream between last}, between.scopes = names.scopes →
      traceBlock mode program between = .ok (stream, last) → Draws between last inside)
    (done : traceStatements mode [⟨.invokeBlock head params hash program inverse, span⟩] names =
      .ok (stream, names')) :
    Draws names names' fun final =>
      inOther final ++ inside final ++
        (Direct.planned mode final names.scopes.current head ::
          (Direct.plannedList mode final names.scopes.current params.list ++
            (Direct.plannedPairs mode final names.scopes.current hash.pairs).map
              Prod.snd)).flatMap Wire.Expression.refs := by
  obtain ⟨_, done⟩ := ok_of_trace_single done
  rw [traceStatementAt] at done
  -- The `else` block is resolved first and the call last.
  obtain ⟨_, between, otherDone, done⟩ := ok_of_step done
  obtain ⟨_, last, blockDone, done⟩ := ok_of_step done
  have first := other otherDone
  have blocks := first.trans (block first.stack blockDone)
  have call := Draws.operands (asks_call mode _ head params hash) done
  rw [blocks.stack] at call
  exact blocks.trans call

theorem draws_inElement {destination : Located Plan.Expression}
    {before : Option (Located Plan.Expression)} {guid : String}
    {program : Plan.NamedBlock (Located Plan.Statement)} {span : Span}
    {names names' : Names} {stream : List Traced} {inside : SymbolTable → List Wire.Ref}
    (block : ∀ {stream last}, traceBlock mode program names = .ok (stream, last) →
      Draws names last inside)
    (done : traceStatements mode [⟨.inElement destination before guid program, span⟩] names =
      .ok (stream, names')) :
    Draws names names' fun final =>
      inside final ++ (Direct.planned mode final names.scopes.current destination ::
        (before.map (Direct.planned mode final names.scopes.current)).toList).flatMap
          Wire.Expression.refs := by
  obtain ⟨_, done⟩ := ok_of_trace_single done
  rw [traceStatementAt] at done
  obtain ⟨_, between, blockDone, done⟩ := ok_of_step done
  obtain ⟨_, last, goes, done⟩ := ok_of_step done
  have first := block blockDone
  have second : Draws between last _ := .naming (asks_expression mode _ destination) goes
  rw [first.stack] at second
  have both := first.trans second
  cases before with
  | none =>
    cases done
    refine both.congr fun final ref => ?_
    simp
  | some value =>
    have third := Draws.operands (asks_expression mode _ value) done
    rw [both.stack] at third
    refine (both.trans third).congr fun final ref => ?_
    simp

end Statements

end Program

/-! ### Outlines -/

open Template (Block Element)

namespace Wire

theorem Statement.refs_of_arg? {s : Statement} {entry : String × Expression}
    (argument : s.arg? = some entry) : s.refs = entry.2.refs := by
  cases s with
  | staticArg name value =>
    cases argument
    exact List.append_nil _
  | dynamicArg name value =>
    cases argument
    exact List.append_nil _
  | _ => cases argument

/-- Attributes and arguments refer to the same whether they are kept together or apart. -/
theorem mem_refs_of_filed {written : List Statement}
    (filed : ∀ s ∈ written, s.isAttribute = true ∨ s.arg?.isSome = true) (ref : Ref) :
    ref ∈ written.flatMap Statement.refs ↔
      ref ∈ ((written.filterMap Statement.arg?).map Prod.snd).flatMap Expression.refs ∨
        ref ∈ (written.filter Statement.isAttribute).flatMap Statement.refs := by
  induction written with
  | nil => simp
  | cons s rest ih =>
    have later := ih fun t found => filed t (List.mem_cons_of_mem s found)
    rw [List.flatMap_cons, List.mem_append, later]
    rcases filed s List.mem_cons_self with attribute_ | argument
    · rw [List.filterMap_cons_none (Statement.arg?_of_isAttribute attribute_),
        List.filter_cons_of_pos attribute_, List.flatMap_cons, List.mem_append]
      exact or_left_comm
    · obtain ⟨entry, argument⟩ := Option.isSome_iff_exists.mp argument
      have skipped : ¬s.isAttribute = true := by simp [(Statement.of_arg? argument).1]
      rw [List.filterMap_cons_some argument, List.filter_cons_of_neg skipped, List.map_cons,
        List.flatMap_cons, List.mem_append, Statement.refs_of_arg? argument]
      exact or_assoc.symm

end Wire

def Direct.refsAt (mode : Program.Mode) (rename : String → String) (final : SymbolTable)
    (sites : List Site) : List Wire.Ref :=
  sites.flatMap fun site => (own mode rename final site).flatMap Wire.Statement.refs

/-- A component refers by its tag and by what stands in its opening tag. -/
theorem Direct.mem_refs_component (mode : Program.Mode) (rename : String → String)
    (final : SymbolTable) (enclosing : List Binder) (kind : Template.TagKind) (inner : Nat)
    (e : Element Outline) (ref : Wire.Ref) :
    ref ∈ (own mode rename final (.node enclosing (.component kind inner e))).flatMap
        Wire.Statement.refs ↔
      ref ∈ (tagExpression mode final (Binder.current enclosing) rename kind e).refs ∨
        ref ∈ (openingTag mode final (Binder.current enclosing) kind e).flatMap
          Wire.Statement.refs := by
  have filed := openingTag_filed mode final (Binder.current enclosing) kind e
  rw [own, statement, List.flatMap_append, List.flatMap_singleton, List.mem_append,
    Wire.Statement.mem_refs_component, Wire.mem_refs_of_filed filed, or_assoc]

namespace Program

open Direct (refsAt)

variable (mode : Mode) (rename : String → String) {scopes : List Scope}

mutual

-- Named blocks are laid out in another way than other content, but they are planned and traced in
-- the same way, so the induction allows both.

/-- A planned outline asks for what its sites refer to. -/
theorem draws_outline (enclosing : List Binder) : (o : Outline) →
    o.Laid scopes (Binder.current enclosing) ∨ o.LaidAmongNamed scopes (Binder.current enclosing) →
    {list : List (Located Plan.Statement)} → o.plan rename = .ok list →
    {names names' : Names} → {stream : List Traced} →
    names.scopes.current = Binder.current enclosing →
    traceStatements mode list names = .ok (stream, names') →
    Draws names names' fun final => refsAt mode rename final (o.sites enclosing)
  | .mustache m, _, _, done, _, _, _, current, ran => by
    rw [Outline.plan] at done
    obtain ⟨⟨s, span⟩, planned, done⟩ := ok_of_bind done
    cases done
    have renders := renders_mustache planned
    obtain ⟨_, ran⟩ := ok_of_trace_single ran
    refine (draws_leaf renders.leaf ran).congr fun final ref => ?_
    rw [current, renders.value]
    simp [refsAt, Outline.sites, Direct.own, Direct.statement]
  | .text node, _, _, done, _, _, _, _, ran => by
    cases done
    obtain ⟨_, ran⟩ := ok_of_trace_single ran
    exact draws_leaf rfl ran
  | .comment node, _, _, done, _, _, _, _, ran => by
    cases done
    cases ran
    exact .nil _
  | .hidden, _, _, done, _, _, _, _, ran => by
    cases done
    cases ran
    exact .nil _
  | .misplaced parent loc, _, _, done, _, _, _, _, _ => by cases done
  | .invocation ⟨path, params, hash, program, inverse, loc⟩ inner other, laid, _, done, _, _, _,
      current, ran => by
    have laid := laid.resolve_right id
    rw [Outline.plan] at done
    obtain ⟨block, blockDone, done⟩ := ok_of_bind done
    obtain ⟨otherBlock, otherDone, done⟩ := ok_of_bind done
    obtain ⟨head, headDone, done⟩ := ok_of_bind done
    obtain ⟨positional, paramsDone, done⟩ := ok_of_bind done
    obtain ⟨keyed, hashDone, done⟩ := ok_of_bind done
    cases done
    refine (draws_invocation
      (fun inOther => draws_inverse enclosing other inverse laid.2 otherDone inOther)
      (fun _ inside => draws_inline enclosing "default" inner program laid.1 blockDone inside)
      ran).congr fun final ref => ?_
    rw [current, (renders_path headDone).value, (renders_params paramsDone).value,
      (renders_hash hashDone).value]
    simp only [refsAt, Outline.sites, Direct.own, Direct.statement, Wire.Statement.refs,
      Wire.Statement.own, Wire.Statement.expressions, List.flatMap_cons, List.flatMap_append,
      List.flatMap_nil, List.append_nil, List.nil_append, List.mem_append]
    tauto
  | .inElement ⟨path, params, hash, program, inverse, loc⟩ inner cursor, laid, _, done, _, _, _,
      current, ran => by
    have laid := laid.resolve_right id
    rw [Outline.plan] at done
    obtain ⟨⟨destination, before⟩, destinationDone, done⟩ := ok_of_bind done
    obtain ⟨block, blockDone, done⟩ := ok_of_bind done
    cases done
    obtain ⟨goes, beforeWhich, _⟩ := renders_destination destinationDone
    refine (draws_inElement
      (fun inside => draws_inline enclosing "default" inner program laid blockDone inside)
      ran).congr fun final ref => ?_
    rw [current, goes, beforeWhich]
    simp only [refsAt, Outline.sites, Direct.own, Direct.statement, Wire.Statement.refs,
      Wire.Statement.own, Wire.Statement.expressions, List.flatMap_cons, List.flatMap_nil,
      List.append_nil, List.nil_append, List.mem_append]
    exact or_comm
  | .element kind ⟨tag, attributes, modifiers, children, blockParams, selfClosing, loc⟩, laid, _,
      done, names, names', _, current, ran => by
    have laid := laid.resolve_right id
    rw [Outline.plan] at done
    obtain ⟨_, _, done⟩ := ok_of_bind done
    obtain ⟨opened, openedDone, done⟩ := ok_of_bind done
    obtain ⟨content, contentDone, done⟩ := ok_of_bind done
    cases done
    obtain ⟨opening, entries, openingDone, rfl, written⟩ := renders_opening openedDone
    have starts := openStatement_of_element laid.1 openingDone
    rw [closeStatement_of_element laid.1] at ran
    refine (draws_element starts.leaf written.leaf (fun same inside =>
      draws_outlines enclosing children (.inl laid.2) contentDone (same ▸ current) inside)
      ran).congr fun final ref => ?_
    rw [current, List.map_cons, written.value, starts.value]
    simp only [refsAt, Outline.sites, Direct.own, Wire.Statement.refs, Wire.Statement.own,
      Wire.Statement.expressions, List.flatMap_cons, List.flatMap_append, List.flatMap_nil,
      List.append_nil, List.mem_append]
  | .component kind inner ⟨tag, attributes, modifiers, children, blockParams, selfClosing, loc⟩,
      laid, _, done, names, names', _, current, ran => by
    have laid := laid.resolve_right id
    rw [Outline.plan] at done
    obtain ⟨_, _, done⟩ := ok_of_bind done
    obtain ⟨opened, openedDone, done⟩ := ok_of_bind done
    obtain ⟨content, contentDone, done⟩ := ok_of_bind done
    cases done
    obtain ⟨opening, entries, openingDone, rfl, written⟩ := renders_opening openedDone
    obtain ⟨component, bound, laidContent⟩ := laid
    obtain ⟨tagged, rfl, tagRenders⟩ := openStatement_of_component component openingDone
    have laidContent : Outline.LaidAll scopes inner children ∨
        Outline.LaidNamed scopes inner children := by
      split at laidContent
      · exact .inr laidContent
      · exact .inl laidContent
    refine (draws_component (closeStatement_of_component component) written.leaf
      (fun same inside => draws_outlines
        (⟨inner, blockParams, !children.any Outline.isNamed⟩ :: enclosing) children laidContent
        contentDone (by rw [same]; rfl) inside) ran).congr fun final ref => ?_
    rw [current, written.value, tagRenders.value, Outline.sites, refsAt, List.flatMap_cons,
      List.mem_append, Direct.mem_refs_component, List.mem_append, List.mem_append]
    rfl
  | .namedBlock inner ⟨tag, attributes, modifiers, children, blockParams, selfClosing, loc⟩, laid,
      _, done, _, _, _, _, ran => by
    have laid := laid.resolve_left id
    rw [Outline.plan] at done
    obtain ⟨_, _, done⟩ := ok_of_bind done
    obtain ⟨content, contentDone, done⟩ := ok_of_bind done
    cases done
    exact draws_namedBlock (fun inside => draws_outlines (⟨inner, blockParams, true⟩ :: enclosing)
      children (.inl laid.2) contentDone rfl inside) ran

theorem draws_outlines (enclosing : List Binder) : (list : List Outline) →
    Outline.LaidAll scopes (Binder.current enclosing) list ∨
      Outline.LaidNamed scopes (Binder.current enclosing) list →
    {planned : List (Located Plan.Statement)} → Outline.planAll rename list = .ok planned →
    {names names' : Names} → {stream : List Traced} →
    names.scopes.current = Binder.current enclosing →
    traceStatements mode planned names = .ok (stream, names') →
    Draws names names' fun final => refsAt mode rename final (Outline.sitesOfAll enclosing list)
  | [], _, _, done, _, _, _, _, ran => by
    cases done
    cases ran
    exact .nil _
  | s :: rest, laid, _, done, _, _, _, current, ran => by
    rw [Outline.planAll] at done
    obtain ⟨first, firstDone, done⟩ := ok_of_bind done
    obtain ⟨others, restDone, done⟩ := ok_of_bind done
    cases done
    obtain ⟨_, between, _, one, two⟩ := ok_of_trace_append ran
    have here := draws_outline enclosing s (laid.imp And.left And.left) firstDone current one
    have later := draws_outlines enclosing rest (laid.imp And.right And.right) restDone
      (here.stack ▸ current) two
    refine (here.trans later).congr fun final ref => ?_
    rw [Outline.sitesOfAll, refsAt, List.flatMap_append]
    rfl

theorem draws_inline (enclosing : List Binder) (name : String) (inner : Nat) :
    (block : Block Outline) →
    Outline.LaidBlock scopes (Binder.current enclosing) inner block →
    {planned : Plan.NamedBlock (Located Plan.Statement)} →
    Outline.planBlock rename name inner block = .ok planned →
    {names names' : Names} → {stream : List Traced} →
    traceBlock mode planned names = .ok (stream, names') →
    Draws names names' fun final =>
      refsAt mode rename final (Outline.sitesOfBlock enclosing inner block)
  | ⟨body, blockParams, loc⟩, laid, _, done, _, _, _, ran => by
    rw [Outline.planBlock] at done
    obtain ⟨content, contentDone, done⟩ := ok_of_bind done
    cases done
    exact draws_block (fun inside => draws_outlines (⟨inner, blockParams, true⟩ :: enclosing) body
      (.inl laid.2) contentDone rfl inside) ran

theorem draws_inverse (enclosing : List Binder) (inner : Nat) :
    (inverse : Option (Block Outline)) →
    Outline.LaidInverse scopes (Binder.current enclosing) inner inverse →
    {planned : Option (Plan.NamedBlock (Located Plan.Statement))} →
    Outline.planInverse rename inner inverse = .ok planned →
    {names names' : Names} → {stream : List Traced} →
    traceInverse mode planned names = .ok (stream, names') →
    Draws names names' fun final =>
      refsAt mode rename final (Outline.sitesOfInverse enclosing inner inverse)
  | none, _, _, done, _, _, _, ran => by
    cases done
    cases ran
    exact .nil _
  | some block, laid, _, done, _, _, _, ran => by
    rw [Outline.planInverse] at done
    obtain ⟨planned, blockDone, done⟩ := ok_of_bind done
    cases done
    exact draws_inline enclosing "else" inner block laid blockDone ran

end

end Program

end TemplateCompiler

import Mathlib.Data.List.Basic
import TemplateCompiler.Proofs.Outline

/-!
# Scopes of an outline in a symbol table

The numbers in an outline and the scopes of a table are brought together here. Where the blocks
around a place are bound in the table, each beneath the one around it, looking a name up in the
table is the same as searching those blocks from the inside: the first block with the name decides,
and in it the first place where the name stands.
-/

namespace TemplateCompiler

open Template (Block BlockNode Element TagKind)

/-! ### New scopes -/

namespace SymbolTable

/-- Names get slots in a row, from the first that is free. -/
theorem allocateAll_eq (names : List String) (t : SymbolTable) :
    t.allocateAll names = (List.range' (t.symbols.length + 1) names.length,
      { t with symbols := t.symbols ++ names }) := by
  induction names generalizing t with
  | nil => simp [allocateAll]
  | cons name rest ih => simp [allocateAll, allocate, ih, List.range'_succ]

/-- A new scope has the next number, and its names get the next slots. -/
theorem child_eq (parent : Nat) (names : List String) (t : SymbolTable) :
    t.child parent names = (t.scopes.length, { t with
      symbols := t.symbols ++ names
      scopes := t.scopes ++
        [⟨some parent, names, List.range' (t.symbols.length + 1) names.length⟩] }) := by
  simp [child, allocateAll_eq]

/-- What planning does to a table: it adds scopes, and notes that names are read at run time. -/
inductive Extends (t : SymbolTable) : SymbolTable → Prop where
  | refl : t.Extends t
  | child {t' : SymbolTable} (before : t.Extends t') (parent : Nat) (names : List String) :
      t.Extends (t'.child parent names).2
  | eval {t' : SymbolTable} (before : t.Extends t') : t.Extends t'.setHasEval

theorem Extends.trans {t t' t'' : SymbolTable} (first : t.Extends t') (second : t'.Extends t'') :
    t.Extends t'' := by
  induction second with
  | refl => exact first
  | child _ parent names ih => exact ih.child parent names
  | eval _ ih => exact ih.eval

theorem Extends.scopes {t t' : SymbolTable} (extends_ : t.Extends t') : t.scopes <+: t'.scopes := by
  induction extends_ with
  | refl => exact List.prefix_refl _
  | child _ parent names ih =>
    rw [child_eq]
    exact ih.trans (List.prefix_append _ _)
  | eval _ ih => exact ih

end SymbolTable

/-! ### Blocks around a place -/

/-- A scope has a number, a parent with a smaller one, and a slot for each of its names. -/
structure Bound (scopes : List Scope) (parent number : Nat) (names : List String) : Prop where
  older : parent < number
  found : ∃ slots : List Nat, slots.length = names.length ∧
    scopes[number]? = some ⟨some parent, names, slots⟩

namespace Bound

variable {scopes : List Scope} {parent number : Nat} {names : List String}

theorem lt_length (bound : Bound scopes parent number names) : number < scopes.length := by
  obtain ⟨slots, _, found⟩ := bound.found
  exact (List.getElem?_eq_some_iff.mp found).1

/-- A scope stays as it is when more are made. -/
theorem mono {scopes' : List Scope} (bound : Bound scopes parent number names)
    (more : scopes <+: scopes') : Bound scopes' parent number names := by
  obtain ⟨slots, counted, found⟩ := bound.found
  refine ⟨bound.older, slots, counted, ?_⟩
  obtain ⟨rest, rfl⟩ := more
  rw [List.getElem?_append_left bound.lt_length]
  exact found

/-- The scope in full, as any table with these scopes has it. -/
theorem scope_eq {table : SymbolTable} (bound : Bound table.scopes parent number names) :
    (table.slots number).length = names.length ∧
      table.scopes[number]? = some ⟨some parent, names, table.slots number⟩ := by
  obtain ⟨slots, counted, found⟩ := bound.found
  simp [SymbolTable.slots, found, counted]

theorem locals_eq {table : SymbolTable} (bound : Bound table.scopes parent number names) :
    table.locals number = names := by
  simp [SymbolTable.locals, bound.scope_eq.2]

theorem slots_eq (bound : Bound scopes parent number names) :
    ∃ found : Scope, scopes[number]? = some found ∧
      ∀ table : SymbolTable, table.scopes = scopes → table.slots number = found.slots := by
  obtain ⟨slots, _, found⟩ := bound.found
  refine ⟨_, found, ?_⟩
  rintro table rfl
  simp [SymbolTable.slots, found]

/-- A scope that was just made is bound to its parent and its names. -/
theorem of_child {t : SymbolTable} (older : parent < t.scopes.length) :
    Bound (t.child parent names).2.scopes parent t.scopes.length names := by
  refine ⟨older, List.range' (t.symbols.length + 1) names.length, by simp, ?_⟩
  simp [SymbolTable.child_eq]

end Bound

namespace Binder

/-- The blocks around a place are bound in a table, each beneath the next; the root is the last. -/
def Encloses (scopes : List Scope) : List Binder → Prop
  | [] => scopes[SymbolTable.rootScope]? = some ⟨none, [], []⟩
  | b :: rest => Bound scopes (current rest) b.scope b.names ∧ Encloses scopes rest

theorem Encloses.lt_length {scopes : List Scope} {enclosing : List Binder}
    (encloses : Encloses scopes enclosing) : current enclosing < scopes.length := by
  cases enclosing with
  | nil => exact (List.getElem?_eq_some_iff.mp encloses).1
  | cons b rest => exact encloses.1.lt_length

/-- Blocks that enclose a statement still do when more scopes are made. -/
theorem Encloses.mono {scopes scopes' : List Scope} {enclosing : List Binder}
    (encloses : Encloses scopes enclosing) (more : scopes <+: scopes') :
    Encloses scopes' enclosing := by
  induction enclosing with
  | nil =>
    obtain ⟨rest, rfl⟩ := more
    exact (List.getElem?_append_left encloses.lt_length).trans encloses
  | cons b rest ih => exact ⟨encloses.1.mono more, ih encloses.2⟩

theorem Encloses.bound_of_mem {scopes : List Scope} {enclosing : List Binder} {b : Binder}
    (encloses : Encloses scopes enclosing) (inside : b ∈ enclosing) :
    ∃ parent, Bound scopes parent b.scope b.names := by
  induction enclosing with
  | nil => cases inside
  | cons first rest ih =>
    rcases List.mem_cons.mp inside with rfl | later
    · exact ⟨_, encloses.1⟩
    · exact ih encloses.2 later

/-- The scopes around a place, the innermost first and the root last. -/
def chain (table : SymbolTable) : List Binder → List Scope
  | [] => [⟨none, [], []⟩]
  | b :: rest => ⟨some (current rest), b.names, table.slots b.scope⟩ :: chain table rest

/-- The ancestors of the current scope are the scopes of the blocks around it. -/
theorem ancestry_of_encloses {table : SymbolTable} {enclosing : List Binder}
    (encloses : Encloses table.scopes enclosing) {fuel : Nat} (enough : current enclosing < fuel) :
    SymbolTable.ancestry table.scopes fuel (current enclosing) = chain table enclosing := by
  induction enclosing generalizing fuel with
  | nil =>
    cases fuel with
    | zero => cases enough
    | succ fuel =>
      have root : table.scopes[current []]? = some ⟨none, [], []⟩ := encloses
      simp [SymbolTable.ancestry, root, chain]
  | cons b rest ih =>
    cases fuel with
    | zero => cases enough
    | succ fuel =>
      have found : table.scopes[current (b :: rest)]? = _ := encloses.1.scope_eq.2
      have smaller : current rest < fuel := by
        have older : current rest < current (b :: rest) := encloses.1.older
        omega
      simp [SymbolTable.ancestry, found, chain, ih encloses.2 smaller]

theorem chain_of_encloses {table : SymbolTable} {enclosing : List Binder}
    (encloses : Encloses table.scopes enclosing) :
    table.chain (current enclosing) = chain table enclosing :=
  ancestry_of_encloses encloses (Nat.lt_succ_self _)

/-- The innermost block around a place that binds a name. -/
def innermost (enclosing : List Binder) (name : String) : Option Binder :=
  enclosing.find? fun b => b.names.contains name

/-- In a scope, a name has the slot at its first position. -/
theorem lookup_zip {names : List String} {slots : List Nat} (counted : slots.length = names.length)
    (name : String) :
    (names.zip slots).lookup name =
      if names.contains name then slots[names.idxOf name]? else none := by
  induction names generalizing slots with
  | nil => rfl
  | cons first rest ih =>
    cases slots with
    | nil => cases counted
    | cons slot others =>
      have counted : others.length = rest.length := Nat.succ.inj counted
      by_cases same : name = first
      · subst same
        simp
      · have other : (first == name) = false := by simpa using fun h => same h.symm
        have away : (name == first) = false := by simpa using same
        simp [List.lookup_cons, away, List.idxOf_cons, other, ih counted, same]

/-- A block comes before the ones around it. -/
theorem innermost_cons (b : Binder) (rest : List Binder) (name : String) :
    innermost (b :: rest) name =
      if b.names.contains name then some b else innermost rest name := by
  rw [innermost, List.find?_cons]
  cases b.names.contains name <;> rfl

theorem mem_of_innermost {enclosing : List Binder} {name : String} {b : Binder}
    (found : innermost enclosing name = some b) : b ∈ enclosing ∧ b.names.contains name = true := by
  refine ⟨List.mem_of_find?_eq_some found, ?_⟩
  have here := List.find?_some found
  exact here

/-- A name that is bound has a slot in the scope that binds it. -/
theorem Encloses.slot {table : SymbolTable} {enclosing : List Binder} {name : String} {b : Binder}
    (encloses : Encloses table.scopes enclosing) (found : innermost enclosing name = some b) :
    ∃ slot, (table.slots b.scope)[b.names.idxOf name]? = some slot := by
  induction enclosing with
  | nil => cases found
  | cons first rest ih =>
    rw [innermost_cons] at found
    split at found
    · next binds =>
      cases found
      have inside : b.names.idxOf name < (table.slots b.scope).length := by
        rw [encloses.1.scope_eq.1]
        exact List.idxOf_lt_length_iff.mpr (by simpa using binds)
      exact ⟨_, List.getElem?_eq_getElem inside⟩
    · exact ih encloses.2 found

/-- Looking a name up is searching the blocks around the place from the inside. -/
theorem get?_of_encloses {table : SymbolTable} {enclosing : List Binder}
    (encloses : Encloses table.scopes enclosing) (name : String) :
    table.get? (current enclosing) name =
      (innermost enclosing name).bind fun b => (table.slots b.scope)[b.names.idxOf name]? := by
  rw [SymbolTable.get?, chain_of_encloses encloses]
  induction enclosing with
  | nil => rfl
  | cons b rest ih =>
    have here : Scope.slot? name ⟨some (current rest), b.names, table.slots b.scope⟩ = _ :=
      lookup_zip encloses.1.scope_eq.1 name
    rw [chain, List.findSome?_cons, here]
    by_cases binds : b.names.contains name = true
    · have found : innermost (b :: rest) name = some b := by rw [innermost_cons, if_pos binds]
      obtain ⟨slot, at_⟩ := encloses.slot found
      rw [if_pos binds, found, Option.bind_some, at_]
    · rw [if_neg binds, innermost_cons, if_neg binds]
      exact ih encloses.2

/-- The table and the blocks around a statement agree on what is bound. -/
theorem has_of_encloses {table : SymbolTable} {enclosing : List Binder}
    (encloses : Encloses table.scopes enclosing) :
    table.has (current enclosing) = binds enclosing := by
  funext name
  rw [SymbolTable.has, get?_of_encloses encloses, binds]
  cases found : innermost enclosing name with
  | none =>
    have missing := List.find?_eq_none.mp found
    exact (List.any_eq_false.mpr missing).symm
  | some b =>
    obtain ⟨slot, at_⟩ := encloses.slot found
    obtain ⟨among, here⟩ := mem_of_innermost found
    have binds : (enclosing.any fun b => b.names.contains name) = true :=
      List.any_eq_true.mpr ⟨b, among, here⟩
    rw [Option.bind_some, at_, binds]
    rfl

end Binder

/-! ### Outlines -/

namespace Outline

mutual

/-- The scopes of an outline are bound in a table, each beneath the one around it, and its nodes
stand where they may: a named block only in a component that has some. -/
def Laid (scopes : List Scope) (parent : Nat) : Outline → Prop
  | .mustache _ | .text _ | .comment _ | .hidden | .misplaced _ _ => True
  | .invocation ⟨_, _, _, program, inverse, _⟩ scope other =>
    LaidBlock scopes parent scope program ∧ LaidInverse scopes parent other inverse
  | .inElement ⟨_, _, _, program, _, _⟩ scope _ => LaidBlock scopes parent scope program
  | .element kind ⟨_, _, _, children, _, _, _⟩ =>
    kind.isComponentLike = false ∧ LaidAll scopes parent children
  | .component kind scope ⟨_, _, _, children, names, _, _⟩ =>
    kind.isComponentLike = true ∧ Bound scopes parent scope names ∧
      if children.any isNamed then LaidNamed scopes scope children
      else LaidAll scopes scope children
  | .namedBlock _ _ => False

def LaidAll (scopes : List Scope) (parent : Nat) : List Outline → Prop
  | [] => True
  | s :: rest => Laid scopes parent s ∧ LaidAll scopes parent rest

def LaidBlock (scopes : List Scope) (parent scope : Nat) : Block Outline → Prop
  | ⟨body, names, _⟩ => Bound scopes parent scope names ∧ LaidAll scopes scope body

def LaidInverse (scopes : List Scope) (parent scope : Nat) : Option (Block Outline) → Prop
  | none => True
  | some block => LaidBlock scopes parent scope block

/-- The content of a component with named blocks. -/
def LaidNamed (scopes : List Scope) (parent : Nat) : List Outline → Prop
  | [] => True
  | s :: rest => LaidAmongNamed scopes parent s ∧ LaidNamed scopes parent rest

def LaidAmongNamed (scopes : List Scope) (parent : Nat) : Outline → Prop
  | .namedBlock scope ⟨_, _, _, children, names, _, _⟩ =>
    Bound scopes parent scope names ∧ LaidAll scopes scope children
  | .hidden | .misplaced _ _ => True
  | _ => False

end

section Mono

variable {scopes scopes' : List Scope}

mutual

/-- An outline that is laid out stays so when more scopes are made. -/
theorem Laid.mono (more : scopes <+: scopes') (parent : Nat) : (o : Outline) →
    o.Laid scopes parent → o.Laid scopes' parent
  | .mustache _, laid | .text _, laid | .comment _, laid | .hidden, laid
  | .misplaced _ _, laid => laid
  | .invocation ⟨_, _, _, program, inverse, _⟩ scope other, laid =>
    ⟨LaidBlock.mono more parent scope program laid.1,
      LaidInverse.mono more parent other inverse laid.2⟩
  | .inElement ⟨_, _, _, program, _, _⟩ scope _, laid =>
    LaidBlock.mono more parent scope program laid
  | .element kind ⟨_, _, _, children, _, _, _⟩, laid =>
    ⟨laid.1, LaidAll.mono more parent children laid.2⟩
  | .component kind scope ⟨_, _, _, children, names, _, _⟩, laid => by
    refine ⟨laid.1, laid.2.1.mono more, ?_⟩
    have content := laid.2.2
    split
    · next named =>
      rw [if_pos named] at content
      exact LaidNamed.mono more scope children content
    · next unnamed =>
      rw [if_neg unnamed] at content
      exact LaidAll.mono more scope children content
  | .namedBlock _ _, laid => laid

theorem LaidAll.mono (more : scopes <+: scopes') (parent : Nat) : (list : List Outline) →
    LaidAll scopes parent list → LaidAll scopes' parent list
  | [], laid => laid
  | s :: rest, laid => ⟨Laid.mono more parent s laid.1, LaidAll.mono more parent rest laid.2⟩

theorem LaidBlock.mono (more : scopes <+: scopes') (parent scope : Nat) : (block : Block Outline) →
    LaidBlock scopes parent scope block → LaidBlock scopes' parent scope block
  | ⟨body, _, _⟩, laid => ⟨laid.1.mono more, LaidAll.mono more scope body laid.2⟩

theorem LaidInverse.mono (more : scopes <+: scopes') (parent scope : Nat) :
    (inverse : Option (Block Outline)) →
      LaidInverse scopes parent scope inverse → LaidInverse scopes' parent scope inverse
  | none, laid => laid
  | some block, laid => LaidBlock.mono more parent scope block laid

theorem LaidNamed.mono (more : scopes <+: scopes') (parent : Nat) : (list : List Outline) →
    LaidNamed scopes parent list → LaidNamed scopes' parent list
  | [], laid => laid
  | s :: rest, laid =>
    ⟨LaidAmongNamed.mono more parent s laid.1, LaidNamed.mono more parent rest laid.2⟩

theorem LaidAmongNamed.mono (more : scopes <+: scopes') (parent : Nat) : (o : Outline) →
    o.LaidAmongNamed scopes parent → o.LaidAmongNamed scopes' parent
  | .namedBlock scope ⟨_, _, _, children, _, _, _⟩, laid =>
    ⟨laid.1.mono more, LaidAll.mono more scope children laid.2⟩
  | .hidden, laid | .misplaced _ _, laid | .mustache _, laid | .text _, laid | .comment _, laid
  | .invocation _ _ _, laid | .inElement _ _ _, laid | .element _ _, laid
  | .component _ _ _, laid => laid

end

end Mono

end Outline

end TemplateCompiler

import Mathlib.Data.List.Nodup
import TemplateCompiler.Proofs.Growth
import TemplateCompiler.Proofs.Layout

/-!
# Histories of symbol tables

A symbol table is asked for slots, free variables, named arguments, named blocks and new scopes, in
any order. A history lists the requests that were made of one table, each with the answer to it. All
slots come from one counter, so it has to be said who owns them: every slot belongs to one owner,
which is a single request, a named argument, a named block or a place among the names of a scope.

What one request does is stated first. Everything about histories follows from it by induction.
Slots are natural numbers, so nothing is said of tables with more slots than a machine word counts.
-/

namespace TemplateCompiler.SymbolTable

/-- What a table can be asked for. -/
inductive Request where
  /-- A slot of its own, whatever the name. -/
  | slot (name : String)
  | free (name : String)
  | arg (name : String)
  | block (name : String)
  | scope (parent : Nat) (names : List String)
  /-- Only a note that names are read at run time. -/
  | eval
deriving DecidableEq

/-- The answer to a request, and the table afterwards. The answer to a note means nothing. -/
def serve : Request → SymbolTable → Nat × SymbolTable
  | .slot name, t => t.allocate name
  | .free name, t => t.allocateFree name
  | .arg name, t => t.allocateNamed name
  | .block name, t => t.allocateBlock name
  | .scope parent names, t => t.child parent names
  | .eval, t => (0, t.setHasEval)

def serveAll (requests : List Request) (t : SymbolTable) : SymbolTable :=
  requests.foldl (fun t r => (serve r t).2) t

structure Event where
  request : Request
  answer : Nat
deriving DecidableEq

/-- A new scope is put beneath the root, or beneath a scope that was handed out before. -/
def Request.IsKnown (events : List Event) : Request → Prop
  | .scope parent _ => parent = rootScope ∨ ∃ older names, ⟨.scope older names, parent⟩ ∈ events
  | _ => True

/-- What an empty table was asked for so far, and the table that it has become. -/
inductive History : List Event → SymbolTable → Prop where
  | start : History [] empty
  | step {events : List Event} {t : SymbolTable} (before : History events t) (r : Request)
      (known : r.IsKnown events) : History (events ++ [⟨r, (serve r t).1⟩]) (serve r t).2

/-- Whom a slot can belong to. -/
inductive Owner where
  /-- A single request, by its place in the history. -/
  | call (position : Nat)
  | arg (name : String)
  | block (name : String)
  /-- A name of a scope, by its place among the names. -/
  | param (scope position : Nat)
deriving DecidableEq

/-- An owner was handed a slot under a name, which is written with its sigil. -/
inductive HandedOut (events : List Event) (t : SymbolTable) : Owner → String → Nat → Prop where
  | call {position : Nat} {name : String} {slot : Nat}
      (asked : events[position]? = some ⟨.slot name, slot⟩) :
      HandedOut events t (.call position) name slot
  | arg {name : String} {slot : Nat} (asked : ⟨.arg name, slot⟩ ∈ events) :
      HandedOut events t (.arg name) ("@" ++ name) slot
  | block {name : String} {slot : Nat} (asked : ⟨.block name, slot⟩ ∈ events) :
      HandedOut events t (.block (blockName name)) ("&" ++ blockName name) slot
  | param {parent scope position : Nat} {names : List String} {name : String} {slot : Nat}
      (asked : ⟨.scope parent names, scope⟩ ∈ events) (named : names[position]? = some name)
      (placed : (t.slots scope)[position]? = some slot) :
      HandedOut events t (.param scope position) name slot

/-! ### What one request does -/

/-- The entries of a table that stay, whatever it is asked for. -/
structure Keeps (t t' : SymbolTable) : Prop where
  scopes : t.scopes <+: t'.scopes
  symbols : t.symbols <+: t'.symbols
  upvars : t.upvars <+: t'.upvars

theorem Keeps.refl (t : SymbolTable) : t.Keeps t :=
  ⟨List.prefix_refl _, List.prefix_refl _, List.prefix_refl _⟩

theorem Keeps.trans {t t' t'' : SymbolTable} (first : t.Keeps t') (second : t'.Keeps t'') :
    t.Keeps t'' :=
  ⟨first.scopes.trans second.scopes, first.symbols.trans second.symbols,
    first.upvars.trans second.upvars⟩

theorem Grows.keeps {t t' : SymbolTable} (grows : t.Grows t') : t.Keeps t' :=
  ⟨grows.scopes ▸ List.prefix_refl _, grows.symbols, grows.upvars⟩

/-- Serving a request takes nothing away that was handed out. -/
theorem serve_keeps (r : Request) (t : SymbolTable) : t.Keeps (serve r t).2 := by
  cases r with
  | slot name => exact ⟨List.prefix_refl _, List.prefix_append _ _, List.prefix_refl _⟩
  | free name => exact (allocateFree_grows name t).keeps
  | arg name => exact (allocateNamed_grows name t).keeps
  | block name => exact (allocateBlock_grows name t).keeps
  | scope parent names =>
    rw [serve, child_eq]
    exact ⟨List.prefix_append _ _, List.prefix_append _ _, List.prefix_refl _⟩
  | eval => exact ⟨List.prefix_refl _, List.prefix_refl _, List.prefix_refl _⟩

theorem serveAll_keeps (requests : List Request) (t : SymbolTable) :
    t.Keeps (t.serveAll requests) := by
  induction requests generalizing t with
  | nil => exact .refl t
  | cons r rest ih => exact (serve_keeps r t).trans (ih (serve r t).2)

theorem allocateNamed_cases (name : String) (t : SymbolTable) :
    (∃ slot, t.named.lookup name = some slot ∧ t.allocateNamed name = (slot, t)) ∨
      (t.named.lookup name = none ∧ t.allocateNamed name = (t.symbols.length + 1, { t with
        symbols := t.symbols ++ ["@" ++ name]
        named := t.named ++ [(name, t.symbols.length + 1)] })) := by
  cases found : t.named.lookup name with
  | some slot => exact .inl ⟨slot, rfl, by simp [allocateNamed, found]⟩
  | none => exact .inr ⟨rfl, by simp [allocateNamed, found, allocate]⟩

theorem allocateBlock_cases (name : String) (t : SymbolTable) :
    (∃ slot, t.blocks.lookup (blockName name) = some slot ∧ t.allocateBlock name = (slot, t)) ∨
      (t.blocks.lookup (blockName name) = none ∧
        t.allocateBlock name = (t.symbols.length + 1, { t with
          symbols := t.symbols ++ ["&" ++ blockName name]
          blocks := t.blocks ++ [(blockName name, t.symbols.length + 1)] })) := by
  cases found : t.blocks.lookup (blockName name) with
  | some slot => exact .inl ⟨slot, rfl, by simp [allocateBlock, found]⟩
  | none => exact .inr ⟨rfl, by simp [allocateBlock, found, allocate]⟩

theorem lookup_snoc {entries : List (String × Nat)} {asked : String}
    (missing : entries.lookup asked = none) (name : String) (new slot : Nat) :
    (entries ++ [(asked, new)]).lookup name = some slot ↔
      entries.lookup name = some slot ∨ (name = asked ∧ slot = new) := by
  rw [List.lookup_append]
  by_cases same : name = asked
  · subst same
    simp [missing, eq_comm]
  · have other : (name == asked) = false := by simpa using same
    simp [List.lookup_cons, other, same]

/-- The named arguments that have a slot after a request. -/
theorem named_lookup_serve (r : Request) (t : SymbolTable) (name : String) (slot : Nat) :
    (serve r t).2.named.lookup name = some slot ↔
      t.named.lookup name = some slot ∨ (r = .arg name ∧ slot = (serve r t).1) := by
  cases r with
  | arg asked =>
    rw [serve]
    rcases allocateNamed_cases asked t with ⟨old, found, same⟩ | ⟨missing, same⟩
    · rw [same]
      constructor
      · exact .inl
      · rintro (known | ⟨⟨⟩, rfl⟩)
        · exact known
        · exact found
    · rw [same, lookup_snoc missing]
      simp [eq_comm]
  | slot | eval => simp [serve, allocate, setHasEval]
  | free asked =>
    rw [serve, allocateFree]
    split <;> simp
  | block asked =>
    rw [serve]
    rcases allocateBlock_cases asked t with ⟨_, _, same⟩ | ⟨_, same⟩ <;> simp [same]
  | scope parent names => simp [serve, child_eq]

/-- The named blocks that have a slot after a request. -/
theorem blocks_lookup_serve (r : Request) (t : SymbolTable) (name : String) (slot : Nat) :
    (serve r t).2.blocks.lookup name = some slot ↔
      t.blocks.lookup name = some slot ∨
        ∃ asked, blockName asked = name ∧ r = .block asked ∧ slot = (serve r t).1 := by
  cases r with
  | block asked =>
    rw [serve]
    rcases allocateBlock_cases asked t with ⟨old, found, same⟩ | ⟨missing, same⟩
    · rw [same]
      constructor
      · exact .inl
      · rintro (known | ⟨_, rfl, ⟨⟩, rfl⟩)
        · exact known
        · exact found
    · rw [same, lookup_snoc missing]
      simp [eq_comm]
  | slot | eval => simp [serve, allocate, setHasEval]
  | free asked =>
    rw [serve, allocateFree]
    split <;> simp
  | arg asked =>
    rw [serve]
    rcases allocateNamed_cases asked t with ⟨_, _, same⟩ | ⟨_, same⟩ <;> simp [same]
  | scope parent names => simp [serve, child_eq]

/-- Only a request for a scope adds one. -/
theorem serve_scopes (r : Request) (t : SymbolTable) :
    ((∀ parent names, r ≠ .scope parent names) ∧ (serve r t).2.scopes = t.scopes) ∨
      ∃ parent names, r = .scope parent names ∧
        serve r t = (t.scopes.length, { t with
          symbols := t.symbols ++ names
          scopes := t.scopes ++
            [⟨some parent, names, List.range' (t.symbols.length + 1) names.length⟩] }) := by
  cases r with
  | scope parent names => exact .inr ⟨parent, names, rfl, child_eq parent names t⟩
  | slot | eval => exact .inl ⟨by rintro _ _ ⟨⟩, rfl⟩
  | free name => exact .inl ⟨by rintro _ _ ⟨⟩, (allocateFree_grows name t).scopes⟩
  | arg name => exact .inl ⟨by rintro _ _ ⟨⟩, (allocateNamed_grows name t).scopes⟩
  | block name => exact .inl ⟨by rintro _ _ ⟨⟩, (allocateBlock_grows name t).scopes⟩

/-- Only a request for a free variable adds one, and only if it is new. -/
theorem serve_upvars (r : Request) (t : SymbolTable) :
    (serve r t).2.upvars = t.upvars ∨
      ∃ name, r = .free name ∧ name ∉ t.upvars ∧ (serve r t).2.upvars = t.upvars ++ [name] := by
  cases r with
  | free name =>
    rw [serve, allocateFree]
    split
    · exact .inl rfl
    · next missing => exact .inr ⟨name, rfl, missing, rfl⟩
  | slot | eval => exact .inl rfl
  | arg name =>
    rw [serve]
    rcases allocateNamed_cases name t with ⟨_, _, same⟩ | ⟨_, same⟩ <;> exact .inl (by rw [same])
  | block name =>
    rw [serve]
    rcases allocateBlock_cases name t with ⟨_, _, same⟩ | ⟨_, same⟩ <;> exact .inl (by rw [same])
  | scope parent names => exact .inl (by rw [serve, child_eq])

/-! ### The books of a table -/

/-- What a table has written down agrees with what it was asked for. -/
structure Books (events : List Event) (t : SymbolTable) : Prop where
  root : t.scopes[rootScope]? = some ⟨none, [], []⟩
  /-- A scope that was asked for stands in the table, beneath an older one. -/
  bound : ∀ {parent scope names}, ⟨.scope parent names, scope⟩ ∈ events →
    Bound t.scopes parent scope names
  asked : ∀ {scope}, scope ≠ rootScope → scope < t.scopes.length →
    ∃ parent names, ⟨.scope parent names, scope⟩ ∈ events
  args : ∀ name slot, ⟨.arg name, slot⟩ ∈ events ↔ t.named.lookup name = some slot
  blocks : ∀ name slot, (∃ asked, blockName asked = name ∧ ⟨.block asked, slot⟩ ∈ events) ↔
    t.blocks.lookup name = some slot
  frees : ∀ {name index}, ⟨.free name, index⟩ ∈ events → t.upvars[index]? = some name
  distinct : t.upvars.Nodup

theorem Books.empty : Books [] empty where
  root := rfl
  bound := by rintro _ _ _ ⟨⟩
  asked := by
    intro scope notRoot inside
    simp only [SymbolTable.empty, List.length_singleton, rootScope] at *
    omega
  args := by simp [SymbolTable.empty]
  blocks := by simp [SymbolTable.empty]
  frees := by rintro _ _ ⟨⟩
  distinct := List.nodup_nil

theorem mem_step {events : List Event} {request r : Request} {slot answer : Nat} :
    ⟨request, slot⟩ ∈ events ++ [⟨r, answer⟩] ↔
      ⟨request, slot⟩ ∈ events ∨ (r = request ∧ slot = answer) := by
  simp [eq_comm]

/-- Serving one more request keeps the books right. -/
theorem Books.step {events : List Event} {t : SymbolTable} (books : Books events t) {r : Request}
    (known : r.IsKnown events) : Books (events ++ [⟨r, (serve r t).1⟩]) (serve r t).2 where
  root := by
    obtain ⟨more, same⟩ := (serve_keeps r t).scopes
    rw [← same, List.getElem?_append_left (List.getElem?_eq_some_iff.mp books.root).1]
    exact books.root
  bound := by
    intro parent scope names inside
    rcases mem_step.mp inside with old | ⟨rfl, rfl⟩
    · exact (books.bound old).mono (serve_keeps r t).scopes
    · have older : parent < t.scopes.length := by
        rcases known with rfl | ⟨_, _, earlier⟩
        · exact (List.getElem?_eq_some_iff.mp books.root).1
        · exact (books.bound earlier).lt_length
      have here : (serve (.scope parent names) t).1 = t.scopes.length := by rw [serve, child_eq]
      rw [here]
      exact Bound.of_child older
  asked := by
    intro scope notRoot inside
    rcases serve_scopes r t with ⟨_, same⟩ | ⟨parent, names, rfl, same⟩
    · rw [same] at inside
      obtain ⟨parent, names, asked⟩ := books.asked notRoot inside
      exact ⟨parent, names, List.mem_append_left _ asked⟩
    · by_cases old : scope < t.scopes.length
      · obtain ⟨parent, names, asked⟩ := books.asked notRoot old
        exact ⟨parent, names, List.mem_append_left _ asked⟩
      · have last : scope = t.scopes.length := by
          rw [same, List.length_append, List.length_singleton] at inside
          omega
        exact ⟨parent, names, mem_step.mpr (.inr ⟨rfl, by rw [same, last]⟩)⟩
  args := by
    intro name slot
    rw [mem_step, named_lookup_serve, books.args]
  blocks := by
    intro name slot
    simp only [mem_step, blocks_lookup_serve, ← books.blocks]
    grind
  frees := by
    intro name index inside
    rcases mem_step.mp inside with old | ⟨rfl, rfl⟩
    · obtain ⟨more, same⟩ := (serve_keeps r t).upvars
      have found := books.frees old
      rw [← same, List.getElem?_append_left (List.getElem?_eq_some_iff.mp found).1]
      exact found
    · rw [serve, ← allocateFree_index]
      exact List.getElem?_idxOf (mem_allocateFree name t)
  distinct := by
    rcases serve_upvars r t with same | ⟨name, _, missing, same⟩
    · exact same ▸ books.distinct
    · rw [same, List.nodup_append]
      grind [books.distinct]

/-- After any requests the books are right. -/
theorem History.books {events : List Event} {t : SymbolTable} (history : History events t) :
    Books events t := by
  induction history with
  | start => exact .empty
  | step _ r known ih => exact ih.step known

/-! ### Owners -/

/-- The owners of the slots that a request hands out for the first time. -/
def newOwners (events : List Event) (t : SymbolTable) : Request → List (Owner × String)
  | .slot name => [(.call events.length, name)]
  | .arg name => if t.named.lookup name = none then [(.arg name, "@" ++ name)] else []
  | .block name =>
    if t.blocks.lookup (blockName name) = none then
      [(.block (blockName name), "&" ++ blockName name)]
    else []
  | .scope _ names => names.mapIdx fun position name => (.param t.scopes.length position, name)
  | .free _ | .eval => []

/-- The symbols grow by the names of the new owners. -/
theorem serve_symbols (events : List Event) (t : SymbolTable) (r : Request) :
    (serve r t).2.symbols = t.symbols ++ (newOwners events t r).map Prod.snd := by
  cases r with
  | slot name => rfl
  | free name =>
    rw [serve, allocateFree]
    split <;> simp [newOwners]
  | arg name =>
    rw [serve]
    rcases allocateNamed_cases name t with ⟨_, found, same⟩ | ⟨missing, same⟩
    · simp [same, newOwners, found]
    · simp [same, newOwners, missing]
  | block name =>
    rw [serve]
    rcases allocateBlock_cases name t with ⟨_, found, same⟩ | ⟨missing, same⟩
    · simp [same, newOwners, found]
    · simp [same, newOwners, missing]
  | scope parent names =>
    have named : (newOwners events t (.scope parent names)).map Prod.snd = names := by
      apply List.ext_getElem?
      simp [newOwners, Function.comp_def]
    rw [named, serve, child_eq]
  | eval => simp [serve, setHasEval, newOwners]

/-- An argument owns the slot at which it is filed. -/
theorem Books.handedOut_arg {events : List Event} {t : SymbolTable} (books : Books events t)
    {arg name : String} {slot : Nat} :
    HandedOut events t (.arg arg) name slot ↔
      name = "@" ++ arg ∧ t.named.lookup arg = some slot := by
  rw [← books.args]
  constructor
  · rintro ⟨⟩
    exact ⟨rfl, ‹_›⟩
  · rintro ⟨rfl, asked⟩
    exact .arg asked

theorem Books.handedOut_block {events : List Event} {t : SymbolTable} (books : Books events t)
    {block name : String} {slot : Nat} :
    HandedOut events t (.block block) name slot ↔
      name = "&" ++ block ∧ t.blocks.lookup block = some slot := by
  rw [← books.blocks]
  constructor
  · rintro ⟨⟩
    exact ⟨rfl, _, rfl, ‹_›⟩
  · rintro ⟨rfl, _, rfl, asked⟩
    exact .block asked

/-- A block param owns the slot at its position in its scope. -/
theorem Books.handedOut_param {events : List Event} {t : SymbolTable} (books : Books events t)
    {scope position : Nat} {name : String} {slot : Nat} :
    HandedOut events t (.param scope position) name slot ↔
      ∃ s, t.scopes[scope]? = some s ∧ s.locals[position]? = some name ∧
        s.slots[position]? = some slot := by
  constructor
  · rintro ⟨⟩
    next parent names asked named placed =>
    exact ⟨_, (books.bound asked).scope_eq.2, named, placed⟩
  · rintro ⟨s, found, named, placed⟩
    have notRoot : scope ≠ rootScope := by
      rintro rfl
      rw [books.root] at found
      cases found
      cases named
    have inside : scope < t.scopes.length := (List.getElem?_eq_some_iff.mp found).1
    obtain ⟨parent, names, asked⟩ := books.asked notRoot inside
    have same := (books.bound asked).scope_eq.2
    rw [found] at same
    cases same
    exact .param asked named placed

theorem handedOut_call {events : List Event} {t : SymbolTable} {position slot : Nat}
    {name : String} :
    HandedOut events t (.call position) name slot ↔
      events[position]? = some ⟨.slot name, slot⟩ := by
  constructor
  · rintro ⟨⟩
    assumption
  · exact .call

theorem newOwners_call {events : List Event} {t : SymbolTable} {r : Request} {i position : Nat}
    {name : String} :
    (newOwners events t r)[i]? = some (.call position, name) ↔
      i = 0 ∧ r = .slot name ∧ position = events.length := by
  cases r <;> grind [newOwners]

theorem newOwners_arg {events : List Event} {t : SymbolTable} {r : Request} {i : Nat}
    {arg name : String} :
    (newOwners events t r)[i]? = some (.arg arg, name) ↔
      i = 0 ∧ r = .arg arg ∧ t.named.lookup arg = none ∧ name = "@" ++ arg := by
  cases r <;> grind [newOwners]

theorem newOwners_block {events : List Event} {t : SymbolTable} {r : Request} {i : Nat}
    {block name : String} :
    (newOwners events t r)[i]? = some (.block block, name) ↔
      i = 0 ∧ (∃ asked, r = .block asked ∧ blockName asked = block) ∧
        t.blocks.lookup block = none ∧ name = "&" ++ block := by
  cases r <;> grind [newOwners]

theorem newOwners_param {events : List Event} {t : SymbolTable} {r : Request}
    {i scope position : Nat} {name : String} :
    (newOwners events t r)[i]? = some (.param scope position, name) ↔
      i = position ∧ scope = t.scopes.length ∧
        ∃ parent names, r = .scope parent names ∧ names[position]? = some name := by
  cases r <;> grind [newOwners]

/-- A request adds the new owners, each with the next slot, and changes no others. -/
theorem handedOut_serve {events : List Event} {t : SymbolTable} {r : Request}
    (before : Books events t) (after : Books (events ++ [⟨r, (serve r t).1⟩]) (serve r t).2)
    (owner : Owner) (name : String) (slot : Nat) :
    HandedOut (events ++ [⟨r, (serve r t).1⟩]) (serve r t).2 owner name slot ↔
      HandedOut events t owner name slot ∨
        ∃ i, slot = t.symbols.length + i + 1 ∧ (newOwners events t r)[i]? = some (owner, name) := by
  cases owner with
  | call position =>
    have answer : r = .slot name → (serve r t).1 = t.symbols.length + 1 := by
      rintro rfl
      rfl
    simp only [handedOut_call, newOwners_call]
    grind
  | arg arg =>
    have answer : r = .arg arg → (t.named.lookup arg = some (serve r t).1 ∨
        t.named.lookup arg = none ∧ (serve r t).1 = t.symbols.length + 1) := by
      rintro rfl
      rcases allocateNamed_cases arg t with ⟨_, found, same⟩ | ⟨missing, same⟩
      · exact .inl (by rw [serve, same]; exact found)
      · exact .inr ⟨missing, by rw [serve, same]⟩
    simp only [before.handedOut_arg, after.handedOut_arg, named_lookup_serve, newOwners_arg]
    grind
  | block block =>
    have answer : ∀ asked, r = .block asked → blockName asked = block →
        (t.blocks.lookup block = some (serve r t).1 ∨
          t.blocks.lookup block = none ∧ (serve r t).1 = t.symbols.length + 1) := by
      rintro asked rfl rfl
      rcases allocateBlock_cases asked t with ⟨_, found, same⟩ | ⟨missing, same⟩
      · exact .inl (by rw [serve, same]; exact found)
      · exact .inr ⟨missing, by rw [serve, same]⟩
    simp only [before.handedOut_block, after.handedOut_block, blocks_lookup_serve, newOwners_block]
    grind
  | param scope position =>
    simp only [before.handedOut_param, after.handedOut_param, newOwners_param]
    rcases serve_scopes r t with ⟨other, same⟩ | ⟨parent, names, rfl, same⟩
    · simp [same, other]
    · rw [same]
      rcases Nat.lt_trichotomy scope t.scopes.length with old | rfl | beyond
      · simp [List.getElem?_append_left old, Nat.ne_of_lt old]
      · have counted : names[position]? = some name → position < names.length :=
          fun named => (List.getElem?_eq_some_iff.mp named).1
        simp only [List.getElem?_concat_length, List.getElem?_eq_none (Nat.le_refl _)]
        grind
      · have outside : (t.scopes ++ [⟨some parent, names,
            List.range' (t.symbols.length + 1) names.length⟩])[scope]? = none :=
          List.getElem?_eq_none (by simp; omega)
        simp [outside, Nat.le_of_lt beyond, Nat.ne_of_gt beyond]

/-- The owners of all slots, in the order of the slots. -/
theorem History.owners {events : List Event} {t : SymbolTable} (history : History events t) :
    ∃ owners : List (Owner × String), owners.map Prod.snd = t.symbols ∧
      ∀ owner name slot, HandedOut events t owner name slot ↔
        ∃ i, slot = i + 1 ∧ owners[i]? = some (owner, name) := by
  induction history with
  | start =>
    refine ⟨[], rfl, fun owner name slot => ⟨?_, by rintro ⟨_, _, ⟨⟩⟩⟩⟩
    rintro (⟨⟨⟩⟩ | ⟨⟨⟩⟩ | ⟨⟨⟩⟩ | ⟨⟨⟩, _, _⟩)
  | @step events t before r known ih =>
    obtain ⟨owners, named, handed⟩ := ih
    have counted : owners.length = t.symbols.length := by rw [← named, List.length_map]
    refine ⟨owners ++ newOwners events t r, ?_, fun owner name slot => ?_⟩
    · rw [List.map_append, named, serve_symbols events]
    · rw [handedOut_serve before.books (before.books.step known), handed]
      constructor
      · rintro (⟨i, rfl, found⟩ | ⟨i, rfl, found⟩)
        · have inside := (List.getElem?_eq_some_iff.mp found).1
          exact ⟨i, rfl, by rw [List.getElem?_append_left inside, found]⟩
        · refine ⟨t.symbols.length + i, rfl, ?_⟩
          rw [← counted, List.getElem?_append_right (Nat.le_add_right _ _), Nat.add_sub_cancel_left]
          exact found
      · rintro ⟨i, rfl, found⟩
        by_cases old : i < owners.length
        · exact .inl ⟨i, rfl, by rwa [List.getElem?_append_left old] at found⟩
        · rw [List.getElem?_append_right (by omega)] at found
          exact .inr ⟨i - owners.length, by omega, found⟩

/-! ### Walking up the scopes -/

/-- A scope is made after its parent. -/
theorem Books.parent_lt {events : List Event} {t : SymbolTable} (books : Books events t)
    {scope parent : Nat} {s : Scope} (found : t.scopes[scope]? = some s)
    (above : s.parent = some parent) : parent < scope := by
  by_cases isRoot : scope = rootScope
  · subst isRoot
    rw [books.root] at found
    cases found
    cases above
  · have inside := (List.getElem?_eq_some_iff.mp found).1
    obtain ⟨older, names, asked⟩ := books.asked isRoot inside
    have same := (books.bound asked).scope_eq.2
    rw [found] at same
    cases same
    cases above
    exact (books.bound asked).older

/-- Parents are older, so the fuel is never used up. -/
theorem Books.ancestry_eq_chain {events : List Event} {t : SymbolTable} (books : Books events t)
    (scope : Nat) {fuel : Nat} (enough : scope < fuel) :
    ancestry t.scopes fuel scope = t.chain scope := by
  induction scope using Nat.strongRecOn generalizing fuel with
  | ind scope ih =>
    obtain ⟨fuel, rfl⟩ : ∃ n, fuel = n + 1 := ⟨fuel - 1, by omega⟩
    rw [chain, ancestry, ancestry]
    cases found : t.scopes[scope]? with
    | none => rfl
    | some s =>
      cases above : s.parent with
      | none => simp [above]
      | some parent =>
        have older := books.parent_lt found above
        simp only [above]
        rw [ih parent older (by omega), ih parent older older]

theorem Books.chain_eq {events : List Event} {t : SymbolTable} (books : Books events t)
    {scope : Nat} {s : Scope} (found : t.scopes[scope]? = some s) :
    t.chain scope = s :: s.parent.elim [] t.chain := by
  rw [chain, ancestry, found]
  cases above : s.parent with
  | none => simp [above]
  | some parent => simp [above, books.ancestry_eq_chain parent (books.parent_lt found above)]

/-- The last scope on the way up is the root. -/
theorem Books.chain_getLast? {events : List Event} {t : SymbolTable} (books : Books events t)
    {scope : Nat} (inside : scope < t.scopes.length) :
    (t.chain scope).getLast? = some ⟨none, [], []⟩ := by
  induction scope using Nat.strongRecOn with
  | ind scope ih =>
    have found := List.getElem?_eq_getElem inside
    rw [books.chain_eq found]
    cases above : t.scopes[scope].parent with
    | none =>
      have isRoot : scope = rootScope := by
        by_contra notRoot
        obtain ⟨older, names, asked⟩ := books.asked notRoot inside
        rw [(books.bound asked).scope_eq.2] at found
        rw [← Option.some.inj found] at above
        cases above
      subst isRoot
      rw [books.root] at found
      simp [← Option.some.inj found]
    | some parent =>
      have older := books.parent_lt found above
      simp [List.getLast?_cons, ih parent older (Nat.lt_trans older inside)]

/-- Later scopes do not show in the way up from an earlier one. -/
theorem Books.ancestry_keeps {events : List Event} {t t' : SymbolTable} (books : Books events t)
    (keeps : t.Keeps t') (fuel : Nat) {scope : Nat} (inside : scope < t.scopes.length) :
    ancestry t'.scopes fuel scope = ancestry t.scopes fuel scope := by
  induction fuel generalizing scope with
  | zero => rfl
  | succ fuel ih =>
    obtain ⟨more, same⟩ := keeps.scopes
    have here : t'.scopes[scope]? = t.scopes[scope]? := by
      rw [← same, List.getElem?_append_left inside]
    rw [ancestry, ancestry, here]
    cases found : t.scopes[scope]? with
    | none => rfl
    | some s =>
      cases above : s.parent with
      | none => simp [above]
      | some parent =>
        have older := books.parent_lt found above
        simp [above, ih (Nat.lt_trans older inside)]

/-- A scope, once made, is always read in the same way. -/
structure ReadsAlike (t t' : SymbolTable) (scope : Nat) : Prop where
  get? : ∀ name, t'.get? scope name = t.get? scope name
  slots : t'.slots scope = t.slots scope
  locals : t'.locals scope = t.locals scope
  evalInfo : t'.evalInfo scope = t.evalInfo scope

/-- What names mean in a scope does not change any more. -/
theorem Books.readsAlike {events : List Event} {t t' : SymbolTable} (books : Books events t)
    (keeps : t.Keeps t') {scope : Nat} (inside : scope < t.scopes.length) :
    t.ReadsAlike t' scope := by
  have sameChain : t'.chain scope = t.chain scope := books.ancestry_keeps keeps _ inside
  have sameScope : t'.scopes[scope]? = t.scopes[scope]? := by
    obtain ⟨more, same⟩ := keeps.scopes
    rw [← same, List.getElem?_append_left inside]
  constructor
  · intro name
    rw [SymbolTable.get?, SymbolTable.get?, sameChain]
  · rw [SymbolTable.slots, SymbolTable.slots, sameScope]
  · rw [SymbolTable.locals, SymbolTable.locals, sameScope]
  · rw [SymbolTable.evalInfo, SymbolTable.evalInfo, sameChain]

/-! ### What holds after every history -/

/-- What may be relied on in a table with a history. -/
structure Accounted (events : List Event) (t : SymbolTable) : Prop where
  owned : ∀ slot, 1 ≤ slot → slot ≤ t.symbols.length →
    ∃! owner, ∃ name, HandedOut events t owner name slot
  /-- No owner has slot 0, and symbols are the names of the owners. -/
  labelled : ∀ owner name slot, HandedOut events t owner name slot →
    1 ≤ slot ∧ t.symbols[slot - 1]? = some name
  args : ∀ name name' slot slot', ⟨.arg name, slot⟩ ∈ events → ⟨.arg name', slot'⟩ ∈ events →
    (slot = slot' ↔ name = name')
  blocks : ∀ name name' slot slot', ⟨.block name, slot⟩ ∈ events →
    ⟨.block name', slot'⟩ ∈ events → (slot = slot' ↔ blockName name = blockName name')
  frees : ∀ name name' index index', ⟨.free name, index⟩ ∈ events →
    ⟨.free name', index'⟩ ∈ events → (index = index' ↔ name = name')
  /-- Whatever is asked next, in any number of requests. -/
  kept : ∀ requests, t.symbols <+: (t.serveAll requests).symbols ∧
    t.upvars <+: (t.serveAll requests).upvars ∧
    ∀ scope < t.scopes.length, t.ReadsAlike (t.serveAll requests) scope
  older : ∀ (scope : Nat) (s : Scope) (parent : Nat), t.scopes[scope]? = some s →
    s.parent = some parent → parent < scope
  /-- The way up from a scope, with no bound on its length, and that it ends. -/
  walk : ∀ (scope : Nat) (s : Scope), t.scopes[scope]? = some s →
    t.chain scope = s :: s.parent.elim [] t.chain ∧
      (t.chain scope).getLast? = some ⟨none, [], []⟩

/-- Two owners of one slot are the same. -/
theorem History.owner_unique {events : List Event} {t : SymbolTable} (history : History events t)
    {owner owner' : Owner} {name name' : String} {slot : Nat}
    (first : HandedOut events t owner name slot) (second : HandedOut events t owner' name' slot) :
    owner = owner' := by
  obtain ⟨owners, _, handed⟩ := history.owners
  obtain ⟨i, rfl, found⟩ := (handed _ _ _).mp first
  obtain ⟨j, same, found'⟩ := (handed _ _ _).mp second
  obtain rfl : i = j := Nat.succ.inj same
  rw [found] at found'
  cases found'
  rfl

/-- The symbol at a slot is the name of its owner. -/
theorem History.labelled {events : List Event} {t : SymbolTable} (history : History events t)
    {owner : Owner} {name : String} {slot : Nat} (handed : HandedOut events t owner name slot) :
    1 ≤ slot ∧ t.symbols[slot - 1]? = some name := by
  obtain ⟨owners, named, entry⟩ := history.owners
  obtain ⟨i, rfl, found⟩ := (entry _ _ _).mp handed
  rw [← named]
  simp [found]

/-- Every slot in range has an owner. -/
theorem History.owned {events : List Event} {t : SymbolTable} (history : History events t)
    {slot : Nat} (positive : 1 ≤ slot) (inside : slot ≤ t.symbols.length) :
    ∃ owner name, HandedOut events t owner name slot := by
  obtain ⟨owners, named, handed⟩ := history.owners
  have counted : slot - 1 < owners.length := by
    rw [← named, List.length_map] at inside
    omega
  exact ⟨_, _, (handed _ _ _).mpr ⟨slot - 1, by omega, List.getElem?_eq_getElem counted⟩⟩

/-- After any requests, every slot is accounted for. -/
theorem accounted_of_history {events : List Event} {t : SymbolTable} (history : History events t) :
    Accounted events t where
  owned := by
    intro slot positive inside
    obtain ⟨owner, name, handed⟩ := history.owned positive inside
    refine ⟨owner, ⟨name, handed⟩, ?_⟩
    rintro other ⟨_, also⟩
    exact history.owner_unique also handed
  labelled := fun _ _ _ handed => history.labelled handed
  args := by
    intro name name' slot slot' asked asked'
    constructor
    · rintro rfl
      exact Owner.arg.inj (history.owner_unique (.arg asked) (.arg asked'))
    · rintro rfl
      rw [history.books.args] at asked asked'
      exact Option.some.inj (asked.symm.trans asked')
  blocks := by
    intro name name' slot slot' asked asked'
    constructor
    · rintro rfl
      exact Owner.block.inj (history.owner_unique (.block asked) (.block asked'))
    · intro same
      have found := (history.books.blocks _ _).mp ⟨name, rfl, asked⟩
      have found' := (history.books.blocks _ _).mp ⟨name', same.symm, asked'⟩
      exact Option.some.inj (found.symm.trans found')
  frees := by
    intro name name' index index' asked asked'
    have found := history.books.frees asked
    have found' := history.books.frees asked'
    constructor
    · rintro rfl
      exact Option.some.inj (found.symm.trans found')
    · rintro rfl
      have inside := (List.getElem?_eq_some_iff.mp found).1
      exact (List.getElem?_inj inside history.books.distinct).mp (found.trans found'.symm)
  kept := by
    intro requests
    have keeps := serveAll_keeps requests t
    exact ⟨keeps.symbols, keeps.upvars, fun _ inside => history.books.readsAlike keeps inside⟩
  older := fun _ _ _ found above => history.books.parent_lt found above
  walk := by
    intro scope s found
    have inside := (List.getElem?_eq_some_iff.mp found).1
    exact ⟨history.books.chain_eq found, history.books.chain_getLast? inside⟩

/-- Requests of every kind, mixed, some of them made twice. -/
theorem accounted_of_mixed_requests :
    Accounted
      [⟨.slot "x", 1⟩, ⟨.scope 0 ["a", "b"], 1⟩, ⟨.arg "n", 4⟩, ⟨.block "inverse", 5⟩,
        ⟨.free "x", 0⟩, ⟨.scope 1 ["a"], 2⟩, ⟨.eval, 0⟩, ⟨.block "else", 5⟩, ⟨.slot "x", 7⟩,
        ⟨.arg "n", 4⟩, ⟨.free "x", 0⟩]
      ⟨[⟨none, [], []⟩, ⟨some 0, ["a", "b"], [2, 3]⟩, ⟨some 1, ["a"], [6]⟩],
        ["x", "a", "b", "@n", "&else", "a", "x"], ["x"], [("n", 4)], [("else", 5)], true⟩ :=
  accounted_of_history <|
    History.start
      |>.step (.slot "x") trivial
      |>.step (.scope 0 ["a", "b"]) (.inl rfl)
      |>.step (.arg "n") trivial
      |>.step (.block "inverse") trivial
      |>.step (.free "x") trivial
      |>.step (.scope 1 ["a"]) (.inr ⟨0, ["a", "b"], by decide⟩)
      |>.step .eval trivial
      |>.step (.block "else") trivial
      |>.step (.slot "x") trivial
      |>.step (.arg "n") trivial
      |>.step (.free "x") trivial

end TemplateCompiler.SymbolTable

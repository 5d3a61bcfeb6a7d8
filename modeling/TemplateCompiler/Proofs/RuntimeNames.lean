import TemplateCompiler.Proofs.Slots
import TemplateCompiler.Proofs.TableHistory

/-!
# Names that are visible at run time

Looking up one name goes from the inside to the outside and stops at the first scope that binds it.
The slots that can be read at run time are collected from the outside to the inside, and a later
binding takes the place of an earlier one of the same name. Both searches come to the same scope.

In that scope they differ: looking up takes the first place of the name, collecting keeps the last.
So they agree on a name exactly if the innermost scope that binds it does so once.
-/

namespace TemplateCompiler

/-- The slot of the last local with a name. -/
def Scope.lastSlot? (name : String) (scope : Scope) : Option Nat :=
  (scope.locals.zip scope.slots).reverse.lookup name

namespace SymbolTable

/-- The scopes on the way up from a scope, which is the first of them. -/
inductive Way (t : SymbolTable) : Nat → List Scope → Prop where
  | root {number : Nat} {s : Scope} (found : t.scopes[number]? = some s) (top : s.parent = none) :
      Way t number [s]
  | up {number parent : Nat} {s : Scope} {outer : List Scope}
      (found : t.scopes[number]? = some s) (beneath : s.parent = some parent)
      (further : Way t parent outer) : Way t number (s :: outer)

/-- The names bound on the way up, each once, in the order of their first appearance when the scopes
are read from the outside. -/
def visibleNames (way : List Scope) : List String := (way.reverse.flatMap Scope.locals).eraseDups

/-- The innermost scope that binds a name. -/
def deciding? (way : List Scope) (name : String) : Option Scope :=
  way.find? fun s => s.locals.contains name

/-! ### Places of a name -/

/-- Names stay where they appeared first. -/
theorem keys_foldl_rebind (bindings visible : List (String × Nat)) :
    (bindings.foldl (fun visible (name, slot) => rebind name slot visible) visible).map Prod.fst =
      visible.map Prod.fst ++
        ((bindings.map Prod.fst).filter (· ∉ visible.map Prod.fst)).eraseDups := by
  induction bindings generalizing visible with
  | nil => simp
  | cons binding rest ih =>
    obtain ⟨name, slot⟩ := binding
    rw [List.foldl_cons, ih, keys_rebind]
    by_cases known : name ∈ visible.map Prod.fst
    · simp only [known, if_true, List.map_cons, not_true_eq_false, decide_false,
        Bool.false_eq_true, not_false_eq_true, List.filter_cons_of_neg]
    · rw [if_neg known, List.map_cons, List.filter_cons_of_pos (by simpa using known),
        List.eraseDups_cons, List.filter_filter, List.append_assoc, List.singleton_append]
      congr 4
      funext other
      simp only [List.mem_append, List.mem_singleton]
      grind

/-- The first and the last entry of a name are the same if there is no other one. -/
theorem lookup_eq_lookup_reverse_iff {entries : List (String × Nat)}
    (distinct : (entries.map Prod.snd).Nodup) {name : String}
    (bound : name ∈ entries.map Prod.fst) :
    entries.reverse.lookup name = entries.lookup name ↔ (entries.map Prod.fst).count name = 1 := by
  induction entries with
  | nil => cases bound
  | cons entry rest ih =>
    obtain ⟨known, slot⟩ := entry
    obtain ⟨fresh, later⟩ := List.nodup_cons.mp distinct
    rw [List.reverse_cons, List.lookup_append, List.map_cons]
    by_cases same : name = known
    · subst same
      rw [List.count_cons_self, List.lookup_cons_self, List.lookup_cons_self]
      cases found : rest.reverse.lookup name with
      | none =>
        have missing : name ∉ rest.map Prod.fst := by
          intro inside
          obtain ⟨entry, among, rfl⟩ := List.mem_map.mp inside
          simpa using List.lookup_eq_none_iff.mp found entry (List.mem_reverse.mpr among)
        simp [List.count_eq_zero.mpr missing]
      | some last =>
        have among := List.mem_reverse.mp (mem_of_lookup found)
        have differs : last ≠ slot := by
          rintro rfl
          exact fresh (List.mem_map_of_mem among)
        have again : 0 < (rest.map Prod.fst).count name :=
          List.count_pos_iff.mpr (List.mem_map_of_mem among)
        have twice : (rest.map Prod.fst).count name + 1 ≠ 1 := by omega
        simp only [Option.some_or, Option.some.injEq, differs, twice]
    · have inside : name ∈ rest.map Prod.fst := by
        rcases List.mem_cons.mp bound with here | there
        · exact (same here).elim
        · exact there
      have other : (known == name) = false := by simpa using Ne.symm same
      rw [lookup_cons_of_ne same, lookup_cons_of_ne same, List.lookup_nil, Option.or_none,
        List.count_cons, other, ih later inside]
      rfl

/-! ### Scopes of a table -/

theorem Books.slots_length {events : List Event} {t : SymbolTable} (books : Books events t)
    {number : Nat} {s : Scope} (found : t.scopes[number]? = some s) :
    s.slots.length = s.locals.length := by
  by_cases isRoot : number = rootScope
  · subst isRoot
    rw [books.root] at found
    cases found
    rfl
  · obtain ⟨parent, names, asked⟩ :=
      books.asked isRoot (List.getElem?_eq_some_iff.mp found).1
    obtain ⟨counted, same⟩ := (books.bound asked).scope_eq
    rw [found] at same
    cases same
    exact counted

/-- A place among the locals of a scope owns its slot. -/
theorem Books.handedOut_zip {events : List Event} {t : SymbolTable} (books : Books events t)
    {number position : Nat} {s : Scope} (found : t.scopes[number]? = some s) {name : String}
    {slot : Nat} (placed : (s.locals.zip s.slots)[position]? = some (name, slot)) :
    HandedOut events t (.param number position) name slot := by
  rw [List.getElem?_zip_eq_some] at placed
  exact books.handedOut_param.mpr ⟨s, found, placed⟩

/-- Block params of one block have slots of their own. -/
theorem History.slots_nodup {events : List Event} {t : SymbolTable} (history : History events t)
    {number : Nat} {s : Scope} (found : t.scopes[number]? = some s) :
    ((s.locals.zip s.slots).map Prod.snd).Nodup := by
  rw [List.nodup_iff_getElem?_ne_getElem?]
  intro i j before inside same
  rw [List.length_map] at inside
  have atFirst := List.getElem?_eq_getElem (Nat.lt_trans before inside)
  have atSecond := List.getElem?_eq_getElem inside
  rw [List.getElem?_map, List.getElem?_map, atFirst, atSecond] at same
  have first : HandedOut events t (.param number i) _ (s.locals.zip s.slots)[i].2 :=
    history.books.handedOut_zip found atFirst
  have second : HandedOut events t (.param number j) _ (s.locals.zip s.slots)[j].2 :=
    history.books.handedOut_zip found atSecond
  rw [← Option.some.inj same] at second
  have alike := Owner.param.inj (history.owner_unique first second)
  omega

theorem Way.exists_number {t : SymbolTable} {number : Nat} {way : List Scope}
    (walked : t.Way number way) {s : Scope} (inside : s ∈ way) :
    ∃ other : Nat, t.scopes[other]? = some s := by
  induction walked with
  | root found top =>
    cases List.mem_singleton.mp inside
    exact ⟨_, found⟩
  | up found beneath further ih =>
    rcases List.mem_cons.mp inside with rfl | outside
    · exact ⟨_, found⟩
    · exact ih outside

/-- The way up from a scope is walked to its end. -/
theorem Books.way {events : List Event} {t : SymbolTable} (books : Books events t) {number : Nat}
    (inside : number < t.scopes.length) : t.Way number (t.chain number) := by
  induction number using Nat.strongRecOn with
  | ind number ih =>
    have found := List.getElem?_eq_getElem inside
    rw [books.chain_eq found]
    cases above : t.scopes[number].parent with
    | none => exact .root found above
    | some parent =>
      have older := books.parent_lt found above
      exact .up found above (ih parent older (Nat.lt_trans older inside))

/-! ### Both searches -/

/-- A name is visible exactly if some scope on the way decides it. -/
theorem mem_visibleNames {way : List Scope} {name : String} :
    name ∈ visibleNames way ↔ ∃ s, deciding? way name = some s := by
  rw [visibleNames, List.mem_eraseDups, List.mem_flatMap, deciding?, ← Option.isSome_iff_exists,
    List.find?_isSome]
  simp

theorem deciding?_eq_some {way : List Scope} {name : String} {s : Scope}
    (found : deciding? way name = some s) : s ∈ way ∧ name ∈ s.locals :=
  ⟨List.mem_of_find?_eq_some found, by simpa using List.find?_some found⟩

/-- Searching for an entry is the same as searching for the scope that has it. -/
theorem findSome?_eq_deciding? {way : List Scope} {name : String} {f : Scope → Option Nat}
    (known : ∀ s ∈ way, (f s).isSome = s.locals.contains name) :
    way.findSome? f = (deciding? way name).bind f := by
  induction way with
  | nil => rfl
  | cons s outer ih =>
    have here := known s List.mem_cons_self
    rw [List.findSome?_cons, deciding?, List.find?_cons]
    cases found : f s with
    | none =>
      rw [found] at here
      rw [← here]
      exact ih fun other inside => known other (List.mem_cons_of_mem s inside)
    | some slot =>
      rw [found] at here
      rw [← here]
      exact found.symm

theorem lookup_flatMap (way : List Scope) (f : Scope → List (String × Nat)) (name : String) :
    (way.flatMap f).lookup name = way.findSome? fun s => (f s).lookup name := by
  induction way with
  | nil => rfl
  | cons s outer ih =>
    rw [List.flatMap_cons, List.lookup_append, ih, List.findSome?_cons]
    cases (f s).lookup name <;> rfl

section Reachable

variable {events : List Event} {t : SymbolTable} {number : Nat}

theorem Books.isSome_slot? (books : Books events t) {s : Scope}
    (found : t.scopes[number]? = some s) (name : String) :
    (s.slot? name).isSome = s.locals.contains name := by
  have counted := books.slots_length found
  rw [Scope.slot?, Binder.lookup_zip counted]
  split
  · next binds =>
    have place : s.locals.idxOf name < s.slots.length := by
      rw [counted]
      exact List.idxOf_lt_length_iff.mpr (by simpa using binds)
    rw [binds, List.getElem?_eq_getElem place]
    rfl
  · next free => simpa using free

theorem Books.isSome_lastSlot? (books : Books events t) {s : Scope}
    (found : t.scopes[number]? = some s) (name : String) :
    (s.lastSlot? name).isSome = s.locals.contains name := by
  by_cases binds : s.locals.contains name = true
  · obtain ⟨slot, _, last⟩ := Binder.lookup_reverse_zip (books.slots_length found) binds
    rw [Scope.lastSlot?, last, binds]
    rfl
  · rw [Scope.lastSlot?, Binder.lookup_reverse_zip_eq_none binds]
    exact (Bool.eq_false_iff.mpr binds).symm

/-- The compiler reads a name in the scope that decides it, at its first position there. -/
theorem Books.get?_eq (books : Books events t) (inside : number < t.scopes.length)
    (name : String) :
    t.get? number name = (deciding? (t.chain number) name).bind (Scope.slot? name) := by
  refine findSome?_eq_deciding? fun s among => ?_
  obtain ⟨other, found⟩ := (books.way inside).exists_number among
  exact books.isSome_slot? found name

/-- The slots at run time, name by name. -/
theorem Books.evalInfo_eq (books : Books events t) (inside : number < t.scopes.length) :
    (t.evalInfo number).map some = (visibleNames (t.chain number)).map fun name =>
      (deciding? (t.chain number) name).bind (Scope.lastSlot? name) := by
  have counted : ∀ s ∈ t.chain number, (s.locals.zip s.slots).map Prod.fst = s.locals := by
    intro s among
    obtain ⟨other, found⟩ := (books.way inside).exists_number among
    exact List.map_fst_zip (Nat.le_of_eq (books.slots_length found).symm)
  have keys : ((t.chain number).reverse.flatMap fun s => s.locals.zip s.slots).map Prod.fst =
      (t.chain number).reverse.flatMap Scope.locals := by
    rw [List.map_flatMap]
    exact List.flatMap_congr fun s among => counted s (List.mem_reverse.mp among)
  rw [evalInfo, map_lookup_keys (nodup_foldl_rebind _ [] List.nodup_nil), keys_foldl_rebind, keys]
  simp only [List.map_nil, List.not_mem_nil, not_false_eq_true, decide_true, List.filter_true,
    List.nil_append]
  refine List.map_congr_left fun name _ => ?_
  rw [lookup_foldl_rebind, List.append_nil, List.reverse_flatMap, List.reverse_reverse,
    lookup_flatMap]
  refine findSome?_eq_deciding? fun s among => ?_
  obtain ⟨other, found⟩ := (books.way inside).exists_number among
  exact books.isSome_lastSlot? found name

theorem nodup_visibleNames (way : List Scope) : (visibleNames way).Nodup := by
  have keys := keys_foldl_rebind ((way.reverse.flatMap Scope.locals).map (·, 0)) []
  simp only [List.map_map, Function.comp_def, List.map_id', List.map_nil, List.not_mem_nil,
    not_false_eq_true, decide_true, List.filter_true, List.nil_append] at keys
  rw [visibleNames, ← keys]
  exact nodup_foldl_rebind _ [] List.nodup_nil

/-- A slot that is read at run time is known by the name it is read for. -/
theorem History.symbol_of_lastSlot? (history : History events t)
    (inside : number < t.scopes.length) {name : String} {slot : Nat}
    (last : (deciding? (t.chain number) name).bind (Scope.lastSlot? name) = some slot) :
    t.symbols[slot - 1]? = some name := by
  obtain ⟨s, decides, last⟩ := Option.bind_eq_some_iff.mp last
  obtain ⟨other, found⟩ :=
    (history.books.way inside).exists_number (deciding?_eq_some decides).1
  obtain ⟨position, placed⟩ :=
    List.getElem?_of_mem (List.mem_reverse.mp (mem_of_lookup last))
  exact (history.labelled (history.books.handedOut_zip found placed)).2

/-- No slot is listed twice. -/
theorem History.nodup_evalInfo (history : History events t) (inside : number < t.scopes.length) :
    (t.evalInfo number).Nodup := by
  have listed := history.books.evalInfo_eq inside
  refine List.Nodup.of_map some ?_
  rw [listed]
  refine List.Nodup.map_on (fun name among other _ same => ?_) (nodup_visibleNames _)
  have shown : (deciding? (t.chain number) name).bind (Scope.lastSlot? name) ∈
      (t.evalInfo number).map some := by
    rw [listed]
    exact List.mem_map_of_mem among
  obtain ⟨slot, _, last⟩ := List.mem_map.mp shown
  have here := history.symbol_of_lastSlot? inside last.symm
  have there := history.symbol_of_lastSlot? inside (same.symm.trans last.symm)
  exact Option.some.inj (here.symm.trans there)

/-- The two searches agree on a name if the scope that decides has it once. -/
theorem History.lastSlot?_eq_get?_iff (history : History events t)
    (inside : number < t.scopes.length) {name : String} {s : Scope}
    (decides : deciding? (t.chain number) name = some s) :
    (deciding? (t.chain number) name).bind (Scope.lastSlot? name) = t.get? number name ↔
      s.locals.count name = 1 := by
  obtain ⟨among, bound⟩ := deciding?_eq_some decides
  obtain ⟨other, found⟩ := (history.books.way inside).exists_number among
  have keys : (s.locals.zip s.slots).map Prod.fst = s.locals :=
    List.map_fst_zip (Nat.le_of_eq (history.books.slots_length found).symm)
  rw [history.books.get?_eq inside, decides, Option.bind_some, Option.bind_some]
  have once := lookup_eq_lookup_reverse_iff (history.slots_nodup found)
    (keys.symm ▸ bound : name ∈ (s.locals.zip s.slots).map Prod.fst)
  rw [keys] at once
  exact once

end Reachable

/-- How names are read from a scope, at run time and otherwise. -/
structure ReadFrom (t : SymbolTable) (number : Nat) (way : List Scope) : Prop where
  visible : ∀ name, name ∈ visibleNames way ↔ t.has number name = true
  /-- Looking up gives the first place of a name in the scope that decides. -/
  lookedUp : ∀ name, t.get? number name = (deciding? way name).bind (Scope.slot? name)
  /-- What is read at run time is the last one, with one entry for each visible name. -/
  collected : (t.evalInfo number).map some =
    (visibleNames way).map fun name => (deciding? way name).bind (Scope.lastSlot? name)
  namesOnce : (visibleNames way).Nodup
  slotsOnce : (t.evalInfo number).Nodup
  agree : (t.evalInfo number).map some = (visibleNames way).map (t.get? number) ↔
    ∀ name s, deciding? way name = some s → s.locals.count name = 1

/-- After every history, the slots at run time are those of the visible names in order. They are the
ones that looking up gives exactly if no scope that decides on a name has it twice. -/
theorem evalInfo_of_history {events : List Event} {t : SymbolTable} (history : History events t)
    {number : Nat} (inside : number < t.scopes.length) :
    ∃ way, t.Way number way ∧ t.ReadFrom number way := by
  have listed := history.books.evalInfo_eq inside
  refine ⟨t.chain number, history.books.way inside, ?_, history.books.get?_eq inside, listed,
    nodup_visibleNames _, history.nodup_evalInfo inside, ?_⟩
  · intro name
    rw [mem_visibleNames, has, history.books.get?_eq inside]
    constructor
    · rintro ⟨s, decides⟩
      obtain ⟨among, bound⟩ := deciding?_eq_some decides
      obtain ⟨other, found⟩ := (history.books.way inside).exists_number among
      rw [decides, Option.bind_some, history.books.isSome_slot? found]
      simpa using bound
    · intro given
      cases decides : deciding? (t.chain number) name with
      | none =>
        rw [decides] at given
        cases given
      | some s => exact ⟨s, rfl⟩
  · rw [listed, List.map_inj_left]
    constructor
    · intro same name s decides
      exact (history.lastSlot?_eq_get?_iff inside decides).mp
        (same name (mem_visibleNames.mpr ⟨s, decides⟩))
    · intro once name among
      obtain ⟨s, decides⟩ := mem_visibleNames.mp among
      exact (history.lastSlot?_eq_get?_iff inside decides).mpr (once name s decides)

/-- A scope that hides one name of the scope around it and adds another. -/
def hiddenItem : SymbolTable :=
  ⟨[⟨none, [], []⟩, ⟨some 0, ["item", "index"], [1, 2]⟩, ⟨some 1, ["item", "extra"], [3, 4]⟩],
    ["item", "index", "item", "extra"], [], [], [], false⟩

theorem evalInfo_of_history_hiddenItem :
    ∃ way, hiddenItem.Way 2 way ∧ hiddenItem.ReadFrom 2 way ∧
      hiddenItem.evalInfo 2 = [3, 2, 4] := by
  have history : History [⟨.scope 0 ["item", "index"], 1⟩, ⟨.scope 1 ["item", "extra"], 2⟩]
      hiddenItem :=
    History.start
      |>.step (.scope 0 ["item", "index"]) (.inl rfl)
      |>.step (.scope 1 ["item", "extra"]) (.inr ⟨0, ["item", "index"], by decide⟩)
  have inside : 2 < hiddenItem.scopes.length := by decide
  obtain ⟨way, walked, reads⟩ := evalInfo_of_history history inside
  exact ⟨way, walked, reads, by decide⟩

def doubledName : SymbolTable :=
  ⟨[⟨none, [], []⟩, ⟨some 0, ["x", "x"], [1, 2]⟩], ["x", "x"], [], [], [], false⟩

/-- The only visible name is looked up in one slot and read at run time from another. -/
theorem doubledName_read_apart :
    History [⟨.scope 0 ["x", "x"], 1⟩] doubledName ∧
      doubledName.Way 1 [⟨some 0, ["x", "x"], [1, 2]⟩, ⟨none, [], []⟩] ∧
      visibleNames [⟨some 0, ["x", "x"], [1, 2]⟩, ⟨none, [], []⟩] = ["x"] ∧
      doubledName.get? 1 "x" = some 1 ∧ doubledName.evalInfo 1 = [2] :=
  ⟨History.start.step (.scope 0 ["x", "x"]) (.inl rfl), .up rfl rfl (.root rfl rfl), by decide,
    by decide, by decide⟩

end SymbolTable

end TemplateCompiler

import TemplateCompiler.Proofs.Rendering
import TemplateCompiler.Proofs.WireReads

/-!
# Slots of bare names

What a compiled expression or statement reads, in terms of the names it was made from. Slots that
are given to the template may be read anywhere and are left out of account. All other slots that are
read belong to bare names, and every bare name that has a slot is read. A statement that reads names
at run time reads all that are visible to it, too.
-/

namespace TemplateCompiler

open Template (Element TagKind)
open Wire (slotsOfHash slotsOfList)

/-- Apart from those that are given to the template, the slots are those of bare names in a scope,
and with them all visible ones where names are read at run time. -/
def Shows (table : SymbolTable) (scope : Nat) (slots : List Nat) (names : List Mention)
    (evaluates : Bool) : Prop :=
  ∀ n, ¬table.IsGiven n → (n ∈ slots ↔
    (∃ m ∈ names, table.get? scope m.name = some n) ∨
      evaluates = true ∧ n ∈ table.evalInfo scope)

section Shows

variable {table : SymbolTable} {scope : Nat}

theorem Shows.given {slots : List Nat} (given : ∀ n ∈ slots, table.IsGiven n) :
    Shows table scope slots [] false := by
  intro n other
  simpa using fun found => other (given n found)

theorem Shows.nil : Shows table scope [] [] false :=
  Shows.given fun _ found => (List.not_mem_nil found).elim

theorem Shows.slot {n : Nat} (given : table.IsGiven n) : Shows table scope [n] [] false :=
  Shows.given fun _ found => List.mem_singleton.mp found ▸ given

theorem Shows.append {xs ys : List Nat} {names others : List Mention}
    (first : Shows table scope xs names false) (second : Shows table scope ys others false) :
    Shows table scope (xs ++ ys) (names ++ others) false := by
  intro n other
  rw [List.mem_append, first n other, second n other]
  simp [or_and_right, exists_or]

theorem Shows.congr {slots : List Nat} {names others : List Mention} {evaluates : Bool}
    (shows_ : Shows table scope slots names evaluates) (same : ∀ m, m ∈ others ↔ m ∈ names) :
    Shows table scope slots others evaluates := by
  intro n other
  rw [shows_ n other]
  simp only [same]

/-- The slot of an argument is no block param's. -/
theorem isGiven_argSlot (name : String) : table.IsGiven (Direct.argSlot table name) := by
  rw [Direct.argSlot]
  cases found : table.named.lookup name with
  | none => exact .inl rfl
  | some slot =>
    exact .inr (.inl (List.mem_map_of_mem (SymbolTable.mem_of_lookup found)))

theorem isGiven_blockSlot (name : String) : table.IsGiven (Direct.blockSlot table name) := by
  rw [Direct.blockSlot_eq]
  cases found : table.blocks.lookup (SymbolTable.blockName name) with
  | none => exact .inl rfl
  | some slot =>
    exact .inr (.inr (List.mem_map_of_mem (SymbolTable.mem_of_lookup found)))

/-! ### Expressions -/

variable (mode : Program.Mode)

/-- Reading a name shows the slot of that name. -/
theorem shows_read (name : String) (context : Context) :
    Shows table scope (Direct.read mode table scope name context).slots [⟨name, context⟩]
      false := by
  intro n _
  rw [Direct.read]
  cases found : table.get? scope name with
  | some slot => simp [Wire.Expression.slots, found, eq_comm]
  | none =>
    simp only
    split <;> simp [Wire.Expression.slots, found]

mutual

/-- An expression shows the slots of the names in it. -/
theorem shows_planned : (e : Located Plan.Expression) →
    Shows table scope (Direct.planned mode table scope e).slots (Plan.mentions e) false
  | ⟨e, _⟩ => shows_plannedAt e

theorem shows_plannedAt : (e : Plan.Expression) →
    Shows table scope (Direct.plannedAt mode table scope e).slots (Plan.mentionsAt e) false
  | .literal value => by
    refine Shows.given fun n found => ?_
    cases value <;> cases found
  | .path head tail => by
    rw [Direct.plannedAt, Wire.Expression.slots, Plan.mentionsAt]
    exact shows_planned head
  | .arg name => Shows.slot (isGiven_argSlot name)
  | .self => Shows.slot (.inl rfl)
  | .variable name context => shows_read mode name context
  | .hasBlock target => Shows.slot (isGiven_blockSlot target)
  | .hasBlockParams target => Shows.slot (isGiven_blockSlot target)
  | .concat ⟨list, _⟩ => by
    rw [Direct.plannedAt, Wire.Expression.slots, Plan.mentionsAt]
    exact shows_plannedList list
  | .call head ⟨list, _⟩ ⟨named, _⟩ => by
    rw [Direct.plannedAt, Wire.Expression.slots, Plan.mentionsAt]
    refine ((shows_planned head).append
      ((shows_plannedList list).append (shows_plannedPairs named))).congr fun m => ?_
    simp only [List.mem_append]
    tauto

theorem shows_plannedList : (list : List (Located Plan.Expression)) →
    Shows table scope (slotsOfList (Direct.plannedList mode table scope list))
      (Plan.mentionsOfList list) false
  | [] => Shows.nil
  | e :: rest => by
    rw [Direct.plannedList, slotsOfList, Plan.mentionsOfList]
    exact ((shows_planned e).append (shows_plannedList rest)).congr fun m => by
      simp only [List.mem_append, or_comm]

theorem shows_plannedPairs : (named : List (Template.Pair (Located Plan.Expression))) →
    Shows table scope (slotsOfHash (Direct.plannedPairs mode table scope named))
      (Plan.mentionsOfPairs named) false
  | [] => Shows.nil
  | ⟨key, value, _⟩ :: rest => by
    rw [Direct.plannedPairs, slotsOfHash, Plan.mentionsOfPairs]
    exact ((shows_planned value).append (shows_plannedPairs rest)).congr fun m => by
      simp only [List.mem_append, or_comm]

end

theorem shows_plannedCall (head : Located Plan.Expression)
    (params : Plan.Params (Located Plan.Expression))
    (hash : Template.Hash (Located Plan.Expression)) :
    Shows table scope ((Direct.planned mode table scope head).slots ++
      (slotsOfList (Direct.plannedList mode table scope params.list) ++
        slotsOfHash (Direct.plannedPairs mode table scope hash.pairs)))
      (Plan.mentionsOfCall head params hash) false := by
  refine ((shows_planned mode head).append ((shows_plannedList mode params.list).append
    (shows_plannedPairs mode hash.pairs))).congr fun m => ?_
  simp only [Plan.mentionsOfCall, List.mem_append]
  tauto

theorem shows_destination (table : SymbolTable) (scope : Nat)
    (destination : Located Plan.Expression) (before : Option (Located Plan.Expression)) :
    Shows table scope ((Direct.planned mode table scope destination).slots ++
      ((before.map (Direct.planned mode table scope)).map Wire.Expression.slots).getD [])
      (Plan.mentions destination ++ (before.map Plan.mentions).getD []) false := by
  refine (shows_planned mode destination).append ?_
  cases before with
  | none => exact Shows.nil
  | some e => exact shows_planned mode e

/-! ### Statements -/

/-- A statement without content reads the slots of its bare names. -/
theorem shows_leaf {s : Plan.Statement} (leaf : s.isLeaf = true) :
    Shows table scope (Direct.leaf mode table scope s).slots s.mentions s.readsNames := by
  cases s with
  | append value => exact shows_planned mode value
  | appendTrusted value => exact shows_planned mode value
  | attr kind name space value => exact shows_planned mode value
  | arg name value =>
    have shown : Shows table scope _ (Plan.mentions value) false := shows_planned mode value
    rw [Direct.leaf]
    split <;> exact shown
  | modifier head params hash => exact shows_plannedCall mode head params hash
  | attrSplat => exact Shows.slot (isGiven_blockSlot "attrs")
  | yield target params =>
    exact (Shows.slot (isGiven_blockSlot target)).append (shows_plannedList mode params.list)
  | partialTemplate name =>
    intro n other
    have shown : Shows table scope _ (Plan.mentions name) false := shows_planned mode name
    simp [Direct.leaf, Wire.Statement.slots, shown n other, Plan.Statement.mentions,
      Plan.Statement.readsNames]
  | debugger =>
    intro n _
    simp [Direct.leaf, Wire.Statement.slots, Plan.Statement.mentions, Plan.Statement.readsNames]
  | comment value => exact Shows.nil
  | openElement tag => exact Shows.nil
  | openElementWithSplat tag => exact Shows.nil
  | closeElement => exact Shows.nil
  | _ => cases leaf

end Shows

/-- A statement reads all visible names exactly if it was planned to. -/
theorem evaluates_leaf (mode : Program.Mode) (table : SymbolTable) (scope : Nat)
    (s : Plan.Statement) : (Direct.leaf mode table scope s).evaluates = s.readsNames := by
  cases s with
  | arg name value =>
    rw [Direct.leaf]
    split <;> rfl
  | _ => rfl

/-- A mustache reads all visible names exactly if it is written to. -/
theorem evaluates_mustache (mode : Program.Mode) (table : SymbolTable) (scope : Nat)
    (m : Template.Mustache) : (Direct.mustache mode table scope m).evaluates = m.readsNames := by
  have shown : ∀ trusting value, (Direct.append trusting value).evaluates = false := by
    intro trusting value
    cases trusting <;> rfl
  obtain ⟨path, params, hash, trusting, loc⟩ := m
  cases path with
  | path p =>
    cases word : Plan.Keyword.ofPath? p with
    | none => simp [Direct.mustache, Template.Mustache.readsNames, word, shown]
    | some keyword =>
      cases keyword <;>
        simp [Direct.mustache, Template.Mustache.readsNames, word, Wire.Statement.evaluates]
  | call callee params hash loc => exact shown _ _
  | literal value loc => exact shown _ _

theorem flat_leaf (mode : Program.Mode) (table : SymbolTable) (scope : Nat) (s : Plan.Statement) :
    (Direct.leaf mode table scope s).isNested = false := by
  cases s with
  | arg name value =>
    rw [Direct.leaf]
    split <;> rfl
  | _ => rfl

/-- What stands in an opening tag reads the slots of its bare names, and none at run time. -/
theorem shows_opening (mode : Program.Mode) (table : SymbolTable) (scope : Nat) {kind : TagKind}
    {e : Element Outline} {entries : List (Located Plan.Statement)}
    (written : RendersAll entries
      (fun mode table scope => Direct.openingTag mode table scope kind e) e.openingMentions) :
    Shows table scope ((Direct.openingTag mode table scope kind e).flatMap Wire.Statement.slots)
      e.openingMentions false := by
  have filed := openingTag_filed mode table scope kind e
  rw [← written.value] at filed ⊢
  rw [← written.mentions]
  -- From here on the element does not matter, only that each entry is filed and a leaf.
  have leaves := written.leaf
  clear written
  induction entries with
  | nil => exact Shows.nil
  | cons s rest ih =>
    have quiet : s.value.readsNames = false := by
      rw [← evaluates_leaf mode table scope]
      exact (Wire.Statement.of_filed (filed _ List.mem_cons_self)).2
    have first : Shows table scope _ s.value.mentions s.value.readsNames :=
      shows_leaf mode (leaves s List.mem_cons_self)
    rw [quiet] at first
    exact first.append (ih (fun t found => filed t (List.mem_cons_of_mem _ found))
      fun t found => leaves t (List.mem_cons_of_mem s found))

end TemplateCompiler

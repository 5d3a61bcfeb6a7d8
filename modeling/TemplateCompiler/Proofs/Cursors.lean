import TemplateCompiler.Proofs.BlockParams
import TemplateCompiler.Proofs.Sites

/-!
# Cursors

Every `in-element` block gets an id, by which its place is found again when the template is
rendered. Ids are counted up while the template is planned. Later stages work on the blocks in
another order, an `else` block before the default block for one, and put the tree together anew. In
the compiled template the ids stand in the order of the source all the same, from 0 on, with none
missing and none twice.

Ids are natural numbers here; nothing is said of a counter that runs over.
-/

namespace TemplateCompiler

open Template (Block)

/-- The id of an `in-element` block by its number. -/
def cursorId (number : Nat) : String := s!"%cursor:{number}%"

/-- Different counts give different ids. -/
theorem cursorId_injective : Function.Injective cursorId := by
  intro a b same
  have digits : a.repr = b.repr := by
    have front : "%cursor:" ++ a.repr = "%cursor:" ++ b.repr := (String.append_left_inj "%").mp same
    exact (String.append_right_inj "%cursor:").mp front
  have chars : Nat.toDigits 10 a = Nat.toDigits 10 b := by
    rw [← Nat.toList_repr, ← Nat.toList_repr, digits]
  have value := congrArg (Nat.ofDigitChars 10 · 0) chars
  simpa only [Nat.ofDigitChars_ten_toDigits] using value

namespace Template

mutual

/-- How many `in-element` blocks there are in a statement, at any depth. -/
def Statement.inElements : Statement → Nat
  | .block ⟨path, _, _, program, inverse, _⟩ =>
    (if Plan.isInElement path then 1 else 0) +
      (inElementsOfBlock program + inElementsOfInverse inverse)
  | .element ⟨_, _, _, children, _, _, _⟩ => inElementsOfAll children
  | .mustache _ | .text _ | .comment _ | .mustacheComment _ => 0

def inElementsOfAll : List Statement → Nat
  | [] => 0
  | s :: rest => s.inElements + inElementsOfAll rest

def inElementsOfBlock : Block Statement → Nat
  | ⟨body, _, _⟩ => inElementsOfAll body

def inElementsOfInverse : Option (Block Statement) → Nat
  | none => 0
  | some block => inElementsOfBlock block

end

end Template

def Template.inElements (t : Template) : Nat := inElementsOfAll t.body

def Wire.Statement.guid? : Wire.Statement → Option String
  | .inElement _ guid _ _ => some guid
  | _ => none

/-! ### Sites -/

/-- The number of the `in-element` block that a site stands for. -/
def Site.cursor? : Site → Option Nat
  | .node _ (.inElement _ _ cursor) => some cursor
  | _ => none

theorem Wire.Statement.guid?_of_flat {s : Wire.Statement} (flat : s.isNested = false) :
    s.guid? = none := by
  cases s with
  | inElement block guid destination before => cases flat
  | _ => rfl

theorem guids_of_flat {list : List Wire.Statement} (flat : ∀ s ∈ list, s.isNested = false) :
    list.filterMap Wire.Statement.guid? = [] :=
  List.filterMap_eq_nil_iff.mpr fun s found => Wire.Statement.guid?_of_flat (flat s found)

/-- The only id in the translation of a site is that of its own `in-element` block. -/
theorem guids_own (mode : Program.Mode) (rename : String → String) (table : SymbolTable)
    (site : Site) :
    (Direct.own mode rename table site).filterMap Wire.Statement.guid? =
      (site.cursor?.map cursorId).toList := by
  cases site with
  | closing => rfl
  | node enclosing o =>
    cases o with
    | mustache m =>
      have flat := flat_mustache mode table (Binder.current enclosing) m
      simp [Direct.own, Direct.statement, Site.cursor?, Wire.Statement.guid?_of_flat flat]
    | element kind e =>
      have tag := guids_of_flat (flat_openingTag mode table (Binder.current enclosing) kind e)
      have start : (Direct.elementStart kind e.tag).guid? = none := by cases kind <;> rfl
      rw [Direct.own, List.cons_append, List.filterMap_cons_none start, List.filterMap_append, tag]
      rfl
    | component kind scope e =>
      obtain ⟨tag, attributes, modifiers, children, names, selfClosing, loc⟩ := e
      have flat := flat_openingTag mode table (Binder.current enclosing) kind
        (⟨tag, attributes, modifiers, children, names, selfClosing, loc⟩ : Template.Element Outline)
      rw [Direct.own, List.filterMap_append,
        guids_of_flat fun s found => flat s (List.mem_of_mem_filter found)]
      rfl
    | _ => rfl

/-! ### Numbers -/

namespace Outline

variable {rename : String → String}

/-- The sites have the numbers from one count of cursors on, up to another. -/
structure Numbered (before after : Nat) (sites : List Site) (amount : Nat) : Prop where
  cursors : sites.filterMap Site.cursor? = List.range' before amount
  used : after = before + amount

theorem Numbered.unused (count : Nat) {sites : List Site}
    (silent : ∀ s ∈ sites, s.cursor? = none) : Numbered count count sites 0 :=
  ⟨List.filterMap_eq_nil_iff.mpr silent, rfl⟩

/-- Two runs of sites are numbered one after the other. -/
theorem Numbered.append {before between after : Nat} {xs ys : List Site} {m n : Nat}
    (first : Numbered before between xs m) (second : Numbered between after ys n) :
    Numbered before after (xs ++ ys) (m + n) := by
  refine ⟨?_, ?_⟩
  · rw [List.filterMap_append, first.cursors, second.cursors, first.used]
    exact List.range'_append_1
  · rw [second.used, first.used, Nat.add_assoc]

/-- A site without an id does not change the count. -/
theorem Numbered.after {before after : Nat} {sites : List Site} {n : Nat}
    (rest : Numbered before after sites n) {site : Site} (silent : site.cursor? = none) :
    Numbered before after (site :: sites) n := by
  refine ⟨?_, rest.used⟩
  rw [List.filterMap_cons_none silent, rest.cursors]

/-- A block takes a number for itself before its content does. -/
theorem Numbered.counted {before after : Nat} {sites : List Site} {n : Nat} {site : Site}
    (rest : Numbered (before + 1) after sites n) (here : site.cursor? = some before) :
    Numbered before after (site :: sites) (1 + n) := by
  refine ⟨?_, ?_⟩
  · rw [List.filterMap_cons_some here, rest.cursors, Nat.add_comm 1, List.range'_succ]
  · rw [rest.used, Nat.add_assoc]

mutual

/-- The `in-element` blocks of a statement that is accepted have the next numbers. -/
theorem numbered_statement : (s : Template.Statement) → (enclosing : List Binder) → (c : Count) →
    (around : List Binder) → {list : List (Located Plan.Statement)} →
    (ofStatement enclosing c s).1.plan rename = .ok list →
    Numbered c.cursors (ofStatement enclosing c s).2.cursors
      ((ofStatement enclosing c s).1.sites around) s.inElements
  | .mustache m, _, _, _, _, _ => .unused _ (by simp [ofStatement, sites, Site.cursor?])
  | .text _, _, _, _, _, _ => .unused _ (by simp [ofStatement, sites, Site.cursor?])
  | .comment _, _, _, _, _, _ => .unused _ (by simp [ofStatement, sites, Site.cursor?])
  | .mustacheComment _, _, _, _, _, _ => .unused _ (by simp [ofStatement, sites])
  | .block ⟨path, params, hash, program, inverse, loc⟩, enclosing, c, around, _, done => by
    by_cases moved : Plan.isInElement path = true
    · simp only [ofStatement, if_pos moved, plan] at done ⊢
      obtain ⟨⟨destination, before⟩, goes, done⟩ := ok_of_bind done
      obtain ⟨block, blockDone, _⟩ := ok_of_bind done
      -- An `else` block would not be numbered, but the template would be rejected for it.
      have noInverse : inverse = none :=
        Option.map_eq_none_iff.mp (Plan.inverse_of_planDestination goes)
      subst noInverse
      rw [sites, Template.Statement.inElements, if_pos moved, Template.inElementsOfInverse,
        Nat.add_zero]
      exact (numbered_block program enclosing _ around "default" _ blockDone).counted rfl
    · simp only [ofStatement, if_neg moved, plan] at done ⊢
      obtain ⟨block, blockDone, done⟩ := ok_of_bind done
      obtain ⟨other, otherDone, _⟩ := ok_of_bind done
      rw [sites, Template.Statement.inElements, if_neg moved, Nat.zero_add]
      have first := numbered_block program enclosing c around "default" _ blockDone
      have second := numbered_inverse inverse enclosing _ around _ otherDone
      exact (first.append second).after rfl
  | .element ⟨tag, attributes, modifiers, children, names, selfClosing, loc⟩, enclosing, c,
      around, _, done => by
    rw [ofStatement] at done ⊢
    dsimp only at done ⊢
    rw [Template.Statement.inElements]
    split at done
    · next component =>
      rw [if_pos component]
      rw [plan] at done
      obtain ⟨_, _, done⟩ := ok_of_bind done
      obtain ⟨opening, _, done⟩ := ok_of_bind done
      obtain ⟨content, contentDone, _⟩ := ok_of_bind done
      rw [sites]
      refine Numbered.after ?_ rfl
      by_cases named : children.any Plan.isNamedBlock = true
      · rw [if_pos named] at contentDone ⊢
        exact numbered_namedBlocks children _ c.scope _ tag contentDone
      · rw [if_neg named] at contentDone ⊢
        exact numbered_statements children _ c.scope _ contentDone
    · next plain =>
      rw [if_neg plain]
      rw [plan] at done
      obtain ⟨_, _, done⟩ := ok_of_bind done
      obtain ⟨opening, _, done⟩ := ok_of_bind done
      obtain ⟨content, contentDone, _⟩ := ok_of_bind done
      have inside := numbered_statements children enclosing c around contentDone
      have end_ : ∀ s ∈ [Site.closing], s.cursor? = none := by simp [Site.cursor?]
      rw [sites]
      exact (inside.append (.unused _ end_)).after rfl

theorem numbered_statements : (list : List Template.Statement) → (enclosing : List Binder) →
    (c : Count) → (around : List Binder) → {planned : List (Located Plan.Statement)} →
    planAll rename (ofStatements enclosing c list).1 = .ok planned →
    Numbered c.cursors (ofStatements enclosing c list).2.cursors
      (sitesOfAll around (ofStatements enclosing c list).1) (Template.inElementsOfAll list)
  | [], _, _, _, _, _ => .unused _ (by simp [ofStatements, sitesOfAll])
  | s :: rest, enclosing, c, around, _, done => by
    simp only [ofStatements, planAll] at done ⊢
    obtain ⟨first, firstDone, done⟩ := ok_of_bind done
    obtain ⟨others, restDone, _⟩ := ok_of_bind done
    exact (numbered_statement s enclosing c around firstDone).append
      (numbered_statements rest enclosing _ around restDone)

theorem numbered_block : (block : Block Template.Statement) → (enclosing : List Binder) →
    (c : Count) → (around : List Binder) → (name : String) → (scope : Nat) →
    {planned : Plan.NamedBlock (Located Plan.Statement)} →
    planBlock rename name scope (ofBlock enclosing c block).1 = .ok planned →
    Numbered c.cursors (ofBlock enclosing c block).2.cursors
      (sitesOfBlock around scope (ofBlock enclosing c block).1) (Template.inElementsOfBlock block)
  | ⟨body, names, loc⟩, enclosing, c, around, _, scope, _, done => by
    simp only [ofBlock, planBlock] at done ⊢
    obtain ⟨content, contentDone, _⟩ := ok_of_bind done
    exact numbered_statements body _ c.scope _ contentDone

theorem numbered_inverse : (inverse : Option (Block Template.Statement)) →
    (enclosing : List Binder) → (c : Count) → (around : List Binder) → (scope : Nat) →
    {planned : Option (Plan.NamedBlock (Located Plan.Statement))} →
    planInverse rename scope (ofInverse enclosing c inverse).1 = .ok planned →
    Numbered c.cursors (ofInverse enclosing c inverse).2.cursors
      (sitesOfInverse around scope (ofInverse enclosing c inverse).1)
      (Template.inElementsOfInverse inverse)
  | none, _, _, _, _, _, _ => .unused _ (by simp [ofInverse, sitesOfInverse])
  | some block, enclosing, c, around, scope, _, done => by
    simp only [ofInverse, planInverse] at done ⊢
    obtain ⟨planned, blockDone, _⟩ := ok_of_bind done
    exact numbered_block block enclosing c around "else" scope blockDone

theorem numbered_namedBlocks : (list : List Template.Statement) → (enclosing : List Binder) →
    (c : Count) → (around : List Binder) → (component : String) →
    {planned : List (Located Plan.Statement)} →
    planAll rename (ofNamedBlocks enclosing c component list).1 = .ok planned →
    Numbered c.cursors (ofNamedBlocks enclosing c component list).2.cursors
      (sitesOfAll around (ofNamedBlocks enclosing c component list).1)
      (Template.inElementsOfAll list)
  | [], _, _, _, _, _, _ => .unused _ (by simp [ofNamedBlocks, sitesOfAll])
  | s :: rest, enclosing, c, around, parent, _, done => by
    simp only [ofNamedBlocks, planAll] at done ⊢
    obtain ⟨first, firstDone, done⟩ := ok_of_bind done
    obtain ⟨others, restDone, _⟩ := ok_of_bind done
    exact (numbered_namedBlock s enclosing c around parent firstDone).append
      (numbered_namedBlocks rest enclosing _ around parent restDone)

theorem numbered_namedBlock : (s : Template.Statement) → (enclosing : List Binder) →
    (c : Count) → (around : List Binder) → (component : String) →
    {list : List (Located Plan.Statement)} →
    (ofNamedBlock enclosing c component s).1.plan rename = .ok list →
    Numbered c.cursors (ofNamedBlock enclosing c component s).2.cursors
      ((ofNamedBlock enclosing c component s).1.sites around) s.inElements
  | .element ⟨tag, attributes, modifiers, children, names, selfClosing, loc⟩, enclosing, c,
      around, parent, _, done => by
    rw [ofNamedBlock] at done ⊢
    dsimp only at done ⊢
    split at done
    · next named =>
      rw [if_pos named]
      rw [plan] at done
      obtain ⟨_, _, done⟩ := ok_of_bind done
      obtain ⟨content, contentDone, _⟩ := ok_of_bind done
      exact numbered_statements children _ c.scope _ contentDone
    · cases done
  | .mustache m, _, _, _, _, _, done => by cases done
  | .block b, _, _, _, _, _, done => by cases done
  | .text node, _, _, _, _, _, _ => by
    refine .unused _ ?_
    rw [ofNamedBlock]
    · dsimp only
      split <;> simp [sites]
    · simp
  | .comment _, _, _, _, _, _, _ => .unused _ (by simp [ofNamedBlock, Plan.isNothing, sites])
  | .mustacheComment _, _, _, _, _, _, _ =>
    .unused _ (by simp [ofNamedBlock, Plan.isNothing, sites])

end

end Outline

/-! ### Compiled templates -/

/-- The ids in a compiled template, in the order in which it is written out, count the `in-element`
blocks of the template from 0 on. No id stands there twice. -/
theorem guids_of_compile (o : Options) (t : Template) (compiled : CompiledTemplate)
    (done : t.compile o = .ok compiled) :
    (Wire.partsOfAll compiled.statements).filterMap Wire.Statement.guid? =
        (List.range t.inElements).map cursorId ∧
      ((Wire.partsOfAll compiled.statements).filterMap Wire.Statement.guid?).Nodup := by
  obtain ⟨plan, stream, table, compiles⟩ := compiles_of_compile done
  rw [compiles.compile_eq] at done
  cases done
  have numbered := Outline.numbered_statements t.body [] ⟨1, 0⟩ [] compiles.outlined
  have counted : (Wire.partsOfAll (Direct.statements o.mode o.rename table SymbolTable.rootScope
      (Outline.ofTemplate t))).filterMap Wire.Statement.guid? =
        (List.range t.inElements).map cursorId := by
    calc
      _ = (t.sites.flatMap (Direct.own o.mode o.rename table)).filterMap Wire.Statement.guid? := by
        rw [compiles.parts_eq]
      _ = t.sites.flatMap fun site => (site.cursor?.map cursorId).toList := by
        simp only [List.filterMap_flatMap, guids_own]
      _ = (t.sites.filterMap Site.cursor?).map cursorId := by
        rw [List.map_filterMap, List.filterMap_eq_flatMap_toList]
      _ = (List.range t.inElements).map cursorId := by
        rw [List.range_eq_range']
        exact congrArg (List.map cursorId) numbered.cursors
  refine ⟨counted, ?_⟩
  rw [counted]
  exact List.nodup_range.map cursorId_injective

def Template.Statement.moved (body : List Template.Statement) : Template.Statement :=
  .invokeBlock "in-element" [.named "@place"] [] (.of [] body) none

/-- Blocks with ids in a loop and in one another, in an `else` block and in a named block. -/
def movedParts : Template :=
  .of [.invokeBlock "each" [.named "@items"] []
      (.of ["item"] [.moved [.append "item", .moved []]])
      (some (.of [] [.moved [.append "@none"]])),
    .wrap "Panel" [] [.wrap ":footer" [] [.moved []]]]

/-- Moved blocks inside each other and side by side are numbered in source order. -/
theorem guids_of_compile_movedParts :
    ∃ compiled, movedParts.compile .default = .ok compiled ∧
      (Wire.partsOfAll compiled.statements).filterMap Wire.Statement.guid? =
        ["%cursor:0%", "%cursor:1%", "%cursor:2%", "%cursor:3%"] := by
  have accepted : (movedParts.compile .default).isOk = true := by decide +kernel
  cases done : movedParts.compile .default with
  | error failure =>
    rw [done] at accepted
    cases accepted
  | ok compiled =>
    have counted := (guids_of_compile .default movedParts compiled done).1
    exact ⟨compiled, rfl, counted.trans (by decide +kernel)⟩

end TemplateCompiler

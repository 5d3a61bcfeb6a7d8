import TemplateCompiler.Proofs.Sites

/-!
# Tags of components

A component by its own name is told from a component in a name in scope by the first part of its
tag, when the template is planned. The tag is then renamed, and looked up as a whole when names are
found. The two need not agree: a renamed tag can be a name that a block around it binds, and so can
a tag with dots in it. Then the component is read from that block param. A tag that is not renamed
and has no dots is a free variable.
-/

namespace TemplateCompiler

open Template (Block Element TagKind headSegment splitDots startsWith)

/-- A component of a template, and the blocks around it. -/
structure TagUse where
  element : Element Outline
  enclosing : List Binder

/-- What the tag is taken for, with the names in scope there. -/
def TagUse.kind (u : TagUse) : TagKind := u.element.kind (Binder.binds u.enclosing)

def Site.tagUse? : Site → Option TagUse
  | .node enclosing (.component _ _ e) => some ⟨e, enclosing⟩
  | _ => none

/-- The components of a template, in the order of the source. -/
def Template.tagUses (t : Template) : List TagUse := t.sites.filterMap Site.tagUse?

def Wire.Statement.tag? : Wire.Statement → Option Wire.Expression
  | .component tag _ _ _ => some tag
  | _ => none

/-- The tags of all components in a compiled template, in the order in which they are written. -/
def CompiledTemplate.componentTags (c : CompiledTemplate) : List Wire.Expression :=
  (Wire.partsOfAll c.statements).filterMap Wire.Statement.tag?

/-! ### Kinds of tags -/

/-- A component of an outline is one by the names in scope. -/
def Site.IsClassified : Site → Prop
  | .node enclosing (.component kind _ e) =>
    kind = e.kind (Binder.binds enclosing) ∧ kind.isComponentLike = true
  | _ => True

namespace Outline

mutual

/-- What an element is was decided by the names of the blocks around it. -/
theorem classified_ofStatement (enclosing : List Binder) (c : Count) :
    (s : Template.Statement) →
      ∀ site ∈ (ofStatement enclosing c s).1.sites enclosing, site.IsClassified
  | .mustache m => by simp [ofStatement, sites, Site.IsClassified]
  | .text node => by simp [ofStatement, sites, Site.IsClassified]
  | .comment node => by simp [ofStatement, sites, Site.IsClassified]
  | .mustacheComment node => by simp [ofStatement, sites]
  | .block ⟨path, params, hash, program, inverse, loc⟩ => by
    rw [ofStatement]
    split
    · rw [sites, List.forall_mem_cons]
      exact ⟨trivial, classified_ofBlock enclosing ⟨c.scopes, c.cursors + 1⟩ program⟩
    · rw [sites, List.forall_mem_cons, List.forall_mem_append]
      exact ⟨trivial, classified_ofBlock enclosing c program,
        classified_ofInverse enclosing (ofBlock enclosing c program).2 inverse⟩
  | .element ⟨tag, attributes, modifiers, children, blockParams, selfClosing, loc⟩ => by
    rw [ofStatement]
    dsimp only
    split
    · next component =>
      rw [sites, List.forall_mem_cons]
      refine ⟨⟨rfl, component⟩, ?_⟩
      cases named : children.any Plan.isNamedBlock with
      | true =>
        simp only [if_true, ofNamedBlocks_any, named]
        exact classified_ofNamedBlocks (⟨c.scopes, blockParams, !true⟩ :: enclosing) c.scope tag
          children
      | false =>
        simp only [Bool.false_eq_true, if_false, ofStatements_any]
        exact classified_ofStatements (⟨c.scopes, blockParams, !false⟩ :: enclosing) c.scope
          children
    · rw [sites, List.forall_mem_cons, List.forall_mem_append, List.forall_mem_singleton]
      exact ⟨trivial, classified_ofStatements enclosing c children, trivial⟩

theorem classified_ofStatements (enclosing : List Binder) (c : Count) :
    (list : List Template.Statement) →
      ∀ site ∈ sitesOfAll enclosing (ofStatements enclosing c list).1, site.IsClassified
  | [] => by simp [ofStatements, sitesOfAll]
  | s :: rest => by
    rw [ofStatements, sitesOfAll, List.forall_mem_append]
    exact ⟨classified_ofStatement enclosing c s,
      classified_ofStatements enclosing (ofStatement enclosing c s).2 rest⟩

theorem classified_ofBlock (enclosing : List Binder) (c : Count) :
    (block : Block Template.Statement) →
      ∀ site ∈ sitesOfBlock enclosing c.scopes (ofBlock enclosing c block).1, site.IsClassified
  | ⟨body, params, _⟩ =>
    classified_ofStatements (⟨c.scopes, params, true⟩ :: enclosing) c.scope body

theorem classified_ofInverse (enclosing : List Binder) (c : Count) :
    (inverse : Option (Block Template.Statement)) →
      ∀ site ∈ sitesOfInverse enclosing c.scopes (ofInverse enclosing c inverse).1,
        site.IsClassified
  | none => by simp [ofInverse, sitesOfInverse]
  | some block => classified_ofBlock enclosing c block

theorem classified_ofNamedBlocks (enclosing : List Binder) (c : Count) (component : String) :
    (list : List Template.Statement) →
      ∀ site ∈ sitesOfAll enclosing (ofNamedBlocks enclosing c component list).1,
        site.IsClassified
  | [] => by simp [ofNamedBlocks, sitesOfAll]
  | s :: rest => by
    rw [ofNamedBlocks, sitesOfAll, List.forall_mem_append]
    exact ⟨classified_ofNamedBlock enclosing c component s,
      classified_ofNamedBlocks enclosing (ofNamedBlock enclosing c component s).2 component rest⟩

theorem classified_ofNamedBlock (enclosing : List Binder) (c : Count) (component : String) :
    (s : Template.Statement) →
      ∀ site ∈ (ofNamedBlock enclosing c component s).1.sites enclosing, site.IsClassified
  | .element ⟨tag, attributes, modifiers, children, blockParams, selfClosing, loc⟩ => by
    rw [ofNamedBlock]
    split
    · exact classified_ofStatements (⟨c.scopes, blockParams, true⟩ :: enclosing) c.scope children
    · simp [sites]
  | .mustache m => by simp [ofNamedBlock, sites, Plan.isNothing]
  | .block node => by simp [ofNamedBlock, sites, Plan.isNothing]
  | .text node => by
    rw [ofNamedBlock]
    · dsimp only
      split <;> simp [sites]
    · simp
  | .comment node => by simp [ofNamedBlock, sites, Plan.isNothing]
  | .mustacheComment node => by simp [ofNamedBlock, sites, Plan.isNothing]

end

end Outline

theorem Site.isClassified {t : Template} {site : Site} (inside : site ∈ t.sites) :
    site.IsClassified :=
  Outline.classified_ofStatements [] ⟨1, 0⟩ t.body site inside

/-- The use of a tag comes from a component and nothing else. -/
theorem Site.of_tagUse? {site : Site} {u : TagUse} (classified : site.IsClassified)
    (found : site.tagUse? = some u) :
    ∃ scope, site = .node u.enclosing (.component u.kind scope u.element) := by
  cases site with
  | closing => cases found
  | node enclosing outline =>
    cases outline with
    | component kind scope e =>
      cases found
      obtain ⟨rfl, _⟩ := classified
      exact ⟨scope, rfl⟩
    | _ => cases found

/-- The first part of a dotted text starts with a sigil if the text does. -/
theorem startsWith_splitDots (text : List Char) :
    (splitDots text).1.head? = some '@' ↔ text.head? = some '@' := by
  cases text with
  | nil => rfl
  | cons c rest =>
    rw [splitDots]
    by_cases dot : c = '.'
    · simp [dot]
    · simp [dot]

/-- A tag that starts with neither `this` nor `@` is read as a name and what follows it. -/
theorem ofText_of_bare {tag : String} (loc : Span) (notThis : headSegment tag ≠ "this")
    (notArg : startsWith tag '@' = false) :
    ∃ tail, Template.Path.ofText loc tag = ⟨tag, false, false, headSegment tag :: tail, loc⟩ := by
  have bare : (splitDots tag.toList).1.head? ≠ some '@' := by
    rw [Ne, startsWith_splitDots]
    simpa [startsWith] using notArg
  refine ⟨(splitDots tag.toList).2.map String.ofList, ?_⟩
  rw [headSegment] at notThis ⊢
  rw [Template.Path.ofText]
  dsimp only
  rw [if_neg notThis]
  split
  · next name same => exact (bare (by rw [same]; rfl)).elim
  · rfl

theorem splitDots_of_undotted {text : List Char} (undotted : '.' ∉ text) :
    splitDots text = (text, []) := by
  induction text with
  | nil => rfl
  | cons c rest ih =>
    obtain ⟨here, later⟩ := List.ne_and_not_mem_of_not_mem_cons undotted
    rw [splitDots, ih later]
    simp [Ne.symm here]

/-- A tag without a dot is its own first segment. -/
theorem headSegment_of_undotted {tag : String} (undotted : '.' ∉ tag.toList) :
    headSegment tag = tag := by
  rw [headSegment, splitDots_of_undotted undotted, String.ofList_toList]

/-- A name has no innermost binder exactly if nothing binds it. -/
theorem Binder.innermost_eq_none {enclosing : List Binder} {name : String} :
    innermost enclosing name = none ↔ binds enclosing name = false := by
  simp [innermost, binds]

/-- A component by its own name does not start with a name in scope. -/
theorem TagUse.innermost_of_component {u : TagUse} (static : u.kind = .component) :
    Binder.innermost u.enclosing (headSegment u.element.tag) = none := by
  rw [Binder.innermost_eq_none]
  by_contra bound
  rw [Bool.not_eq_false] at bound
  rw [TagUse.kind, Element.kind] at static
  simp only [bound, Bool.or_true, if_true] at static
  split at static <;> cases static

/-- A tag that starts with a name in scope is read from there. -/
theorem TagUse.kind_of_bound {u : TagUse} (component : u.kind.isComponentLike = true) {b : Binder}
    (bound : Binder.innermost u.enclosing (headSegment u.element.tag) = some b) :
    u.kind = .dynamicTag (.ofText u.element.loc u.element.tag) := by
  have visible : Binder.binds u.enclosing (headSegment u.element.tag) = true := by
    rw [← Bool.not_eq_false, ← Binder.innermost_eq_none.not, bound]
    simp
  rw [TagUse.kind, Element.kind] at component ⊢
  simp only [visible, Bool.or_true, if_true] at component ⊢
  split at component
  · cases component
  · next unnamed => rw [if_neg unnamed, Element.tagPath_eq_ofText]

/-! ### What a tag means -/

/-- What a bare name means, and the expression that reads it: a block param of the innermost block
that binds the name, or else a free variable. -/
def Reference.Denotes (mode : Program.Mode) (table : SymbolTable) (r : Reference)
    (e : Wire.Expression) : Prop :=
  match Binder.innermost r.enclosing r.mention.name with
  | some b =>
    ∃ slot, (table.slots b.scope)[b.names.idxOf r.mention.name]? = some slot ∧ e = .getSymbol slot
  | none => ∃ index, table.upvars[index]? = some r.mention.name ∧
      e = if mode.strict then .getFree index else .getContextualFree index r.mention.context

/-- Reading a name gives what the name refers to, if free names are known to the table. -/
theorem Reference.denotes_read {mode : Program.Mode} {table : SymbolTable} {r : Reference}
    (encloses : Binder.Encloses table.scopes r.enclosing)
    (known : table.get? (Binder.current r.enclosing) r.mention.name = none →
      r.mention.name ∈ table.upvars) :
    r.Denotes mode table (Direct.read mode table (Binder.current r.enclosing) r.mention.name
      r.mention.context) := by
  have looked := Binder.get?_of_encloses encloses r.mention.name
  rw [Denotes, Direct.read]
  cases inner : Binder.innermost r.enclosing r.mention.name with
  | some b =>
    obtain ⟨slot, placed⟩ := encloses.slot inner
    rw [inner, Option.bind_some, placed] at looked
    rw [looked]
    exact ⟨slot, placed, rfl⟩
  | none =>
    rw [inner, Option.bind_none] at looked
    rw [looked]
    exact ⟨_, List.getElem?_idxOf (known looked), rfl⟩

/-- What the tag of a component is compiled to. -/
structure TagUse.Means (o : Options) (table : SymbolTable) (u : TagUse) (e : Wire.Expression) :
    Prop where
  /-- A component by its own name means what its new name means where it stands. -/
  static : u.kind = .component →
    Reference.Denotes o.mode table ⟨⟨o.rename u.element.tag, .componentHead⟩, u.enclosing⟩ e
  /-- That is a free variable, if the name is not new and has no dots. -/
  free : u.kind = .component → o.rename u.element.tag = u.element.tag →
    '.' ∉ u.element.tag.toList → ∃ index, table.upvars[index]? = some (o.rename u.element.tag) ∧
      e = if o.strictMode then .getFree index else .getContextualFree index .componentHead
  /-- A tag that starts with a name in scope is read from the slot of that name. -/
  bound : ∀ b, Binder.innermost u.enclosing (headSegment u.element.tag) = some b →
    headSegment u.element.tag ≠ "this" → startsWith u.element.tag '@' = false →
      ∃ slot tail, (table.slots b.scope)[b.names.idxOf (headSegment u.element.tag)]? = some slot ∧
        e = Direct.follow (.getSymbol slot) tail

/-- The translation of a tag is what the tag means. -/
theorem TagUse.means_tagExpression {o : Options} {t : Template} {plan : Plan}
    {stream : List Program.Traced} {table : SymbolTable} (compiles : Compiles o t plan stream table)
    {u : TagUse} {scope : Nat}
    (inside : Site.node u.enclosing (.component u.kind scope u.element) ∈ t.sites) :
    u.Means o table (Direct.tagExpression o.mode table (Binder.current u.enclosing) o.rename u.kind
      u.element) := by
  obtain ⟨encloses, known⟩ := compiles.of_place inside rfl
  have component := (Site.isClassified inside).2
  have static : u.kind = .component →
      Reference.Denotes o.mode table ⟨⟨o.rename u.element.tag, .componentHead⟩, u.enclosing⟩
        (Direct.tagExpression o.mode table (Binder.current u.enclosing) o.rename u.kind
          u.element) := by
    intro isStatic
    rw [isStatic] at known ⊢
    refine Reference.denotes_read encloses (known ⟨o.rename u.element.tag, .componentHead⟩ ?_)
    exact List.mem_append_left _ List.mem_cons_self
  refine ⟨static, ?_, ?_⟩
  · intro isStatic same undotted
    have unbound := TagUse.innermost_of_component isStatic
    rw [headSegment_of_undotted undotted, ← same] at unbound
    have denotes := static isStatic
    rw [Reference.Denotes] at denotes
    simp only [unbound] at denotes
    exact denotes
  · intro b bound notThis notArg
    have isDynamic := TagUse.kind_of_bound component bound
    obtain ⟨tail, read⟩ := ofText_of_bare u.element.loc notThis notArg
    obtain ⟨slot, placed⟩ := encloses.slot bound
    have looked := Binder.get?_of_encloses encloses (headSegment u.element.tag)
    rw [bound, Option.bind_some, placed] at looked
    refine ⟨slot, tail, placed, ?_⟩
    rw [isDynamic, read, Direct.tagExpression, Direct.path]
    simp [Direct.read, looked]

theorem Wire.Statement.tag?_of_flat {s : Wire.Statement} (flat : s.isNested = false) :
    s.tag? = none := by
  cases s with
  | component tag attrs args blocks => cases flat
  | _ => rfl

theorem Wire.filterMap_tag?_of_flat {list : List Wire.Statement}
    (flat : ∀ s ∈ list, s.isNested = false) : list.filterMap Wire.Statement.tag? = [] := by
  rw [List.filterMap_eq_nil_iff]
  intro s found
  exact Wire.Statement.tag?_of_flat (flat s found)

/-- The tags among the statements of one site: that of a component, and no others. -/
theorem filterMap_tag?_own (o : Options) (table : SymbolTable) {site : Site}
    (classified : site.IsClassified) :
    (Direct.own o.mode o.rename table site).filterMap Wire.Statement.tag? =
      site.tagUse?.toList.map fun u =>
        Direct.tagExpression o.mode table (Binder.current u.enclosing) o.rename u.kind
          u.element := by
  cases site with
  | closing => rfl
  | node enclosing outline =>
    have flat := fun {σ : Type} (kind : TagKind) (e : Element σ) =>
      flat_openingTag o.mode table (Binder.current enclosing) kind e
    cases outline with
    | mustache m =>
      refine Wire.filterMap_tag?_of_flat ?_
      simp [Direct.own, Direct.statement, flat_mustache]
    | element kind e =>
      have start : (Direct.elementStart kind e.tag).isNested = false := by cases kind <;> rfl
      refine Wire.filterMap_tag?_of_flat ?_
      rw [Direct.own, List.forall_mem_append, List.forall_mem_cons, List.forall_mem_singleton]
      exact ⟨⟨start, flat kind e⟩, rfl⟩
    | component kind scope e =>
      have given : ((Direct.openingTag o.mode table (Binder.current enclosing) kind e).filter
          Wire.Statement.isAttribute).filterMap Wire.Statement.tag? = [] :=
        Wire.filterMap_tag?_of_flat fun s found => flat kind e s (List.mem_of_mem_filter found)
      obtain ⟨rfl, _⟩ := classified
      simp [Direct.own, Direct.statement, given, Site.tagUse?, Wire.Statement.tag?, TagUse.kind]
    | _ => rfl

/-- The tags of a compiled template are those of the components of its source, in the same order,
and each means what it should where it stands. -/
theorem component_tags_of_compile (o : Options) (t : Template) (compiled : CompiledTemplate)
    (done : t.compile o = .ok compiled) :
    ∃ program, t.program o = .ok program ∧ compiled.upvars = program.table.upvars ∧
      compiled.symbols = program.table.symbols ∧
      List.Forall₂ (TagUse.Means o program.table) t.tagUses compiled.componentTags := by
  obtain ⟨plan, stream, table, compiles⟩ := compiles_of_compile done
  have same := compiles.compile_eq
  rw [done] at same
  cases same
  refine ⟨_, compiles.program_eq, rfl, rfl, ?_⟩
  have listed : CompiledTemplate.componentTags ⟨table.symbols, table.upvars, table.hasEval,
      Direct.statements o.mode o.rename table SymbolTable.rootScope (Outline.ofTemplate t)⟩ =
      t.tagUses.map fun u => Direct.tagExpression o.mode table (Binder.current u.enclosing)
        o.rename u.kind u.element := by
    rw [CompiledTemplate.componentTags, compiles.parts_eq, List.filterMap_flatMap,
      Template.tagUses, List.filterMap_eq_flatMap_toList, List.map_flatMap]
    exact List.flatMap_congr fun site inside =>
      filterMap_tag?_own o table (Site.isClassified inside)
  rw [listed, List.forall₂_map_right_iff, List.forall₂_same]
  intro u used
  obtain ⟨site, inside, found⟩ := List.mem_filterMap.mp used
  obtain ⟨scope, rfl⟩ := Site.of_tagUse? (Site.isClassified inside) found
  exact TagUse.means_tagExpression compiles inside

/-- A list of cards with a block param `card`. In it stand a component by its own name and one that
is read from the block param. -/
def cards : Template :=
  .of [.invokeBlock "each" [.named "items"] []
    (.of ["card"] [.wrap "Card" [] [], .wrap "card.title" [] []]) none]

def Options.lowercase : Options :=
  ⟨some fun tag => String.ofList (tag.toList.map Char.toLower), false⟩

theorem component_tags_of_compile_cards :
    ∃ compiled, cards.compile .default = .ok compiled ∧ ∃ program,
      cards.program .default = .ok program ∧ compiled.upvars = program.table.upvars ∧
        compiled.symbols = program.table.symbols ∧
        List.Forall₂ (TagUse.Means .default program.table) cards.tagUses
          compiled.componentTags := by
  have accepted : (cards.compile .default).isOk = true := by decide +kernel
  cases done : cards.compile .default with
  | error failure =>
    rw [done] at accepted
    cases accepted
  | ok compiled => exact ⟨compiled, rfl, component_tags_of_compile .default cards compiled done⟩

def Wire.Expression.slot? : Wire.Expression → Option Nat
  | .getSymbol slot => some slot
  | _ => none

theorem Wire.Expression.eq_of_slot? {e : Wire.Expression} {slot : Nat}
    (read : e.slot? = some slot) : e = .getSymbol slot := by
  cases e with
  | getSymbol other => rw [Option.some.inj read]
  | _ => cases read

/-- The component `Card` is told from the block param `card` by its tag. Renamed, it is read from
the slot of the block param all the same. -/
theorem renamed_tag_captured :
    ∃ compiled u, cards.compile .lowercase = .ok compiled ∧ cards.tagUses.head? = some u ∧
      u.kind = .component ∧ compiled.componentTags.head? = some (.getSymbol 1) := by
  have captured : (cards.compile .lowercase).toOption.bind (fun compiled =>
      compiled.componentTags.head?.bind Wire.Expression.slot?) = some 1 := by decide +kernel
  have static : (cards.tagUses.head?.any fun u => u.kind matches .component) = true := by
    decide +kernel
  obtain ⟨u, first, isComponent⟩ := (Option.any_eq_true _ _).mp static
  cases done : cards.compile .lowercase with
  | error failure =>
    rw [done] at captured
    cases captured
  | ok compiled =>
    rw [done, Except.toOption, Option.bind_some] at captured
    obtain ⟨tag, head, read⟩ := Option.bind_eq_some_iff.mp captured
    refine ⟨compiled, u, rfl, first, ?_, ?_⟩
    · split at isComponent
      · assumption
      · cases isComponent
    · rw [head, Wire.Expression.eq_of_slot? read]

end TemplateCompiler

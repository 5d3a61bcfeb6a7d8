import TemplateCompiler.Proofs.Closedness
import TemplateCompiler.Proofs.LexicalScope
import TemplateCompiler.Proofs.WireTree

/-!
# Sites

The parts of a compiled template, each with the node of the outline that it was made from. Sites are
listed before what is inside them, so their parts, one site after the other, are all parts of the
compiled template in the order in which these are written out. An element that is no component has
two sites, as its closing tag comes after its content.

What holds of all parts of a compiled template can be seen from here site by site.
-/

namespace TemplateCompiler

open Template (Block BlockNode Element TagKind)

/-- What statements are made from: a node of an outline inside some blocks, or the closing tag of an
element. -/
inductive Site where
  | node (enclosing : List Binder) (outline : Outline)
  | closing

namespace Outline

mutual

/-- The sites of an outline inside some blocks. A named block has no statement of its own. -/
def sites (enclosing : List Binder) : Outline → List Site
  | .mustache m => [.node enclosing (.mustache m)]
  | .text node => [.node enclosing (.text node)]
  | .comment node => [.node enclosing (.comment node)]
  | .hidden | .misplaced _ _ => []
  | .invocation ⟨path, params, hash, program, inverse, loc⟩ scope other =>
    .node enclosing (.invocation ⟨path, params, hash, program, inverse, loc⟩ scope other) ::
      (sitesOfBlock enclosing scope program ++ sitesOfInverse enclosing other inverse)
  | .inElement ⟨path, params, hash, program, inverse, loc⟩ scope cursor =>
    .node enclosing (.inElement ⟨path, params, hash, program, inverse, loc⟩ scope cursor) ::
      sitesOfBlock enclosing scope program
  | .element kind ⟨tag, attributes, modifiers, children, names, selfClosing, loc⟩ =>
    .node enclosing (.element kind ⟨tag, attributes, modifiers, children, names, selfClosing, loc⟩)
      :: (sitesOfAll enclosing children ++ [.closing])
  | .component kind scope ⟨tag, attributes, modifiers, children, names, selfClosing, loc⟩ =>
    .node enclosing
        (.component kind scope ⟨tag, attributes, modifiers, children, names, selfClosing, loc⟩) ::
      sitesOfAll (⟨scope, names, !children.any isNamed⟩ :: enclosing) children
  | .namedBlock scope ⟨_, _, _, children, names, _, _⟩ =>
    sitesOfAll (⟨scope, names, true⟩ :: enclosing) children

def sitesOfAll (enclosing : List Binder) : List Outline → List Site
  | [] => []
  | s :: rest => sites enclosing s ++ sitesOfAll enclosing rest

def sitesOfBlock (enclosing : List Binder) (scope : Nat) : Block Outline → List Site
  | ⟨body, names, _⟩ => sitesOfAll (⟨scope, names, true⟩ :: enclosing) body

def sitesOfInverse (enclosing : List Binder) (scope : Nat) : Option (Block Outline) → List Site
  | none => []
  | some block => sitesOfBlock enclosing scope block

end

end Outline

def Template.sites (t : Template) : List Site := Outline.sitesOfAll [] (Outline.ofTemplate t)

/-- The statements of one site, without those of its content. A component comes with its attributes
and modifiers. -/
def Direct.own (mode : Program.Mode) (rename : String → String) (table : SymbolTable) :
    Site → List Wire.Statement
  | .node enclosing (.element kind e) =>
    elementStart kind e.tag :: openingTag mode table (Binder.current enclosing) kind e ++
      [.flushElement]
  | .node enclosing (.component kind scope e) =>
    statement mode rename table (Binder.current enclosing) (.component kind scope e) ++
      (openingTag mode table (Binder.current enclosing) kind e).filter Wire.Statement.isAttribute
  | .node enclosing o => statement mode rename table (Binder.current enclosing) o
  | .closing => [.closeElement]

namespace Wire

theorem Statement.parts_of_flat {s : Statement} (flat : s.isNested = false) : s.parts = [s] := by
  cases s with
  | block head params hash blocks => cases flat
  | component tag attrs args blocks => cases flat
  | inElement block guid destination before => cases flat
  | _ => rfl

theorem partsOfAll_of_flat {list : List Statement} (flat : ∀ s ∈ list, s.isNested = false) :
    partsOfAll list = list := by
  induction list with
  | nil => rfl
  | cons s rest ih =>
    rw [partsOfAll, Statement.parts_of_flat (flat s List.mem_cons_self),
      ih fun t found => flat t (List.mem_cons_of_mem s found)]
    rfl

theorem partsOfAll_singleton (s : Statement) : partsOfAll [s] = s.parts := by
  rw [partsOfAll, partsOfAll, List.append_nil]

theorem partsOfAll_append (xs ys : List Statement) :
    partsOfAll (xs ++ ys) = partsOfAll xs ++ partsOfAll ys := by
  simp only [partsOfAll_eq_flatMap, List.flatMap_append]

theorem partsOfBlocks_cons (name : String) (block : InlineBlock Statement)
    (rest : List (String × InlineBlock Statement)) :
    partsOfBlocks ((name, block) :: rest) = partsOfAll block.statements ++ partsOfBlocks rest := rfl

theorem partsOfBlocks_append (xs ys : List (String × InlineBlock Statement)) :
    partsOfBlocks (xs ++ ys) = partsOfBlocks xs ++ partsOfBlocks ys := by
  simp only [partsOfBlocks_eq_flatMap, List.map_append, List.flatMap_append]

theorem Statement.parts_component (tag : Expression) (attrs : List Statement)
    (args : List (String × Expression)) (blocks : Option (List (String × InlineBlock Statement))) :
    (Statement.component tag attrs args blocks).parts =
      .component tag attrs args blocks :: (partsOfAll attrs ++ partsOfBlocks (blocks.getD [])) := by
  cases blocks with
  | none => simp [parts, partsOfBlocks]
  | some blocks => rfl

end Wire

open Wire (partsOfAll partsOfBlocks)

section

variable (mode : Program.Mode) (rename : String → String) (table : SymbolTable)

theorem flat_openingTag {σ : Type} (scope : Nat) (kind : TagKind) (e : Element σ) :
    ∀ s ∈ Direct.openingTag mode table scope kind e, s.isNested = false :=
  fun s found => (Wire.Statement.of_filed (openingTag_filed mode table scope kind e s found)).1

/-- A mustache has no statements inside. -/
theorem flat_mustache (scope : Nat) (m : Template.Mustache) :
    (Direct.mustache mode table scope m).isNested = false := by
  have shown : ∀ trusting value, (Direct.append trusting value).isNested = false := by
    intro trusting value
    cases trusting <;> rfl
  obtain ⟨path, params, hash, trusting, loc⟩ := m
  cases path with
  | path p =>
    cases word : Plan.Keyword.ofPath? p with
    | none => simp [Direct.mustache, word, shown]
    | some keyword => cases keyword <;> simp [Direct.mustache, word, Wire.Statement.isNested]
  | call callee params hash loc => exact shown _ _
  | literal value loc => exact shown _ _

variable {scopes : List Scope}

mutual

/-- The parts of what an outline is translated to are those of its sites. -/
theorem parts_outline (enclosing : List Binder) : (o : Outline) →
    o.Laid scopes (Binder.current enclosing) →
    {list : List (Located Plan.Statement)} → o.plan rename = .ok list →
    partsOfAll (Direct.statement mode rename table (Binder.current enclosing) o) =
      (o.sites enclosing).flatMap (Direct.own mode rename table)
  | .mustache m, _, _, _ => by
    simp [Direct.statement, Outline.sites, Direct.own, partsOfAll,
      Wire.Statement.parts_of_flat (flat_mustache mode table _ m)]
  | .text node, _, _, _ => rfl
  | .comment node, _, _, _ => rfl
  | .hidden, _, _, _ => rfl
  | .misplaced parent loc, _, _, _ => rfl
  | .invocation ⟨path, params, hash, program, inverse, loc⟩ inner other, laid, _, done => by
    rw [Outline.plan] at done
    obtain ⟨block, blockDone, done⟩ := ok_of_bind done
    obtain ⟨otherBlock, otherDone, _⟩ := ok_of_bind done
    have first := parts_inline enclosing "default" inner program laid.1 blockDone
    have second := parts_inverse enclosing other inverse laid.2 otherDone
    rw [Direct.statement, Wire.partsOfAll_singleton, Wire.Statement.parts,
      Wire.partsOfBlocks_cons, first, second, Outline.sites, List.flatMap_cons,
      List.flatMap_append]
    rfl
  | .inElement ⟨path, params, hash, program, inverse, loc⟩ inner cursor, laid, _, done => by
    rw [Outline.plan] at done
    obtain ⟨⟨destination, before⟩, _, done⟩ := ok_of_bind done
    obtain ⟨block, blockDone, _⟩ := ok_of_bind done
    have first := parts_inline enclosing "default" inner program laid blockDone
    rw [Outline.sites, List.flatMap_cons, ← first]
    rw [Direct.statement, Wire.partsOfAll_singleton]
    rfl
  | .element kind ⟨tag, attributes, modifiers, children, names, selfClosing, loc⟩, laid, _,
      done => by
    rw [Outline.plan] at done
    obtain ⟨_, checked, done⟩ := ok_of_bind done
    obtain ⟨opening, opened, done⟩ := ok_of_bind done
    obtain ⟨content, contentDone, _⟩ := ok_of_bind done
    have inside := parts_outlines enclosing children laid.2 contentDone
    have flat := flat_openingTag mode table (Binder.current enclosing) kind
      (⟨tag, attributes, modifiers, children, names, selfClosing, loc⟩ : Element Outline)
    have start : (Direct.elementStart kind tag).parts = [Direct.elementStart kind tag] := by
      cases kind <;> rfl
    rw [Direct.statement, Outline.sites, List.flatMap_cons, List.flatMap_append, ← inside]
    simp only [Wire.partsOfAll_append, List.cons_append, partsOfAll, start,
      Wire.partsOfAll_of_flat flat, Wire.Statement.parts, List.append_assoc, List.append_nil,
      Direct.own, List.flatMap_cons, List.flatMap_nil, List.nil_append]
  | .component kind inner ⟨tag, attributes, modifiers, children, names, selfClosing, loc⟩, laid,
      _, done => by
    rw [Outline.plan] at done
    obtain ⟨_, checked, done⟩ := ok_of_bind done
    obtain ⟨opening, opened, done⟩ := ok_of_bind done
    obtain ⟨content, contentDone, _⟩ := ok_of_bind done
    obtain ⟨_, _, laidContent⟩ := laid
    have flat := flat_openingTag mode table (Binder.current enclosing) kind
      (⟨tag, attributes, modifiers, children, names, selfClosing, loc⟩ : Element Outline)
    rw [Direct.statement, Wire.partsOfAll_singleton, Wire.Statement.parts_component,
      Wire.partsOfAll_of_flat fun s found => flat s (List.mem_of_mem_filter found), Outline.sites,
      List.flatMap_cons]
    show _ :: (_ ++ _) = ([_] ++ _) ++ _
    rw [List.singleton_append, List.cons_append]
    congr 2
    by_cases closed : selfClosing = true
    · have none : children = [] := children_of_selfClosing checked closed
      subst none
      simp [closed, partsOfBlocks, Outline.sitesOfAll]
    rw [if_neg closed]
    split at laidContent
    · next named =>
      rw [if_pos named]
      exact parts_named (⟨inner, names, !children.any Outline.isNamed⟩ :: enclosing) children
        laidContent contentDone
    · next unnamed =>
      rw [if_neg unnamed, Option.getD_some, Wire.partsOfBlocks_cons, partsOfBlocks, List.append_nil]
      exact parts_outlines (⟨inner, names, !children.any Outline.isNamed⟩ :: enclosing) children
        laidContent contentDone
  | .namedBlock _ _, laid, _, _ => laid.elim

theorem parts_outlines (enclosing : List Binder) : (list : List Outline) →
    Outline.LaidAll scopes (Binder.current enclosing) list →
    {planned : List (Located Plan.Statement)} → Outline.planAll rename list = .ok planned →
    partsOfAll (Direct.statements mode rename table (Binder.current enclosing) list) =
      (Outline.sitesOfAll enclosing list).flatMap (Direct.own mode rename table)
  | [], _, _, _ => rfl
  | s :: rest, laid, _, done => by
    rw [Outline.planAll] at done
    obtain ⟨first, firstDone, done⟩ := ok_of_bind done
    obtain ⟨others, restDone, _⟩ := ok_of_bind done
    rw [Direct.statements, Wire.partsOfAll_append, Outline.sitesOfAll, List.flatMap_append,
      parts_outline enclosing s laid.1 firstDone,
      parts_outlines enclosing rest laid.2 restDone]

theorem parts_inline (enclosing : List Binder) (name : String) (inner : Nat) :
    (block : Block Outline) →
    Outline.LaidBlock scopes (Binder.current enclosing) inner block →
    {planned : Plan.NamedBlock (Located Plan.Statement)} →
    Outline.planBlock rename name inner block = .ok planned →
    partsOfAll (Direct.inlineBlock mode rename table inner block).statements =
      (Outline.sitesOfBlock enclosing inner block).flatMap (Direct.own mode rename table)
  | ⟨body, names, loc⟩, laid, _, done => by
    rw [Outline.planBlock] at done
    obtain ⟨content, contentDone, _⟩ := ok_of_bind done
    exact parts_outlines (⟨inner, names, true⟩ :: enclosing) body laid.2 contentDone

theorem parts_inverse (enclosing : List Binder) (inner : Nat) :
    (inverse : Option (Block Outline)) →
    Outline.LaidInverse scopes (Binder.current enclosing) inner inverse →
    {planned : Option (Plan.NamedBlock (Located Plan.Statement))} →
    Outline.planInverse rename inner inverse = .ok planned →
    partsOfBlocks (Direct.inverseBlock mode rename table inner inverse) =
      (Outline.sitesOfInverse enclosing inner inverse).flatMap (Direct.own mode rename table)
  | none, _, _, _ => rfl
  | some block, laid, _, done => by
    rw [Outline.planInverse] at done
    obtain ⟨planned, blockDone, _⟩ := ok_of_bind done
    rw [Direct.inverseBlock, Wire.partsOfBlocks_cons, partsOfBlocks, List.append_nil]
    exact parts_inline enclosing "else" inner block laid blockDone

theorem parts_named (enclosing : List Binder) : (list : List Outline) →
    Outline.LaidNamed scopes (Binder.current enclosing) list →
    {planned : List (Located Plan.Statement)} → Outline.planAll rename list = .ok planned →
    partsOfBlocks (Direct.namedBlocks mode rename table list) =
      (Outline.sitesOfAll enclosing list).flatMap (Direct.own mode rename table)
  | [], _, _, _ => rfl
  | s :: rest, laid, _, done => by
    rw [Outline.planAll] at done
    obtain ⟨first, firstDone, done⟩ := ok_of_bind done
    obtain ⟨others, restDone, _⟩ := ok_of_bind done
    rw [Direct.namedBlocks, Wire.partsOfBlocks_append, Outline.sitesOfAll, List.flatMap_append,
      parts_amongNamed enclosing s laid.1 firstDone,
      parts_named enclosing rest laid.2 restDone]

theorem parts_amongNamed (enclosing : List Binder) : (o : Outline) →
    o.LaidAmongNamed scopes (Binder.current enclosing) →
    {list : List (Located Plan.Statement)} → o.plan rename = .ok list →
    partsOfBlocks (Direct.namedBlock mode rename table o) =
      (o.sites enclosing).flatMap (Direct.own mode rename table)
  | .namedBlock inner ⟨tag, attributes, modifiers, children, names, selfClosing, loc⟩, laid, _,
      done => by
    rw [Outline.plan] at done
    obtain ⟨_, _, done⟩ := ok_of_bind done
    obtain ⟨content, contentDone, _⟩ := ok_of_bind done
    rw [Direct.namedBlock, Wire.partsOfBlocks_cons, partsOfBlocks, List.append_nil]
    exact parts_outlines (⟨inner, names, true⟩ :: enclosing) children laid.2 contentDone
  | .hidden, _, _, _ => rfl
  | .misplaced parent loc, _, _, _ => rfl
  | .mustache _, laid, _, _ => laid.elim
  | .text _, laid, _, _ => laid.elim
  | .comment _, laid, _, _ => laid.elim
  | .invocation _ _ _, laid, _, _ => laid.elim
  | .inElement _ _ _, laid, _, _ => laid.elim
  | .element _ _, laid, _, _ => laid.elim
  | .component _ _ _, laid, _, _ => laid.elim

end

end

/-! ### Places -/

/-- What the statements of one site read by bare names. -/
def Site.place? (rename : String → String) : Site → Option Place
  | .node enclosing (.mustache m) => some ⟨m.mentions, m.readsNames, enclosing⟩
  | .node enclosing (.invocation b _ _) =>
    some ⟨Template.mentionsOfCall .blockHead b.path b.params b.hash, false, enclosing⟩
  | .node enclosing (.inElement b _ _) => some ⟨b.destinationMentions, false, enclosing⟩
  | .node enclosing (.element _ e) => some ⟨e.openingMentions, false, enclosing⟩
  | .node enclosing (.component kind _ e) =>
    some ⟨e.tagMentions rename kind ++ e.openingMentions, false, enclosing⟩
  | _ => none

namespace Outline

variable (rename : String → String)

mutual

/-- The places of an outline are those of its sites, in another order. -/
theorem places_perm_sites (enclosing : List Binder) : (o : Outline) →
    (o.places rename enclosing).Perm ((o.sites enclosing).filterMap (Site.place? rename))
  | .mustache m => .refl _
  | .text _ | .comment _ | .hidden | .misplaced _ _ => .refl _
  | .invocation ⟨path, params, hash, program, inverse, loc⟩ scope other => by
    simp only [places, sites, List.filterMap_cons, Site.place?, List.filterMap_append]
    have first := placesOfBlock_perm_sites enclosing scope program
    have second := placesOfInverse_perm_sites enclosing other inverse
    exact ((second.append first).trans List.perm_append_comm).append_right _ |>.trans
      List.perm_append_comm
  | .inElement ⟨path, params, hash, program, inverse, loc⟩ scope cursor => by
    simp only [places, sites, List.filterMap_cons, Site.place?]
    exact ((placesOfBlock_perm_sites enclosing scope program).append_right _).trans
      List.perm_append_comm
  | .element kind ⟨tag, attributes, modifiers, children, names, selfClosing, loc⟩ => by
    simp only [places, sites, List.filterMap_cons, Site.place?, List.filterMap_append,
      List.filterMap_nil, List.append_nil]
    exact .cons _ (placesOfAll_perm_sites enclosing children)
  | .component kind scope ⟨tag, attributes, modifiers, children, names, selfClosing, loc⟩ => by
    simp only [places, sites, List.filterMap_cons, Site.place?]
    exact .cons _ (placesOfAll_perm_sites (⟨scope, names, _⟩ :: enclosing) children)
  | .namedBlock scope ⟨_, _, _, children, names, _, _⟩ =>
    placesOfAll_perm_sites (⟨scope, names, true⟩ :: enclosing) children

theorem placesOfAll_perm_sites (enclosing : List Binder) : (list : List Outline) →
    (placesOfAll rename enclosing list).Perm
      ((sitesOfAll enclosing list).filterMap (Site.place? rename))
  | [] => .refl _
  | s :: rest => by
    rw [placesOfAll, sitesOfAll, List.filterMap_append]
    exact (places_perm_sites enclosing s).append (placesOfAll_perm_sites enclosing rest)

theorem placesOfBlock_perm_sites (enclosing : List Binder) (scope : Nat) : (block : Block Outline) →
    (placesOfBlock rename enclosing scope block).Perm
      ((sitesOfBlock enclosing scope block).filterMap (Site.place? rename))
  | ⟨body, names, _⟩ => placesOfAll_perm_sites (⟨scope, names, true⟩ :: enclosing) body

theorem placesOfInverse_perm_sites (enclosing : List Binder) (scope : Nat) :
    (inverse : Option (Block Outline)) →
      (placesOfInverse rename enclosing scope inverse).Perm
        ((sitesOfInverse enclosing scope inverse).filterMap (Site.place? rename))
  | none => .refl _
  | some block => placesOfBlock_perm_sites enclosing scope block

end

end Outline

/-- The places of a template are the places of its sites. -/
theorem Template.mem_places_iff {rename : String → String} {t : Template} {p : Place} :
    p ∈ t.places rename ↔ ∃ site ∈ t.sites, site.place? rename = some p := by
  rw [places, (Outline.placesOfAll_perm_sites rename [] _).mem_iff, List.mem_filterMap]
  rfl

/-! ### Compiled templates -/

namespace Compiles

variable {o : Options} {t : Template} {plan : Plan} {stream : List Program.Traced}
  {table : SymbolTable}

/-- The statements of a compiled template are those of its sites, site by site. -/
theorem parts_eq (compiles : Compiles o t plan stream table) :
    partsOfAll (Direct.statements o.mode o.rename table SymbolTable.rootScope
      (Outline.ofTemplate t)) = t.sites.flatMap (Direct.own o.mode o.rename table) :=
  parts_outlines o.mode o.rename table [] (Outline.ofTemplate t) compiles.laid compiles.outlined

/-- The blocks around a site are bound in the table, and its free names are listed there. -/
theorem of_place (compiles : Compiles o t plan stream table) {site : Site} {p : Place}
    (inside : site ∈ t.sites) (placed : site.place? o.rename = some p) :
    Binder.Encloses table.scopes p.enclosing ∧
      ∀ m ∈ p.names, table.get? (Binder.current p.enclosing) m.name = none →
        m.name ∈ table.upvars := by
  have among : p ∈ t.places o.rename := Template.mem_places_iff.mpr ⟨site, inside, placed⟩
  constructor
  · rw [compiles.grows.scopes]
    exact Outline.encloses_of_placesOfAll o.rename [] compiles.root (Outline.ofTemplate t)
      compiles.laid p among
  · intro m mentioned
    have seen : ⟨Binder.current p.enclosing, m⟩ ∈ (t.places o.rename).flatMap Place.sightings :=
      List.mem_flatMap.mpr ⟨p, among, List.mem_map_of_mem mentioned⟩
    exact compiles.reads.known _ seen

end Compiles

end TemplateCompiler

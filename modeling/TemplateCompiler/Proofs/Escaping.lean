import TemplateCompiler.Proofs.Compilation
import TemplateCompiler.Proofs.UntrustedPlan
import TemplateCompiler.Proofs.UntrustedProgram

/-!
# Escaping

Whether a value is escaped depends on the curly braces around it and on nothing else. If all triple
curly braces of a template are made double, its compiled form has the same slots and names and the
same statements, except that no statement trusts a value.
-/

namespace TemplateCompiler

open Plan (Keyword)
open Template (Attribute AttributeValue Block Element Mustache TagKind)

/-! ### Outlines -/

namespace Outline

mutual

/-- The same outline with every mustache in double curly braces. -/
def untrust : Outline → Outline
  | .mustache m => .mustache m.untrust
  | .invocation ⟨path, params, hash, program, inverse, loc⟩ scope other =>
    .invocation ⟨path, params, hash, untrustBlock program, untrustInverse inverse, loc⟩ scope other
  | .inElement ⟨path, params, hash, program, inverse, loc⟩ scope cursor =>
    .inElement ⟨path, params, hash, untrustBlock program, inverse, loc⟩ scope cursor
  | .element kind ⟨tag, attributes, modifiers, children, blockParams, selfClosing, loc⟩ =>
    .element kind ⟨tag, attributes.map Attribute.untrust, modifiers, untrustAll children,
      blockParams, selfClosing, loc⟩
  | .component kind scope
      ⟨tag, attributes, modifiers, children, blockParams, selfClosing, loc⟩ =>
    .component kind scope ⟨tag, attributes.map Attribute.untrust, modifiers, untrustAll children,
      blockParams, selfClosing, loc⟩
  | .namedBlock scope ⟨tag, attributes, modifiers, children, blockParams, selfClosing, loc⟩ =>
    .namedBlock scope ⟨tag, attributes.map Attribute.untrust, modifiers, untrustAll children,
      blockParams, selfClosing, loc⟩
  | .text node => .text node
  | .comment node => .comment node
  | .hidden => .hidden
  | .misplaced parent loc => .misplaced parent loc

def untrustAll : List Outline → List Outline
  | [] => []
  | s :: rest => s.untrust :: untrustAll rest

def untrustBlock : Block Outline → Block Outline
  | ⟨body, params, loc⟩ => ⟨untrustAll body, params, loc⟩

def untrustInverse : Option (Block Outline) → Option (Block Outline)
  | none => none
  | some block => some (untrustBlock block)

end

theorem any_isNamed_untrustAll (list : List Outline) :
    (untrustAll list).any isNamed = list.any isNamed := by
  induction list with
  | nil => rfl
  | cons s rest ih =>
    have same : s.untrust.isNamed = s.isNamed := by cases s <;> rfl
    rw [untrustAll, List.any_cons, ih, same, List.any_cons]

theorem ofNamedBlock_beside (enclosing : List Binder) (c : Count) (parent : String)
    {s : Template.Statement} (other : ∀ e, s ≠ .element e) :
    ofNamedBlock enclosing c parent s.untrust =
      ((ofNamedBlock enclosing c parent s).1.untrust,
        (ofNamedBlock enclosing c parent s).2) := by
  have same : ofNamedBlock enclosing c parent s.untrust = ofNamedBlock enclosing c parent s := by
    cases s with
    | element e => exact (other e rfl).elim
    | mustache m | block b | text node | comment node | mustacheComment node => rfl
  rw [same]
  refine Prod.ext ?_ rfl
  cases s with
  | element e => exact (other e rfl).elim
  | mustache m | block b | text node | comment node | mustacheComment node =>
    simp only [ofNamedBlock]
    split <;> rfl

mutual

/-- Scopes, cursors and kinds do not depend on trust. -/
theorem ofStatement_untrust : (s : Template.Statement) → (enclosing : List Binder) → (c : Count) →
    ofStatement enclosing c s.untrust =
      ((ofStatement enclosing c s).1.untrust, (ofStatement enclosing c s).2)
  | .mustache m, enclosing, c => rfl
  | .block ⟨path, params, hash, program, inverse, loc⟩, enclosing, c => by
    simp only [Template.Statement.untrust, ofStatement]
    split
    · rw [ofBlock_untrust program]
      cases inverse with
      | none => rfl
      | some block =>
        cases block
        rfl
    · rw [ofBlock_untrust program, ofInverse_untrust inverse]
      rfl
  | .element ⟨tag, attributes, modifiers, children, blockParams, selfClosing, loc⟩,
      enclosing, c => by
    simp only [Template.Statement.untrust, ofStatement, Plan.kind_untrust,
      Plan.any_isNamedBlock_untrust]
    split
    · split
      · rw [ofNamedBlocks_untrust children]
        rfl
      · rw [ofStatements_untrust children]
        rfl
    · rw [ofStatements_untrust children]
      rfl
  | .text node, enclosing, c => rfl
  | .comment node, enclosing, c => rfl
  | .mustacheComment node, enclosing, c => rfl

theorem ofStatements_untrust : (list : List Template.Statement) → (enclosing : List Binder) →
    (c : Count) → ofStatements enclosing c (Template.untrustAll list) =
      (untrustAll (ofStatements enclosing c list).1, (ofStatements enclosing c list).2)
  | [], enclosing, c => rfl
  | s :: rest, enclosing, c => by
    rw [Template.untrustAll, ofStatements, ofStatement_untrust s, ofStatements]
    simp only [ofStatements_untrust rest]
    rfl

theorem ofBlock_untrust : (block : Block Template.Statement) → (enclosing : List Binder) →
    (c : Count) → ofBlock enclosing c (Template.untrustBlock block) =
      (untrustBlock (ofBlock enclosing c block).1, (ofBlock enclosing c block).2)
  | ⟨body, params, loc⟩, enclosing, c => by
    rw [Template.untrustBlock, ofBlock, ofStatements_untrust body]
    rfl

theorem ofInverse_untrust : (inverse : Option (Block Template.Statement)) →
    (enclosing : List Binder) → (c : Count) →
    ofInverse enclosing c (Template.untrustInverse inverse) =
      (untrustInverse (ofInverse enclosing c inverse).1, (ofInverse enclosing c inverse).2)
  | none, enclosing, c => rfl
  | some block, enclosing, c => by
    rw [Template.untrustInverse, ofInverse, ofBlock_untrust block]
    rfl

theorem ofNamedBlocks_untrust : (list : List Template.Statement) → (enclosing : List Binder) →
    (c : Count) → (parent : String) →
    ofNamedBlocks enclosing c parent (Template.untrustAll list) =
      (untrustAll (ofNamedBlocks enclosing c parent list).1,
        (ofNamedBlocks enclosing c parent list).2)
  | [], enclosing, c, parent => rfl
  | s :: rest, enclosing, c, parent => by
    rw [Template.untrustAll, ofNamedBlocks, ofNamedBlock_untrust s, ofNamedBlocks]
    simp only [ofNamedBlocks_untrust rest]
    rfl

theorem ofNamedBlock_untrust : (s : Template.Statement) → (enclosing : List Binder) →
    (c : Count) → (parent : String) → ofNamedBlock enclosing c parent s.untrust =
      ((ofNamedBlock enclosing c parent s).1.untrust, (ofNamedBlock enclosing c parent s).2)
  | .element ⟨tag, attributes, modifiers, children, blockParams, selfClosing, loc⟩,
      enclosing, c, parent => by
    simp only [Template.Statement.untrust, ofNamedBlock]
    split
    · rw [ofStatements_untrust children]
      rfl
    · rfl
  | .mustache m, enclosing, c, parent => ofNamedBlock_beside enclosing c parent (by simp)
  | .block b, enclosing, c, parent => ofNamedBlock_beside enclosing c parent (by simp)
  | .text node, enclosing, c, parent => ofNamedBlock_beside enclosing c parent (by simp)
  | .comment node, enclosing, c, parent => ofNamedBlock_beside enclosing c parent (by simp)
  | .mustacheComment node, enclosing, c, parent =>
    ofNamedBlock_beside enclosing c parent (by simp)

end

/-- Taking trust back from a template takes it back from its outline. -/
theorem ofTemplate_untrust (t : Template) : ofTemplate t.untrust = untrustAll (ofTemplate t) := by
  rw [ofTemplate, Template.untrust, ofStatements_untrust]
  rfl

end Outline

/-! ### Translation -/

namespace Wire.Statement

theorem isAttribute_untrust (s : Statement) : s.untrust.isAttribute = s.isAttribute := by
  cases s with
  | component tag attrs args table =>
    rw [untrust_component]
    rfl
  | _ => rfl

theorem arg?_untrust (s : Statement) : s.untrust.arg? = s.arg? := by
  cases s with
  | component tag attrs args table =>
    rw [untrust_component]
    rfl
  | _ => rfl

end Wire.Statement

namespace Direct

section OpeningTags

variable (mode : Program.Mode) (table : SymbolTable) (scope : Nat)

/-- Without trust, a value is escaped. -/
theorem append_untrust (trusting : Bool) (value : Wire.Expression) :
    (append trusting value).untrust = append false value := by
  cases trusting <;> simp [append, Wire.Statement.untrust, Wire.Statement.everywhere,
    Wire.Statement.untrustOne]

/-- A mustache in double curly braces is translated to what is left without trust. -/
theorem mustache_untrust (m : Mustache) :
    mustache mode table scope m.untrust = (mustache mode table scope m).untrust := by
  obtain ⟨path, params, hash, trusting, loc⟩ := m
  cases path with
  | path p =>
    simp only [mustache, Mustache.untrust]
    cases Keyword.ofPath? p with
    | none => exact (append_untrust trusting _).symm
    | some keyword =>
      cases keyword with
      | yield => exact (Wire.Statement.untrust_yield ..).symm
      | partialTemplate => rfl
      | debugger => rfl
  | call callee inner keyed span => exact (append_untrust trusting _).symm
  | literal value span => exact (append_untrust trusting _).symm

theorem attributeValue_untrust (value : AttributeValue) :
    attributeValue mode table scope value.untrust = attributeValue mode table scope value := by
  cases value with
  | text node => rfl
  | mustache m => rfl
  | concat parts loc =>
    have same : (parts.map Template.ConcatPart.untrust).map (concatPart mode table scope) =
        parts.map (concatPart mode table scope) := by
      rw [List.map_map]
      refine List.map_congr_left fun part _ => ?_
      cases part <;> rfl
    rw [AttributeValue.untrust, attributeValue, same]
    rfl

theorem isConstant_untrust (value : AttributeValue) :
    isConstant value.untrust = isConstant value := by
  cases value <;> rfl

/-- An attribute in double curly braces is translated to what is left without trust. -/
theorem attributeStatement_untrust (kind : TagKind) (a : Attribute) :
    attributeStatement mode table scope kind a.untrust =
      (attributeStatement mode table scope kind a).untrust := by
  simp only [attributeStatement, Attribute.untrust, attributeValue_untrust, isConstant_untrust,
    Plan.isTrusting_untrust, ← Plan.attributeKind_untrust _ (Plan.isTrusting a.value)]
  split
  · split <;> simp [Wire.Statement.untrust, Wire.Statement.everywhere, Wire.Statement.untrustOne]
  · split <;> simp [Wire.Statement.untrust, Wire.Statement.everywhere, Wire.Statement.untrustOne]

theorem openingTag_untrust {σ : Type} (kind : TagKind) (tag : String) (attributes : List Attribute)
    (modifiers : List Template.Modifier) (children : List σ) (blockParams : List String)
    (selfClosing : Bool) (loc : Span) :
    openingTag mode table scope kind (⟨tag, attributes.map Attribute.untrust, modifiers, children,
      blockParams, selfClosing, loc⟩ : Element σ) =
      (openingTag mode table scope kind ⟨tag, attributes, modifiers, children, blockParams,
        selfClosing, loc⟩).map Wire.Statement.untrust := by
  simp only [openingTag, setAttributes_eq, Plan.attributeOrder_untrust, List.map_append, List.map_map]
  congr 1
  · exact List.map_congr_left fun a _ => attributeStatement_untrust mode table scope kind a
  · exact List.map_congr_left fun m _ => (Wire.Statement.untrust_modifier ..).symm

end OpeningTags

/-- The same statements of a tag are attributes. -/
theorem filter_isAttribute_untrust (list : List Wire.Statement) :
    (list.map Wire.Statement.untrust).filter Wire.Statement.isAttribute =
      (list.filter Wire.Statement.isAttribute).map Wire.Statement.untrust := by
  rw [List.filter_map]
  congr 1
  exact List.filter_congr fun s _ => s.isAttribute_untrust

theorem filterMap_arg?_untrust (list : List Wire.Statement) :
    (list.map Wire.Statement.untrust).filterMap Wire.Statement.arg? =
      list.filterMap Wire.Statement.arg? := by
  rw [List.filterMap_map]
  exact List.filterMap_congr fun s _ => s.arg?_untrust

variable (mode : Program.Mode) (rename : String → String) (table : SymbolTable)

mutual

/-- Taking trust back before or after the translation is the same. -/
theorem statement_untrust : (o : Outline) → (scope : Nat) →
    statement mode rename table scope o.untrust =
      (statement mode rename table scope o).map Wire.Statement.untrust
  | .mustache m, scope => by
    rw [Outline.untrust, statement, mustache_untrust]
    rfl
  | .text _, _ => rfl
  | .comment _, _ => rfl
  | .hidden, _ => rfl
  | .misplaced _ _, _ => rfl
  | .invocation ⟨head, params, hash, program, inverse, _⟩ programScope inverseScope, scope => by
    rw [Outline.untrust, statement, statement, inlineBlock_untrust program,
      inverseBlock_untrust inverse, List.map_cons, Wire.Statement.untrust_block]
    rfl
  | .inElement ⟨_, params, hash, program, _, _⟩ blockScope cursor, scope => by
    rw [Outline.untrust, statement, statement, inlineBlock_untrust program, List.map_cons,
      Wire.Statement.untrust_inElement]
    rfl
  | .element kind ⟨tag, attributes, modifiers, children, blockParams, selfClosing, loc⟩,
      scope => by
    have start : (elementStart kind tag).untrust = elementStart kind tag := by
      unfold elementStart
      split <;> rfl
    rw [Outline.untrust, statement, statement]
    simp only [openingTag_untrust, statements_untrust children, List.map_append, List.map_cons,
      List.cons_append, start]
    rfl
  | .component kind inner ⟨tag, attributes, modifiers, children, blockParams, selfClosing, loc⟩,
      scope => by
    rw [Outline.untrust, statement, statement, List.map_cons, Wire.Statement.untrust_component]
    simp only [openingTag_untrust, filter_isAttribute_untrust, filterMap_arg?_untrust,
      Outline.any_isNamed_untrustAll, statements_untrust children, namedBlocks_untrust children]
    split
    · rfl
    · split <;> rfl
  | .namedBlock _ _, _ => rfl

theorem statements_untrust : (list : List Outline) → (scope : Nat) →
    statements mode rename table scope (Outline.untrustAll list) =
      (statements mode rename table scope list).map Wire.Statement.untrust
  | [], _ => rfl
  | o :: rest, scope => by
    rw [Outline.untrustAll, statements, statements, statement_untrust o, statements_untrust rest,
      List.map_append]

theorem inlineBlock_untrust : (block : Block Outline) → (scope : Nat) →
    inlineBlock mode rename table scope (Outline.untrustBlock block) =
      (inlineBlock mode rename table scope block).untrust
  | ⟨body, _, _⟩, scope => by
    rw [Outline.untrustBlock, inlineBlock, inlineBlock, statements_untrust body]
    rfl

theorem inverseBlock_untrust : (inverse : Option (Block Outline)) → (scope : Nat) →
    inverseBlock mode rename table scope (Outline.untrustInverse inverse) =
      Wire.untrustTable (inverseBlock mode rename table scope inverse)
  | none, _ => rfl
  | some block, scope => by
    rw [Outline.untrustInverse, inverseBlock, inverseBlock, inlineBlock_untrust block]
    rfl

theorem namedBlocks_untrust : (list : List Outline) →
    namedBlocks mode rename table (Outline.untrustAll list) =
      Wire.untrustTable (namedBlocks mode rename table list)
  | [] => rfl
  | o :: rest => by
    rw [Outline.untrustAll, namedBlocks, namedBlocks, namedBlock_untrust o,
      namedBlocks_untrust rest, Wire.untrustTable, Wire.untrustTable, Wire.untrustTable,
      List.map_append]

theorem namedBlock_untrust : (o : Outline) →
    namedBlock mode rename table o.untrust = Wire.untrustTable (namedBlock mode rename table o)
  | .namedBlock scope ⟨tag, _, _, children, _, _, _⟩ => by
    rw [Outline.untrust, namedBlock, namedBlock, statements_untrust children]
    rfl
  | .mustache _ => rfl
  | .text _ => rfl
  | .comment _ => rfl
  | .hidden => rfl
  | .misplaced _ _ => rfl
  | .invocation _ _ _ => rfl
  | .inElement _ _ _ => rfl
  | .element _ _ => rfl
  | .component _ _ _ => rfl

end

end Direct

/-! ### Compiled templates -/

/-- What a template without trust compiles to, read with the table of the template itself. -/
theorem Compiles.untrusted {o : Options} {t : Template} {plan : Plan}
    {stream : List Program.Traced} {table : SymbolTable}
    (compiles : Compiles o t plan stream table) :
    t.untrust.compile o = .ok ⟨table.symbols, table.upvars, table.hasEval,
      (Direct.statements o.mode o.rename table SymbolTable.rootScope (Outline.ofTemplate t)).map
        Wire.Statement.untrust⟩ := by
  have planned : t.untrust.plan o = .ok plan.untrust := Plan.ofTemplate_untrust compiles.planned
  have resolved := Program.ofPlan_untrust compiles.resolved
  obtain ⟨stream', table', again⟩ := compiles_of_plan planned
  rw [again.resolved] at resolved
  have sameTable : table' = table := congrArg Program.table (Except.ok.inj resolved)
  rw [again.compile_eq, sameTable, Outline.ofTemplate_untrust, Direct.statements_untrust]

/-- Trust is a matter of the braces around a value: with all triple curly braces made double, a
template has the same names and the same statements, with none that trusts a value. -/
theorem compile_untrust (o : Options) (t : Template) (compiled : CompiledTemplate)
    (done : t.compile o = .ok compiled) :
    t.untrust.compile o = .ok ⟨compiled.symbols, compiled.upvars, compiled.hasEval,
        compiled.statements.map Wire.Statement.untrust⟩ ∧
      ((∀ m ∈ t.mustaches, m.trusting = false) →
        ∀ part ∈ Wire.partsOfAll compiled.statements, part.isTrusting = false) := by
  obtain ⟨plan, stream, table, compiles⟩ := compiles_of_compile done
  have untrusted := compiles.untrusted
  rw [compiles.compile_eq] at done
  cases done
  refine ⟨untrusted, fun escaped part found => ?_⟩
  -- Nothing was changed in the template, so the statements are those without trust.
  rw [Template.untrust_eq_self escaped, compiles.compile_eq] at untrusted
  have kept := congrArg CompiledTemplate.statements (Except.ok.inj untrusted)
  dsimp only at kept found
  rw [kept, Wire.partsOfAll_eq_flatMap] at found
  obtain ⟨s, here, inside⟩ := List.mem_flatMap.mp found
  obtain ⟨s, _, rfl⟩ := List.mem_map.mp here
  exact Wire.Statement.isTrusting_of_mem_parts_untrust inside

/-- A loop with trusted values in its content and in two attributes of a component, one of them in
quotes, and with one more in its `else` block. -/
def trustedCards : Template :=
  .of [.invokeBlock "each" [.named "@items"] []
    (.of ["item"] [.mustache (.raw (.named "item.body") [] []),
      .element (((Template.Element.of "Card").addAttribute "title"
        (.mustache (.raw (.named "item.title") [] [])) .synthetic).addAttribute "class"
        (.concat [.text (.of "card "), .mustache (.raw (.named "item.kind") [] [])] .synthetic)
        .synthetic)])
    (some (.of [] [.element ((Template.Element.of "p").addAttribute "title"
      (.mustache (.raw (.named "none") [.named "@count"] [])) .synthetic)]))]

theorem compile_untrust_trustedCards :
    ∃ compiled, trustedCards.compile .default = .ok compiled ∧
      (∃ part ∈ Wire.partsOfAll compiled.statements, part.isTrusting = true) ∧
      trustedCards.untrust.compile .default = .ok ⟨compiled.symbols, compiled.upvars,
        compiled.hasEval, compiled.statements.map Wire.Statement.untrust⟩ ∧
      ∀ part ∈ Wire.partsOfAll (compiled.statements.map Wire.Statement.untrust),
        part.isTrusting = false := by
  have accepted : ((trustedCards.compile .default).toOption.any fun compiled =>
      (Wire.partsOfAll compiled.statements).any Wire.Statement.isTrusting) = true := by
    decide +kernel
  cases done : trustedCards.compile .default with
  | error failure =>
    rw [done] at accepted
    cases accepted
  | ok compiled =>
    rw [done] at accepted
    have untrusted := (compile_untrust .default trustedCards compiled done).1
    exact ⟨compiled, rfl, List.any_eq_true.mp accepted, untrusted,
      (compile_untrust .default _ _ untrusted).2 (by decide)⟩

end TemplateCompiler

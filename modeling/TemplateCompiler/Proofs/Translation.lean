import TemplateCompiler.Proofs.Layout
import TemplateCompiler.Proofs.References
import TemplateCompiler.Proofs.Rendering

/-!
# From planned outlines to compiled templates

An outline that has been planned, and whose scopes are laid out in the table as their numbers say,
is compiled without a defect. The statements are those of the direct translation, and every bare
name is read in the scope of the innermost block around it.

The induction is on the outline. The rules for planned statements say what happens at each node, so
neither the operations nor the machine are seen here.
-/

namespace TemplateCompiler

open Template (Block BlockNode Element TagKind)

/-! ### Components -/

namespace Program

open Assembly (Machine)
open Assembly.Machine (Adds Fills Runs Supplies Suspends opening)

section Components

variable {mode : Mode} {scopes : List Scope} {scope : Nat} {tag : Located Plan.Expression}
  {selfClosing : Bool} {inner : Nat} {entries content : List (Located Plan.Statement)}
  {close : Plan.Statement} {span : Span} {found : Scope}
  {written : SymbolTable → List Wire.Statement} {mentioned : List Mention} {inside : List Sighting}

/-- The content of a component is its default block. -/
theorem resolves_component_default {out : SymbolTable → List Wire.Statement}
    (known : scope < scopes.length) (bound : scopes[inner]? = some found)
    (closing : close = .closeComponent ∨ close = .closeDynamicComponent)
    (opens : Resolves mode (traceStatements mode entries) scopes scope
      (fun final ops => Adds ops (written final)) (sightings scope mentioned))
    (filed : ∀ final, ∀ s ∈ written final, s.isAttribute = true ∨ s.arg?.isSome = true)
    (fills : Resolves mode (traceStatements mode content) scopes inner
      (fun final ops => Fills ops (out final)) inside) :
    Resolves mode (traceStatements mode (⟨.openComponent tag selfClosing inner, span⟩ :: entries ++
      [⟨.flushElement (some inner), span⟩] ++ content ++ [⟨close, span⟩])) scopes scope
      (fun final ops => Fills ops [.component (Direct.planned mode final scope tag)
        ((written final).filter Wire.Statement.isAttribute)
        ((written final).filterMap Wire.Statement.arg?)
        (if selfClosing then none else some [("default", ⟨out final, found.slots⟩)])])
      (sightings scope (Plan.mentions tag ++ mentioned) ++ inside) := by
  refine resolves_component (fun final => { opening (Direct.planned mode final scope tag)
    selfClosing found.slots (written final) with body := out final }) known bound closing opens
    filed (fills.mono (fun final ops _ filled => ?_) rfl)
  intro m rest noOperands opened
  have ready : m.Ready := by
    refine ⟨noOperands, ?_⟩
    intro c others same
    rw [opened] at same
    cases same
    rfl
  have runs := filled m ready
  obtain ⟨operands, template, _, finished⟩ := m
  cases opened
  exact runs

/-- A component with named blocks has these and no other content. -/
theorem resolves_component_named
    {blocks : SymbolTable → List (String × Wire.InlineBlock Wire.Statement)}
    (known : scope < scopes.length) (bound : scopes[inner]? = some found)
    (closing : close = .closeComponent ∨ close = .closeDynamicComponent)
    (opens : Resolves mode (traceStatements mode entries) scopes scope
      (fun final ops => Adds ops (written final)) (sightings scope mentioned))
    (filed : ∀ final, ∀ s ∈ written final, s.isAttribute = true ∨ s.arg?.isSome = true)
    (given : ∀ final, blocks final ≠ [])
    (supplies : Resolves mode (traceStatements mode content) scopes inner
      (fun final ops => Supplies ops (blocks final)) inside) :
    Resolves mode (traceStatements mode (⟨.openComponent tag selfClosing inner, span⟩ :: entries ++
      [⟨.flushElement (some inner), span⟩] ++ content ++ [⟨close, span⟩])) scopes scope
      (fun final ops => Fills ops [.component (Direct.planned mode final scope tag)
        ((written final).filter Wire.Statement.isAttribute)
        ((written final).filterMap Wire.Statement.arg?)
        (if selfClosing then none else some (blocks final))])
      (sightings scope (Plan.mentions tag ++ mentioned) ++ inside) := by
  refine (resolves_component (fun final => { opening (Direct.planned mode final scope tag)
    selfClosing found.slots (written final) with named := blocks final }) known bound closing opens
    filed (supplies.mono (fun final ops _ supplied m rest noOperands opened =>
      supplied m _ rest noOperands opened) rfl)).mono (fun final ops _ filled => ?_) rfl
  simpa [Assembly.Component.finish, Assembly.Component.blocks, given final, opening,
    Assembly.Component.start] using filled

end Components

/-! ### Outlines -/

theorem namedBlocks_ne_nil (mode : Mode) (rename : String → String) (table : SymbolTable)
    {children : List Outline} (named : children.any Outline.isNamed = true) :
    Direct.namedBlocks mode rename table children ≠ [] := by
  induction children with
  | nil => cases named
  | cons s rest ih =>
    rw [List.any_cons, Bool.or_eq_true] at named
    rcases named with here | there
    · cases s with
      | namedBlock scope node => exact List.cons_ne_nil _ _
      | _ => cases here
    · exact List.append_ne_nil_of_right_ne_nil _ (ih there)

theorem closeStatement_of_component {kind : TagKind} (component : kind.isComponentLike = true) :
    Plan.closeStatement kind = .closeComponent ∨
      Plan.closeStatement kind = .closeDynamicComponent := by
  cases kind <;> cases component
  · exact .inr rfl
  · exact .inl rfl

theorem closeStatement_of_element {kind : TagKind} (plain : kind.isComponentLike = false) :
    Plan.closeStatement kind = .closeElement := by
  cases kind <;> cases plain <;> rfl

section Outlines

variable (mode : Mode) (rename : String → String) (scopes : List Scope)

mutual

/-- One planned outline fills a machine with its direct translation. -/
theorem resolves_outline (enclosing : List Binder) (encloses : Binder.Encloses scopes enclosing) :
    (o : Outline) → o.Laid scopes (Binder.current enclosing) →
      {list : List (Located Plan.Statement)} → o.plan rename = .ok list →
      Resolves mode (traceStatements mode list) scopes (Binder.current enclosing)
        (fun final ops =>
          Fills ops (Direct.statement mode rename final (Binder.current enclosing) o))
        ((o.places rename enclosing).flatMap Place.sightings)
  | .mustache m, _, list, done => by
    rw [Outline.plan] at done
    obtain ⟨s, planned, done⟩ := ok_of_bind done
    cases done
    have renders := renders_mustache planned
    refine (resolves_leaf renders.leaf s.span encloses.lt_length).single.mono
      (fun final ops _ adds => ?_) ?_
    · rw [renders.value] at adds
      exact adds.fills
    · simp [Outline.places, Place.sightings, renders.mentions]
  | .text node, _, list, done => by
    cases done
    exact (resolves_leaf rfl node.loc encloses.lt_length).single.mono
      (fun _ _ _ adds => adds.fills) rfl
  | .comment node, _, list, done => by
    cases done
    exact (resolves_leaf rfl node.loc encloses.lt_length).single.mono
      (fun _ _ _ adds => adds.fills) rfl
  | .hidden, _, list, done => by
    cases done
    exact Resolves.nil fun _ => .nil
  | .misplaced parent loc, _, list, done => by cases done
  | .invocation ⟨path, params, hash, program, inverse, loc⟩ inner other, laid, list, done => by
    rw [Outline.plan] at done
    obtain ⟨block, blockDone, done⟩ := ok_of_bind done
    obtain ⟨otherBlock, otherDone, done⟩ := ok_of_bind done
    obtain ⟨head, headDone, done⟩ := ok_of_bind done
    obtain ⟨positional, paramsDone, done⟩ := ok_of_bind done
    obtain ⟨keyed, hashDone, done⟩ := ok_of_bind done
    cases done
    have first := renders_path headDone
    have listed := renders_params paramsDone
    have paired := renders_hash hashDone
    obtain ⟨sameShape, otherWaits⟩ :=
      resolves_inverse enclosing encloses other inverse laid.2 otherDone
    have waits := resolves_inline enclosing encloses "default" inner program laid.1 blockDone
    refine (resolves_invocation encloses.lt_length sameShape otherWaits waits).single.mono
      (fun final ops _ adds => ?_) ?_
    · rw [first.value, listed.value, paired.value] at adds
      cases inverse <;> exact adds.fills
    · simp [Outline.places, Place.sightings, Plan.mentionsOfCall, Template.mentionsOfCall,
        first.mentions, listed.mentions, paired.mentions]
  | .inElement ⟨path, params, hash, program, inverse, loc⟩ inner cursor, laid, list, done => by
    rw [Outline.plan] at done
    obtain ⟨⟨destination, before⟩, destinationDone, done⟩ := ok_of_bind done
    obtain ⟨block, blockDone, done⟩ := ok_of_bind done
    cases done
    obtain ⟨goes, beforeWhich, mentioned⟩ := renders_destination destinationDone
    have waits := resolves_inline enclosing encloses "default" inner program laid blockDone
    refine (resolves_inElement encloses.lt_length waits).single.mono (fun final ops _ adds => ?_) ?_
    · rw [goes, beforeWhich] at adds
      exact adds.fills
    · rw [mentioned]
      simp [Outline.places, Place.sightings]
  | .element kind ⟨tag, attributes, modifiers, children, names, selfClosing, loc⟩, laid, list,
      done => by
    rw [Outline.plan] at done
    obtain ⟨_, _, done⟩ := ok_of_bind done
    obtain ⟨opened, openedDone, done⟩ := ok_of_bind done
    obtain ⟨content, contentDone, done⟩ := ok_of_bind done
    cases done
    obtain ⟨opening, entries, openingDone, rfl, written⟩ := renders_opening openedDone
    have starts := openStatement_of_element laid.1 openingDone
    have fills := resolves_outlines enclosing encloses children laid.2 contentDone
    rw [closeStatement_of_element laid.1]
    refine (resolves_element encloses.lt_length starts.leaf written.leaf fills).mono
      (fun final ops _ filled => ?_) ?_
    · rw [starts.value, written.value] at filled
      exact filled
    · rw [starts.mentions, written.mentions]
      simp [Outline.places, Place.sightings]
  | .component kind inner ⟨tag, attributes, modifiers, children, names, selfClosing, loc⟩, laid,
      list, done => by
    rw [Outline.plan] at done
    obtain ⟨_, _, done⟩ := ok_of_bind done
    obtain ⟨opened, openedDone, done⟩ := ok_of_bind done
    obtain ⟨content, contentDone, done⟩ := ok_of_bind done
    cases done
    obtain ⟨opening, entries, openingDone, rfl, written⟩ := renders_opening openedDone
    obtain ⟨component, bound, laidContent⟩ := laid
    obtain ⟨tagged, rfl, tagRenders⟩ := openStatement_of_component component openingDone
    obtain ⟨found, at_, slots⟩ := bound.slots_eq
    have known := encloses.lt_length
    have closing := closeStatement_of_component component
    have opens : Resolves mode (traceStatements mode entries) scopes (Binder.current enclosing)
        (fun final ops => Adds ops (Direct.openingTag mode final (Binder.current enclosing) kind
          (⟨tag, attributes, modifiers, children, names, selfClosing, loc⟩ : Element Outline)))
        (sightings (Binder.current enclosing) (Element.openingMentions
          (⟨tag, attributes, modifiers, children, names, selfClosing, loc⟩ :
            Element Outline))) := by
      refine (resolves_leaves known written.leaf).mono (fun final ops _ adds => ?_) ?_
      · rw [written.value] at adds
        exact adds
      · rw [written.mentions]
    have filed := fun final => openingTag_filed mode final (Binder.current enclosing) kind
      (⟨tag, attributes, modifiers, children, names, selfClosing, loc⟩ : Element Outline)
    by_cases named : children.any Outline.isNamed = true
    · rw [if_pos named] at laidContent
      have supplies := resolves_named (⟨inner, names, !children.any Outline.isNamed⟩ :: enclosing)
        ⟨bound, encloses⟩ children laidContent contentDone
      refine (resolves_component_named known at_ closing opens filed
        (fun final => namedBlocks_ne_nil mode rename final named) supplies).mono
        (fun final ops _ filled => ?_) ?_
      · rw [tagRenders.value] at filled
        simpa only [Direct.statement, if_pos named] using filled
      · rw [tagRenders.mentions]
        simp [Outline.places, Place.sightings]
    · rw [if_neg named] at laidContent
      have fills := resolves_outlines (⟨inner, names, !children.any Outline.isNamed⟩ :: enclosing)
        ⟨bound, encloses⟩ children laidContent contentDone
      refine (resolves_component_default known at_ closing opens filed fills).mono
        (fun final ops same filled => ?_) ?_
      · rw [tagRenders.value, ← slots final same] at filled
        simpa only [Direct.statement, if_neg named, Binder.current] using filled
      · rw [tagRenders.mentions]
        simp [Outline.places, Place.sightings]
  | .namedBlock _ _, laid, _, _ => laid.elim

/-- Statements in a row fill what they are in with their translations, in order. -/
theorem resolves_outlines (enclosing : List Binder) (encloses : Binder.Encloses scopes enclosing) :
    (list : List Outline) → Outline.LaidAll scopes (Binder.current enclosing) list →
      {planned : List (Located Plan.Statement)} → Outline.planAll rename list = .ok planned →
      Resolves mode (traceStatements mode planned) scopes (Binder.current enclosing)
        (fun final ops =>
          Fills ops (Direct.statements mode rename final (Binder.current enclosing) list))
        ((Outline.placesOfAll rename enclosing list).flatMap Place.sightings)
  | [], _, _, done => by
    cases done
    exact Resolves.nil fun _ => .nil
  | s :: rest, laid, _, done => by
    rw [Outline.planAll] at done
    obtain ⟨first, firstDone, done⟩ := ok_of_bind done
    obtain ⟨others, restDone, done⟩ := ok_of_bind done
    cases done
    rw [Outline.placesOfAll, List.flatMap_append]
    exact (resolves_outline enclosing encloses s laid.1 firstDone).fills
      (resolves_outlines enclosing encloses rest laid.2 restDone)

/-- A block is translated to one that waits for its statement. -/
theorem resolves_inline (enclosing : List Binder) (encloses : Binder.Encloses scopes enclosing)
    (name : String) (inner : Nat) : (block : Block Outline) →
      Outline.LaidBlock scopes (Binder.current enclosing) inner block →
      {planned : Plan.NamedBlock (Located Plan.Statement)} →
      Outline.planBlock rename name inner block = .ok planned →
      Resolves mode (traceBlock mode planned) scopes (Binder.current enclosing)
        (fun final ops => Suspends ops [⟨name, Direct.inlineBlock mode rename final inner block⟩])
        ((Outline.placesOfBlock rename enclosing inner block).flatMap Place.sightings)
  | ⟨body, names, loc⟩, laid, _, done => by
    rw [Outline.planBlock] at done
    obtain ⟨content, contentDone, done⟩ := ok_of_bind done
    cases done
    obtain ⟨found, at_, slots⟩ := laid.1.slots_eq
    have fills := resolves_outlines (⟨inner, names, true⟩ :: enclosing) ⟨laid.1, encloses⟩ body
      laid.2 contentDone
    refine (resolves_block at_ fills).mono (fun final ops same waits => ?_) rfl
    rw [← slots final same] at waits
    exact waits

/-- The inverse block waits as `else`, if there is one. -/
theorem resolves_inverse (enclosing : List Binder) (encloses : Binder.Encloses scopes enclosing)
    (inner : Nat) : (inverse : Option (Block Outline)) →
      Outline.LaidInverse scopes (Binder.current enclosing) inner inverse →
      {planned : Option (Plan.NamedBlock (Located Plan.Statement))} →
      Outline.planInverse rename inner inverse = .ok planned →
      (∀ final : SymbolTable, (inverse.map fun block => Assembly.NamedBlock.mk "else"
        (Direct.inlineBlock mode rename final inner block)).isSome = planned.isSome) ∧
      Resolves mode (traceInverse mode planned) scopes (Binder.current enclosing)
        (fun final ops => Suspends ops (inverse.map fun block => Assembly.NamedBlock.mk "else"
          (Direct.inlineBlock mode rename final inner block)).toList)
        ((Outline.placesOfInverse rename enclosing inner inverse).flatMap Place.sightings)
  | none, _, _, done => by
    cases done
    exact ⟨fun _ => rfl, Resolves.nil fun _ => .nil⟩
  | some block, laid, _, done => by
    rw [Outline.planInverse] at done
    obtain ⟨planned, blockDone, done⟩ := ok_of_bind done
    cases done
    exact ⟨fun _ => rfl, resolves_inline enclosing encloses "else" inner block laid blockDone⟩

/-- Planned named blocks are handed to the component around them. -/
theorem resolves_named (enclosing : List Binder) (encloses : Binder.Encloses scopes enclosing) :
    (list : List Outline) → Outline.LaidNamed scopes (Binder.current enclosing) list →
      {planned : List (Located Plan.Statement)} → Outline.planAll rename list = .ok planned →
      Resolves mode (traceStatements mode planned) scopes (Binder.current enclosing)
        (fun final ops => Supplies ops (Direct.namedBlocks mode rename final list))
        ((Outline.placesOfAll rename enclosing list).flatMap Place.sightings)
  | [], _, _, done => by
    cases done
    exact Resolves.nil fun _ => .nil
  | s :: rest, laid, _, done => by
    rw [Outline.planAll] at done
    obtain ⟨first, firstDone, done⟩ := ok_of_bind done
    obtain ⟨others, restDone, done⟩ := ok_of_bind done
    cases done
    rw [Outline.placesOfAll, List.flatMap_append]
    exact (resolves_amongNamed enclosing encloses s laid.1 firstDone).append
      (resolves_named enclosing encloses rest laid.2 restDone) fun _ _ _ => Supplies.append

/-- A named block is translated to an entry of its component's table. -/
theorem resolves_amongNamed (enclosing : List Binder)
    (encloses : Binder.Encloses scopes enclosing) : (o : Outline) →
      o.LaidAmongNamed scopes (Binder.current enclosing) →
      {list : List (Located Plan.Statement)} → o.plan rename = .ok list →
      Resolves mode (traceStatements mode list) scopes (Binder.current enclosing)
        (fun final ops => Supplies ops (Direct.namedBlock mode rename final o))
        ((o.places rename enclosing).flatMap Place.sightings)
  | .namedBlock inner ⟨tag, attributes, modifiers, children, names, selfClosing, loc⟩, laid, _,
      done => by
    rw [Outline.plan] at done
    obtain ⟨_, _, done⟩ := ok_of_bind done
    obtain ⟨content, contentDone, done⟩ := ok_of_bind done
    cases done
    obtain ⟨found, at_, slots⟩ := laid.1.slots_eq
    have fills := resolves_outlines (⟨inner, names, true⟩ :: enclosing) ⟨laid.1, encloses⟩ children
      laid.2 contentDone
    refine (resolves_namedBlock at_ fills).mono (fun final ops same supplies => ?_) rfl
    rw [← slots final same] at supplies
    exact supplies
  | .hidden, _, _, done => by
    cases done
    exact Resolves.nil fun _ => .nil
  | .misplaced parent loc, _, _, done => by cases done
  | .mustache _, laid, _, _ => laid.elim
  | .text _, laid, _, _ => laid.elim
  | .comment _, laid, _, _ => laid.elim
  | .invocation _ _ _, laid, _, _ => laid.elim
  | .inElement _ _ _, laid, _, _ => laid.elim
  | .element _ _, laid, _, _ => laid.elim
  | .component _ _ _, laid, _, _ => laid.elim

end

end Outlines

/-- A plan that is laid out in its table is resolved and assembled without a defect. Its bare names
are read where the outline has them. -/
theorem assemble_of_laid (mode : Mode) (rename : String → String) {outlines : List Outline}
    (plan : Plan) (root : Binder.Encloses plan.table.scopes [])
    (laid : Outline.LaidAll plan.table.scopes SymbolTable.rootScope outlines)
    (planned : Outline.planAll rename outlines = .ok plan.body) :
    ∃ stream table, tracePlan mode plan = .ok (stream, table) ∧ plan.table.Grows table ∧
      Reads mode table ((Outline.placesOfAll rename [] outlines).flatMap Place.sightings) stream ∧
      Assembly.assemble ⟨erase stream, table⟩ = .ok ⟨table.symbols, table.upvars, table.hasEval,
        Direct.statements mode rename table SymbolTable.rootScope outlines⟩ := by
  obtain ⟨stream, table, resolved, grows, holds⟩ :=
    resolves_outlines mode rename plan.table.scopes [] root outlines laid planned
      ⟨plan.table, .singleton SymbolTable.rootScope⟩ rfl rfl
  obtain ⟨fills, reads⟩ := holds table (.refl table)
  have ready : Machine.initial.Ready := ⟨rfl, by simp [Machine.initial]⟩
  have runs := fills Machine.initial ready
  refine ⟨stream, table, ?_, grows, reads, ?_⟩
  · show ((traceStatements mode plan.body) _ >>= _) = _
    rw [resolved]
    rfl
  · show (Machine.run (erase stream) Machine.initial >>= _) = _
    rw [show Machine.run (erase stream) Machine.initial = _ from runs]
    rfl

end Program

end TemplateCompiler

import TemplateCompiler.Proofs.Mentions

/-!
# Planning with a record of scopes

The planner once more, with a record of every bare name that it comes upon and of the scope that is
current at that moment. Records of the parts of a statement are put together in the order in which
names get their slots later, not in the order of planning: the `else` block comes before the other
one, and both before the operands.

Leaving the record out gives the planner back, so the record is that of the planner.
-/

namespace TemplateCompiler.Plan

open Template (Block BlockNode Element)

/-- Records bare names in the current scope. -/
def note (mentions : List Mention) : Planning (List Sighting) := fun progress =>
  .ok (sightings progress.scopes.current mentions, progress)

mutual

def traceStatement (rename : String → String) :
    Template.Statement → Planning (List (Located Statement) × List Sighting)
  | .mustache m => do
    let statement ← planMustache m
    let seen ← note statement.value.mentions
    if statement.value.readsNames then markEval
    return ([statement], seen)
  | .block ⟨path, params, hash, program, inverse, loc⟩ => do
    if isInElement path then
      let (destination, insertBefore) ←
        planDestination ⟨path, params, hash, program, inverse, loc⟩
      let seen ← note (mentions destination ++ (insertBefore.map mentions).getD [])
      let guid ← newCursor
      let (block, inside) ← traceBlock rename "default" program
      return ([⟨.inElement destination insertBefore guid block, loc⟩], inside ++ seen)
    else
      let (program, inside) ← traceBlock rename "default" program
      let (inverse, other) ← traceInverse rename inverse
      let head ← planPath .blockHead path
      let params ← planParams params
      let hash ← planHash hash
      let seen ← note (mentionsOfCall head params hash)
      return ([⟨.invokeBlock head params hash program inverse, loc⟩], other ++ inside ++ seen)
  | .element ⟨tag, attributes, modifiers, children, blockParams, selfClosing, loc⟩ => do
    let e : Element Template.Statement :=
      ⟨tag, attributes, modifiers, children, blockParams, selfClosing, loc⟩
    let kind := e.kind (← isLocal)
    checkElement kind e
    if kind.isComponentLike then
      let inner ← newScope blockParams
      let opening ← planOpening rename kind e (some inner)
      let seen ← note (opening.flatMap fun s => s.value.mentions)
      enterScope inner
      let (content, inside) ←
        if children.any isNamedBlock then traceNamedBlocks rename tag children
        else traceStatements rename children
      exitScope
      return (opening ++ content ++ [⟨closeStatement kind, loc⟩], seen ++ inside)
    else
      let opening ← planOpening rename kind e none
      let seen ← note (opening.flatMap fun s => s.value.mentions)
      let (content, inside) ← traceStatements rename children
      return (opening ++ content ++ [⟨closeStatement kind, loc⟩], seen ++ inside)
  | .text node => return ([⟨.append (planText node), node.loc⟩], [])
  | .comment node => return ([⟨.comment node.value, node.loc⟩], [])
  | .mustacheComment _ => return ([], [])

def traceStatements (rename : String → String) :
    List Template.Statement → Planning (List (Located Statement) × List Sighting)
  | [] => return ([], [])
  | s :: rest => do
    let (first, seen) ← traceStatement rename s
    let (others, later) ← traceStatements rename rest
    return (first ++ others, seen ++ later)

def traceBlock (rename : String → String) (name : String) :
    Block Template.Statement → Planning (NamedBlock (Located Statement) × List Sighting)
  | ⟨body, params, loc⟩ => do
    let inner ← newScope params
    enterScope inner
    let (body, seen) ← traceStatements rename body
    exitScope
    return (⟨name, inner, body, loc⟩, seen)

def traceInverse (rename : String → String) : Option (Block Template.Statement) →
    Planning (Option (NamedBlock (Located Statement)) × List Sighting)
  | none => return (none, [])
  | some block => do
    let (block, seen) ← traceBlock rename "else" block
    return (some block, seen)

def traceNamedBlocks (rename : String → String) (component : String) :
    List Template.Statement → Planning (List (Located Statement) × List Sighting)
  | [] => return ([], [])
  | s :: rest => do
    let (first, seen) ← traceNamedBlock rename component s
    let (others, later) ← traceNamedBlocks rename component rest
    return (first ++ others, seen ++ later)

def traceNamedBlock (rename : String → String) (component : String) :
    Template.Statement → Planning (List (Located Statement) × List Sighting)
  | .element ⟨tag, attributes, modifiers, children, blockParams, _, loc⟩ => do
    if Template.startsWith tag ':' then
      require (attributes.isEmpty && modifiers.isEmpty) (.namedBlockAttributes tag loc)
      let inner ← newScope blockParams
      enterScope inner
      let (content, seen) ← traceStatements rename children
      exitScope
      let name := String.ofList (tag.toList.drop 1)
      return (⟨.openNamedBlock name inner, loc⟩ :: content ++ [⟨.closeNamedBlock, loc⟩], seen)
    else
      throw (.rejected (.contentBesideNamedBlocks component loc))
  | other => do
    require (isNothing other) (.contentBesideNamedBlocks component other.loc)
    return ([], [])

end

def traceTemplate (rename : String → String) (t : Template) :
    Except Failure (Plan × List Sighting) := do
  let ((body, seen), progress) ←
    (traceStatements rename t.body).run ⟨.empty, .singleton SymbolTable.rootScope, 0⟩
  if progress.scopes.size = 1 then pure (⟨body, progress.table⟩, seen)
  else throw (.defective .unbalancedPlan)

/-! ### Leaving the record out -/

theorem note_bind {α : Type} (list : List Mention) (x : Planning α) :
    (note list >>= fun _ => x) = x := rfl

theorem note_map {α : Type} (list : List Mention) (a : α) :
    (fun _ => a) <$> note list = pure a := rfl

mutual

/-- Planning a statement is tracing it and dropping the record. -/
theorem planStatement_eq_trace (rename : String → String) : (s : Template.Statement) →
    planStatement rename s = Prod.fst <$> traceStatement rename s
  | .mustache m => by
    simp only [planStatement, traceStatement, map_bind]
    congr 1
    funext s
    split <;> simp [note_bind, note_map]
  | .block ⟨path, params, hash, program, inverse, loc⟩ => by
    rw [planStatement, traceStatement]
    split
    · simp [note_bind, planBlock_eq_trace rename "default" program]
    · simp [note_map, planBlock_eq_trace rename "default" program,
        planInverse_eq_trace rename inverse]
  | .element ⟨tag, attributes, modifiers, children, blockParams, selfClosing, loc⟩ => by
    simp only [planStatement, traceStatement, map_bind]
    congr 1
    funext isLocal
    congr 1
    funext _
    split
    · split
      · simp [note_bind, planNamedBlocks_eq_trace rename tag children]
      · simp [note_bind, planStatements_eq_trace rename children]
    · simp [note_bind, planStatements_eq_trace rename children]
  | .text node => by simp [planStatement, traceStatement]
  | .comment node => by simp [planStatement, traceStatement]
  | .mustacheComment node => by simp [planStatement, traceStatement]

theorem planStatements_eq_trace (rename : String → String) : (list : List Template.Statement) →
    planStatements rename list = Prod.fst <$> traceStatements rename list
  | [] => by simp [planStatements, traceStatements]
  | s :: rest => by
    simp [planStatements, traceStatements, planStatement_eq_trace rename s,
      planStatements_eq_trace rename rest]

theorem planBlock_eq_trace (rename : String → String) (name : String) :
    (block : Block Template.Statement) →
      planBlock rename name block = Prod.fst <$> traceBlock rename name block
  | ⟨body, params, loc⟩ => by
    simp [planBlock, traceBlock, planStatements_eq_trace rename body]

theorem planInverse_eq_trace (rename : String → String) :
    (inverse : Option (Block Template.Statement)) →
      planInverse rename inverse = Prod.fst <$> traceInverse rename inverse
  | none => by simp [planInverse, traceInverse]
  | some block => by simp [planInverse, traceInverse, planBlock_eq_trace rename "else" block]

theorem planNamedBlocks_eq_trace (rename : String → String) (component : String) :
    (list : List Template.Statement) →
      planNamedBlocks rename component list = Prod.fst <$> traceNamedBlocks rename component list
  | [] => by simp [planNamedBlocks, traceNamedBlocks]
  | s :: rest => by
    simp [planNamedBlocks, traceNamedBlocks, planNamedBlock_eq_trace rename component s,
      planNamedBlocks_eq_trace rename component rest]

theorem planNamedBlock_eq_trace (rename : String → String) (component : String) :
    (s : Template.Statement) →
      planNamedBlock rename component s = Prod.fst <$> traceNamedBlock rename component s
  | .element ⟨tag, attributes, modifiers, children, blockParams, _, loc⟩ => by
    rw [planNamedBlock, traceNamedBlock]
    split
    · simp [planStatements_eq_trace rename children]
    · rfl
  | .mustache m => by simp [planNamedBlock, traceNamedBlock]
  | .block node => by simp [planNamedBlock, traceNamedBlock]
  | .text node => by simp [planNamedBlock, traceNamedBlock]
  | .comment node => by simp [planNamedBlock, traceNamedBlock]
  | .mustacheComment node => by simp [planNamedBlock, traceNamedBlock]

end

/-- Planning a template is tracing it and dropping the record. -/
theorem ofTemplate_eq_trace (rename : String → String) (t : Template) :
    ofTemplate rename t = Prod.fst <$> traceTemplate rename t := by
  rw [ofTemplate, traceTemplate, planStatements_eq_trace, StateT.run_map, map_bind, bind_map_left]
  congr 1
  funext ⟨⟨body, seen⟩, progress⟩
  dsimp only
  split <;> rfl

end TemplateCompiler.Plan

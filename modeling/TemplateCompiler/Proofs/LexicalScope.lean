import TemplateCompiler.Proofs.Compilation

/-!
# Lexical scope

Every bare name of a template means the block param of the innermost block around it that binds the
name, and the first one of that name there. A name that no block around it binds is a free variable.
Planning and finding names go through a template in different orders, each with a stack of scopes of
its own; for every name, both have the same scope on top.

Which blocks stand around a name is said by `Template.references`, from the source alone.
-/

namespace TemplateCompiler

open Template (Block)

namespace Outline

variable (rename : String → String) {scopes : List Scope}

mutual

/-- The blocks around every place of an outline are bound in a table where the outline is laid
out. -/
theorem encloses_of_places (enclosing : List Binder) (encloses : Binder.Encloses scopes enclosing) :
    (o : Outline) → o.Laid scopes (Binder.current enclosing) →
      ∀ p ∈ o.places rename enclosing, Binder.Encloses scopes p.enclosing
  | .mustache m, _ => by
    simpa [places] using encloses
  | .text _, _ => nofun
  | .comment _, _ => nofun
  | .hidden, _ => nofun
  | .misplaced _ _, _ => nofun
  | .invocation ⟨path, params, hash, program, inverse, loc⟩ inner other, laid => by
    rw [places, List.forall_mem_append, List.forall_mem_append, List.forall_mem_singleton]
    exact ⟨⟨encloses_of_placesOfInverse enclosing encloses other inverse laid.2,
      encloses_of_placesOfBlock enclosing encloses inner program laid.1⟩, encloses⟩
  | .inElement ⟨path, params, hash, program, inverse, loc⟩ inner cursor, laid => by
    rw [places, List.forall_mem_append, List.forall_mem_singleton]
    exact ⟨encloses_of_placesOfBlock enclosing encloses inner program laid, encloses⟩
  | .element kind ⟨tag, attributes, modifiers, children, names, selfClosing, loc⟩, laid => by
    rw [places, List.forall_mem_cons]
    exact ⟨encloses, encloses_of_placesOfAll enclosing encloses children laid.2⟩
  | .component kind inner ⟨tag, attributes, modifiers, children, names, selfClosing, loc⟩,
      laid => by
    rw [places, List.forall_mem_cons]
    refine ⟨encloses, ?_⟩
    obtain ⟨_, bound, content⟩ := laid
    split at content
    · exact encloses_of_placesOfNamed (⟨inner, names, _⟩ :: enclosing) ⟨bound, encloses⟩ children
        content
    · exact encloses_of_placesOfAll (⟨inner, names, _⟩ :: enclosing) ⟨bound, encloses⟩ children
        content
  | .namedBlock _ _, laid => laid.elim

theorem encloses_of_placesOfAll (enclosing : List Binder)
    (encloses : Binder.Encloses scopes enclosing) : (list : List Outline) →
      LaidAll scopes (Binder.current enclosing) list →
      ∀ p ∈ placesOfAll rename enclosing list, Binder.Encloses scopes p.enclosing
  | [], _ => nofun
  | s :: rest, laid => by
    rw [placesOfAll, List.forall_mem_append]
    exact ⟨encloses_of_places enclosing encloses s laid.1,
      encloses_of_placesOfAll enclosing encloses rest laid.2⟩

theorem encloses_of_placesOfBlock (enclosing : List Binder)
    (encloses : Binder.Encloses scopes enclosing) (inner : Nat) : (block : Block Outline) →
      LaidBlock scopes (Binder.current enclosing) inner block →
      ∀ p ∈ placesOfBlock rename enclosing inner block, Binder.Encloses scopes p.enclosing
  | ⟨body, names, _⟩, laid =>
    encloses_of_placesOfAll (⟨inner, names, true⟩ :: enclosing) ⟨laid.1, encloses⟩ body laid.2

theorem encloses_of_placesOfInverse (enclosing : List Binder)
    (encloses : Binder.Encloses scopes enclosing) (inner : Nat) :
    (inverse : Option (Block Outline)) →
      LaidInverse scopes (Binder.current enclosing) inner inverse →
      ∀ p ∈ placesOfInverse rename enclosing inner inverse, Binder.Encloses scopes p.enclosing
  | none, _ => nofun
  | some block, laid => encloses_of_placesOfBlock enclosing encloses inner block laid

theorem encloses_of_placesOfNamed (enclosing : List Binder)
    (encloses : Binder.Encloses scopes enclosing) : (list : List Outline) →
      LaidNamed scopes (Binder.current enclosing) list →
      ∀ p ∈ placesOfAll rename enclosing list, Binder.Encloses scopes p.enclosing
  | [], _ => nofun
  | s :: rest, laid => by
    rw [placesOfAll, List.forall_mem_append]
    exact ⟨encloses_of_placesAmongNamed enclosing encloses s laid.1,
      encloses_of_placesOfNamed enclosing encloses rest laid.2⟩

theorem encloses_of_placesAmongNamed (enclosing : List Binder)
    (encloses : Binder.Encloses scopes enclosing) : (o : Outline) →
      o.LaidAmongNamed scopes (Binder.current enclosing) →
      ∀ p ∈ o.places rename enclosing, Binder.Encloses scopes p.enclosing
  | .namedBlock inner ⟨_, _, _, children, names, _, _⟩, laid =>
    encloses_of_placesOfAll (⟨inner, names, true⟩ :: enclosing) ⟨laid.1, encloses⟩ children laid.2
  | .hidden, _ => nofun
  | .misplaced _ _, _ => nofun
  | .mustache _, laid => laid.elim
  | .text _, laid => laid.elim
  | .comment _, laid => laid.elim
  | .invocation _ _ _, laid => laid.elim
  | .inElement _ _ _, laid => laid.elim
  | .element _ _, laid => laid.elim
  | .component _ _ _, laid => laid.elim

end

end Outline

/-- What a bare name means in a table, and the operation that reads it. Where a block around the
name binds it, that is the slot of its first occurrence in the innermost such block; otherwise it is
a free variable. -/
def Reference.Means (mode : Program.Mode) (table : SymbolTable) (r : Reference) (op : Program.Op) :
    Prop :=
  match Binder.innermost r.enclosing r.mention.name with
  | some b => table.locals b.scope = b.names ∧
      ∃ slot, (table.slots b.scope)[b.names.idxOf r.mention.name]? = some slot ∧
        table.get? (Binder.current r.enclosing) r.mention.name = some slot ∧ op = .getSymbol slot
  | none => table.get? (Binder.current r.enclosing) r.mention.name = none ∧
      ∃ index, table.upvars[index]? = some r.mention.name ∧
        op = Program.freeOp mode index r.mention.context

/-- The operation for a name means what the name refers to. -/
theorem Reference.means_readOp {mode : Program.Mode} {table : SymbolTable} {r : Reference}
    (encloses : Binder.Encloses table.scopes r.enclosing)
    (known : table.get? (Binder.current r.enclosing) r.mention.name = none →
      r.mention.name ∈ table.upvars) :
    r.Means mode table (Program.readOp mode table r.sighting) := by
  have looked := Binder.get?_of_encloses encloses r.mention.name
  rw [Means, Program.readOp, sighting]
  cases inner : Binder.innermost r.enclosing r.mention.name with
  | some b =>
    obtain ⟨slot, at_⟩ := encloses.slot inner
    obtain ⟨parent, bound⟩ := encloses.bound_of_mem (Binder.mem_of_innermost inner).1
    rw [inner, Option.bind_some, at_] at looked
    rw [looked]
    exact ⟨bound.locals_eq, slot, at_, rfl, rfl⟩
  | none =>
    rw [inner, Option.bind_none] at looked
    rw [looked]
    refine ⟨rfl, table.upvars.idxOf r.mention.name, ?_, rfl⟩
    exact List.getElem?_idxOf (known looked)

/-- The references of a template are sighted where its names are read. -/
theorem Template.sighting_references (rename : String → String) (t : Template) :
    (t.references rename).map Reference.sighting = (t.places rename).flatMap Place.sightings := by
  rw [references, List.map_flatMap]
  simp only [Place.sighting_references]

/-- Both stages come upon every bare name in the scope of the innermost block around it, and the
name means what that block and those around it say. -/
theorem references_resolved_lexically (o : Options) (t : Template) (plan : Plan)
    (planned : t.plan o = .ok plan) :
    Plan.traceTemplate o.rename t =
        .ok (plan, (t.references o.rename).map Reference.sighting) ∧
      ∃ stream program, Program.tracePlan o.mode plan = .ok (stream, program.table) ∧
        t.program o = .ok program ∧ program.ops = Program.erase stream ∧
        List.Forall₂ (fun r lookup => lookup.1 = r.sighting ∧ r.Means o.mode program.table lookup.2)
          (t.references o.rename) (Program.lookups stream) := by
  obtain ⟨stream, table, compiles⟩ := compiles_of_plan planned
  have recorded := compiles.recorded
  have reads := compiles.reads
  rw [← Template.sighting_references] at recorded reads
  refine ⟨recorded, stream, _, compiles.streamed, compiles.program_eq, rfl, ?_⟩
  rw [reads.ops, List.map_map, List.forall₂_map_right_iff, List.forall₂_same]
  intro r found
  refine ⟨rfl, Reference.means_readOp ?_ (reads.known _ (List.mem_map_of_mem found))⟩
  obtain ⟨p, place, inside⟩ := List.mem_flatMap.mp found
  obtain ⟨m, _, rfl⟩ := List.mem_map.mp inside
  have sameScopes := compiles.grows.scopes
  rw [sameScopes]
  exact Outline.encloses_of_placesOfAll o.rename [] compiles.root (Outline.ofTemplate t)
    compiles.laid p place

/-- A loop with the name `x` all over: twice among the block params, in the collection, in the tag,
in an argument and among the block params of a component inside, and in the `else` block. -/
def shadowing : Template :=
  .of [.invokeBlock "each" [.named "x"] [] (.of ["x", "x"]
    [.element ⟨"x.y", [⟨"@a", .mustache (.escaping (.named "x") [] []), .synthetic⟩], [],
      [.append "x", .append "z"], ["x"], false, .synthetic⟩])
    (some (.of [] [.append "x"]))]

theorem references_resolved_lexically_shadowing :
    ∃ plan, shadowing.plan .default = .ok plan ∧
      Plan.traceTemplate Options.default.rename shadowing =
          .ok (plan, (shadowing.references Options.default.rename).map Reference.sighting) ∧
        ∃ stream program,
          Program.tracePlan Options.default.mode plan = .ok (stream, program.table) ∧
          shadowing.program .default = .ok program ∧ program.ops = Program.erase stream ∧
          List.Forall₂
            (fun r lookup =>
              lookup.1 = r.sighting ∧ r.Means Options.default.mode program.table lookup.2)
            (shadowing.references Options.default.rename) (Program.lookups stream) := by
  have accepted : (shadowing.plan .default).isOk = true := by decide +kernel
  cases planned : shadowing.plan .default with
  | error failure =>
    rw [planned] at accepted
    cases accepted
  | ok plan => exact ⟨plan, rfl, references_resolved_lexically .default shadowing plan planned⟩

end TemplateCompiler

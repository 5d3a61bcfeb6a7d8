import TemplateCompiler.Proofs.Planning
import TemplateCompiler.Proofs.Translation
import TemplateCompiler.Template.Builder

/-!
# Compiling

The stages together. A template is either rejected when it is planned, or all stages give a result;
no stage comes upon a defect. The result is the direct translation of the template, read with the
table that the names were found in.

Slots and indices are natural numbers here, so nothing is said about templates with more names than
a machine word can count. The function that renames components is total.
-/

namespace TemplateCompiler

/-- What the stages give for a template that is not rejected, with their records of bare names. -/
structure Compiles (o : Options) (t : Template) (plan : Plan) (stream : List Program.Traced)
    (table : SymbolTable) : Prop where
  recorded : Plan.traceTemplate o.rename t =
    .ok (plan, (t.places o.rename).flatMap Place.sightings)
  outlined : Outline.planAll o.rename (Outline.ofTemplate t) = .ok plan.body
  scopes : SymbolTable.empty.Extends plan.table
  root : Binder.Encloses plan.table.scopes []
  laid : Outline.LaidAll plan.table.scopes SymbolTable.rootScope (Outline.ofTemplate t)
  streamed : Program.tracePlan o.mode plan = .ok (stream, table)
  grows : plan.table.Grows table
  reads : Program.Reads o.mode table ((t.places o.rename).flatMap Place.sightings) stream
  assembled : Assembly.assemble ⟨Program.erase stream, table⟩ = .ok ⟨table.symbols, table.upvars,
    table.hasEval,
    Direct.statements o.mode o.rename table SymbolTable.rootScope (Outline.ofTemplate t)⟩

namespace Compiles

variable {o : Options} {t : Template} {plan : Plan} {stream : List Program.Traced}
  {table : SymbolTable}

theorem planned (compiles : Compiles o t plan stream table) : t.plan o = .ok plan := by
  rw [Template.plan, Plan.ofTemplate_eq_trace, compiles.recorded]
  rfl

theorem resolved (compiles : Compiles o t plan stream table) :
    Program.ofPlan o.mode plan = .ok ⟨Program.erase stream, table⟩ := by
  rw [Program.ofPlan_eq_trace, compiles.streamed]
  rfl

theorem program_eq (compiles : Compiles o t plan stream table) :
    t.program o = .ok ⟨Program.erase stream, table⟩ := by
  rw [Template.program, compiles.planned]
  show (Program.ofPlan o.mode plan).mapError _ = _
  rw [compiles.resolved]
  rfl

/-- The compiled form of a template is its direct translation. -/
theorem compile_eq (compiles : Compiles o t plan stream table) :
    t.compile o = .ok ⟨table.symbols, table.upvars, table.hasEval,
      Direct.statements o.mode o.rename table SymbolTable.rootScope (Outline.ofTemplate t)⟩ := by
  rw [Template.compile, compiles.program_eq]
  show (Assembly.assemble _).mapError _ = _
  rw [compiles.assembled]
  rfl

end Compiles

/-- Every template is rejected when it is planned, or goes through all stages. -/
theorem compiles_or_rejected (o : Options) (t : Template) :
    (∃ r, t.plan o = .error (.rejected r)) ∨
      ∃ plan stream table, Compiles o t plan stream table := by
  have agrees := Plan.traceTemplate_agrees o.rename t
  cases outlined : Outline.planAll o.rename (Outline.ofTemplate t) with
  | error r =>
    rw [outlined] at agrees
    refine .inl ⟨r, ?_⟩
    rw [Template.plan, Plan.ofTemplate_eq_trace, agrees]
    rfl
  | ok body =>
    rw [outlined] at agrees
    obtain ⟨planned, recorded, scopes, laid⟩ := agrees
    have root : Binder.Encloses planned.scopes [] := by
      obtain ⟨later, extends_⟩ := scopes.scopes
      rw [← extends_]
      rfl
    obtain ⟨stream, table, streamed, grows, reads, assembled⟩ :=
      Program.assemble_of_laid o.mode o.rename ⟨body, planned⟩ root laid outlined
    exact .inr ⟨⟨body, planned⟩, stream, table, recorded, outlined, scopes, root, laid, streamed,
      grows, reads, assembled⟩

/-- A template that can be planned can be compiled. -/
theorem compiles_of_plan {o : Options} {t : Template} {plan : Plan}
    (planned : t.plan o = .ok plan) : ∃ stream table, Compiles o t plan stream table := by
  rcases compiles_or_rejected o t with ⟨r, rejected⟩ | ⟨plan', stream, table, compiles⟩
  · rw [planned] at rejected
    cases rejected
  · have same := compiles.planned
    rw [planned] at same
    cases same
    exact ⟨stream, table, compiles⟩

/-- A compiled template went through all stages. -/
theorem compiles_of_compile {o : Options} {t : Template} {compiled : CompiledTemplate}
    (done : t.compile o = .ok compiled) : ∃ plan stream table, Compiles o t plan stream table := by
  rcases compiles_or_rejected o t with ⟨r, rejected⟩ | compiles
  · rw [Template.compile, Template.program, rejected] at done
    cases done
  · exact compiles

/-- Compiling never ends in a defect: planning rejects a template, or every stage succeeds. -/
theorem compile_rejects_or_succeeds (o : Options) (t : Template) :
    (∃ r, t.plan o = .error (.rejected r) ∧ t.compile o = .error (.rejected r)) ∨
      ∃ plan program compiled, t.plan o = .ok plan ∧ Program.ofPlan o.mode plan = .ok program ∧
        Assembly.assemble program = .ok compiled ∧ t.compile o = .ok compiled := by
  rcases compiles_or_rejected o t with ⟨r, rejected⟩ | ⟨plan, stream, table, compiles⟩
  · refine .inl ⟨r, rejected, ?_⟩
    rw [Template.compile, Template.program, rejected]
    rfl
  · exact .inr ⟨plan, _, _, compiles.planned, compiles.resolved, compiles.assembled,
      compiles.compile_eq⟩

/-- The operations, the operands and the containers amount to the direct translation. -/
theorem compile_eq_direct (o : Options) (t : Template) (plan : Plan)
    (planned : t.plan o = .ok plan) :
    ∃ program, t.program o = .ok program ∧ plan.table.Grows program.table ∧
      t.compile o = .ok ⟨program.table.symbols, program.table.upvars, program.table.hasEval,
        Direct.statements o.mode o.rename program.table SymbolTable.rootScope
          (Outline.ofTemplate t)⟩ := by
  obtain ⟨stream, table, compiles⟩ := compiles_of_plan planned
  exact ⟨_, compiles.program_eq, compiles.grows, compiles.compile_eq⟩

def Template.Statement.wrap (tag : String) (names : List String)
    (children : List Template.Statement) : Template.Statement :=
  .element ⟨tag, [], [], children, names, false, .synthetic⟩

def yieldInverse : Template.Mustache :=
  .escaping (.named "yield") [.named "@items"] [.of "to" (.constant (.string "inverse"))]

/-- A loop whose `else` block holds a conditional with an `else` block of its own, and in that a
component with an argument and a `yield`. -/
def nestedElse : Template :=
  .of [.invokeBlock "each" [.named "@items"] [.of "key" (.named "id"), .of "by" (.named "@by")]
    (.of ["x"] [.append "x"])
    (some (.of [] [.invokeBlock "if" [.named "@none"] []
      (.of [] [.append "x"])
      (some (.of [] [.element ((Template.Element.of "Empty").addAttribute "@when"
          (.mustache (.escaping (.named "now") [.named "@zone"] [])) .synthetic),
        .mustache yieldInverse]))]))]

/-- The `yield` to the inverse block goes to the slot that is filed as `else`. -/
theorem compile_eq_direct_nestedElse :
    ∃ plan, nestedElse.plan .default = .ok plan ∧
      ∃ program, nestedElse.program .default = .ok program ∧ plan.table.Grows program.table ∧
        program.table.symbols = ["x", "@zone", "@items", "&else", "@none", "@by"] ∧
        (∀ scope, Direct.mustache Options.default.mode program.table scope yieldInverse =
          .yield 4 [.getSymbol 3]) ∧
        nestedElse.compile .default = .ok ⟨program.table.symbols, program.table.upvars,
          program.table.hasEval, Direct.statements Options.default.mode Options.default.rename
            program.table SymbolTable.rootScope (Outline.ofTemplate nestedElse)⟩ := by
  have tables : (nestedElse.program .default).toOption.map (fun program =>
      (program.table.symbols, Direct.blockSlot program.table "inverse",
        Direct.argSlot program.table "items")) =
      some (["x", "@zone", "@items", "&else", "@none", "@by"], 4, 3) := by decide +kernel
  have accepted : (nestedElse.plan .default).isOk = true := by decide +kernel
  cases planned : nestedElse.plan .default with
  | error failure =>
    rw [planned] at accepted
    cases accepted
  | ok plan =>
    obtain ⟨program, resolved, grows, compiled⟩ :=
      compile_eq_direct .default nestedElse plan planned
    rw [resolved] at tables
    obtain ⟨symbols, slots⟩ := Prod.mk.inj (Option.some.inj tables)
    obtain ⟨inverse, items⟩ := Prod.mk.inj slots
    refine ⟨plan, rfl, program, resolved, grows, symbols, fun scope => ?_, compiled⟩
    rw [← inverse, ← items]
    rfl

end TemplateCompiler

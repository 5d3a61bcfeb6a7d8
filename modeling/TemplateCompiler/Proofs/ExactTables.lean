import TemplateCompiler.Proofs.BlockParams
import TemplateCompiler.Proofs.NameRequests

/-!
# Exact tables

The symbols of a compiled template are its block params, in the order of the source, and after them
the arguments and blocks that it was given, each once. Its free variables are listed once each. What
is listed after the block params is referred to somewhere, and nothing is referred to that is not
listed.
-/

namespace TemplateCompiler

namespace SymbolTable

/-! ### What is filed after the block params -/

/-- How something given is written among the symbols. -/
def Given.symbol : Given → String
  | .arg name => "@" ++ name
  | .block name => "&" ++ name

/-- The sigils keep arguments and blocks apart. -/
theorem Given.symbol_injective : Function.Injective Given.symbol := by
  intro g g' same
  have chars := congrArg String.toList same
  cases g with
  | arg name =>
    cases g' with
    | arg name' => simpa [symbol, String.toList_inj] using chars
    | block name' => simp [symbol] at chars
  | block name =>
    cases g' with
    | arg name' => simp [symbol] at chars
    | block name' => simpa [symbol, String.toList_inj] using chars

/-- What a request is for, under the name that it is filed under. -/
def Request.given? : Request → Option Given
  | .arg name => some (.arg name)
  | .block name => some (.block (blockName name))
  | .slot _ | .free _ | .scope _ _ | .eval => none

/-- No block is filed as `inverse`. -/
theorem blockName_ne_inverse (name : String) : blockName name ≠ "inverse" := by
  unfold blockName
  split
  · decide
  · next other => exact other

/-- A request files one thing more, in the next slot, or nothing at all. -/
theorem serve_given {r : Request} (isName : r.IsName) (t : SymbolTable) :
    ((serve r t).2.symbols = t.symbols ∧
      ∀ given : Given, given.slot? (serve r t).2 = given.slot? t) ∨
    ∃ new : Given, r.given? = some new ∧ new.slot? t = none ∧
      (serve r t).2.symbols = t.symbols ++ [new.symbol] ∧
      ∀ (given : Given) (slot : Nat), given.slot? (serve r t).2 = some slot ↔
        given.slot? t = some slot ∨ (given = new ∧ slot = t.symbols.length + 1) := by
  cases r with
  | free name =>
    left
    rw [serve, allocateFree]
    split
    · exact ⟨rfl, fun _ => rfl⟩
    · exact ⟨rfl, by rintro (_ | _) <;> rfl⟩
  | arg name =>
    rw [serve]
    rcases allocateNamed_cases name t with ⟨_, _, same⟩ | ⟨missing, same⟩
    · exact .inl (by simp [same])
    · refine .inr ⟨.arg name, rfl, missing, by rw [same]; rfl, ?_⟩
      rintro (other | other) slot
      · rw [same, Given.slot?, lookup_snoc missing, Given.arg.injEq]
        rfl
      · simp [same, Given.slot?]
  | block name =>
    rw [serve]
    rcases allocateBlock_cases name t with ⟨_, _, same⟩ | ⟨missing, same⟩
    · exact .inl (by simp [same])
    · refine .inr ⟨.block (blockName name), rfl, missing, by rw [same]; rfl, ?_⟩
      rintro (other | other) slot
      · simp [same, Given.slot?]
      · rw [same, Given.slot?, lookup_snoc missing, Given.block.injEq]
        rfl
  | slot | scope | eval => cases isName

/-- What a table holds more than a table without names, after some requests for names. -/
structure Files (base t : SymbolTable) (requests : List Request) (givens : List Given) : Prop where
  symbols : t.symbols = base.symbols ++ givens.map Given.symbol
  slot : ∀ (given : Given) (slot : Nat), given.slot? t = some slot ↔
    ∃ i, givens[i]? = some given ∧ slot = base.symbols.length + i + 1
  asked : ∀ given ∈ givens, ∃ r ∈ requests, r.given? = some given
  distinct : t.upvars.Nodup
  frees : ∀ name ∈ t.upvars, .free name ∈ requests

namespace Files

variable {base t : SymbolTable} {requests : List Request} {givens : List Given}

/-- At first nothing is filed. -/
theorem start (noArgs : base.named = []) (noBlocks : base.blocks = [])
    (noFrees : base.upvars = []) : Files base base [] [] where
  symbols := by simp
  slot := by
    rintro (name | name) slot
    · simp [Given.slot?, noArgs]
    · simp [Given.slot?, noBlocks]
  asked := by simp
  distinct := noFrees ▸ List.nodup_nil
  frees := by simp [noFrees]

/-- Each request for a name is filed once, or was filed before. -/
theorem step (files : Files base t requests givens) {r : Request} (isName : r.IsName) :
    ∃ givens', Files base (serve r t).2 (requests ++ [r]) givens' := by
  have distinct : (serve r t).2.upvars.Nodup := by
    rcases serve_upvars r t with same | ⟨name, _, missing, same⟩
    · exact same ▸ files.distinct
    · rw [same, ← List.concat_eq_append]
      exact files.distinct.concat missing
  have frees : ∀ name ∈ (serve r t).2.upvars, .free name ∈ requests ++ [r] := by
    intro name listed
    rcases serve_upvars r t with same | ⟨new, rfl, _, same⟩
    · exact List.mem_append_left _ (files.frees name (same ▸ listed))
    · rw [same] at listed
      rcases List.mem_append.mp listed with old | last
      · exact List.mem_append_left _ (files.frees name old)
      · rw [List.mem_singleton.mp last]
        exact List.mem_append_right _ List.mem_cons_self
  have askedBefore : ∀ given ∈ givens, ∃ q ∈ requests ++ [r], q.given? = some given := by
    intro given filed
    obtain ⟨q, earlier, about⟩ := files.asked given filed
    exact ⟨q, List.mem_append_left _ earlier, about⟩
  rcases serve_given isName t with ⟨symbols, slots⟩ | ⟨new, about, _, symbols, slots⟩
  · refine ⟨givens, symbols.trans files.symbols, ?_, askedBefore, distinct, frees⟩
    intro given slot
    rw [slots, files.slot]
  · have counted : t.symbols.length = base.symbols.length + givens.length := by
      simp [files.symbols]
    refine ⟨givens ++ [new], ?_, ?_, ?_, distinct, frees⟩
    · rw [symbols, files.symbols, List.map_append, List.map_singleton, List.append_assoc]
    · intro given slot
      rw [slots, files.slot, counted]
      constructor
      · rintro (⟨i, filed, rfl⟩ | ⟨rfl, rfl⟩)
        · have inside := (List.getElem?_eq_some_iff.mp filed).1
          exact ⟨i, by rw [List.getElem?_append_left inside, filed], rfl⟩
        · exact ⟨givens.length, by simp, rfl⟩
      · rintro ⟨i, filed, rfl⟩
        rcases Nat.lt_trichotomy i givens.length with old | rfl | beyond
        · rw [List.getElem?_append_left old] at filed
          exact .inl ⟨i, filed, rfl⟩
        · rw [List.getElem?_concat_length] at filed
          exact .inr ⟨(Option.some.inj filed).symm, rfl⟩
        · rw [List.getElem?_eq_none (by simp; omega)] at filed
          cases filed
    · rw [List.forall_mem_append, List.forall_mem_singleton]
      exact ⟨askedBefore, r, by simp, about⟩

/-- Requests for names file what they are for, in the order of the first requests. -/
theorem serveAll (files : Files base t requests givens) {later : List Request}
    (names : ∀ r ∈ later, r.IsName) :
    ∃ givens', Files base (t.serveAll later) (requests ++ later) givens' := by
  induction later generalizing t requests givens with
  | nil => exact ⟨givens, by rwa [List.append_nil]⟩
  | cons r rest ih =>
    obtain ⟨first, others⟩ := List.forall_mem_cons.mp names
    obtain ⟨between, stepped⟩ := files.step first
    rw [List.append_cons]
    exact ih stepped others

/-- Nothing is filed twice, as it has only one slot. -/
theorem nodup (files : Files base t requests givens) : givens.Nodup := by
  rw [List.nodup_iff_getElem?_ne_getElem?]
  intro i j less inside same
  have filed := List.getElem?_eq_getElem inside
  have first := (files.slot _ _).mpr ⟨i, same.trans filed, rfl⟩
  have second := (files.slot _ _).mpr ⟨j, filed, rfl⟩
  have slots := Option.some.inj (first.symm.trans second)
  omega

end Files

theorem Extends.upvars_eq_nil {t : SymbolTable} (extends_ : empty.Extends t) : t.upvars = [] := by
  induction extends_ with
  | refl => rfl
  | child _ parent names ih =>
    rw [child_eq]
    exact ih
  | eval _ ih => exact ih

/-- A request is answered with the slot of the thing that it asks for. -/
theorem Request.ref_of_given? {final : SymbolTable} {r : Request} {given : Given} {slot : Nat}
    (about : r.given? = some given) (found : given.slot? final = some slot) :
    r.ref final = .slot slot := by
  cases r with
  | arg name =>
    cases about
    exact congrArg (fun slot? => Wire.Ref.slot (slot?.getD 0)) found
  | block name =>
    cases about
    exact congrArg (fun slot? => Wire.Ref.slot (slot?.getD 0)) found
  | slot | free | scope | eval => cases about

namespace Files

variable {base t : SymbolTable} {requests : List Request} {givens : List Given}

/-- After the block params come arguments and blocks, with their sigils. -/
theorem tail_given (files : Files base t requests givens) :
    ∀ symbol ∈ givens.map Given.symbol,
      (∃ name, symbol = "@" ++ name) ∨ ∃ name, symbol = "&" ++ name ∧ name ≠ "inverse" := by
  rw [List.forall_mem_map]
  intro given filed
  obtain ⟨r, _, about⟩ := files.asked given filed
  cases r with
  | arg name =>
    cases about
    exact .inl ⟨name, rfl⟩
  | block name =>
    cases about
    exact .inr ⟨blockName name, rfl, blockName_ne_inverse name⟩
  | slot | free | scope | eval => cases about

theorem slot_le (files : Files base t requests givens) {given : Given} {slot : Nat}
    (found : given.slot? t = some slot) : slot ≤ t.symbols.length := by
  obtain ⟨i, filed, rfl⟩ := (files.slot given slot).mp found
  have inside := (List.getElem?_eq_some_iff.mp filed).1
  rw [files.symbols, List.length_append, List.length_map]
  omega

variable {refs : List Wire.Ref}

/-- Every argument and block that has a slot is referred to. -/
theorem slot_used (files : Files base t requests givens) (settles : t.Settles requests refs)
    {i : Nat} (inside : i < givens.length) : .slot (base.symbols.length + i + 1) ∈ refs := by
  have found := (files.slot _ _).mpr ⟨i, List.getElem?_eq_getElem inside, rfl⟩
  obtain ⟨r, asked, about⟩ := files.asked _ (List.getElem_mem inside)
  rw [← Request.ref_of_given? about found]
  exact settles.shown r asked

/-- Every free variable that is listed is referred to. -/
theorem free_used (files : Files base t requests givens) (settles : t.Settles requests refs)
    {index : Nat} (inside : index < t.upvars.length) : .free index ∈ refs := by
  have asked := files.frees _ (List.getElem_mem inside)
  have shown := settles.shown _ asked
  rwa [Request.ref, files.distinct.idxOf_getElem] at shown

/-- An operand that stands for a block has the slot of a block. -/
theorem block_slot (files : Files base t requests givens) (settles : t.Settles requests refs)
    {operand : Wire.Expression} (inside : .block operand ∈ refs) :
    ∃ i name, (givens.map Given.symbol)[i]? = some ("&" ++ name) ∧
      operand = .getSymbol (base.symbols.length + i + 1) := by
  obtain ⟨name, slot, rfl, found⟩ := settles.known _ inside
  obtain ⟨i, filed, rfl⟩ := (files.slot _ _).mp found
  exact ⟨i, name, by rw [List.getElem?_map, filed]; rfl, rfl⟩

end Files

end SymbolTable

/-! ### Compiled templates -/

/-- The tables of a compiled template hold some block params, and besides them what it refers to and
nothing else. -/
structure CompiledTemplate.Exact (c : CompiledTemplate) (params tail : List String) : Prop where
  symbols : c.symbols = params ++ tail
  tail_nodup : tail.Nodup
  /-- The tail lists arguments and blocks. An `else` block goes by that name only. -/
  tail_given : ∀ symbol ∈ tail,
    (∃ name, symbol = "@" ++ name) ∨ ∃ name, symbol = "&" ++ name ∧ name ≠ "inverse"
  upvars_nodup : c.upvars.Nodup
  slot_le : ∀ slot, .slot slot ∈ c.refs → slot ≤ c.symbols.length
  free_lt : ∀ index, .free index ∈ c.refs → index < c.upvars.length
  /-- What stands for a block is the slot of a block in the tail. -/
  block_slot : ∀ operand, .block operand ∈ c.refs → ∃ i name,
    tail[i]? = some ("&" ++ name) ∧ operand = .getSymbol (params.length + i + 1)
  tail_used : ∀ i < tail.length, .slot (params.length + i + 1) ∈ c.refs
  upvars_used : ∀ index < c.upvars.length, .free index ∈ c.refs
  parameters_nodup : c.parameters.Nodup
  parameters_le : ∀ slot ∈ c.parameters, 1 ≤ slot ∧ slot ≤ params.length

namespace Compiles

variable {o : Options} {t : Template} {plan : Plan} {stream : List Program.Traced}
  {table : SymbolTable}

/-- The names of a plan are asked for in its own table, for what the compiled template refers to. -/
theorem asks (compiles : Compiles o t plan stream table) :
    plan.table.Asks table fun final => Direct.refsAt o.mode o.rename final t.sites := by
  have streamed := compiles.streamed
  rw [Program.tracePlan] at streamed
  obtain ⟨⟨found, names⟩, ran, closed⟩ := ok_of_bind streamed
  dsimp only at closed
  split at closed
  · cases closed
    exact (Program.draws_outlines o.mode o.rename [] (Outline.ofTemplate t) (.inl compiles.laid)
      compiles.outlined rfl ran).asks
  · cases closed

/-- What a compiled template refers to is what its sites refer to. -/
theorem refs_eq (compiles : Compiles o t plan stream table) :
    CompiledTemplate.refs ⟨table.symbols, table.upvars, table.hasEval,
      Direct.statements o.mode o.rename table SymbolTable.rootScope (Outline.ofTemplate t)⟩ =
      Direct.refsAt o.mode o.rename table t.sites := by
  rw [CompiledTemplate.refs, compiles.parts_eq, List.flatMap_assoc]
  rfl

/-- After the block params, the table holds what names were asked for, and these are what the
compiled template refers to. -/
theorem files (compiles : Compiles o t plan stream table) :
    ∃ requests givens, SymbolTable.Files plan.table table requests givens ∧
      table.Settles requests (CompiledTemplate.refs ⟨table.symbols, table.upvars, table.hasEval,
        Direct.statements o.mode o.rename table SymbolTable.rootScope
          (Outline.ofTemplate t)⟩) := by
  obtain ⟨requests, names, reached, settles⟩ := compiles.asks
  obtain ⟨_, noArgs, noBlocks⟩ := compiles.scopes.numbered
  have start := SymbolTable.Files.start noArgs noBlocks compiles.scopes.upvars_eq_nil
  obtain ⟨givens, files⟩ := start.serveAll names
  rw [← reached, List.nil_append] at files
  rw [compiles.refs_eq]
  exact ⟨requests, givens, files, settles table (.refl table)⟩

end Compiles

/-- The tables of a compiled template list its block params in the order of the source, and after
them exactly what the template refers to. -/
theorem tables_exact_of_compile {o : Options} {t : Template} {compiled : CompiledTemplate}
    (done : t.compile o = .ok compiled) : ∃ tail, compiled.Exact t.allBlockParams tail := by
  obtain ⟨plan, stream, table, compiles⟩ := compiles_of_compile done
  have same := compiles.compile_eq
  rw [done] at same
  cases same
  obtain ⟨requests, givens, files, settles⟩ := compiles.files
  have params := Plan.symbols_of_plan compiles.planned
  obtain ⟨parameters_nodup, parameters_le⟩ := compiles.parameters
  refine ⟨givens.map SymbolTable.Given.symbol, ?_⟩
  rw [← params] at parameters_le ⊢
  constructor
  case symbols => exact files.symbols
  case tail_nodup => exact files.nodup.map SymbolTable.Given.symbol_injective
  case tail_given => exact files.tail_given
  case upvars_nodup => exact files.distinct
  case slot_le =>
    intro slot inside
    rcases settles.known _ inside with rfl | ⟨given, found⟩ | ⟨scope, bound⟩
    · exact Nat.zero_le _
    · exact files.slot_le found
    · rw [SymbolTable.slots_of_scopes compiles.grows.scopes] at bound
      have early := (compiles.scopes.mem_slots_range bound).2
      exact Nat.le_trans early compiles.grows.symbols.length_le
  case free_lt => exact fun index inside => settles.known _ inside
  case block_slot => exact fun operand inside => files.block_slot settles inside
  case tail_used =>
    intro i inside
    rw [List.length_map] at inside
    exact files.slot_used settles inside
  case upvars_used => exact fun index inside => files.free_used settles inside
  case parameters_nodup => exact parameters_nodup
  case parameters_le => exact parameters_le

/-- A section with block params on both sides of its `else`. It yields to the `else` block that it
is given, asks whether it is given another block, and hands attributes and an argument on. -/
def handover : Template :=
  .of [.invokeBlock "let" [.named "@title", .named "fallback"] []
    (.of ["x", "y"] [
      .mustache (.escaping (.named "yield") [.named "x", .named "@title"]
        [.of "to" (.constant (.string "inverse"))]),
      .element ⟨"Panel", [⟨"@on", .mustache (.escaping (.named "fallback") [] []), .synthetic⟩,
        ⟨"...attributes", .text (.of ""), .synthetic⟩], [],
        [.mustache (.escaping (.named "if")
          [.invoke "has-block" [.constant (.string "main")] [], .named "x"] [])],
        ["x"], false, .synthetic⟩])
    (some (.of ["z"] [.append "z", .append "fallback"]))]

theorem tables_exact_of_compile_handover :
    ∃ compiled, handover.compile .default = .ok compiled ∧
      compiled.symbols = ["x", "y", "x", "z", "@title", "&else", "&attrs", "&main"] ∧
      compiled.upvars = ["fallback", "Panel", "if", "let"] ∧
      ∃ tail, compiled.Exact handover.allBlockParams tail := by
  have checked : (handover.compile .default).toOption.map (fun c => (c.symbols, c.upvars)) =
      some (["x", "y", "x", "z", "@title", "&else", "&attrs", "&main"],
        ["fallback", "Panel", "if", "let"]) := by decide +kernel
  cases done : handover.compile .default with
  | error failure =>
    rw [done] at checked
    cases checked
  | ok compiled =>
    rw [done] at checked
    obtain ⟨symbols, upvars⟩ := Prod.mk.inj (Option.some.inj checked)
    exact ⟨compiled, rfl, symbols, upvars, tables_exact_of_compile done⟩

end TemplateCompiler

import TemplateCompiler.Assembly

/-!
# Runs of the assembling machine

The stages of the compiler are computations with a state that may end in an error. What one
operation does is stated here once; later modules put runs together and do not open the machine.

A machine is ready for content when no operand is left and the innermost container takes any
statement. That container is not a component whose opening tag is still being read.
-/

namespace TemplateCompiler

section Stateful

variable {σ ε α β : Type}

theorem bind_of_ok {x : StateT σ (Except ε) α} {f : α → StateT σ (Except ε) β} {s s' : σ} {a : α}
    (first : x s = .ok (a, s')) : (x >>= f) s = f a s' := by
  show (x s >>= fun p => f p.1 p.2) = f a s'
  rw [first]
  rfl

theorem bind_of_error {x : StateT σ (Except ε) α} {f : α → StateT σ (Except ε) β} {s : σ} {e : ε}
    (failed : x s = .error e) : (x >>= f) s = .error e := by
  show (x s >>= fun p => f p.1 p.2) = .error e
  rw [failed]
  rfl

end Stateful

namespace Assembly.Machine

open Wire (Expression Statement InlineBlock)
open Program (Op)

/-! ### Sequences of operations -/

/-- Two streams in a row are run one after the other. -/
theorem run_append (xs ys : List (Located Op)) (m : Machine) :
    run (xs ++ ys) m = (run xs >>= fun _ => run ys) m := by
  induction xs generalizing m with
  | nil => rfl
  | cons op rest ih =>
    cases first : step op.value m with
    | error d =>
      have failed : ∀ ops, run (op :: ops) m = .error d := fun ops => bind_of_error first
      rw [List.cons_append, failed, bind_of_error (failed rest)]
    | ok done =>
      obtain ⟨_, next⟩ := done
      have goes : ∀ ops, run (op :: ops) m = run ops next := fun ops => bind_of_ok first
      rw [List.cons_append, goes, ih]
      show _ = (run (op :: rest) m >>= fun p => run ys p.2)
      rw [goes]
      rfl

/-- The operations take one machine to another. -/
def Runs (ops : List (Located Op)) (m m' : Machine) : Prop := run ops m = .ok ((), m')

theorem Runs.nil (m : Machine) : Runs [] m m := rfl

/-- Runs that meet in one machine are one run. -/
theorem Runs.append {xs ys : List (Located Op)} {m n k : Machine}
    (first : Runs xs m n) (second : Runs ys n k) : Runs (xs ++ ys) m k := by
  unfold Runs at *
  rw [run_append, bind_of_ok first]
  exact second

theorem Runs.single {op : Located Op} {m m' : Machine} (stepped : step op.value m = .ok ((), m')) :
    Runs [op] m m' := by
  show (step op.value >>= fun _ => run []) m = _
  rw [bind_of_ok stepped]
  rfl

theorem Runs.cons {op : Located Op} {rest : List (Located Op)} {m n k : Machine}
    (stepped : step op.value m = .ok ((), n)) (others : Runs rest n k) :
    Runs (op :: rest) m k :=
  Runs.append (Runs.single stepped) others

/-! ### Statements and the containers that take them -/

/-- No operand is left, and the innermost container takes any statement. -/
structure Ready (m : Machine) : Prop where
  noOperands : m.operands = []
  flushed : ∀ c rest, m.opened = .component c :: rest → c.flushed = true

/-- The machine with statements added to the innermost container. -/
def put (added : List Statement) (m : Machine) : Machine :=
  match m.opened with
  | [] => { m with template := m.template ++ added }
  | .named ⟨name, ⟨statements, parameters⟩⟩ :: rest =>
    { m with opened := .named ⟨name, ⟨statements ++ added, parameters⟩⟩ :: rest }
  | .component c :: rest =>
    { m with opened := .component { c with body := c.body ++ added } :: rest }

theorem put_nil (m : Machine) : m.put [] = m := by
  obtain ⟨operands, template, opened, finished⟩ := m
  rcases opened with _ | ⟨block | c, rest⟩ <;> simp [put]

theorem put_put (xs ys : List Statement) (m : Machine) :
    (m.put xs).put ys = m.put (xs ++ ys) := by
  obtain ⟨operands, template, opened, finished⟩ := m
  rcases opened with _ | ⟨block | c, rest⟩ <;> simp [put]

theorem Ready.put {m : Machine} (ready : m.Ready) (added : List Statement) :
    (m.put added).Ready := by
  obtain ⟨operands, template, opened, finished⟩ := m
  obtain ⟨none, flushed⟩ := ready
  rcases opened with _ | ⟨block | c, rest⟩
  · exact ⟨none, by simp [Machine.put]⟩
  · exact ⟨none, by simp [Machine.put]⟩
  · refine ⟨none, ?_⟩
    intro d others same
    have whole : c.flushed = true := flushed c rest rfl
    simp only [Machine.put, List.cons.injEq, Container.component.injEq] at same
    rw [← same.1]
    exact whole

/-- A machine that is ready takes every statement. -/
theorem add_of_ready {m : Machine} (ready : m.Ready) (s : Statement) :
    add s m = .ok ((), m.put [s]) := by
  obtain ⟨operands, template, opened, finished⟩ := m
  rcases opened with _ | ⟨block | c, rest⟩
  · rfl
  · rfl
  · have flushed : c.flushed = true := ready.flushed c rest rfl
    have taken : c.add s = .ok { c with body := c.body ++ [s] } := by simp [Component.add, flushed]
    simp [add, Container.add, taken, Machine.put, Except.map, bind, Except.bind, pure, Except.pure]

theorem add_operands {m m' : Machine} {s : Statement} (added : add s m = .ok ((), m')) :
    m'.operands = m.operands := by
  obtain ⟨operands, template, opened, finished⟩ := m
  rcases opened with _ | ⟨container, rest⟩
  · cases added
    rfl
  · cases taken : container.add s with
    | error d => simp [add, taken, bind, Except.bind] at added
    | ok c =>
      simp only [add, taken, bind, Except.bind, pure, Except.pure, Except.ok.injEq, Prod.mk.injEq,
        true_and] at added
      rw [← added]

theorem step_of_apply {op : Op} {m m' : Machine} (applied : apply op m = .ok ((), m'))
    (noOperands : m'.operands = []) : step op m = .ok ((), m') := by
  have allowed : (op.isExpression || m'.operands.isEmpty) = true := by simp [noOperands]
  rw [step, bind_of_ok applied]
  show (if (op.isExpression || m'.operands.isEmpty) = true then pure PUnit.unit
    else throw .operandsBetweenStatements : Assembling PUnit) m' = _
  rw [if_pos allowed]
  rfl

/-- An operation that amounts to adding a statement leaves no operands to complain about. -/
theorem step_of_add {op : Op} {m n : Machine} {s : Statement} (applied : apply op m = add s n)
    (noOperands : n.operands = []) : step op m = add s n := by
  cases added : add s n with
  | error d => exact bind_of_error (applied.trans added)
  | ok done =>
    obtain ⟨_, next⟩ := done
    exact step_of_apply (applied.trans added) ((add_operands added).trans noOperands)

def addAll : List Statement → Assembling Unit
  | [] => return ()
  | s :: rest => do
    add s
    addAll rest

theorem addAll_singleton (s : Statement) (m : Machine) : addAll [s] m = add s m := by
  cases added : add s m with
  | error d => exact bind_of_error added
  | ok done => exact bind_of_ok added

theorem addAll_append (xs ys : List Statement) (m : Machine) :
    addAll (xs ++ ys) m = (addAll xs >>= fun _ => addAll ys) m := by
  induction xs generalizing m with
  | nil => rfl
  | cons s rest ih =>
    cases added : add s m with
    | error d =>
      have failed : ∀ more, addAll (s :: more) m = .error d := fun more => bind_of_error added
      rw [List.cons_append, failed, bind_of_error (failed rest)]
    | ok done =>
      obtain ⟨_, next⟩ := done
      have goes : ∀ more, addAll (s :: more) m = addAll more next := fun more => bind_of_ok added
      rw [List.cons_append, goes, ih]
      show _ = (addAll (s :: rest) m >>= fun p => addAll ys p.2)
      rw [goes]
      rfl

/-- Adding statements does not touch the operands. -/
theorem addAll_operands {added : List Statement} {m m' : Machine}
    (done : addAll added m = .ok ((), m')) : m'.operands = m.operands := by
  induction added generalizing m with
  | nil =>
    cases done
    rfl
  | cons s rest ih =>
    cases first : add s m with
    | error d =>
      rw [show addAll (s :: rest) m = .error d from bind_of_error first] at done
      cases done
    | ok next =>
      rw [show addAll (s :: rest) m = addAll rest next.2 from bind_of_ok first] at done
      exact (ih done).trans (add_operands first)

theorem addAll_of_ready {m : Machine} (ready : m.Ready) (added : List Statement) :
    addAll added m = .ok ((), m.put added) := by
  induction added generalizing m with
  | nil =>
    rw [put_nil]
    rfl
  | cons s rest ih =>
    rw [show addAll (s :: rest) m = addAll rest (m.put [s]) from bind_of_ok (add_of_ready ready s),
      ih (ready.put [s]), put_put]
    rfl

/-- Before its content begins, a component files its attributes and its arguments. -/
theorem add_of_opening {m : Machine} {c : Component} {rest : List Container}
    (opened : m.opened = .component c :: rest) (unflushed : c.flushed = false) {s : Statement}
    (filed : s.isAttribute = true ∨ s.arg?.isSome = true) :
    add s m = .ok ((), { m with
      opened := .component { c with
        attrs := c.attrs ++ [s].filter Statement.isAttribute
        args := c.args ++ [s].filterMap Statement.arg? } :: rest }) := by
  have taken : c.add s = .ok { c with
      attrs := c.attrs ++ [s].filter Statement.isAttribute
      args := c.args ++ [s].filterMap Statement.arg? } := by
    cases s <;>
      simp [Component.add, unflushed, Statement.isAttribute, Statement.arg?,
        List.filter_cons] at filed ⊢
  obtain ⟨operands, template, _, finished⟩ := m
  cases opened
  simp [add, Container.add, taken, Except.map, bind, Except.bind, pure, Except.pure]

/-- What stands in the opening tag of a component goes to its attributes or its arguments. -/
theorem addAll_of_opening {m : Machine} {c : Component} {rest : List Container}
    (opened : m.opened = .component c :: rest) (unflushed : c.flushed = false)
    {added : List Statement} (filed : ∀ s ∈ added, s.isAttribute = true ∨ s.arg?.isSome = true) :
    addAll added m = .ok ((), { m with
      opened := .component { c with
        attrs := c.attrs ++ added.filter Statement.isAttribute
        args := c.args ++ added.filterMap Statement.arg? } :: rest }) := by
  induction added generalizing m c with
  | nil =>
    obtain ⟨operands, template, _, finished⟩ := m
    cases opened
    simp only [List.filter_nil, List.filterMap_nil, List.append_nil]
    rfl
  | cons s others ih =>
    have later : ∀ t ∈ others, t.isAttribute = true ∨ t.arg?.isSome = true :=
      fun t ht => filed t (List.mem_cons_of_mem s ht)
    have first := add_of_opening opened unflushed (filed s List.mem_cons_self)
    rw [show addAll (s :: others) m = addAll others _ from bind_of_ok first,
      ih rfl (by exact unflushed) later]
    simp only [List.append_assoc, ← List.filter_append, ← List.filterMap_append,
      List.singleton_append]

/-- The operations amount to adding statements, wherever they go. -/
def Adds (ops : List (Located Op)) (added : List Statement) : Prop :=
  ∀ m : Machine, m.operands = [] → run ops m = addAll added m

theorem Adds.nil : Adds [] [] := fun _ _ => rfl

theorem Adds.append {xs ys : List (Located Op)} {as bs : List Statement} (first : Adds xs as)
    (second : Adds ys bs) : Adds (xs ++ ys) (as ++ bs) := by
  intro m noOperands
  rw [run_append, addAll_append]
  cases added : addAll as m with
  | error d => rw [bind_of_error ((first m noOperands).trans added), bind_of_error added]
  | ok done =>
    obtain ⟨_, next⟩ := done
    rw [bind_of_ok ((first m noOperands).trans added), bind_of_ok added]
    exact second next ((addAll_operands added).trans noOperands)

/-- An operation that adds a statement to the machine that its preparations started from. -/
theorem Adds.of_prepared {ops : List (Located Op)} {op : Op} {span : Span} {s : Statement}
    (prepared : ∀ m : Machine, m.operands = [] → ∃ n, Runs ops m n ∧ apply op n = add s m) :
    Adds (ops ++ [⟨op, span⟩]) [s] := by
  intro m noOperands
  obtain ⟨n, runs, applied⟩ := prepared m noOperands
  have stepped := step_of_add applied noOperands
  rw [run_append, bind_of_ok runs, addAll_singleton, ← stepped]
  cases last : step op n with
  | error d => exact bind_of_error last
  | ok done => exact bind_of_ok last

/-- An operation that takes its operands and adds a statement. -/
theorem Adds.of_operands {ops : List (Located Op)} {operands : List Operand} {op : Op} {span : Span}
    {s : Statement}
    (pushes : ∀ m : Machine, Runs ops m { m with operands := operands ++ m.operands })
    (applied : ∀ m : Machine, apply op { m with operands := operands } =
      add s { m with operands := [] }) :
    Adds (ops ++ [⟨op, span⟩]) [s] := by
  apply Adds.of_prepared
  intro m noOperands
  have pushed := pushes m
  rw [noOperands, List.append_nil] at pushed
  refine ⟨_, pushed, (applied m).trans ?_⟩
  rw [← noOperands]

/-- The operations leave blocks behind that wait for their invocation, the last one first. -/
def Suspends (ops : List (Located Op)) (blocks : List NamedBlock) : Prop :=
  ∀ m : Machine, m.operands = [] → Runs ops m { m with finished := blocks ++ m.finished }

theorem Suspends.nil : Suspends [] [] := fun m _ => .nil m

theorem Suspends.append {xs ys : List (Located Op)} {older newer : List NamedBlock}
    (first : Suspends xs older) (second : Suspends ys newer) :
    Suspends (xs ++ ys) (newer ++ older) := by
  intro m noOperands
  have next := second { m with finished := older ++ m.finished } noOperands
  simp only [← List.append_assoc] at next
  exact (first m noOperands).append next

/-! ### Containers around content -/

/-- The operations add statements to any machine that is ready. -/
def Fills (ops : List (Located Op)) (added : List Statement) : Prop :=
  ∀ m : Machine, m.Ready → Runs ops m (m.put added)

theorem Fills.nil : Fills [] [] := by
  intro m _
  rw [put_nil]
  exact .nil m

theorem Fills.append {xs ys : List (Located Op)} {as bs : List Statement}
    (first : Fills xs as) (second : Fills ys bs) : Fills (xs ++ ys) (as ++ bs) := by
  intro m ready
  rw [← put_put]
  exact (first m ready).append (second _ (ready.put as))

/-- Outside of opening tags, what is added stands as it is. -/
theorem Adds.fills {ops : List (Located Op)} {added : List Statement} (adds : Adds ops added) :
    Fills ops added := by
  intro m ready
  exact (adds m ready.noOperands).trans (addAll_of_ready ready added)

theorem Fills.of_step {op : Located Op} {s : Statement}
    (applied : ∀ m : Machine, m.Ready → apply op.value m = add s m) : Fills [op] [s] := by
  intro m ready
  have stepped := step_of_add (applied m ready) ready.noOperands
  exact Runs.single (stepped.trans (add_of_ready ready s))

theorem Fills.flushElement (span : Span) : Fills [⟨.flushElement, span⟩] [.flushElement] := by
  apply Fills.of_step
  intro m ready
  obtain ⟨operands, template, opened, finished⟩ := m
  rcases opened with _ | ⟨block | c, rest⟩
  · rfl
  · rfl
  · have flushed : c.flushed = true := ready.flushed c rest rfl
    show flush _ = _
    simp [flush, flushed, bind, StateT.bind, Except.bind, get, getThe, MonadStateOf.get,
      StateT.get, pure, Except.pure]

/-- Content between the marks of a block becomes a block that waits for its statement. -/
theorem Fills.block {body : List (Located Op)} {added : List Statement} (fills : Fills body added)
    (name : String) (parameters : List Nat) (span : Span) :
    Suspends (⟨.startBlock name parameters, span⟩ :: body ++ [⟨.endBlock, span⟩])
      [⟨name, ⟨added, parameters⟩⟩] := by
  intro m noOperands
  obtain ⟨operands, template, opened, finished⟩ := m
  cases noOperands
  let inside : Machine := ⟨[], template, .named ⟨name, ⟨[], parameters⟩⟩ :: opened, finished⟩
  have ready : inside.Ready := ⟨rfl, by simp [inside]⟩
  refine Runs.append (Runs.cons (n := inside) rfl (fills inside ready)) (Runs.single ?_)
  simp only [inside, put, List.nil_append]
  exact step_of_apply rfl rfl

/-- The operations hand named blocks to the component around them. -/
def Supplies (ops : List (Located Op)) (blocks : List (String × InlineBlock Statement)) : Prop :=
  ∀ (m : Machine) (c : Component) (rest : List Container), m.operands = [] →
    m.opened = .component c :: rest →
      Runs ops m { m with opened := .component { c with named := c.named ++ blocks } :: rest }

theorem Supplies.nil : Supplies [] [] := by
  intro m c rest _ opened
  obtain ⟨operands, template, _, finished⟩ := m
  cases opened
  simpa using Runs.nil _

theorem Supplies.append {xs ys : List (Located Op)}
    {as bs : List (String × InlineBlock Statement)}
    (first : Supplies xs as) (second : Supplies ys bs) : Supplies (xs ++ ys) (as ++ bs) := by
  intro m c rest noOperands opened
  have goes := second { m with opened := .component { c with named := c.named ++ as } :: rest }
    { c with named := c.named ++ as } rest noOperands rfl
  simp only [List.append_assoc] at goes
  exact (first m c rest noOperands opened).append goes

/-- Content between the marks of a named block becomes a block of the component. -/
theorem Fills.namedBlock {body : List (Located Op)} {added : List Statement}
    (fills : Fills body added) (name : String) (parameters : List Nat) (span : Span) :
    Supplies (⟨.openNamedBlock name parameters, span⟩ :: body ++ [⟨.closeNamedBlock, span⟩])
      [(name, ⟨added, parameters⟩)] := by
  intro m c rest noOperands opened
  obtain ⟨operands, template, _, finished⟩ := m
  cases noOperands
  cases opened
  let inside : Machine :=
    ⟨[], template, .named ⟨name, ⟨[], parameters⟩⟩ :: .component c :: rest, finished⟩
  have ready : inside.Ready := ⟨rfl, by simp [inside]⟩
  refine Runs.append (Runs.cons (n := inside) rfl (fills inside ready)) (Runs.single ?_)
  simp only [inside, put, List.nil_append]
  exact step_of_apply rfl rfl

/-- The opening tag of a component up to its content, as the machine sees it afterwards. -/
def opening (tag : Expression) (selfClosing : Bool) (parameters : List Nat)
    (attributes : List Statement) : Component :=
  { Component.start tag selfClosing parameters with
    attrs := attributes.filter Statement.isAttribute
    args := attributes.filterMap Statement.arg?
    flushed := true }

/-- A component becomes one statement, whatever its content does to it while it is open. -/
theorem Fills.component {tagOps attributeOps content : List (Located Op)} {tag : Expression}
    {selfClosing : Bool} {parameters : List Nat} {attributes : List Statement} {closed : Component}
    {openSpan flushSpan closeSpan : Span}
    (pushesTag : ∀ m : Machine,
      Runs tagOps m { m with operands := .expression tag :: m.operands })
    (addsAttributes : Adds attributeOps attributes)
    (filed : ∀ s ∈ attributes, s.isAttribute = true ∨ s.arg?.isSome = true)
    (fillsContent : ∀ (m : Machine) (rest : List Container), m.operands = [] →
      m.opened = .component (opening tag selfClosing parameters attributes) :: rest →
        Runs content m { m with opened := .component closed :: rest }) :
    Fills (tagOps ++ [⟨.openComponent selfClosing parameters, openSpan⟩] ++ attributeOps ++
      [⟨.flushElement, flushSpan⟩] ++ content ++ [⟨.closeComponent, closeSpan⟩])
      [closed.finish] := by
  intro m ready
  obtain ⟨operands, template, opened, finished⟩ := m
  have none : operands = [] := ready.noOperands
  subst none
  let started : Machine :=
    ⟨[], template, .component (.start tag selfClosing parameters) :: opened, finished⟩
  let filled : Machine := ⟨[], template, .component
    { Component.start tag selfClosing parameters with
      attrs := attributes.filter Statement.isAttribute
      args := attributes.filterMap Statement.arg? } :: opened, finished⟩
  let flushed : Machine :=
    ⟨[], template, .component (opening tag selfClosing parameters attributes) :: opened, finished⟩
  have starts : Runs [⟨.openComponent selfClosing parameters, openSpan⟩]
      ⟨[.expression tag], template, opened, finished⟩ started := Runs.single rfl
  have fills : Runs attributeOps started filled :=
    (addsAttributes started rfl).trans (addAll_of_opening (m := started) rfl rfl filed)
  have flushes : Runs [⟨.flushElement, flushSpan⟩] filled flushed := Runs.single rfl
  have runs : Runs content flushed ⟨[], template, .component closed :: opened, finished⟩ :=
    fillsContent flushed opened rfl rfl
  have closes : Runs [⟨.closeComponent, closeSpan⟩]
      ⟨[], template, .component closed :: opened, finished⟩
      (put [closed.finish] ⟨[], template, opened, finished⟩) := by
    apply Runs.single
    exact (step_of_add (n := ⟨[], template, opened, finished⟩) rfl rfl).trans
      (add_of_ready ready closed.finish)
  exact (((((pushesTag _).append starts).append fills).append flushes).append runs).append closes

end Assembly.Machine

end TemplateCompiler

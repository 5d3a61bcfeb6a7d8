import Mathlib.Control.Basic
import TemplateCompiler.Proofs.Outcomes
import TemplateCompiler.Proofs.Running
import TemplateCompiler.Stack

/-!
# Shapes of the assembling machine

The shape of a machine is the kinds of its operands, the sorts of its open containers and the number
of blocks that wait for an invocation. Every operation has a rule for shapes. It looks at no text, no
slot and no constant.

The rules are exact. Assembling a program fails if and only if the shapes get stuck, a statement
leaves operands behind, or something is left over at the end. This holds of any list of operations,
also of those that no template leads to.
-/

namespace TemplateCompiler.Assembly

open Wire (Expression Statement InlineBlock)
open Program (Op)

/-! ### The machine of shapes -/

/-- A container without what it holds. A component tells whether its content has started. -/
inductive ContainerShape where
  | template
  | named
  | component (flushed : Bool)
deriving DecidableEq

structure Shape where
  /-- The kinds of the operands, the last one first. -/
  operands : List OperandKind
  /-- The open containers above the template. -/
  containers : Stack ContainerShape
  /-- The number of blocks that have ended and wait for their invocation. -/
  finished : Nat
deriving DecidableEq

namespace Shape

def initial : Shape := ⟨[], .singleton .template, 0⟩

def give (kind : OperandKind) (s : Shape) : Option Shape :=
  some { s with operands := kind :: s.operands }

/-- Takes operands of these kinds, the last operand first. -/
def take : List OperandKind → Shape → Option Shape
  | [], s => some s
  | kind :: others, ⟨operands, containers, finished⟩ =>
    match operands with
    | [] => none
    | top :: rest => if top = kind then take others ⟨rest, containers, finished⟩ else none

/-- Takes blocks that wait for their invocation. -/
def takeBlocks (count : Nat) (s : Shape) : Option Shape :=
  if count ≤ s.finished then some { s with finished := s.finished - count } else none

/-- When a statement may come: `early` ones also before the content of a component. -/
inductive Timing where
  | early
  | late
deriving DecidableEq

/-- Adds a statement to the innermost container, whose shape stays. -/
def add (timing : Timing) (s : Shape) : Option Shape :=
  if timing = .late ∧ s.containers.current = .component false then none else some s

def openContainer (container : ContainerShape) (s : Shape) : Option Shape :=
  some { s with containers := s.containers.push container }

/-- Starts the content of a component that has none yet. Anything else just takes a statement. -/
def flush (s : Shape) : Option Shape :=
  if s.containers.current = .component false then
    some { s with containers := s.containers.setCurrent (.component true) }
  else some s

/-- A component becomes a statement of the container around it. -/
def closeComponent (s : Shape) : Option Shape :=
  match s.containers.pop? with
  | some (.component _, below) => add .late { s with containers := below }
  | _ => none

/-- A named block goes to the component around it, before or after its content has started. -/
def closeNamedBlock (s : Shape) : Option Shape :=
  match s.containers.pop? with
  | some (.named, below) =>
    match below.current with
    | .component _ => some { s with containers := below }
    | _ => none
  | _ => none

/-- A block is put aside for its invocation. -/
def endBlock (s : Shape) : Option Shape :=
  match s.containers.pop? with
  | some (.named, below) => some { s with containers := below, finished := s.finished + 1 }
  | _ => none

def callOperands : List OperandKind := [.expression, .params, .hash]

/-- The rule of each operation. -/
def rule : Op → Shape → Option Shape
  | .literal _ | .getSymbol _ | .getFree _ | .getFreeWithContext _ _ | .hasBlock _
  | .hasBlockParams _ => give .expression
  | .getPath _ => take [.expression] >=> give .expression
  | .concat => take [.params] >=> give .expression
  | .call => take callOperands >=> give .expression
  | .prepareArray count => take (List.replicate count .expression) >=> give .params
  | .prepareObject count =>
    take (List.replicate count [.string, .expression]).flatten >=> give .hash
  | .pushString _ => give .string
  | .append | .trustingAppend | .partialTemplate _ => take [.expression] >=> add .late
  | .comment _ | .openElement _ | .openElementWithSplat _ | .closeElement | .debugger _ =>
    add .late
  | .openComponent _ _ => take [.expression] >=> openContainer (.component false)
  | .openNamedBlock _ _ | .startBlock _ _ => openContainer .named
  | .flushElement => flush
  | .closeComponent => closeComponent
  | .closeNamedBlock => closeNamedBlock
  | .attr _ _ _ | .staticArg _ | .dynamicArg _ => take [.expression] >=> add .early
  | .attrSplat _ => add .early
  | .modifier => take callOperands >=> add .early
  | .endBlock => endBlock
  | .invokeBlock hasInverse =>
    takeBlocks (if hasInverse then 2 else 1) >=> take callOperands >=> add .late
  | .yield _ => take [.params] >=> add .late
  | .inElement _ hasInsertBefore =>
    take (List.replicate (if hasInsertBefore then 2 else 1) .expression) >=>
      takeBlocks 1 >=> add .late

def run : List Op → Shape → Option Shape
  | [], s => some s
  | op :: rest, s => (rule op s).bind (run rest)

/-- Follows a rule, unless a statement would leave operands behind. -/
def step (op : Op) (s : Shape) : Option Shape :=
  (rule op s).filter fun next => op.isExpression || next.operands.isEmpty

def steps : List Op → Shape → Option Shape
  | [] => some
  | op :: rest => step op >=> steps rest

/-- Nothing is left over: no operand, no block, and no container but the template. -/
def IsDone (s : Shape) : Prop :=
  s.operands = [] ∧ s.finished = 0 ∧ s.containers = .singleton .template

/-- How the shapes of some operations can go wrong. -/
inductive GoesWrong (ops : List Op) : Prop where
  /-- The rule of some operation does not apply. -/
  | stuck (ends : run ops initial = none)
  /-- An operation on statements ends with operands that it has not taken. -/
  | operandsBetween (before : List Op) (op : Op) (later : List Op) (s : Shape)
      (here : ops = before ++ op :: later) (statement : op.isExpression = false)
      (reached : run (before ++ [op]) initial = some s) (left : s.operands ≠ [])
  | leftOver (s : Shape) (reached : run ops initial = some s) (left : ¬s.IsDone)

end Shape

/-! ### The shape of a machine -/

def Container.shape : Container → ContainerShape
  | .named _ => .named
  | .component c => .component c.flushed

def Machine.shape (m : Machine) : Shape :=
  ⟨m.operands.map Operand.kind, ⟨.template, m.opened.map Container.shape⟩, m.finished.length⟩

/-- A computation succeeds exactly where a rule applies, and takes shapes where the rule does. -/
def Follows {α : Type} (x : Assembling α) (rule : Shape → Option Shape) : Prop :=
  ∀ m : Machine, (x m).toOption.map (fun done => done.2.shape) = rule m.shape

namespace Follows

variable {α β : Type}

theorem pure (a : α) : Follows (pure a : Assembling α) some := fun _ => rfl

theorem bind {x : Assembling α} {f : α → Assembling β} {first second : Shape → Option Shape}
    (begins : Follows x first) (continues : ∀ a, Follows (f a) second) :
    Follows (x >>= f) (first >=> second) := by
  intro m
  show (x m >>= fun done => f done.1 done.2).toOption.map _ = (first m.shape).bind second
  rw [← begins m]
  cases x m with
  | error d => rfl
  | ok done => exact continues done.1 done.2

theorem map {x : Assembling α} {rule : Shape → Option Shape} (f : α → β)
    (follows : Follows x rule) : Follows (f <$> x) rule := by
  intro m
  show (x m >>= fun done => Except.ok (f done.1, done.2)).toOption.map _ = rule m.shape
  rw [← follows m]
  cases x m <;> rfl

end Follows

/-! ### Operands and blocks -/

namespace Shape

theorem take_cons (kind : OperandKind) (others : List OperandKind) :
    take (kind :: others) = take [kind] >=> take others := by
  funext ⟨operands, containers, finished⟩
  show _ = (take [kind] ⟨operands, containers, finished⟩).bind (take others)
  cases operands with
  | nil => rfl
  | cons top rest =>
    by_cases same : top = kind
    · simp [take, same]
    · simp [take, same]

theorem takeBlocks_two : takeBlocks 2 = takeBlocks 1 >=> takeBlocks 1 := by
  funext ⟨operands, containers, finished⟩
  show _ = (takeBlocks 1 ⟨operands, containers, finished⟩).bind (takeBlocks 1)
  rcases finished with _ | _ | finished <;> simp [takeBlocks]

end Shape

namespace Machine

open Shape (take give callOperands)

theorem follows_push (operand : Operand) : Follows (push operand) (give operand.kind) :=
  fun _ => rfl

theorem follows_pop {α : Type} {wanted : OperandKind} {view : Operand → Option α}
    (suits : ∀ operand, (view operand).isSome = decide (operand.kind = wanted)) :
    Follows (pop wanted view) (take [wanted]) := by
  rintro ⟨operands, template, opened, finished⟩
  cases operands with
  | nil => rfl
  | cons operand rest =>
    have suited := suits operand
    cases seen : view operand with
    | none =>
      have other : operand.kind ≠ wanted := by simpa [seen] using suited
      simp [pop, seen, shape, take, other, Except.toOption]
    | some a =>
      have same : operand.kind = wanted := by simpa [seen] using suited
      simp [pop, seen, shape, take, same, Except.toOption]

theorem follows_popExpression : Follows popExpression (take [.expression]) :=
  follows_pop fun operand => by cases operand <;> rfl

theorem follows_popParams : Follows popParams (take [.params]) :=
  follows_pop fun operand => by cases operand <;> rfl

theorem follows_popHash : Follows popHash (take [.hash]) :=
  follows_pop fun operand => by cases operand <;> rfl

theorem follows_popString : Follows popString (take [.string]) :=
  follows_pop fun operand => by cases operand <;> rfl

theorem follows_popCall : Follows popCall (take callOperands) := by
  rw [callOperands, Shape.take_cons, Shape.take_cons .params]
  refine follows_popExpression.bind fun head => follows_popParams.bind fun params => ?_
  exact follows_popHash.map fun hash => (head, params, hash)

theorem follows_popExpressions (count : Nat) :
    Follows (popExpressions count) (take (List.replicate count .expression)) := by
  induction count with
  | zero => exact .pure []
  | succ count ih =>
    rw [List.replicate_succ, Shape.take_cons]
    exact follows_popExpression.bind fun first => ih.map (first :: ·)

theorem follows_popPairs (count : Nat) :
    Follows (popPairs count) (take (List.replicate count [.string, .expression]).flatten) := by
  induction count with
  | zero => exact .pure []
  | succ count ih =>
    rw [List.replicate_succ, List.flatten_cons, List.cons_append, List.cons_append,
      List.nil_append, Shape.take_cons, Shape.take_cons .expression]
    refine follows_popString.bind fun key => follows_popExpression.bind fun value => ?_
    exact ih.map ((key, value) :: ·)

theorem follows_takeBlock : Follows takeBlock (Shape.takeBlocks 1) := by
  rintro ⟨operands, template, opened, finished⟩
  cases finished with
  | nil => rfl
  | cons block rest => simp [takeBlock, shape, Shape.takeBlocks, Except.toOption]

/-! ### Containers -/

/-- Attributes and arguments may come before the content of a component. -/
def timing (s : Statement) : Shape.Timing :=
  if s.isAttribute || s.arg?.isSome then .early else .late

/-- A container refuses a late statement if it is a component without content yet, and else keeps
its shape. -/
theorem shape_of_containerAdd (s : Statement) (container : Container) :
    (container.add s).toOption.map Container.shape =
      if timing s = .late ∧ container.shape = .component false then none
      else some container.shape := by
  rcases container with block | ⟨tag, selfClosing, parameters, attrs, args, body, named, flushed⟩
  · rw [if_neg (by simp [Container.shape])]
    rfl
  · cases flushed with
    | true =>
      rw [if_neg (by simp [Container.shape])]
      rfl
    | false => cases s <;> rfl

/-- Whether a statement can be added depends on what it is and on the innermost container. -/
theorem follows_add (s : Statement) : Follows (add s) (Shape.add (timing s)) := by
  rintro ⟨operands, template, opened, finished⟩
  cases opened with
  | nil =>
    have allowed : ¬(timing s = .late ∧ ContainerShape.template = .component false) := by simp
    exact (if_neg allowed).symm
  | cons container rest =>
    -- Only the innermost container is looked at, and only it could change.
    have inside : (add s ⟨operands, template, container :: rest, finished⟩).toOption.map
        (fun done => done.2.shape) =
        ((container.add s).toOption.map Container.shape).map fun kept =>
          ⟨operands.map Operand.kind, ⟨.template, kept :: rest.map Container.shape⟩,
            finished.length⟩ := by
      cases taken : container.add s with
      | error d => simp only [add, taken]; rfl
      | ok c => simp only [add, taken]; rfl
    rw [inside, shape_of_containerAdd]
    show _ = if timing s = .late ∧ container.shape = .component false then none else _
    split <;> rfl

theorem follows_closeComponent : Follows closeComponent Shape.closeComponent := by
  rintro ⟨operands, template, opened, finished⟩
  rcases opened with _ | ⟨block | c, rest⟩
  · rfl
  · rfl
  · exact follows_add c.finish ⟨operands, template, rest, finished⟩

theorem follows_closeNamedBlock : Follows closeNamedBlock Shape.closeNamedBlock := by
  rintro ⟨operands, template, opened, finished⟩
  rcases opened with _ | ⟨block | c, rest⟩
  · rfl
  · rcases rest with _ | ⟨outer | c, rest⟩ <;> rfl
  · rfl

theorem follows_endBlock : Follows endBlock Shape.endBlock := by
  rintro ⟨operands, template, opened, finished⟩
  rcases opened with _ | ⟨block | c, rest⟩ <;> rfl

theorem follows_flush : Follows flush Shape.flush := by
  rintro ⟨operands, template, opened, finished⟩
  rcases opened with _ | ⟨block | c, rest⟩
  · rfl
  · rfl
  · obtain ⟨tag, selfClosing, parameters, attrs, args, body, named, flushed⟩ := c
    cases flushed <;> rfl

theorem follows_openContainer (container : Container) :
    Follows (openContainer container) (Shape.openContainer container.shape) := fun _ => rfl

/-! ### Operations -/

/-- What one operation does to the shape is its rule. -/
theorem follows_apply (op : Op) : Follows (apply op) (Shape.rule op) := by
  cases op with
  | literal | getSymbol | getFree | getFreeWithContext | hasBlock | hasBlockParams | pushString =>
    exact follows_push _
  | getPath => exact follows_popExpression.bind fun _ => follows_push _
  | concat => exact follows_popParams.bind fun _ => follows_push _
  | call => exact follows_popCall.bind fun _ => follows_push _
  | prepareArray count => exact (follows_popExpressions count).bind fun _ => follows_push _
  | prepareObject count => exact (follows_popPairs count).bind fun _ => follows_push _
  | append | trustingAppend | partialTemplate | attr | staticArg | dynamicArg =>
    exact follows_popExpression.bind fun _ => follows_add _
  | comment | openElement | openElementWithSplat | closeElement | debugger | attrSplat =>
    exact follows_add _
  | openComponent => exact follows_popExpression.bind fun _ => follows_openContainer _
  | openNamedBlock | startBlock => exact follows_openContainer _
  | flushElement => exact follows_flush
  | closeComponent => exact follows_closeComponent
  | closeNamedBlock => exact follows_closeNamedBlock
  | modifier => exact follows_popCall.bind fun _ => follows_add _
  | endBlock => exact follows_endBlock
  | invokeBlock hasInverse =>
    cases hasInverse with
    | false =>
      exact follows_takeBlock.bind fun _ => (Follows.pure none).bind fun _ =>
        follows_popCall.bind fun _ => follows_add _
    | true =>
      rw [Shape.rule, if_pos rfl, Shape.takeBlocks_two, fish_assoc]
      exact follows_takeBlock.bind fun _ => (follows_takeBlock.map some).bind fun _ =>
        follows_popCall.bind fun _ => follows_add _
  | yield => exact follows_popParams.bind fun _ => follows_add _
  | inElement guid hasInsertBefore =>
    cases hasInsertBefore with
    | false =>
      exact (Follows.pure none).bind fun _ => follows_popExpression.bind fun _ =>
        follows_takeBlock.bind fun _ => follows_add _
    | true =>
      rw [Shape.rule, if_pos rfl, List.replicate_succ, Shape.take_cons, fish_assoc]
      exact (follows_popExpression.map some).bind fun _ => follows_popExpression.bind fun _ =>
        follows_takeBlock.bind fun _ => follows_add _

/-- A step of the machine does to its shape what the rule says, and fails where the rule does. -/
theorem follows_step (op : Op) : Follows (step op) (Shape.step op) := by
  intro m
  rw [Shape.step, ← follows_apply op m]
  cases applied : apply op m with
  | error d =>
    rw [step, bind_of_error applied]
    rfl
  | ok done =>
    obtain ⟨_, next⟩ := done
    rw [step, bind_of_ok applied]
    show ((if (op.isExpression || next.operands.isEmpty) = true then pure PUnit.unit
      else throw .operandsBetweenStatements : Assembling PUnit) next).toOption.map _ =
      (some next.shape).filter fun s => op.isExpression || s.operands.isEmpty
    have same : next.shape.operands.isEmpty = next.operands.isEmpty := by simp [shape]
    rw [Option.filter_some, same]
    split <;> rfl

/-- A run of the machine fails exactly where the rules for its shape do. -/
theorem follows_run (ops : List (Located Op)) :
    Follows (run ops) (Shape.steps (ops.map Located.value)) := by
  induction ops with
  | nil => exact .pure ()
  | cons op rest ih => exact (follows_step op.value).bind fun _ => ih

/-- The template is handed out exactly if the shape shows nothing left over. -/
theorem exists_result_iff (m : Machine) :
    (∃ statements, m.result = .ok statements) ↔ m.shape.IsDone := by
  obtain ⟨operands, template, opened, finished⟩ := m
  simp only [result, shape, Shape.IsDone, Stack.singleton]
  cases operands <;> cases finished <;> cases opened <;> simp

end Machine

/-! ### Whole programs -/

namespace Shape

/-- No operation on statements among these ends with operands left. -/
def LeavesNone (ops : List Op) (s : Shape) : Prop :=
  ∀ before op later next, ops = before ++ op :: later → op.isExpression = false →
    run (before ++ [op]) s = some next → next.operands = []

theorem run_cons {op : Op} {s next : Shape} (follows : rule op s = some next) (rest : List Op) :
    run (op :: rest) s = run rest next := by
  rw [run, follows]
  rfl

theorem leavesNone_cons {op : Op} {rest : List Op} {s next : Shape}
    (follows : rule op s = some next) :
    LeavesNone (op :: rest) s ↔
      (op.isExpression = false → next.operands = []) ∧ LeavesNone rest next := by
  constructor
  · intro none
    refine ⟨fun statement => ?_, fun before other later s' here statement reached => ?_⟩
    · exact none [] op rest next rfl statement (run_cons follows [])
    · refine none (op :: before) other later s' (by rw [here]; rfl) statement ?_
      exact (run_cons follows _).trans reached
  · rintro ⟨first, others⟩ before other later s' here statement reached
    cases before with
    | nil =>
      cases here
      have ended : s' = next := by simpa [run, follows] using reached.symm
      exact ended ▸ first statement
    | cons op' before =>
      cases here
      exact others before other later s' rfl statement ((run_cons follows _).symm.trans reached)

/-- Steps succeed if their rules do and no operand is left behind. -/
theorem steps_eq_some_iff (ops : List Op) (s last : Shape) :
    steps ops s = some last ↔ run ops s = some last ∧ LeavesNone ops s := by
  induction ops generalizing s with
  | nil => simp [steps, run, LeavesNone]
  | cons op rest ih =>
    show (step op s).bind (steps rest) = some last ↔ _
    cases follows : rule op s with
    | none => simp [step, run, follows]
    | some next =>
      rw [run_cons follows, leavesNone_cons follows, step, follows, Option.filter_some]
      by_cases allowed : (op.isExpression || next.operands.isEmpty) = true
      · have clean : op.isExpression = false → next.operands = [] := by
          intro statement
          simpa [statement] using allowed
        rw [if_pos allowed]
        refine (ih next).trans ⟨?_, ?_⟩
        · rintro ⟨reached, others⟩
          exact ⟨reached, clean, others⟩
        · rintro ⟨reached, _, others⟩
          exact ⟨reached, others⟩
      · rw [if_neg allowed]
        simp only [Bool.or_eq_true, List.isEmpty_iff, not_or, Bool.not_eq_true] at allowed
        constructor
        · intro stepped
          cases stepped
        · rintro ⟨_, clean, _⟩
          exact absurd (clean allowed.1) allowed.2

theorem not_goesWrong_iff (ops : List Op) :
    ¬GoesWrong ops ↔ ∃ last, steps ops initial = some last ∧ last.IsDone := by
  constructor
  · intro right
    cases reached : run ops initial with
    | none => exact absurd (.stuck reached) right
    | some last =>
      have clean : LeavesNone ops initial := by
        intro before op later next here statement between
        by_contra left
        exact right (.operandsBetween before op later next here statement between left)
      refine ⟨last, (steps_eq_some_iff ops initial last).mpr ⟨reached, clean⟩, ?_⟩
      by_contra left
      exact right (.leftOver last reached left)
  · rintro ⟨last, stepped, done⟩ wrong
    obtain ⟨reached, clean⟩ := (steps_eq_some_iff ops initial last).mp stepped
    cases wrong with
    | stuck ends =>
      rw [ends] at reached
      cases reached
    | operandsBetween before op later next here statement between left =>
      exact left (clean before op later next here statement between)
    | leftOver other ended left =>
      rw [reached] at ended
      cases ended
      exact left done

end Shape

/-- A template is assembled exactly if all steps can be taken and nothing is left over. -/
theorem exists_assembled_iff (p : Program) :
    (∃ template, assemble p = .ok template) ↔
      ∃ last, Shape.steps (p.ops.map Located.value) .initial = some last ∧ last.IsDone := by
  have follows : (Machine.run p.ops .initial).toOption.map (fun done => done.2.shape) =
      Shape.steps (p.ops.map Located.value) .initial := Machine.follows_run p.ops .initial
  rw [← follows]
  constructor
  · rintro ⟨template, assembled⟩
    obtain ⟨⟨_, m⟩, ran, assembled⟩ := ok_of_bind assembled
    obtain ⟨statements, handed, _⟩ := ok_of_bind assembled
    refine ⟨m.shape, ?_, (Machine.exists_result_iff m).mp ⟨statements, handed⟩⟩
    rw [show Machine.run p.ops .initial = _ from ran]
    rfl
  · rintro ⟨last, stepped, done⟩
    cases ran : Machine.run p.ops .initial with
    | error d =>
      rw [ran] at stepped
      cases stepped
    | ok after =>
      rw [ran] at stepped
      cases stepped
      obtain ⟨statements, handed⟩ := (Machine.exists_result_iff after.2).mpr done
      exact ⟨_, bind_eq_ok.mpr ⟨after, ran, bind_eq_ok.mpr ⟨statements, handed, rfl⟩⟩⟩

/-- Assembly reports a defect exactly if the shape does not come to its end. -/
theorem exists_defect_iff (p : Program) :
    (∃ defect, assemble p = .error defect) ↔
      ¬∃ last, Shape.steps (p.ops.map Located.value) .initial = some last ∧ last.IsDone := by
  rw [← exists_assembled_iff]
  cases assemble p <;> simp

/-! ### What an operation carries -/

/-- An operation without its texts, slots and constants. What is kept is how much it takes. -/
def blank : Op → Op
  | .literal _ => .literal .null
  | .getSymbol _ => .getSymbol 0
  | .getFree _ => .getFree 0
  | .getFreeWithContext _ _ => .getFreeWithContext 0 .expression
  | .getPath _ => .getPath []
  | .hasBlock _ => .hasBlock 0
  | .hasBlockParams _ => .hasBlockParams 0
  | .pushString _ => .pushString ""
  | .comment _ => .comment ""
  | .openElement _ => .openElement ""
  | .openElementWithSplat _ => .openElementWithSplat ""
  | .openComponent _ _ => .openComponent false []
  | .openNamedBlock _ _ => .openNamedBlock "" []
  | .attr _ _ _ => .attr .static "" none
  | .staticArg _ => .staticArg ""
  | .dynamicArg _ => .dynamicArg ""
  | .attrSplat _ => .attrSplat 0
  | .startBlock _ _ => .startBlock "" []
  | .yield _ => .yield 0
  | .partialTemplate _ => .partialTemplate []
  | .debugger _ => .debugger []
  | .inElement _ hasInsertBefore => .inElement "" hasInsertBefore
  | other => other

/-- The data that operations carry play no part in the rules. -/
theorem steps_blank (ops : List Op) : Shape.steps (ops.map blank) = Shape.steps ops := by
  induction ops with
  | nil => rfl
  | cons op rest ih =>
    have same : Shape.step (blank op) = Shape.step op := by cases op <;> rfl
    rw [List.map_cons, Shape.steps, Shape.steps, same, ih]

/-- Assembling fails if and only if the shapes go wrong. Texts, slots, constants, spans and the
table make no difference. -/
theorem assemble_fails_iff_shape (p : Program) :
    ((∃ defect, assemble p = .error defect) ↔ Shape.GoesWrong (p.ops.map Located.value)) ∧
    ∀ span table,
      (∃ defect, assemble p = .error defect) ↔
        ∃ defect, assemble ⟨p.ops.map fun op => ⟨blank op.value, span⟩, table⟩ = .error defect := by
  refine ⟨?_, fun span table => ?_⟩
  · rw [exists_defect_iff, ← Shape.not_goesWrong_iff, not_not]
  · have values : (p.ops.map fun op => (⟨blank op.value, span⟩ : Located Op)).map Located.value =
        (p.ops.map Located.value).map blank := by
      simp
    rw [exists_defect_iff, exists_defect_iff, values, steps_blank]

-- A block that was started can be closed as a named one, even before its component has content.
example : Shape.run [.getFree 0, .openComponent false [], .startBlock "title" [], .closeNamedBlock,
    .flushElement, .closeComponent] .initial = some .initial := by
  decide

end TemplateCompiler.Assembly

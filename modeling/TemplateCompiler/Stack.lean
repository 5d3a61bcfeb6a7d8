/-!
Stacks that are never empty: the root stays, whatever is popped.
-/

namespace TemplateCompiler

/-- A root and what was pushed on it, the last push first. -/
structure Stack (α : Type) where
  root : α
  above : List α
deriving DecidableEq

namespace Stack

variable {α : Type}

def singleton (root : α) : Stack α := ⟨root, []⟩

def push (a : α) (s : Stack α) : Stack α := ⟨s.root, a :: s.above⟩

/-- The element on top, and the stack without it; nothing if only the root is left. -/
def pop? (s : Stack α) : Option (α × Stack α) :=
  match s.above with
  | [] => none
  | a :: rest => some (a, ⟨s.root, rest⟩)

def current (s : Stack α) : α := s.above.head?.getD s.root

/-- Puts another element in the place of the one on top. -/
def setCurrent (a : α) (s : Stack α) : Stack α :=
  match s.above with
  | [] => ⟨a, []⟩
  | _ :: rest => ⟨s.root, a :: rest⟩

def size (s : Stack α) : Nat := s.above.length + 1

def isEmpty (_ : Stack α) : Bool := false

/-- The root, if nothing else is left. -/
def root? (s : Stack α) : Option α := if s.above.isEmpty then some s.root else none

@[simp] theorem current_push (a : α) (s : Stack α) : (s.push a).current = a := rfl

@[simp] theorem pop?_push (a : α) (s : Stack α) : (s.push a).pop? = some (a, s) := rfl

@[simp] theorem size_push (a : α) (s : Stack α) : (s.push a).size = s.size + 1 := rfl

end Stack

end TemplateCompiler

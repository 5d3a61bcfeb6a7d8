/-!
The names of one template. Slot 0 is `this`; block params, named arguments and named blocks get
slots from 1 on, in order of allocation. Free variables have a list of their own, each name once.

Scopes are numbered in order of creation, from the root, which binds nothing and has number 0. A
scope's parent is older than the scope.

Slots, indices and scope numbers are meant to fit in 32 bits: a table is for fewer than `2 ^ 32`
names. They are natural numbers here, so that nothing wraps around.
-/

namespace TemplateCompiler

/-- The names bound by one block, and their slots. -/
structure Scope where
  parent : Option Nat
  locals : List String
  slots : List Nat
deriving DecidableEq, Inhabited

/-- The slot of the first local with a name. -/
def Scope.slot? (name : String) (scope : Scope) : Option Nat :=
  (scope.locals.zip scope.slots).lookup name

structure SymbolTable where
  scopes : List Scope
  symbols : List String
  upvars : List String
  /-- The slots of named arguments, without their sigil. -/
  named : List (String × Nat)
  /-- The slots of named blocks, without their sigil. -/
  blocks : List (String × Nat)
  hasEval : Bool
deriving DecidableEq, Inhabited

namespace SymbolTable

def rootScope : Nat := 0

def empty : SymbolTable := ⟨[⟨none, [], []⟩], [], [], [], [], false⟩

/-- A fresh slot for a name. -/
def allocate (name : String) (t : SymbolTable) : Nat × SymbolTable :=
  (t.symbols.length + 1, { t with symbols := t.symbols ++ [name] })

/-- The index of a free variable, which is added on first use. -/
def allocateFree (name : String) (t : SymbolTable) : Nat × SymbolTable :=
  if name ∈ t.upvars then (t.upvars.idxOf name, t)
  else (t.upvars.length, { t with upvars := t.upvars ++ [name] })

/-- The slot of a named argument, which is allocated on first use. -/
def allocateNamed (name : String) (t : SymbolTable) : Nat × SymbolTable :=
  match t.named.lookup name with
  | some slot => (slot, t)
  | none =>
    let (slot, t) := t.allocate ("@" ++ name)
    (slot, { t with named := t.named ++ [(name, slot)] })

/-- An inverse block is an `else` block. -/
def blockName (name : String) : String := if name = "inverse" then "else" else name

/-- The slot of a named block, which is allocated on first use. -/
def allocateBlock (name : String) (t : SymbolTable) : Nat × SymbolTable :=
  let name := blockName name
  match t.blocks.lookup name with
  | some slot => (slot, t)
  | none =>
    let (slot, t) := t.allocate ("&" ++ name)
    (slot, { t with blocks := t.blocks ++ [(name, slot)] })

def allocateAll : List String → SymbolTable → List Nat × SymbolTable
  | [], t => ([], t)
  | name :: rest, t =>
    let (slot, t) := t.allocate name
    let (slots, t) := allocateAll rest t
    (slot :: slots, t)

/-- A new scope beneath a parent, with a slot for each of its names. -/
def child (parent : Nat) (locals : List String) (t : SymbolTable) : Nat × SymbolTable :=
  let (slots, t) := allocateAll locals t
  (t.scopes.length, { t with scopes := t.scopes ++ [⟨some parent, locals, slots⟩] })

/-- A scope and its ancestors, innermost first; `fuel` bounds their number. -/
def ancestry (scopes : List Scope) : Nat → Nat → List Scope
  | 0, _ => []
  | fuel + 1, id =>
    match scopes[id]? with
    | none => []
    | some scope =>
      scope ::
        match scope.parent with
        | none => []
        | some parent => ancestry scopes fuel parent

/-- A scope and its ancestors, innermost first. As parents are older, there are no more of them than
the scope's number says. -/
def chain (t : SymbolTable) (scope : Nat) : List Scope := ancestry t.scopes (scope + 1) scope

/-- The slot that a name has in a scope: in the innermost scope that binds it. -/
def get? (t : SymbolTable) (scope : Nat) (name : String) : Option Nat :=
  (t.chain scope).findSome? (Scope.slot? name)

def has (t : SymbolTable) (scope : Nat) (name : String) : Bool := (t.get? scope name).isSome

def locals (t : SymbolTable) (scope : Nat) : List String :=
  ((t.scopes[scope]?).map Scope.locals).getD []

def slots (t : SymbolTable) (scope : Nat) : List Nat :=
  ((t.scopes[scope]?).map Scope.slots).getD []

/-- Gives a name a slot; a name that has one keeps its place. -/
def rebind (name : String) (slot : Nat) : List (String × Nat) → List (String × Nat)
  | [] => [(name, slot)]
  | (n, s) :: rest => if n = name then (n, slot) :: rest else (n, s) :: rebind name slot rest

/-- The slots of all names visible from a scope, outermost first. An inner name takes the place of
the outer one that it hides. -/
def evalInfo (t : SymbolTable) (scope : Nat) : List Nat :=
  let bindings := (t.chain scope).reverse.flatMap fun s => s.locals.zip s.slots
  (bindings.foldl (fun visible (name, slot) => rebind name slot visible) []).map Prod.snd

def setHasEval (t : SymbolTable) : SymbolTable := { t with hasEval := true }

end SymbolTable

end TemplateCompiler

/-!
Inconsistencies between the stages of the compiler. None of them is the fault of a template: they
are noticed in plans and programs that no template leads to.
-/

namespace TemplateCompiler

inductive OperandKind where
  | expression
  | params
  | hash
  | string
deriving DecidableEq

namespace OperandKind

/-- The operand that was needed. -/
def wanted : OperandKind → String
  | .expression => "an expression"
  | .params => "params"
  | .hash => "a hash"
  | .string => "a string"

/-- The operand that was there. -/
def found : OperandKind → String
  | .expression => "Expr"
  | .params => "Params"
  | .hash => "Hash"
  | .string => "String"

end OperandKind

inductive ContainerKind where
  | template
  | named
  | component
deriving DecidableEq

def ContainerKind.name : ContainerKind → String
  | .template => "Template"
  | .named => "Named"
  | .component => "Component"

inductive Defect where
  | noScope
  /-- A scope number that the table does not have. -/
  | unknownScope
  | unbalancedPlan
  | unbalancedScopes
  | missingOperand (wanted : OperandKind)
  | wrongOperand (wanted found : OperandKind)
  | operandsBetweenStatements
  | templateClosed
  | notComponent (found : ContainerKind)
  | notNamedBlock (found : ContainerKind)
  | notBlock (found : ContainerKind)
  | noOpenComponent (found : ContainerKind)
  | missingBlock
  /-- A statement of this name before the content of a component. -/
  | beforeContent (statement : String)
  | operandsLeft
  | blocksUnconsumed
  | blocksOpen (count : Nat)
deriving DecidableEq

def Defect.message : Defect → String
  | .noScope => "there must always be a scope"
  | .unknownScope => "scope ids come from this table"
  | .unbalancedPlan => "unbalanced scopes after lowering"
  | .unbalancedScopes => "unbalanced scopes after resolution"
  | .missingOperand wanted => s!"expected {wanted.wanted} but the operand stack is empty"
  | .wrongOperand wanted found =>
    s!"expected {wanted.wanted} on the operand stack, found {found.found}"
  | .operandsBetweenStatements => "operand stack must be empty between statements"
  | .templateClosed => "popped the template block"
  | .notComponent found => s!"closed a component but {found.name} was open"
  | .notNamedBlock found => s!"closed a named block but {found.name} was open"
  | .notBlock found => s!"ended a block but {found.name} was open"
  | .noOpenComponent found => s!"expected an open component, found {found.name}"
  | .missingBlock => "a block invocation must follow its blocks"
  | .beforeContent statement => s!"{statement} cannot appear before a component is flushed"
  | .operandsLeft => "operands left on the stack"
  | .blocksUnconsumed => "blocks left unconsumed"
  | .blocksOpen count => s!"{count} blocks left open"

end TemplateCompiler

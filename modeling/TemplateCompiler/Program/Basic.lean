import TemplateCompiler.SymbolTable
import TemplateCompiler.Template.Basic
import TemplateCompiler.Wire.Opcode

/-!
Programs: a template as a flat list of operations for a machine with operands. An operation on
expressions leaves one operand; an operation on statements takes its operands and leaves none.
-/

namespace TemplateCompiler

namespace Program

inductive Op where
  | literal (value : Literal)
  | getSymbol (slot : Nat)
  | getFree (index : Nat)
  | getFreeWithContext (index : Nat) (context : Context)
  /-- Takes the head. -/
  | getPath (tail : List String)
  /-- Takes the parts as positional arguments. -/
  | concat
  /-- Takes the head, then positional, then named arguments. -/
  | call
  | hasBlock (slot : Nat)
  | hasBlockParams (slot : Nat)
  /-- Takes as many expressions; they become positional arguments. -/
  | prepareArray (count : Nat)
  /-- Takes as many keys, each with the value beneath it; they become named arguments. -/
  | prepareObject (count : Nat)
  | pushString (value : String)
  | append
  | trustingAppend
  | comment (value : String)
  | openElement (tag : String)
  | openElementWithSplat (tag : String)
  /-- Takes the tag. -/
  | openComponent (selfClosing : Bool) (parameters : List Nat)
  | openNamedBlock (name : String) (parameters : List Nat)
  | flushElement
  | closeElement
  | closeComponent
  | closeNamedBlock
  /-- Takes the value. -/
  | attr (kind : AttributeKind) (name : String) (space : Option String)
  | staticArg (name : String)
  | dynamicArg (name : String)
  | attrSplat (slot : Nat)
  /-- Takes the head, then positional, then named arguments. -/
  | modifier
  | startBlock (name : String) (parameters : List Nat)
  | endBlock
  /-- Takes the blocks that have ended, and the operands of a call. -/
  | invokeBlock (hasInverse : Bool)
  /-- Takes positional arguments. -/
  | yield (slot : Nat)
  /-- Takes the name. -/
  | partialTemplate (evalInfo : List Nat)
  | debugger (evalInfo : List Nat)
  /-- Takes what the content goes before, if there is that, then the destination. -/
  | inElement (guid : String) (hasInsertBefore : Bool)

/-- Whether an operation leaves an operand. -/
def Op.isExpression : Op → Bool
  | .literal _ | .getSymbol _ | .getFree _ | .getFreeWithContext _ _ | .getPath _ | .concat
  | .call | .hasBlock _ | .hasBlockParams _ | .prepareArray _ | .prepareObject _
  | .pushString _ => true
  | _ => false

end Program

/-- Operations, and the table that their slots belong to. -/
structure Program where
  ops : List (Located Program.Op)
  table : SymbolTable

end TemplateCompiler

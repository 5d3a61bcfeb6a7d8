/-!
The numbers of the wire format: one for every kind of statement and for most kinds of expressions.
-/

namespace TemplateCompiler

/-- Where a bare name stands. A free variable is looked up differently when it is shown, called,
opened as a block, used as a modifier, or rendered as a component. -/
inductive Context where
  | appendSingleId
  | expression
  | callHead
  | blockHead
  | modifierHead
  | componentHead
deriving DecidableEq, Inhabited

namespace Context

def all : List Context :=
  [.appendSingleId, .expression, .callHead, .blockHead, .modifierHead, .componentHead]

def name : Context → String
  | .appendSingleId => "AppendSingleId"
  | .expression => "Expression"
  | .callHead => "CallHead"
  | .blockHead => "BlockHead"
  | .modifierHead => "ModifierHead"
  | .componentHead => "ComponentHead"

end Context

/-- How an attribute gets its value, and whether it belongs to a component. -/
inductive AttributeKind where
  | static
  | dynamic
  | component
  | staticComponent
  | trustingDynamic
  | trustingComponent
deriving DecidableEq, Inhabited

namespace AttributeKind

def all : List AttributeKind :=
  [.static, .dynamic, .component, .staticComponent, .trustingDynamic, .trustingComponent]

def name : AttributeKind → String
  | .static => "Static"
  | .dynamic => "Dynamic"
  | .component => "Component"
  | .staticComponent => "StaticComponent"
  | .trustingDynamic => "TrustingDynamic"
  | .trustingComponent => "TrustingComponent"

end AttributeKind

namespace Wire

inductive Opcode where
  | append
  | trustingAppend
  | comment
  | modifier
  | block
  | component
  | openElement
  | openElementWithSplat
  | flushElement
  | closeElement
  | staticAttr
  | dynamicAttr
  | componentAttr
  | attrSplat
  | yield
  | partialTemplate
  | dynamicArg
  | staticArg
  | trustingDynamicAttr
  | trustingComponentAttr
  | staticComponentAttr
  | debugger
  | inElement
  | undefined
  | call
  | concat
  | getSymbol
  | getFree
  | getFreeInAppendSingleId
  | getFreeInExpression
  | getFreeInCallHead
  | getFreeInBlockHead
  | getFreeInModifierHead
  | getFreeInComponentHead
  | getPath
  | hasBlock
  | hasBlockParams
deriving DecidableEq, Inhabited

namespace Opcode

def all : List Opcode :=
  [.append, .trustingAppend, .comment, .modifier, .block, .component, .openElement,
    .openElementWithSplat, .flushElement, .closeElement, .staticAttr, .dynamicAttr,
    .componentAttr, .attrSplat, .yield, .partialTemplate, .dynamicArg, .staticArg,
    .trustingDynamicAttr, .trustingComponentAttr, .staticComponentAttr, .debugger,
    .inElement, .undefined, .call, .concat, .getSymbol, .getFree, .getFreeInAppendSingleId,
    .getFreeInExpression, .getFreeInCallHead, .getFreeInBlockHead, .getFreeInModifierHead,
    .getFreeInComponentHead, .getPath, .hasBlock, .hasBlockParams]

def code : Opcode → Nat
  | .append => 1
  | .trustingAppend => 2
  | .comment => 3
  | .modifier => 4
  | .block => 6
  | .component => 8
  | .openElement => 10
  | .openElementWithSplat => 11
  | .flushElement => 12
  | .closeElement => 13
  | .staticAttr => 14
  | .dynamicAttr => 15
  | .componentAttr => 16
  | .attrSplat => 17
  | .yield => 18
  | .partialTemplate => 19
  | .dynamicArg => 20
  | .staticArg => 21
  | .trustingDynamicAttr => 22
  | .trustingComponentAttr => 23
  | .staticComponentAttr => 24
  | .debugger => 26
  | .inElement => 40
  | .undefined => 27
  | .call => 28
  | .concat => 29
  | .getSymbol => 30
  | .getFree => 32
  | .getFreeInAppendSingleId => 33
  | .getFreeInExpression => 34
  | .getFreeInCallHead => 35
  | .getFreeInBlockHead => 36
  | .getFreeInModifierHead => 37
  | .getFreeInComponentHead => 38
  | .getPath => 39
  | .hasBlock => 48
  | .hasBlockParams => 49

def name : Opcode → String
  | .append => "Append"
  | .trustingAppend => "TrustingAppend"
  | .comment => "Comment"
  | .modifier => "Modifier"
  | .block => "Block"
  | .component => "Component"
  | .openElement => "OpenElement"
  | .openElementWithSplat => "OpenElementWithSplat"
  | .flushElement => "FlushElement"
  | .closeElement => "CloseElement"
  | .staticAttr => "StaticAttr"
  | .dynamicAttr => "DynamicAttr"
  | .componentAttr => "ComponentAttr"
  | .attrSplat => "AttrSplat"
  | .yield => "Yield"
  | .partialTemplate => "Partial"
  | .dynamicArg => "DynamicArg"
  | .staticArg => "StaticArg"
  | .trustingDynamicAttr => "TrustingDynamicAttr"
  | .trustingComponentAttr => "TrustingComponentAttr"
  | .staticComponentAttr => "StaticComponentAttr"
  | .debugger => "Debugger"
  | .inElement => "InElement"
  | .undefined => "Undefined"
  | .call => "Call"
  | .concat => "Concat"
  | .getSymbol => "GetSymbol"
  | .getFree => "GetFree"
  | .getFreeInAppendSingleId => "GetFreeInAppendSingleId"
  | .getFreeInExpression => "GetFreeInExpression"
  | .getFreeInCallHead => "GetFreeInCallHead"
  | .getFreeInBlockHead => "GetFreeInBlockHead"
  | .getFreeInModifierHead => "GetFreeInModifierHead"
  | .getFreeInComponentHead => "GetFreeInComponentHead"
  | .getPath => "GetPath"
  | .hasBlock => "HasBlock"
  | .hasBlockParams => "HasBlockParams"

/-- The opcode with a number. -/
def ofCode? (code : Nat) : Option Opcode := all.find? fun op => op.code == code

/-- The context that a read of a free variable was written in. -/
def context? : Opcode → Option Context
  | .getFreeInAppendSingleId => some .appendSingleId
  | .getFreeInExpression => some .expression
  | .getFreeInCallHead => some .callHead
  | .getFreeInBlockHead => some .blockHead
  | .getFreeInModifierHead => some .modifierHead
  | .getFreeInComponentHead => some .componentHead
  | _ => none

/-- The read of a free variable in a context. -/
def ofContext : Context → Opcode
  | .appendSingleId => .getFreeInAppendSingleId
  | .expression => .getFreeInExpression
  | .callHead => .getFreeInCallHead
  | .blockHead => .getFreeInBlockHead
  | .modifierHead => .getFreeInModifierHead
  | .componentHead => .getFreeInComponentHead

/-- The kind of attribute that an opcode sets. -/
def attribute? : Opcode → Option AttributeKind
  | .staticAttr => some .static
  | .dynamicAttr => some .dynamic
  | .componentAttr => some .component
  | .staticComponentAttr => some .staticComponent
  | .trustingDynamicAttr => some .trustingDynamic
  | .trustingComponentAttr => some .trustingComponent
  | _ => none

/-- The opcode that sets a kind of attribute. -/
def ofAttribute : AttributeKind → Opcode
  | .static => .staticAttr
  | .dynamic => .dynamicAttr
  | .component => .componentAttr
  | .staticComponent => .staticComponentAttr
  | .trustingDynamic => .trustingDynamicAttr
  | .trustingComponent => .trustingComponentAttr

/-- An operation is found by its code, so no two share one. -/
theorem ofCode?_code (op : Opcode) : ofCode? op.code = some op := by
  cases op <;> rfl

theorem context?_ofContext (c : Context) : (ofContext c).context? = some c := by
  cases c <;> rfl

theorem attribute?_ofAttribute (k : AttributeKind) : (ofAttribute k).attribute? = some k := by
  cases k <;> rfl

end Opcode

end Wire

end TemplateCompiler

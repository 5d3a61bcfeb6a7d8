import TemplateCompiler.Plan.Expression
import TemplateCompiler.Template.Tag

/-!
Planning the opening tag of an element: its attributes, arguments and modifiers.
-/

namespace TemplateCompiler.Plan

open Template (Attribute AttributeValue ConcatPart Modifier Mustache TagKind TextNode)

/-- The namespace of attributes that are only accepted with one. -/
def attributeNamespace? (name : String) : Option String :=
  if name ∈ ["xlink:actuate", "xlink:arcrole", "xlink:href", "xlink:role", "xlink:show",
      "xlink:title", "xlink:type"] then some "http://www.w3.org/1999/xlink"
  else if name ∈ ["xml:base", "xml:lang", "xml:space"] then
    some "http://www.w3.org/XML/1998/namespace"
  else if name ∈ ["xmlns", "xmlns:xlink"] then some "http://www.w3.org/2000/xmlns/"
  else none

def planText (node : TextNode) : Located Expression := ⟨.literal (.string node.chars), node.loc⟩

/-- A mustache as a value. With arguments, its head must be a plain name. -/
def planAttributeMustache (m : Mustache) : Planned (Located Expression) :=
  match m.path with
  | .path p =>
    match BlockTest.ofPath? p with
    | some test => test.plan m.params m.hash m.loc
    | none =>
      if hasArguments m.params m.hash then
        if p.isSimple then planCall p m.params m.hash m.loc
        else .error (.invalidHelperName p.written m.loc)
      else planPath (if p.isSimple then .appendSingleId else .expression) p
  | other => planExpression .expression other

def planConcatPart : ConcatPart → Planned (Located Expression)
  | .text node => .ok (planText node)
  | .mustache m => planAttributeMustache m

def planAttributeValue : AttributeValue → Planned (Located Expression)
  | .text node => .ok (planText node)
  | .mustache m => planAttributeMustache m
  | .concat parts loc => do
    let list ← parts.mapM planConcatPart
    pure ⟨.concat ⟨list, loc⟩, loc⟩

/-- Whether a value is written in triple curly braces. -/
def isTrusting : AttributeValue → Bool
  | .mustache m => m.trusting
  | _ => false

/-- The kind of an attribute, by its value and the element it is on. -/
def attributeKind (literal trusting component : Bool) : AttributeKind :=
  match literal, trusting, component with
  | true, _, false => .static
  | true, _, true => .staticComponent
  | false, true, false => .trustingDynamic
  | false, true, true => .trustingComponent
  | false, false, false => .dynamic
  | false, false, true => .component

/-- One attribute of an element with a tag of some kind. -/
def planAttribute (kind : TagKind) (tag : String) (a : Attribute) : Planned (Located Statement) :=
  if Template.startsWith a.name '@' then
    if kind.hasComponentFeatures then do
      let value ← planAttributeValue a.value
      pure ⟨.arg a.name value, a.loc⟩
    else .error (.argumentOnElement a.name tag a.loc)
  else if a.name = Template.splattributes then .ok ⟨.attrSplat, a.loc⟩
  else do
    let value ← planAttributeValue a.value
    let attrKind :=
      attributeKind value.value.isLiteral (isTrusting a.value) kind.hasComponentFeatures
    pure ⟨.attr attrKind a.name (attributeNamespace? a.name) value, a.loc⟩

/-- The attributes in the order in which they are set: source order, but the last `type` comes at
the end and takes the place of the others. -/
def attributeOrder (attributes : List Attribute) : List Attribute :=
  attributes.filter (·.name != "type") ++ (attributes.filter (·.name == "type")).getLast?.toList

def planAttributes (kind : TagKind) (tag : String) (attributes : List Attribute) :
    Planned (List (Located Statement)) :=
  (attributeOrder attributes).mapM (planAttribute kind tag)

def planModifier (m : Modifier) : Planned (Located Statement) := do
  let head ← planPath .modifierHead m.path
  let params ← planParams m.params
  let hash ← planHash m.hash
  pure ⟨.modifier head params hash, m.loc⟩

end TemplateCompiler.Plan

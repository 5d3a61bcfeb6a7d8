import TemplateCompiler.Plan.OfTemplate

/-!
# Bare names

The places of a template where a name stands that is neither `this` nor an argument: it belongs to
a block around it, or else is free. Names are listed in the order in which they get their slots,
which is not that of the source: named arguments come before positional ones, both from the last to
the first, and the head comes at the end.

The list is found twice, from the source and from the plan.
-/

namespace TemplateCompiler

/-- A bare name, and the kind of place that it stands in. -/
structure Mention where
  name : String
  context : Context
deriving DecidableEq

/-- A bare name, and the scope that was current when it was seen. -/
structure Sighting where
  scope : Nat
  mention : Mention
deriving DecidableEq

/-- Bare names that were seen in one scope. -/
def sightings (scope : Nat) (names : List Mention) : List Sighting := names.map (⟨scope, ·⟩)

theorem sightings_append (scope : Nat) (names others : List Mention) :
    sightings scope (names ++ others) = sightings scope names ++ sightings scope others :=
  List.map_append

namespace Template

open Plan (BlockTest Keyword)

/-- The name that a path starts with. -/
def Path.mentions (context : Context) (p : Path) : List Mention :=
  if p.isThis || p.isArg then [] else (p.parts.head?.map (⟨·, context⟩)).toList

mutual

/-- The bare names in an expression. A block test has none. -/
def Expression.mentions (context : Context) : Expression → List Mention
  | .path p => p.mentions context
  | .call callee params ⟨named, _⟩ _ =>
    match BlockTest.ofPath? callee with
    | some _ => []
    | none => mentionsOfPairs named ++ mentionsOfParams params ++ callee.mentions .callHead
  | .literal _ _ => []

def mentionsOfParams : List Expression → List Mention
  | [] => []
  | e :: rest => mentionsOfParams rest ++ e.mentions .expression

def mentionsOfPairs : List (Pair Expression) → List Mention
  | [] => []
  | ⟨_, value, _⟩ :: rest => mentionsOfPairs rest ++ value.mentions .expression

end

def mentionsOfCall (context : Context) (callee : Path) (params : List Expression)
    (hash : Hash Expression) : List Mention :=
  mentionsOfPairs hash.pairs ++ mentionsOfParams params ++ callee.mentions context

/-! ### Opening tags -/

def Mustache.valueMentions (m : Mustache) : List Mention :=
  match m.path with
  | .path p =>
    match BlockTest.ofPath? p with
    | some _ => []
    | none =>
      if Plan.hasArguments m.params m.hash then mentionsOfCall .callHead p m.params m.hash
      else p.mentions (if p.isSimple then .appendSingleId else .expression)
  | other => other.mentions .expression

def ConcatPart.mentions : ConcatPart → List Mention
  | .text _ => []
  | .mustache m => m.valueMentions

/-- The bare names in the pieces of a value, which are read from the last to the first. -/
def mentionsOfParts : List ConcatPart → List Mention
  | [] => []
  | part :: rest => mentionsOfParts rest ++ part.mentions

def AttributeValue.mentions : AttributeValue → List Mention
  | .text _ => []
  | .mustache m => m.valueMentions
  | .concat parts _ => mentionsOfParts parts

def Attribute.mentions (a : Attribute) : List Mention :=
  if !startsWith a.name '@' && a.name = splattributes then [] else a.value.mentions

def Modifier.mentions (m : Modifier) : List Mention :=
  mentionsOfCall .modifierHead m.path m.params m.hash

/-- The bare names in an opening tag after the tag itself. -/
def Element.openingMentions {σ : Type} (e : Element σ) : List Mention :=
  (Plan.attributeOrder e.attributes).flatMap Attribute.mentions ++
    e.modifiers.flatMap Modifier.mentions

/-- The name that a tag stands for, if it is that of a component. -/
def Element.tagMentions {σ : Type} (rename : String → String) (kind : TagKind) (e : Element σ) :
    List Mention :=
  match kind with
  | .component => [⟨rename e.tag, .componentHead⟩]
  | .dynamicTag p => p.mentions .componentHead
  | _ => []

/-! ### Statements -/

/-- The bare names in a mustache that shows what a path stands for. -/
def Mustache.shownMentions (p : Path) (m : Mustache) : List Mention :=
  match BlockTest.ofPath? p with
  | some _ => []
  | none =>
    if Plan.hasArguments m.params m.hash then mentionsOfCall .callHead p m.params m.hash
    else p.mentions (if 1 < p.parts.length || p.isArg then .expression else .appendSingleId)

def Mustache.mentions (m : Mustache) : List Mention :=
  match m.path with
  | .path p =>
    match Keyword.ofPath? p with
    | some .yield | some .partialTemplate => mentionsOfParams m.params
    | some .debugger => []
    | none => m.shownMentions p
  | other => other.mentions .expression

/-- Whether a mustache reads names at run time. -/
def Mustache.readsNames (m : Mustache) : Bool :=
  match m.path with
  | .path p => Keyword.ofPath? p == some .partialTemplate || Keyword.ofPath? p == some .debugger
  | _ => false

/-- The bare names in an `in-element` block outside of its content. -/
def BlockNode.destinationMentions {σ : Type} (b : BlockNode σ) : List Mention :=
  mentionsOfParams b.params ++
    (b.hash.pairs.getLast?.map fun pair => pair.value.mentions .expression).getD []

end Template

namespace Plan

open Template (Pair)

mutual

def mentions : Located Expression → List Mention
  | ⟨e, _⟩ => mentionsAt e

def mentionsAt : Expression → List Mention
  | .path head _ => mentions head
  | .variable name context => [⟨name, context⟩]
  | .concat ⟨list, _⟩ => mentionsOfList list
  | .call head ⟨list, _⟩ ⟨named, _⟩ =>
    mentionsOfPairs named ++ mentionsOfList list ++ mentions head
  | .literal _ | .arg _ | .self | .hasBlock _ | .hasBlockParams _ => []

def mentionsOfList : List (Located Expression) → List Mention
  | [] => []
  | e :: rest => mentionsOfList rest ++ mentions e

def mentionsOfPairs : List (Pair (Located Expression)) → List Mention
  | [] => []
  | ⟨_, value, _⟩ :: rest => mentionsOfPairs rest ++ mentions value

end

def mentionsOfCall (head : Located Expression) (params : Params (Located Expression))
    (hash : Template.Hash (Located Expression)) : List Mention :=
  mentionsOfPairs hash.pairs ++ mentionsOfList params.list ++ mentions head

/-- The bare names that a statement reads itself, outside of the blocks it may have. -/
def Statement.mentions : Statement → List Mention
  | .append value | .appendTrusted value | .attr _ _ _ value | .arg _ value
  | .partialTemplate value | .openComponent value _ _ => Plan.mentions value
  | .modifier head params hash | .invokeBlock head params hash _ _ =>
    mentionsOfCall head params hash
  | .yield _ params => mentionsOfList params.list
  | .inElement destination before _ _ =>
    Plan.mentions destination ++ (before.map Plan.mentions).getD []
  | .comment _ | .openElement _ | .openElementWithSplat _ | .openNamedBlock _ _ | .flushElement _
  | .closeElement | .closeComponent | .closeDynamicComponent | .closeNamedBlock | .attrSplat
  | .debugger => []

end Plan

end TemplateCompiler

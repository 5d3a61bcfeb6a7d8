import TemplateCompiler.Proofs.Mentions
import TemplateCompiler.Proofs.Outline

/-!
# Bare names and the blocks around them

Every bare name of a template, with the blocks that stand around it. The names of a block hold in
its body and nowhere else: the operands of a block statement, and the tag, the attributes and the
modifiers of a component, stand outside of it, and so does the other block of the statement.

Nothing is looked up here. As in an outline, the innermost block comes first.
-/

namespace TemplateCompiler

open Template (Block BlockNode Element)

/-- What one statement reads by itself, apart from the content it may have. -/
structure Place where
  names : List Mention
  /-- Whether it can also read any visible name, at run time. -/
  evaluates : Bool
  enclosing : List Binder
deriving DecidableEq

/-- A bare name, and the blocks around it. -/
structure Reference where
  mention : Mention
  enclosing : List Binder
deriving DecidableEq

/-- The reference as it would be recorded in the innermost scope around it. -/
def Reference.sighting (r : Reference) : Sighting := ⟨Binder.current r.enclosing, r.mention⟩

namespace Place

def references (p : Place) : List Reference := p.names.map (⟨·, p.enclosing⟩)

def sightings (p : Place) : List Sighting :=
  TemplateCompiler.sightings (Binder.current p.enclosing) p.names

/-- A place refers to the names that are sighted there. -/
theorem sighting_references (p : Place) : p.references.map Reference.sighting = p.sightings := by
  simp [references, sightings, TemplateCompiler.sightings, Reference.sighting]

end Place

namespace Outline

variable (rename : String → String)

mutual

/-- The places of an outline, in the order in which their names get slots. -/
def places (enclosing : List Binder) : Outline → List Place
  | .mustache m => [⟨m.mentions, m.readsNames, enclosing⟩]
  | .text _ | .comment _ | .hidden | .misplaced _ _ => []
  | .invocation ⟨path, params, hash, program, inverse, _⟩ scope other =>
    placesOfInverse enclosing other inverse ++ placesOfBlock enclosing scope program ++
      [⟨Template.mentionsOfCall .blockHead path params hash, false, enclosing⟩]
  | .inElement ⟨path, params, hash, program, inverse, loc⟩ scope _ =>
    let node : BlockNode Outline := ⟨path, params, hash, program, inverse, loc⟩
    placesOfBlock enclosing scope program ++ [⟨node.destinationMentions, false, enclosing⟩]
  | .element _ ⟨tag, attributes, modifiers, children, blockParams, selfClosing, loc⟩ =>
    let node : Element Outline :=
      ⟨tag, attributes, modifiers, children, blockParams, selfClosing, loc⟩
    ⟨node.openingMentions, false, enclosing⟩ :: placesOfAll enclosing children
  | .component kind scope ⟨tag, attributes, modifiers, children, blockParams, selfClosing, loc⟩ =>
    let node : Element Outline :=
      ⟨tag, attributes, modifiers, children, blockParams, selfClosing, loc⟩
    ⟨node.tagMentions rename kind ++ node.openingMentions, false, enclosing⟩ ::
      placesOfAll (⟨scope, blockParams, !children.any isNamed⟩ :: enclosing) children
  | .namedBlock scope ⟨_, _, _, children, blockParams, _, _⟩ =>
    placesOfAll (⟨scope, blockParams, true⟩ :: enclosing) children

def placesOfAll (enclosing : List Binder) : List Outline → List Place
  | [] => []
  | s :: rest => places enclosing s ++ placesOfAll enclosing rest

def placesOfBlock (enclosing : List Binder) (scope : Nat) : Block Outline → List Place
  | ⟨body, names, _⟩ => placesOfAll (⟨scope, names, true⟩ :: enclosing) body

def placesOfInverse (enclosing : List Binder) (scope : Nat) :
    Option (Block Outline) → List Place
  | none => []
  | some block => placesOfBlock enclosing scope block

end

end Outline

namespace Template

def places (rename : String → String) (t : Template) : List Place :=
  Outline.placesOfAll rename [] (Outline.ofTemplate t)

/-- The bare names of a template, in the order in which they get slots. -/
def references (rename : String → String) (t : Template) : List Reference :=
  (t.places rename).flatMap Place.references

end Template

end TemplateCompiler

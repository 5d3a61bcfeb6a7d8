import TemplateCompiler.Template.Basic

/-!
Templates made in code. All spans are synthetic.
-/

namespace TemplateCompiler.Template

def Path.named (text : String) : Path := Path.ofText .synthetic text

namespace Expression

def named (text : String) : Expression := .path (.named text)

def constant (value : Literal) : Expression := .literal value .synthetic

end Expression

def Pair.of {α : Type} (key : String) (value : α) : Pair α := ⟨key, value, .synthetic⟩

def Hash.of {α : Type} (pairs : List (Pair α)) : Hash α := ⟨pairs, .synthetic⟩

namespace Expression

def invoke (callee : String) (params : List Expression) (pairs : List (Pair Expression)) :
    Expression :=
  .call (.named callee) params (.of pairs) .synthetic

end Expression

/-- A mustache that escapes its value. -/
def Mustache.escaping (path : Expression) (params : List Expression)
    (pairs : List (Pair Expression)) : Mustache :=
  ⟨path, params, .of pairs, false, .synthetic⟩

def Mustache.raw (path : Expression) (params : List Expression)
    (pairs : List (Pair Expression)) : Mustache :=
  ⟨path, params, .of pairs, true, .synthetic⟩

def TextNode.of (chars : String) : TextNode := ⟨chars, .synthetic⟩

def CommentNode.of (value : String) : CommentNode := ⟨value, .synthetic⟩

def Block.of {σ : Type} (params : List String) (body : List σ) : Block σ :=
  ⟨body, params, .synthetic⟩

namespace Statement

/-- The value of a path, without arguments. -/
def append (path : String) : Statement := .mustache (.escaping (.named path) [] [])

def invokeBlock (head : String) (params : List Expression) (pairs : List (Pair Expression))
    (program : Block Statement) (inverse : Option (Block Statement)) : Statement :=
  .block ⟨.named head, params, .of pairs, program, inverse, .synthetic⟩

end Statement

namespace Element

variable {σ : Type}

def of (tag : String) : Element σ := ⟨tag, [], [], [], [], false, .synthetic⟩

def addAttribute (name : String) (value : AttributeValue) (loc : Span) (e : Element σ) :
    Element σ :=
  { e with attributes := e.attributes ++ [⟨name, value, loc⟩] }

def addModifier (head : String) (params : List Expression) (pairs : List (Pair Expression))
    (e : Element σ) : Element σ :=
  { e with modifiers := e.modifiers ++ [⟨.named head, params, .of pairs, .synthetic⟩] }

end Element

def of (body : List Statement) : Template := ⟨body, .synthetic⟩

end TemplateCompiler.Template

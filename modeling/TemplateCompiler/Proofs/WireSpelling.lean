import Mathlib.Data.List.Forall2
import TemplateCompiler.Wire.Encoding

/-!
# Spellings of compiled templates

Which JSON values stand for a statement, an expression or a block, said by one rule for every
opcode, with its operands in order. A tree has more than one spelling in five respects, listed by
`Liberty`. The encoder takes none of these liberties; the decoder accepts them all and nothing else.
-/

namespace TemplateCompiler.Wire

/-- Where a spelling may differ from the one that the encoder gives. -/
inductive Liberty where
  /-- No positional arguments, as an empty array. -/
  | emptyParams
  /-- No named arguments, as two empty arrays. -/
  | emptyHash
  /-- A common attribute name in full. -/
  | attributeName
  /-- Any number with the same value as a double. -/
  | numeral
  /-- Members of a block beside its statements and parameters, or in another order. -/
  | members

def Liberty.every (_ : Liberty) : Prop := True

def Liberty.none (_ : Liberty) : Prop := False

/-- A number that fits in the thirty-two bits of a slot or an index. -/
def Fits (n : Nat) : Prop := n < Nat.pow 2 32

instance (n : Nat) : Decidable (Fits n) := inferInstanceAs (Decidable (_ < _))

section Grammar

variable {α : Type} (allowed : Liberty → Prop)

inductive Value.Spelling : Json → Value → Prop
  | string {s : String} : Value.Spelling (.string s) (.string s)
  | boolean {b : Bool} : Value.Spelling (.bool b) (.boolean b)
  | null : Value.Spelling .null .null
  | number {n : Json.Number} {d : Double} (value : n.toDouble = d)
      (shortest : encodeNumber d = .number n ∨ allowed .numeral) :
      Value.Spelling (.number n) (.number d)

inductive AttributeNameSpelling : Json → String → Prop
  | index {i : Nat} {name : String} (common : commonAttributes[i]? = some name) :
      AttributeNameSpelling (.ofNat i) name
  | full {name : String} (uncommon : name ∈ commonAttributes → allowed .attributeName) :
      AttributeNameSpelling (.string name) name

/-- Positional arguments. -/
inductive ParamsSpelling (Item : Json → α → Prop) : Json → List α → Prop
  | null : ParamsSpelling Item .null []
  | array {items : List Json} {params : List α} (each : List.Forall₂ Item items params)
      (present : params = [] → allowed .emptyParams) : ParamsSpelling Item (.array items) params

/-- A list of keys and a list of as many values. -/
inductive TableSpelling (Item : Json → α → Prop) : Json → List (String × α) → Prop
  | pair {values : List Json} {entries : List (String × α)}
      (each : List.Forall₂ Item values (entries.map Prod.snd)) :
      TableSpelling Item (.array [.strings (entries.map Prod.fst), .array values]) entries

/-- Named arguments. -/
inductive HashSpelling (Item : Json → α → Prop) : Json → List (String × α) → Prop
  | null : HashSpelling Item .null []
  | table {json : Json} {hash : List (String × α)} (table : TableSpelling Item json hash)
      (present : hash = [] → allowed .emptyHash) : HashSpelling Item json hash

inductive Expression.Spelling : Json → Expression → Prop
  | undefined : Expression.Spelling (tuple .undefined []) .undefined
  | value {json : Json} {v : Value} (spelled : v.Spelling allowed json) :
      Expression.Spelling json (.value v)
  | getSymbol {slot : Nat} (fits : Fits slot) :
      Expression.Spelling (tuple .getSymbol [.ofNat slot]) (.getSymbol slot)
  | getFree {index : Nat} (fits : Fits index) :
      Expression.Spelling (tuple .getFree [.ofNat index]) (.getFree index)
  | getContextualFree {index : Nat} {context : Context} (fits : Fits index) :
      Expression.Spelling (tuple (.ofContext context) [.ofNat index])
        (.getContextualFree index context)
  | getPath {first : Json} {head : Expression} {tail : List String}
      (headSpelled : Expression.Spelling first head) :
      Expression.Spelling (tuple .getPath [first, .strings tail]) (.getPath head tail)
  | concat {list : Json} {parts : List Expression}
      (partsSpelled : ParamsSpelling allowed Expression.Spelling list parts) :
      Expression.Spelling (tuple .concat [list]) (.concat parts)
  | call {first list named : Json} {head : Expression} {params : List Expression}
      {hash : List (String × Expression)} (headSpelled : Expression.Spelling first head)
      (paramsSpelled : ParamsSpelling allowed Expression.Spelling list params)
      (hashSpelled : HashSpelling allowed Expression.Spelling named hash) :
      Expression.Spelling (tuple .call [first, list, named]) (.call head params hash)
  | hasBlock {target : Json} {block : Expression}
      (blockSpelled : Expression.Spelling target block) :
      Expression.Spelling (tuple .hasBlock [target]) (.hasBlock block)
  | hasBlockParams {target : Json} {block : Expression}
      (blockSpelled : Expression.Spelling target block) :
      Expression.Spelling (tuple .hasBlockParams [target]) (.hasBlockParams block)

mutual

inductive Statement.Spelling : Json → Statement → Prop
  | append {shown : Json} {value : Expression} (valueSpelled : value.Spelling allowed shown) :
      Statement.Spelling (tuple .append [shown]) (.append value)
  | trustingAppend {shown : Json} {value : Expression}
      (valueSpelled : value.Spelling allowed shown) :
      Statement.Spelling (tuple .trustingAppend [shown]) (.trustingAppend value)
  | comment {value : String} : Statement.Spelling (tuple .comment [.string value]) (.comment value)
  | modifier {first list named : Json} {head : Expression} {params : List Expression}
      {hash : List (String × Expression)} (headSpelled : head.Spelling allowed first)
      (paramsSpelled : ParamsSpelling allowed (Expression.Spelling allowed) list params)
      (hashSpelled : HashSpelling allowed (Expression.Spelling allowed) named hash) :
      Statement.Spelling (tuple .modifier [first, list, named]) (.modifier head params hash)
  | block {first list named table : Json} {head : Expression} {params : List Expression}
      {hash : List (String × Expression)} {blocks : List (String × InlineBlock Statement)}
      (headSpelled : head.Spelling allowed first)
      (paramsSpelled : ParamsSpelling allowed (Expression.Spelling allowed) list params)
      (hashSpelled : HashSpelling allowed (Expression.Spelling allowed) named hash)
      (blocksSpelled : TableSpelling InlineBlock.Spelling table blocks) :
      Statement.Spelling (tuple .block [first, list, named, table]) (.block head params hash blocks)
  | selfClosing {first named : Json} {items : List Json} {tag : Expression}
      {attrs : List Statement} {args : List (String × Expression)}
      (tagSpelled : tag.Spelling allowed first)
      (attrsSpelled : List.Forall₂ Statement.Spelling items attrs)
      (argsSpelled : HashSpelling allowed (Expression.Spelling allowed) named args) :
      Statement.Spelling (tuple .component [first, .array items, named, .null])
        (.component tag attrs args none)
  | component {first named table : Json} {items : List Json} {tag : Expression}
      {attrs : List Statement} {args : List (String × Expression)}
      {blocks : List (String × InlineBlock Statement)} (tagSpelled : tag.Spelling allowed first)
      (attrsSpelled : List.Forall₂ Statement.Spelling items attrs)
      (argsSpelled : HashSpelling allowed (Expression.Spelling allowed) named args)
      (blocksSpelled : TableSpelling InlineBlock.Spelling table blocks) :
      Statement.Spelling (tuple .component [first, .array items, named, table])
        (.component tag attrs args (some blocks))
  | openElement {tag : String} :
      Statement.Spelling (tuple .openElement [.string tag]) (.openElement tag)
  | openElementWithSplat {tag : String} :
      Statement.Spelling (tuple .openElementWithSplat [.string tag]) (.openElementWithSplat tag)
  | flushElement : Statement.Spelling (tuple .flushElement []) .flushElement
  | closeElement : Statement.Spelling (tuple .closeElement []) .closeElement
  | attr {kind : AttributeKind} {called shown : Json} {name : String} {value : Expression}
      (nameSpelled : AttributeNameSpelling allowed called name)
      (valueSpelled : value.Spelling allowed shown) :
      Statement.Spelling (tuple (.ofAttribute kind) [called, shown]) (.attr kind name value none)
  | attrInSpace {kind : AttributeKind} {called shown : Json} {name space : String}
      {value : Expression} (nameSpelled : AttributeNameSpelling allowed called name)
      (valueSpelled : value.Spelling allowed shown) :
      Statement.Spelling (tuple (.ofAttribute kind) [called, shown, .string space])
        (.attr kind name value (some space))
  | staticArg {name : String} {shown : Json} {value : Expression}
      (valueSpelled : value.Spelling allowed shown) :
      Statement.Spelling (tuple .staticArg [.string name, shown]) (.staticArg name value)
  | dynamicArg {name : String} {shown : Json} {value : Expression}
      (valueSpelled : value.Spelling allowed shown) :
      Statement.Spelling (tuple .dynamicArg [.string name, shown]) (.dynamicArg name value)
  | attrSplat {slot : Nat} (fits : Fits slot) :
      Statement.Spelling (tuple .attrSplat [.ofNat slot]) (.attrSplat slot)
  | yield {slot : Nat} {list : Json} {params : List Expression} (fits : Fits slot)
      (paramsSpelled : ParamsSpelling allowed (Expression.Spelling allowed) list params) :
      Statement.Spelling (tuple .yield [.ofNat slot, list]) (.yield slot params)
  | partialTemplate {first : Json} {name : Expression} {evalInfo : List Nat}
      (nameSpelled : name.Spelling allowed first) (fits : ∀ slot ∈ evalInfo, Fits slot) :
      Statement.Spelling (tuple .partialTemplate [first, .nats evalInfo])
        (.partialTemplate name evalInfo)
  | debugger {evalInfo : List Nat} (fits : ∀ slot ∈ evalInfo, Fits slot) :
      Statement.Spelling (tuple .debugger [.nats evalInfo]) (.debugger evalInfo)
  | inElement {body target : Json} {block : InlineBlock Statement} {guid : String}
      {destination : Expression} (blockSpelled : InlineBlock.Spelling body block)
      (destinationSpelled : destination.Spelling allowed target) :
      Statement.Spelling (tuple .inElement [body, .string guid, target])
        (.inElement block guid destination none)
  | inElementBefore {body target next : Json} {block : InlineBlock Statement} {guid : String}
      {destination insertBefore : Expression} (blockSpelled : InlineBlock.Spelling body block)
      (destinationSpelled : destination.Spelling allowed target)
      (beforeSpelled : insertBefore.Spelling allowed next) :
      Statement.Spelling (tuple .inElement [body, .string guid, target, next])
        (.inElement block guid destination (some insertBefore))

inductive InlineBlock.Spelling : Json → InlineBlock Statement → Prop
  | object {members : List (String × Json)} {items : List Json} {statements : List Statement}
      {parameters : List Nat} (statementsFound : members.lookup "statements" = some (.array items))
      (parametersFound : members.lookup "parameters" = some (.nats parameters))
      (each : List.Forall₂ Statement.Spelling items statements)
      (fits : ∀ slot ∈ parameters, Fits slot)
      (alone : .object members = blockObject items parameters ∨ allowed .members) :
      InlineBlock.Spelling (.object members) ⟨statements, parameters⟩

end

end Grammar

end TemplateCompiler.Wire

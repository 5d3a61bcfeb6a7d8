import TemplateCompiler.Json.Reader
import TemplateCompiler.Wire.Decoding

/-!
Compiled templates as JSON text, and back.
-/

namespace TemplateCompiler

open Json (Reader Shape)

namespace CompiledTemplate

def toJson (t : CompiledTemplate) : Json :=
  .object
    [("symbols", .strings t.symbols), ("upvars", .strings t.upvars), ("hasEval", .bool t.hasEval),
      ("statements", .array (Wire.encodeStatements t.statements))]

def toText (t : CompiledTemplate) : String := t.toJson.text

def shape : Shape :=
  ⟨"struct SerializedTemplateBlock", ["symbols", "upvars", "hasEval", "statements"]⟩

/-- A statement is read as a value before it is decoded. -/
def statementReader : Reader Wire.Statement := fun source draft => do
  let json ← Reader.value source draft
  match Wire.decodeStatement json with
  | .ok statement => .ok statement
  | .error e => .error (.refused e.message)

def reader : Reader CompiledTemplate :=
  .record shape fun row =>
    CompiledTemplate.mk <$> row.required "symbols" (.list .string) <*>
      row.required "upvars" (.list .string) <*> row.required "hasEval" .bool <*>
      row.required "statements" (.list statementReader)

def ofText (text : String) : Except Json.Complaint CompiledTemplate := reader.ofText text

end CompiledTemplate

end TemplateCompiler

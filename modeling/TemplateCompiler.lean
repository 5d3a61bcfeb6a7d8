import TemplateCompiler.Assembly
import TemplateCompiler.Compile
import TemplateCompiler.Defect
import TemplateCompiler.Diagnostic.Basic
import TemplateCompiler.Diagnostic.Snippet
import TemplateCompiler.Double.Basic
import TemplateCompiler.Double.Decimal
import TemplateCompiler.Json.Basic
import TemplateCompiler.Json.Draft
import TemplateCompiler.Json.Printer
import TemplateCompiler.Json.Reader
import TemplateCompiler.Plan.Attribute
import TemplateCompiler.Plan.Basic
import TemplateCompiler.Plan.Expression
import TemplateCompiler.Plan.OfTemplate
import TemplateCompiler.Plan.Rejection
import TemplateCompiler.Program.Basic
import TemplateCompiler.Program.Expression
import TemplateCompiler.Program.OfPlan
import TemplateCompiler.Span
import TemplateCompiler.Stack
import TemplateCompiler.SymbolTable
import TemplateCompiler.Template.Basic
import TemplateCompiler.Template.Builder
import TemplateCompiler.Template.Printer
import TemplateCompiler.Template.Reader
import TemplateCompiler.Template.Tag
import TemplateCompiler.Text.Classes
import TemplateCompiler.Text.Extending
import TemplateCompiler.Text.Printing
import TemplateCompiler.Text.Width
import TemplateCompiler.Wire.Basic
import TemplateCompiler.Wire.Decoding
import TemplateCompiler.Wire.Document
import TemplateCompiler.Wire.Encoding
import TemplateCompiler.Wire.Opcode
import TemplateCompiler.Proofs.Acceptance
import TemplateCompiler.Proofs.BlockParams
import TemplateCompiler.Proofs.ByteOffsets
import TemplateCompiler.Proofs.Closedness
import TemplateCompiler.Proofs.Compilation
import TemplateCompiler.Proofs.ComponentTags
import TemplateCompiler.Proofs.Content
import TemplateCompiler.Proofs.Cursors
import TemplateCompiler.Proofs.Direct
import TemplateCompiler.Proofs.DocumentText
import TemplateCompiler.Proofs.DottedPaths
import TemplateCompiler.Proofs.Doubles
import TemplateCompiler.Proofs.ElementGrammar
import TemplateCompiler.Proofs.ElementStructure
import TemplateCompiler.Proofs.Escaping
import TemplateCompiler.Proofs.EvalFlag
import TemplateCompiler.Proofs.ExactTables
import TemplateCompiler.Proofs.Growth
import TemplateCompiler.Proofs.JsonText
import TemplateCompiler.Proofs.Layout
import TemplateCompiler.Proofs.LexicalScope
import TemplateCompiler.Proofs.Mentions
import TemplateCompiler.Proofs.NameRequests
import TemplateCompiler.Proofs.NameSlots
import TemplateCompiler.Proofs.NestedReading
import TemplateCompiler.Proofs.OpeningTags
import TemplateCompiler.Proofs.Operands
import TemplateCompiler.Proofs.Outcomes
import TemplateCompiler.Proofs.Outline
import TemplateCompiler.Proofs.PlanTrace
import TemplateCompiler.Proofs.Planning
import TemplateCompiler.Proofs.ProgramTrace
import TemplateCompiler.Proofs.RecordReading
import TemplateCompiler.Proofs.References
import TemplateCompiler.Proofs.Rendering
import TemplateCompiler.Proofs.Rereading
import TemplateCompiler.Proofs.Running
import TemplateCompiler.Proofs.RuntimeNames
import TemplateCompiler.Proofs.Shapes
import TemplateCompiler.Proofs.Sites
import TemplateCompiler.Proofs.Slots
import TemplateCompiler.Proofs.StrictMode
import TemplateCompiler.Proofs.TableHistory
import TemplateCompiler.Proofs.TemplateJson
import TemplateCompiler.Proofs.TemplateRewriting
import TemplateCompiler.Proofs.TemplateSchema
import TemplateCompiler.Proofs.Translation
import TemplateCompiler.Proofs.UntrustedPlan
import TemplateCompiler.Proofs.UntrustedProgram
import TemplateCompiler.Proofs.Untrusting
import TemplateCompiler.Proofs.Validity
import TemplateCompiler.Proofs.WireAcceptance
import TemplateCompiler.Proofs.WireReads
import TemplateCompiler.Proofs.WireRoundTrip
import TemplateCompiler.Proofs.WireSpelling
import TemplateCompiler.Proofs.WireTree
import TemplateCompiler.Proofs.WireWriting

import TemplateCompiler.Assembly
import TemplateCompiler.Plan.OfTemplate
import TemplateCompiler.Program.OfPlan

/-!
Compiling templates: the template is planned, its names get slots, and the result is assembled.
-/

namespace TemplateCompiler

structure Options where
  /-- Applied to the tags of components before they become free variables. -/
  customizeComponentName : Option (String → String)
  /-- Free variables are read without a context. -/
  strictMode : Bool

namespace Options

def default : Options := ⟨none, false⟩

def rename (o : Options) : String → String := o.customizeComponentName.getD id

def mode (o : Options) : Program.Mode := ⟨o.strictMode⟩

def describe (o : Options) : String :=
  "CompileOptions \x7b customize_component_name: " ++ toString o.customizeComponentName.isSome ++
    ", strict_mode: " ++ toString o.strictMode ++ " \x7d"

end Options

/-- The plan of a template under some options. -/
def Template.plan (o : Options) (t : Template) : Except Failure Plan :=
  Plan.ofTemplate o.rename t

def Template.program (o : Options) (t : Template) : Except Failure Program := do
  let plan ← t.plan o
  (Program.ofPlan o.mode plan).mapError .defective

def Template.compile (o : Options) (t : Template) : Except Failure CompiledTemplate := do
  let program ← t.program o
  (Assembly.assemble program).mapError .defective

end TemplateCompiler

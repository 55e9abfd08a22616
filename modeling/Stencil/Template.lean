import Stencil.Environment
import Stencil.Options
import Stencil.Script.Eval
import Stencil.Script.Program
import Stencil.Segment.Scan
import Stencil.Template.Error

/-!
Templates: compiled from a source once, and rendered any number of times.
-/

namespace Stencil

structure Template where
  /-- Tells this template from others that were compiled from the same source. -/
  stamp : Nat
  source : String
  filename : Option String
  segments : List Segment
  program : List Script.Stmt
  env : Environment

namespace Template

/-- The segments of a source. -/
def parse (source : String) (options : Options) : Except TemplateError (List Segment) :=
  match Delimiters.ofStrings? options.opener options.closer with
  | none => .error (.invalidDelimiters options.opener options.closer)
  | some d =>
    (Segment.scan d options.eatspace source).mapError fun line =>
      .unterminatedTag (.of options.filename source line) options.closer

def compile (stamp : Nat) (source : String) (options : Options) (env : Environment) :
    Except TemplateError Template := do
  let segments ← parse source options
  let program ← (Script.build segments).mapError fun e =>
    .badCode (.of options.filename source e.line) e.fault
  pure ⟨stamp, source, options.filename, segments, program, env⟩

/-- Renders with the given values, locals and `this`. -/
def renderWith (t : Template) (values locals : Table Value) (self : Value) :
    Except TemplateError String :=
  (Script.execute ⟨values, locals, self, t.env⟩ Script.maxRounds t.program).mapError fun
    | (.error e, line) => .failed (.of t.filename t.source line) e
    | (.exhausted, line) => .endless (.of t.filename t.source line)

def render (t : Template) (options : Options) : Except TemplateError String :=
  t.renderWith options.values options.locals options.scope

/-- Both are the same compiled template. -/
def same (a b : Template) : Bool := a.stamp == b.stamp

end Template

end Stencil

import Stencil.Main
import Stencil.Session
import Stencil.Template.Summary
import Stencil.Proofs.Script.Grammar
import Stencil.Proofs.Script.Thin
import Stencil.Proofs.Segment.RoundTrip
import Stencil.Proofs.Script.Soundness
import Stencil.Proofs.Script.Leaves
import Stencil.Proofs.Script.Completeness
import Stencil.Proofs.Script.WellFormed
import Stencil.Proofs.Script.Operand
import Stencil.Proofs.Script.RoundTrip
import Stencil.Proofs.Script.Name
import Stencil.Proofs.Interpolation
import Stencil.Proofs.Segment.Lines
import Stencil.Proofs.Script.Invariant
import Stencil.Proofs.Template.Rendered
import Stencil.Proofs.Text.Markup
import Stencil.Proofs.Template.Confinement
import Stencil.Proofs.Template.Frame
import Stencil.Proofs.Template.Places
import Stencil.Proofs.Renderer.Origins
import Stencil.Proofs.Session.Errors
import Stencil.Proofs.Session.Transparency
import Stencil.Proofs.Session.Lifetime
import Stencil.Proofs.Script.Every
import Stencil.Proofs.Script.Simulation
import Stencil.Proofs.Script.Jumps
import Stencil.Proofs.Script.Scoping
import Stencil.Proofs.Computation
import Stencil.Proofs.Script.Nesting
import Stencil.Proofs.Script.Inside
import Stencil.Proofs.Segment.Concat
import Stencil.Proofs.Template.Loop
import Stencil.Proofs.Script.Boundary
import Stencil.Proofs.Script.Dependence
import Stencil.Proofs.Script.Heads
import Stencil.Proofs.Script.Gaps
import Stencil.Proofs.Script.Locality
import Stencil.Proofs.Script.Adjacent
import Stencil.Proofs.Script.Culprit
import Stencil.Proofs.Script.Located
import Stencil.Proofs.Template.Failing
import Stencil.Proofs.Segment.Spacing
import Stencil.Proofs.Script.Reread
import Stencil.Proofs.Script.Bare
import Stencil.Proofs.Template.Eatspace
import Stencil.Proofs.Segment.Texts
import Stencil.Proofs.Segment.Collapse
import Stencil.Proofs.Files.Below
import Stencil.Proofs.Session.Failures
import Stencil.Proofs.Check
import Stencil.Proofs.Options
import Stencil.Proofs.Command
import Stencil.Proofs.Script.Writing
import Stencil.Proofs.Script.Precedence
import Stencil.Proofs.Script.Pipeline
import Stencil.Proofs.Script.Quotation
import Stencil.Proofs.Script.Variables
import Stencil.Proofs.Script.Compound
import Stencil.Proofs.Script.Recorded
import Stencil.Proofs.Script.Visible
import Stencil.Proofs.Text.Unescape
import Stencil.Proofs.Script.Visits
import Stencil.Proofs.Script.Surroundings
import Stencil.Proofs.Script.Padding
import Stencil.Proofs.Script.Counting
import Stencil.Proofs.Script.Rounds
import Stencil.Proofs.Script.Params
import Stencil.Proofs.Filter.Sort
import Stencil.Proofs.Value.Search
import Stencil.Proofs.Value.Slice
import Stencil.Proofs.Segment.Listing
import Stencil.Proofs.Filter.Words
import Stencil.Proofs.Script.Progress

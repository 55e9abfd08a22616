import Mathlib
import Stencil.Environment.Standard
import Stencil.Proofs.Template.Rendered
import Stencil.Proofs.Text.Markup

/-!
In the output of a template that escapes everything it shows, all markup comes from the template
itself: neither data nor code can add any.
-/

namespace Stencil

open Script

variable {stamp : Nat} {source : String} {o : Options} {env : Environment} {t : Template}

/-- What the segments of a template allow its statements to write. -/
def Template.limits (t : Template) : Limits where
  line _ := True
  text s := .literal s ∈ t.segments
  output escape := ∃ code line, .emit code escape line ∈ t.segments

theorem Template.within_limits (t : Template) :
    ∀ segment ∈ t.segments, segment.Within t.limits := by
  intro segment hs
  cases segment with
  | literal s => exact hs
  | emit code escape line => exact ⟨⟨code, line, hs⟩, trivial⟩
  | statement code line => trivial

/-- What a template may write is one of its literal segments, or confined, if it escapes what it
shows. -/
theorem Template.confined_of_addition {part : String} (he : env.escaper = markupEscaper)
    (ht : ∀ code line, .emit code false line ∉ t.segments) (h : Addition t.limits env part) :
    .literal part ∈ t.segments ∨ Text.Confined part.toList := by
  cases h with
  | text h => exact .inl h
  | @shown escape h v =>
    obtain ⟨code, line, hs⟩ := h
    cases escape with
    | false => exact absurd hs (ht code line)
    | true =>
      right
      rw [if_pos rfl, he]
      exact Text.confined_escape v.display

/-- If all output tags of a template escape what they show, only its literal segments come into the
output as they are, and whatever else is in it is confined. -/
theorem Template.render_confined {values locals : Table Value} {self : Value} {out : String}
    (hc : Template.compile stamp source o env = .ok t)
    (he : env.escaper = markupEscaper) (ht : ∀ code line, .emit code false line ∉ t.segments)
    (h : t.renderWith values locals self = .ok out) :
    ∃ parts, out = String.join parts ∧
      ∀ part ∈ parts, .literal part ∈ t.segments ∨ Text.Confined part.toList := by
  have hw := Template.renderWith_within hc t.within_limits trivial values locals self
  rw [h] at hw
  obtain ⟨parts, hout, hparts⟩ := hw
  exact ⟨parts, hout, fun part hp => Template.confined_of_addition he ht (hparts part hp)⟩

/-- A loop whose body is an output tag, between literal segments with markup. -/
def boldTemplate : Template where
  stamp := 0
  source := "<b><% for(x of xs) %><%= x %></b>"
  filename := none
  segments := [.literal "<b>", .statement " for(x of xs) " 1, .emit " x " true 1, .literal "</b>"]
  program := [.text "<b>", .forOf "x" (.ident "xs") (.output (.ident "x") true 1) 1, .text "</b>"]
  env := .standard

theorem Template.render_confined_bold :
    (∀ code line, .emit code false line ∉ boldTemplate.segments) ∧
      ∃ parts, "<b>&lt;i&gt;a&lt;b&amp;c</b>" = String.join parts ∧
        ∀ part ∈ parts, .literal part ∈ boldTemplate.segments ∨ Text.Confined part.toList := by
  have hp : Template.parse boldTemplate.source .initial = .ok boldTemplate.segments := by cbv
  have hb : build boldTemplate.segments = .ok boldTemplate.program := by cbv
  have hc : Template.compile 0 boldTemplate.source .initial .standard = .ok boldTemplate :=
    compile_of_build hp hb
  have ht : ∀ code line, .emit code false line ∉ boldTemplate.segments := by
    simp [boldTemplate]
  have hr : boldTemplate.renderWith
      (.ofList [("xs", .array [.string "<i>", .string "a&lt;b&c"])]) ∅ .null =
        .ok "<b>&lt;i&gt;a&lt;b&amp;c</b>" := by rfl
  exact ⟨ht, Template.render_confined hc rfl ht hr⟩

end Stencil

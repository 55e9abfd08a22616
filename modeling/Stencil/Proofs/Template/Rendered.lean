import Stencil.Proofs.Script.Invariant
import Stencil.Proofs.Script.Items
import Stencil.Template

/-!
What compiling gives, and what this depends on: on the source, the delimiters and the treatment of
space, on the file name and the environment. What a compiled template shows, and the lines at which
it can stop, are those that its segments allow (`Template.renderWith_within`).
-/

namespace Stencil

open Script

set_option autoImplicit true

/-- How a source is read. -/
structure Setting where
  opener : String
  closer : String
  eatspace : Bool

def Options.setting (o : Options) : Setting := ⟨o.opener, o.closer, o.eatspace⟩

/-- What a call is at when it fails. -/
inductive Stage where
  | preparing
  | compiling
  | evaluating
deriving DecidableEq

def TemplateError.stage : TemplateError → Stage
  | cacheWithoutFilename => .preparing
  | unreadable _ _ => .preparing
  | invalidDelimiters _ _ => .compiling
  | unterminatedTag _ _ => .compiling
  | badCode _ _ => .compiling
  | failed _ _ => .evaluating
  | endless _ => .evaluating

namespace Template

variable {stamp : Nat} {source : String} {o : Options} {env : Environment} {t : Template}

theorem mapError_eq_ok {x : Except ε α} {f : ε → ε'} (h : x.mapError f = .ok a) : x = .ok a := by
  cases x with
  | error e => cases h
  | ok a => exact congrArg Except.ok (Except.ok.inj h)

theorem mapError_eq_error {x : Except ε α} {f : ε → ε'} (h : x.mapError f = .error e') :
    ∃ e, x = .error e ∧ f e = e' := by
  cases x with
  | error e => exact ⟨e, rfl, Except.error.inj h⟩
  | ok a => cases h

theorem compile_of_build {segments : List Segment} {program : List Stmt}
    (hp : parse source o = .ok segments) (hb : build segments = .ok program) :
    compile stamp source o env = .ok ⟨stamp, source, o.filename, segments, program, env⟩ := by
  rw [compile, hp]
  change (build segments).mapError _ >>= _ = _
  rw [hb]
  rfl

/-- A compiled template has the program built from the segments of its source. -/
theorem eq_of_compile (h : compile stamp source o env = .ok t) :
    ∃ segments program, parse source o = .ok segments ∧ build segments = .ok program ∧
      t = ⟨stamp, source, o.filename, segments, program, env⟩ := by
  obtain ⟨segments, hp, h⟩ := bind_eq_ok h
  obtain ⟨program, hb, h⟩ := bind_eq_ok h
  exact ⟨segments, program, hp, mapError_eq_ok hb, (Except.ok.inj h).symm⟩

/-- A source that is not compiled is refused by the scanner or by the parser. -/
theorem refused_of_compile (h : compile stamp source o env = .error e) :
    parse source o = .error e ∨ ∃ segments fault, parse source o = .ok segments ∧
      build segments = .error fault ∧
      e = .badCode (.of o.filename source fault.line) fault.fault := by
  unfold compile at h
  cases hp : parse source o with
  | error e' =>
    rw [hp] at h
    exact .inl (congrArg Except.error (Except.error.inj h))
  | ok segments =>
    rw [hp] at h
    cases hb : build segments with
    | error fault =>
      refine .inr ⟨segments, fault, rfl, hb, ?_⟩
      change (build segments).mapError _ >>= _ = _ at h
      rw [hb] at h
      exact (Except.error.inj h).symm
    | ok program =>
      change (build segments).mapError _ >>= _ = _ at h
      rw [hb] at h
      cases h

theorem stage_of_parse (h : parse source o = .error e) : e.stage = .compiling := by
  unfold parse at h
  split at h
  · cases h
    rfl
  · obtain ⟨line, _, rfl⟩ := mapError_eq_error h
    rfl

theorem stage_of_compile (h : compile stamp source o env = .error e) : e.stage = .compiling := by
  rcases refused_of_compile h with hp | ⟨_, _, _, _, rfl⟩
  · exact stage_of_parse hp
  · rfl

theorem stage_of_render (h : t.render o = .error e) : e.stage = .evaluating := by
  obtain ⟨⟨halt, line⟩, _, rfl⟩ := mapError_eq_error h
  cases halt with
  | error cause => rfl
  | exhausted => rfl

/-- The same source with the same delimiters, treatment of space and file name is compiled to the
same template, whatever the other options are. -/
theorem compile_congr {o o' : Options} (stamp : Nat) (source : String) (env : Environment)
    (hs : o.setting = o'.setting) (hf : o.filename = o'.filename) :
    compile stamp source o env = compile stamp source o' env := by
  obtain ⟨hopen, hclose, heat⟩ := Setting.mk.inj hs
  simp only [compile, parse, hopen, hclose, heat, hf]

theorem compile_restamp (stamp stamp' : Nat) (source : String) (o : Options) (env : Environment) :
    compile stamp' source o env =
      (compile stamp source o env).map fun t => { t with stamp := stamp' } := by
  unfold compile
  cases parse source o with
  | error e => rfl
  | ok segments =>
    change (build segments).mapError _ >>= _ = Except.map _ ((build segments).mapError _ >>= _)
    cases build segments with
    | error fault => rfl
    | ok program => rfl

variable {k : Limits}

/-- If its segments keep some limits, a template shows only what these allow, and whatever stops it
does so at a line that they allow. -/
theorem renderWith_within (hc : compile stamp source o env = .ok t)
    (hs : ∀ segment ∈ t.segments, segment.Within k) (hl : k.line 1) (values locals : Table Value)
    (self : Value) :
    match t.renderWith values locals self with
    | .ok out => ∃ parts, out = String.join parts ∧ ∀ part ∈ parts, Addition k env part
    | .error e => ∃ line, k.line line ∧ e.place? = some (.of o.filename source line) := by
  obtain ⟨segments, program, _, hb, rfl⟩ := eq_of_compile hc
  have hp : Stmt.AllWithin k program := by
    have h := ends_build hs hl
    rw [hb] at h
    exact h
  have h := execute_within ⟨values, locals, self, env⟩ maxRounds hp hl
  unfold renderWith
  cases hx : execute ⟨values, locals, self, env⟩ maxRounds program with
  | ok out =>
    rw [hx] at h
    exact h
  | error halt =>
    obtain ⟨halt, line⟩ := halt
    rw [hx] at h
    cases halt with
    | error e => exact ⟨line, h, rfl⟩
    | exhausted => exact ⟨line, h, rfl⟩

end Template

end Stencil

import Stencil.Proofs.Script.Scoping
import Stencil.Proofs.Segment.Spacing

/-!
Runs but for the white space in their output. Nothing that a template does depends on its output so
far, so where texts differ in white space only, or are missing that are nothing else, the output does
too (`execute_thin`).
-/

namespace Stencil.Script

open Stencil.Spacing (bare bare_append)

set_option autoImplicit true

namespace State

/-- The state without the white space in its output. -/
def bare (s : State) : State := { s with out := Spacing.bare s.out }

theorem line_bare (s : State) : s.bare.line = s.line := rfl

theorem bare_write (s : State) (t : String) :
    (s.write t).bare = s.bare.write (Spacing.bare t) := by
  rw [bare, write, bare_append]
  rfl

theorem bare_declare (s : State) (kind : DeclKind) (name : String) (v : Value) :
    (s.declare kind name v).bare = s.bare.declare kind name v := by
  obtain ⟨blocks, base, out, line⟩ := s
  cases kind <;> cases blocks <;> rfl

theorem bare_assign? (s : State) (name : String) (v : Value) :
    s.bare.assign? name v = (s.assign? name v).map bare := by
  have hblocks : s.bare.blocks = s.blocks := rfl
  have hbase : s.bare.base = s.base := rfl
  rw [assign?, assign?, hblocks, hbase]
  cases s.blocks.findSome? fun frame => frame.get? name with
  | some b =>
    dsimp only
    split <;> rfl
  | none =>
    cases s.base.get? name with
    | some b =>
      dsimp only
      split <;> rfl
    | none => rfl

end State

/-- Runs in the same scope from states that differ in the white space of their output. -/
def bareRun {scope scope' : Scope} (h : scope = scope') :
    Simulation Unit scope scope' (fun _ => True) (fun _ => True) where
  rel _ s s' := s.bare = s'.bare
  inner i := i
  opened _ := True
  opened_inner := trivial
  self := congrArg Scope.self h
  env := congrArg Scope.env h
  enter h := congrArg State.enter h
  leave h := congrArg State.leave h
  line _ _ h := congrArg (State.atLine · _) h
  back {_ s s' t t'} h h' := by
    rw [← s.line_bare, ← s'.line_bare, h]
    exact congrArg (State.atLine · s'.bare.line) h'
  text {t _ s s'} _ h := by rw [State.bare_write, State.bare_write, h]
  shown _ h := by rw [State.bare_write, State.bare_write, h]
  bind _ h := by rw [State.bare_declare, State.bare_declare, h]
  declare _ _ _ h := by rw [State.bare_declare, State.bare_declare, h]
  lookup {e name _ s s'} _ _ hr := by
    subst h
    change scope.lookup? s.bare name = scope.lookup? s'.bare name
    rw [hr]
  assign {e name _ s s' v} _ _ h := by
    have ha : (s.assign? name v).map State.bare = (s'.assign? name v).map State.bare := by
      rw [← State.bare_assign?, ← State.bare_assign?, h]
    cases hs : s.assign? name v with
    | none =>
      rw [hs] at ha
      rw [Option.map_eq_none_iff.mp ha.symm]
      exact .none
    | some t =>
      rw [hs] at ha
      obtain ⟨t', ht, he⟩ := Option.map_eq_some_iff.mp ha.symm
      rw [ht]
      exact .some he.symm

/-- Where texts lose and change white space only, so does the output. -/
theorem execute_thin (hf : ∀ t, bare ((f t).getD "") = bare t) (scope : Scope) (limit : Nat)
    (program : List Stmt) :
    (execute scope limit (Stmt.thinAll f program)).map bare =
      (execute scope limit program).map bare := by
  have kept : (bareRun (Eq.refl scope)).Keeps f :=
    ⟨fun {t _ s s'} _ (h : s.bare = s'.bare) => by
      change (s.write t).bare = (s'.write ((f t).getD "")).bare
      rw [State.bare_write, State.bare_write, hf, h]⟩
  have hr := (simulates_run_thin (bareRun (Eq.refl scope)) kept hereditary_true limit () program
    (fun _ _ => trivial) trivial).alike (rfl : State.initial.bare = State.initial.bare)
  unfold execute
  generalize run scope limit program .initial = r,
    run scope limit (Stmt.thinAll f program) .initial = r' at hr ⊢
  cases hr with
  | ok h => exact congrArg (Except.ok ·.out) h.symm
  | error h =>
    rename_i t t' e
    have hl : t.bare.line = t'.bare.line := congrArg State.line h
    exact congrArg (fun line => Except.error (e, line)) hl.symm

end Stencil.Script

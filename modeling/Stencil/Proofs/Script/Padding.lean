import Stencil.Proofs.Script.Surroundings

/-!
Blocks without names are not noticed. A run goes the same way with one more block on the stack, as
long as nothing is bound in it; so a block around statements that bind no names there makes no
difference (`inBlock_run`).
-/

namespace Stencil.Script

set_option autoImplicit true

/-- One more block, without names. -/
def padding : Surroundings where
  blocks bs bs' := bs' = ∅ :: bs
  base frame frame' := frame' = frame
  opened := False
  bind := False.elim
  findSome? := by
    rintro bs _ name rfl
    rfl
  rebound := by
    rintro bs _ name b rfl
    rfl
  get? := by
    rintro _ _ _ frame _ - - rfl
    rfl
  insert := by
    rintro frame _ name b rfl
    rfl

theorem padding_enter (s : State) : padding.Rel 0 s s.enter := ⟨.outer rfl, rfl, rfl, rfl⟩

theorem eq_leave_of_padding {s s' : State} (h : padding.Rel 0 s s') : s'.leave = s := by
  obtain ⟨blocks, base, out, line⟩ := s
  obtain ⟨blocks', base', out', line'⟩ := s'
  obtain ⟨hb, hbase, hout, hline⟩ := h
  dsimp only at hb hbase hout hline
  subst hbase hout hline
  cases hb with
  | outer hb =>
    cases hb
    rfl

open Exec (Simulates)

/-- A computation that does not notice a block around it. -/
theorem inBlock_eq_of_simulates {x : Exec α} (h : Simulates (padding.Rel 0) x x) :
    Exec.inBlock x = x := by
  funext s
  have ha := h.alike (padding_enter s)
  unfold Exec.inBlock
  generalize x s = r, x s.enter = r' at ha
  cases ha with
  | ok ht => exact congrArg (EStateM.Result.ok _) (eq_leave_of_padding ht)
  | error ht => exact congrArg (EStateM.Result.error _) (eq_leave_of_padding ht)

theorem simulates_exec_padded (scope : Scope) (limit : Nat) {stmt : Stmt}
    (h : stmt.binds = false) :
    Simulates (padding.Rel 0) (exec scope limit stmt) (exec scope limit stmt) := by
  apply simulates_exec (padding.simulation rfl) hereditary_true limit 0 stmt trivial
  rw [h]
  nofun

theorem simulates_run_padded (scope : Scope) (limit : Nat) {body : List Stmt}
    (h : ∀ stmt ∈ body, stmt.binds = false) :
    Simulates (padding.Rel 0) (run scope limit body) (run scope limit body) := by
  induction body with
  | nil => exact .pure _
  | cons stmt rest ih =>
    obtain ⟨hs, hrest⟩ := List.forall_mem_cons.mp h
    rw [run]
    apply (simulates_exec_padded scope limit hs).bind
    intro flow
    cases flow with
    | normal => exact ih hrest
    | _ => exact .pure _

theorem inBlock_run (scope : Scope) (limit : Nat) {body : List Stmt}
    (h : ∀ stmt ∈ body, stmt.binds = false) :
    Exec.inBlock (run scope limit body) = run scope limit body :=
  inBlock_eq_of_simulates (simulates_run_padded scope limit h)

end Stencil.Script

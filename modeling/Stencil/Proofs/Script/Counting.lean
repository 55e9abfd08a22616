import Stencil.Proofs.Script.Jumps
import Stencil.Proofs.Script.Padding

/-!
A counting loop is short for a loop with a condition: its start stands before the loop, and its
update at the end of the body. The main statement is `exec_loop`. The two forms nest their blocks
differently, which no statement notices, and a `continue` would leave out the update in one of them.
-/

namespace Stencil.Script

set_option autoImplicit true

mutual

/-- Whether the statement has a `continue` for the loop around it, and not for one inside. -/
def Stmt.continues : Stmt → Bool
  | .branch _ yes no _ => yes.continues || Stmt.optionContinues no
  | .block body => Stmt.anyContinues body
  | .continueLoop => true
  | _ => false

def Stmt.anyContinues : List Stmt → Bool
  | [] => false
  | stmt :: rest => stmt.continues || Stmt.anyContinues rest

def Stmt.optionContinues : Option Stmt → Bool
  | none => false
  | some stmt => stmt.continues

end

/-- What a counting loop may start with: an expression or a declaration, on the line of the loop. -/
inductive Stmt.Starts (line : Nat) : Stmt → Prop
  | expr : Starts line (.expr e line)
  | declare : Starts line (.declare kind decls line)

/-- The loop with a condition that a counting loop stands for. -/
def Stmt.whileForm (first : Option Stmt) (test update : Option Expr) (body : List Stmt)
    (line : Nat) : Stmt :=
  .block (first.toList ++ [.whileDo (test.getD (.value (.bool true)))
    (.block (.block body :: update.toList.map fun e => .expr e line)) line])

/-- Both runs end in the same way and in the same state, or both have come to the end of the rounds
that they are given. -/
inductive Exec.SameEnd : EStateM.Result Halt State α → EStateM.Result Halt State α → Prop
  | same : SameEnd r r
  | exhausted : SameEnd (.error .exhausted s) (.error .exhausted t)

/-- Both rounds end in the same way and in the same state; where another round follows, they may have
left other lines in place. -/
inductive Exec.SameRound (line : Nat) : EStateM.Result Halt State (Option Flow) →
    EStateM.Result Halt State (Option Flow) → Prop
  | same : SameRound line r r
  | again (h : s.atLine line = t.atLine line) : SameRound line (.ok none s) (.ok none t)

/-- No loop ends with a `continue`. -/
theorem Flow.closes_ne_continueLoop (flow : Flow) : flow.Closes (· ≠ .continueLoop) := by
  rintro ending he rfl
  cases flow <;> cases he

mutual

theorem exec_ne_continueLoop (scope : Scope) (limit : Nat) : (stmt : Stmt) →
    stmt.continues = false → Exec.Gives (· ≠ .continueLoop) (exec scope limit stmt)
  | .text s, _ => by
    rw [exec]
    exact .last fun _ => .pure nofun
  | .output e escape line, _ => by
    rw [exec]
    exact .last fun _ => .last fun _ => .last fun _ => .pure nofun
  | .expr e line, _ => by
    rw [exec]
    exact .last fun _ => .last fun _ => .pure nofun
  | .declare kind decls line, _ => by
    rw [exec]
    exact .last fun _ => .last fun _ => .pure nofun
  | .branch test yes no line, h => by
    obtain ⟨hy, hn⟩ := Bool.or_eq_false_iff.mp h
    rw [exec.eq_def]
    dsimp only
    apply Exec.Gives.last
    intro _
    apply Exec.Gives.last
    intro v
    split
    · exact exec_ne_continueLoop scope limit yes hy
    · cases no with
      | some no => exact exec_ne_continueLoop scope limit no hn
      | none => exact .pure nofun
  | .forOf name items body line, _ =>
    gives_forOf nofun ⟨fun _ => Flow.closes_ne_continueLoop _⟩ name items line
  | .forIn name target body line, _ =>
    gives_forIn nofun ⟨fun _ => Flow.closes_ne_continueLoop _⟩ name target line
  | .loop first test update body line, _ =>
    gives_loop nofun ⟨fun _ => Flow.closes_ne_continueLoop _⟩ first test update line
  | .whileDo test body line, _ =>
    gives_whileDo nofun ⟨fun _ => Flow.closes_ne_continueLoop _⟩ test line
  | .block body, h => by
    rw [exec]
    exact .inBlock (run_ne_continueLoop scope limit body h)
  | .breakLoop, _ => .pure nofun
  | .continueLoop, h => nomatch h
  | .giveBack (some e), _ => by
    rw [exec]
    exact .last fun _ => .pure nofun
  | .giveBack none, _ => .pure nofun
  | .empty, _ => .pure nofun

theorem run_ne_continueLoop (scope : Scope) (limit : Nat) : (body : List Stmt) →
    Stmt.anyContinues body = false → Exec.Gives (· ≠ .continueLoop) (run scope limit body)
  | [], _ => .pure nofun
  | stmt :: rest, h => by
    obtain ⟨hs, hrest⟩ := Bool.or_eq_false_iff.mp h
    rw [run]
    apply (exec_ne_continueLoop scope limit stmt hs).bind
    intro flow hf
    split
    · exact run_ne_continueLoop scope limit rest hrest
    · exact .pure hf

end

namespace Exec

theorem SameEnd.inBlock {x y : Exec α} (h : SameEnd (x (State.enter s)) (y (State.enter s))) :
    SameEnd (Exec.inBlock x s) (Exec.inBlock y s) := by
  unfold Exec.inBlock
  generalize x s.enter = r, y s.enter = r' at h
  cases h with
  | same => exact .same
  | exhausted => exact .exhausted

/-- What comes first in both rounds does not count. -/
theorem SameRound.bind {x : Exec α} {f g : α → Exec (Option Flow)}
    (h : ∀ a t, x s = .ok a t → SameRound line (f a t) (g a t)) :
    SameRound line ((x >>= f) s) ((x >>= g) s) := by
  cases hx : x s with
  | ok a t =>
    rw [bind_eq_of_ok hx, bind_eq_of_ok hx]
    exact h a t hx
  | error e t =>
    rw [bind_eq_of_error hx, bind_eq_of_error hx]
    exact .same

/-- Loops whose rounds put a line in place and then go the same way end alike. -/
theorem sameEnd_rounds {x y : Exec (Option Flow)} (hxy : ∀ s, SameRound line (x s) (y s))
    (limit : Nat) (h : s.atLine line = t.atLine line) :
    SameEnd (Exec.rounds (do Exec.atLine line; x) limit s)
      (Exec.rounds (do Exec.atLine line; y) limit t) := by
  induction limit generalizing s t with
  | zero => exact .exhausted
  | succ limit ih =>
    have hround := hxy (s.atLine line)
    have hx : (do Exec.atLine line; x) s = x (s.atLine line) := rfl
    have hy : (do Exec.atLine line; y) t = y (s.atLine line) := by
      rw [h]
      rfl
    rw [Exec.rounds, Exec.rounds]
    generalize x (s.atLine line) = r, y (s.atLine line) = r' at hx hy hround
    cases hround with
    | again h =>
      rw [bind_eq_of_ok hx, bind_eq_of_ok hy]
      exact ih h
    | same =>
      cases r with
      | error e u =>
        rw [bind_eq_of_error hx, bind_eq_of_error hy]
        exact .same
      | ok ending u =>
        rw [bind_eq_of_ok hx, bind_eq_of_ok hy]
        cases ending with
        | none => exact ih rfl
        | some flow => exact .same

end Exec

open Exec (SameEnd SameRound)

theorem Exec.discard_bind (x : Exec α) (f : Unit → Exec β) :
    (discard x >>= f) = x >>= fun _ => f () := by
  have hd : discard x = x >>= fun _ => pure () := rfl
  rw [hd, bind_assoc]
  exact bind_congr fun _ => pure_bind () f

theorem run_singleton (scope : Scope) (limit : Nat) (stmt : Stmt) :
    run scope limit [stmt] = exec scope limit stmt := by
  rw [run]
  refine (bind_congr fun flow => ?_).trans (bind_pure _)
  cases flow <;> rfl

section loop

variable (scope : Scope) (limit : Nat) (first : Option Stmt) (test update : Option Expr)
  (body : List Stmt) (line : Nat)

/-- The start of a counting loop. -/
def Exec.start : Exec Unit :=
  match first with
  | some first => discard (exec scope limit first)
  | none => pure ()

/-- Its condition; without one, the loop goes on. -/
def Exec.condition : Exec Bool :=
  match test with
  | some test => do
    let v ← eval scope limit test
    pure v.truthy
  | none => pure true

/-- The end of its rounds. -/
def Exec.step : Exec Unit := do
  Exec.atLine line
  match update with
  | some update => discard (eval scope limit update)
  | none => pure ()

/-- A round of a counting loop, behind its line. -/
def Exec.countingRound : Exec (Option Flow) := do
  let go ← Exec.condition scope limit test
  if go then
    let flow ← exec scope limit (.block body)
    match flow.ofRound with
    | some flow => pure (some flow)
    | none => do
      Exec.step scope limit update line
      pure none
  else pure (some .normal)

/-- A round of its other form, behind its line. -/
def Exec.whileRound : Exec (Option Flow) := do
  let go ← Exec.condition scope limit test
  if go then
    let flow ← run scope limit (.block body :: update.toList.map fun e => .expr e line)
    pure flow.ofRound
  else pure (some .normal)

theorem exec_loop_eq :
    exec scope limit (.loop first test update (.block body) line) = Exec.inBlock (do
      Exec.atLine line
      Exec.start scope limit first
      Exec.rounds (do Exec.atLine line; Exec.countingRound scope limit test update body line)
        limit) := by
  have hb : Exec.inBlock (exec scope limit (.block body)) = exec scope limit (.block body) :=
    inBlock_eq_of_simulates (simulates_exec_padded scope limit rfl)
  rw [exec, hb]
  cases first <;> cases test <;> cases update
  all_goals
    simp only [Exec.start, Exec.condition, Exec.step, Exec.countingRound, bind_assoc, pure_bind]
    -- If both sides share the match on the flow of the body, nothing is left.
    try rfl

/-- Two blocks around the body and the update are as good as none. -/
theorem exec_whileDo_eq :
    exec scope limit (.whileDo (test.getD (.value (.bool true)))
        (.block (.block body :: update.toList.map fun e => .expr e line)) line) =
      Exec.rounds (do Exec.atLine line; Exec.whileRound scope limit test update body line)
        limit := by
  have hb : ∀ stmt ∈ Stmt.block body :: update.toList.map fun e => Stmt.expr e line,
      stmt.binds = false := by
    refine List.forall_mem_cons.mpr ⟨rfl, fun stmt hs => ?_⟩
    obtain ⟨e, -, rfl⟩ := List.mem_map.mp hs
    rfl
  rw [exec, exec, inBlock_run scope limit hb, inBlock_run scope limit hb]
  cases test
  · simp only [Option.getD_none, eval, Exec.condition, Exec.whileRound, pure_bind]
    rfl
  · simp only [Option.getD_some, Exec.condition, Exec.whileRound, bind_assoc, pure_bind]

theorem exec_start_of_starts {stmt : Stmt} (h : stmt.Starts line) (s : State) :
    exec scope limit stmt (s.atLine line) = exec scope limit stmt s := by
  cases h with
  | expr =>
    rw [exec]
    rfl
  | declare =>
    rw [exec]
    rfl

theorem gives_normal_of_starts {stmt : Stmt} (h : stmt.Starts line) :
    Exec.Gives (· = .normal) (exec scope limit stmt) := by
  have hp : stmt.Placed false false := by
    cases h <;> trivial
  exact (exec_gives scope limit stmt hp).mono fun _ => Flow.Allowed.eq_normal

/-- Only a round that a `continue` ends could tell the two forms apart. -/
theorem sameRound_of_anyContinues (hb : Stmt.anyContinues body = false) (s : State) :
    SameRound line (Exec.countingRound scope limit test update body line s)
      (Exec.whileRound scope limit test update body line s) := by
  refine SameRound.bind fun go t _ => ?_
  cases go with
  | false => exact .same
  | true =>
    rw [if_pos rfl, if_pos rfl, run, bind_assoc]
    refine SameRound.bind fun flow u hu => ?_
    have hne := (exec_ne_continueLoop scope limit (.block body) hb).of_eq_ok hu
    cases flow with
    | continueLoop => exact absurd rfl hne
    | breakLoop => exact .same
    | giveBack v => exact .same
    | normal =>
      cases update with
      | none => exact .again rfl
      | some e =>
        have he : (run scope limit [.expr e line] >>= fun flow => pure flow.ofRound) =
            Exec.step scope limit (some e) line >>= fun _ => (pure none : Exec (Option Flow)) := by
          simp only [run_singleton, exec, Exec.step, bind_assoc, Exec.discard_bind, pure_bind]
          rfl
        have hs := congrFun he u
        exact hs ▸ .same

end loop

/-- A counting loop and the loop with a condition that it stands for end in the same way and in the
same state, or both go on beyond the rounds that they are given; if the body is a block without a
`continue` for the loop. -/
theorem exec_loop (scope : Scope) (limit : Nat) (test update : Option Expr)
    (hf : ∀ stmt ∈ first, stmt.Starts line) (hb : Stmt.anyContinues body = false) (s : State) :
    SameEnd (exec scope limit (.loop first test update (.block body) line) s)
      (exec scope limit (Stmt.whileForm first test update body line) s) := by
  have hrounds {s t : State} := Exec.sameEnd_rounds (s := s) (t := t)
    (sameRound_of_anyContinues scope limit test update body line hb) limit
  rw [exec_loop_eq, Stmt.whileForm, exec]
  apply SameEnd.inBlock
  cases first with
  | none =>
    rw [Option.toList_none, List.nil_append, run_singleton, exec_whileDo_eq]
    exact hrounds rfl
  | some stmt =>
    have hs := hf stmt rfl
    have hstart := exec_start_of_starts scope limit line hs s.enter
    have ha : Exec.atLine line s.enter = .ok () (s.enter.atLine line) := rfl
    rw [Option.toList_some, List.singleton_append, run, run_singleton, exec_whileDo_eq,
      bind_eq_of_ok ha, Exec.start, Exec.discard_bind]
    cases hx : exec scope limit stmt s.enter with
    | error e t =>
      rw [bind_eq_of_error (hstart.trans hx), bind_eq_of_error hx]
      exact .same
    | ok flow t =>
      obtain rfl := (gives_normal_of_starts scope limit line hs).of_eq_ok hx
      rw [bind_eq_of_ok (hstart.trans hx), bind_eq_of_ok hx]
      exact hrounds rfl

/-- `let go = true`, and in the end of the first round `go = false`. -/
def onceStart : Option Stmt := some (.declare .block [("go", some (.value (.bool true)))] 1)

def onceUpdate : Option Expr := some (.assign "go" none (.value (.bool false)))

/-- The `continue` belongs to the loop inside. -/
def onceBody : List Stmt := [.forOf "x" (.array [.value .null]) .continueLoop 1, .text "-"]

theorem exec_loop_once :
    (∀ stmt ∈ onceStart, stmt.Starts 1) ∧ Stmt.anyContinues onceBody = false ∧
      SameEnd
        (exec bareScope 2 (.loop onceStart (some (.ident "go")) onceUpdate (.block onceBody) 1)
          .initial)
        (exec bareScope 2 (Stmt.whileForm onceStart (some (.ident "go")) onceUpdate onceBody 1)
          .initial) ∧
      exec bareScope 2 (.loop onceStart (some (.ident "go")) onceUpdate (.block onceBody) 1)
        .initial = .ok .normal (State.initial.write "-") := by
  have hf : ∀ stmt ∈ onceStart, stmt.Starts 1 := by
    rintro stmt ⟨⟩
    exact .declare
  have hb : Stmt.anyContinues onceBody = false := rfl
  exact ⟨hf, hb, exec_loop bareScope 2 (some (.ident "go")) onceUpdate hf hb .initial, rfl⟩

end Stencil.Script

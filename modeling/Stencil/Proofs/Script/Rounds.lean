import Mathlib.Tactic.Convert
import Stencil.Proofs.Computation
import Stencil.Script.Eval

/-!
The bound on the rounds of loops. With fewer rounds a run is the same or it is cut short
(`shortens_run`), so what a run comes to does not depend on the bound that it has been given
(`execute_unique`). A loop is one round and the same loop again, as if there were no bound
(`shortens_whileDo`).
-/

namespace Stencil.Script

set_option autoImplicit true

/-- The first run ends as the second one does, unless it lacks rounds. -/
inductive Exec.Cut : EStateM.Result Halt State α → EStateM.Result Halt State α → Prop
  | whole : Cut r r
  | short : Cut (.error .exhausted t) r

/-- From every state the first computation ends as the second one does, unless it lacks rounds. -/
structure Exec.Shortens (x y : Exec α) : Prop where
  cut : ∀ s, Exec.Cut (x s) (y s)

namespace Exec.Shortens

theorem refl (x : Exec α) : Shortens x x where
  cut _ := .whole

theorem bind {x y : Exec α} {f g : α → Exec β} (hx : Shortens x y)
    (hf : ∀ a, Shortens (f a) (g a)) : Shortens (x >>= f) (y >>= g) where
  cut s := by
    change Cut (EStateM.bind x f s) (EStateM.bind y g s)
    unfold EStateM.bind
    have hs := hx.cut s
    generalize x s = r, y s = r' at hs
    cases hs with
    | short => exact .short
    | whole =>
      cases r with
      | ok a t => exact (hf a).cut t
      | error e t => exact .whole

theorem discard {x y : Exec α} (hx : Shortens x y) : Shortens (discard x) (discard y) :=
  hx.bind fun _ => .refl _

theorem inBlock {x y : Exec α} (hx : Shortens x y) :
    Shortens (Exec.inBlock x) (Exec.inBlock y) where
  cut s := by
    unfold Exec.inBlock
    have hs := hx.cut s.enter
    generalize x s.enter = r, y s.enter = r' at hs
    cases hs with
    | whole => exact .whole
    | short => exact .short

theorem rounds {x y : Exec (Option Flow)} (hx : Shortens x y) (h : limit ≤ limit') :
    Shortens (Exec.rounds x limit) (Exec.rounds y limit') := by
  induction limit generalizing limit' with
  | zero => exact ⟨fun _ => .short⟩
  | succ limit ih =>
    obtain ⟨limit', rfl⟩ := Nat.exists_eq_add_of_le' h
    apply hx.bind
    intro ending
    cases ending with
    | none => exact ih (Nat.le_add_left _ _)
    | some flow => exact .refl _

theorem each {f g : Value → Exec (Option Flow)} (hf : ∀ v, Shortens (f v) (g v))
    (values : List Value) : Shortens (Exec.each f values) (Exec.each g values) := by
  induction values with
  | nil => exact .refl _
  | cons v rest ih =>
    apply (hf v).bind
    intro ending
    cases ending with
    | none => exact ih
    | some flow => exact .refl _

theorem visit {f g : Value → Nat → Exec Value} (hf : ∀ v i, Shortens (f v i) (g v i))
    (visit : Visit) (soFar : List Value) (index : Nat) (items : List Value) :
    Shortens (visit.run f soFar index items) (visit.run g soFar index items) := by
  induction items generalizing soFar index with
  | nil => exact .refl _
  | cons item rest ih =>
    apply (hf item index).bind
    intro result
    cases visit.stop? item result with
    | none => exact ih _ _
    | some v => exact .refl _

theorem callback {x y : Exec Flow} (hx : Shortens x y) (params : List String) (args : List Value) :
    Shortens (callback params args x) (callback params args y) := by
  apply (refl get).bind
  intro s
  apply Shortens.bind
  · apply inBlock
    apply (refl (bindParams params args)).bind
    intro _
    exact hx
  · intro flow
    exact .refl _

end Exec.Shortens

open Exec (Shortens)

mutual

theorem shortens_eval (scope : Scope) (h : limit ≤ limit') : (e : Expr) →
    Shortens (eval scope limit e) (eval scope limit' e)
  | .value _ => .refl _
  | .ident _ => .refl _
  | .self => .refl _
  | .array items => by
    rw [eval, eval]
    apply (shortens_evalAll scope h items).bind
    intro values
    exact .refl _
  | .object fields => by
    rw [eval, eval]
    apply (shortens_evalFields scope h fields).bind
    intro values
    exact .refl _
  | .member target key => by
    rw [eval, eval]
    apply (shortens_eval scope h target).bind
    intro v
    apply (shortens_eval scope h key).bind
    intro w
    exact .refl _
  | .filter name args => by
    rw [eval, eval]
    apply (shortens_evalAll scope h args).bind
    intro values
    exact .refl _
  | .call name args => by
    rw [eval, eval]
    apply (shortens_evalAll scope h args).bind
    intro values
    exact .refl _
  | .method target name args => by
    rw [eval, eval]
    apply (shortens_eval scope h target).bind
    intro v
    split
    · rename_i params body
      apply (Shortens.refl _).bind
      intro visited
      apply Shortens.visit
      intro item index
      apply Shortens.callback
      exact shortens_run scope h body
    · apply (shortens_evalAll scope h args).bind
      intro values
      exact .refl _
  | .unary op operand => by
    rw [eval.eq_def, eval.eq_def]
    dsimp only
    split
    · exact .refl _
    · apply (shortens_eval scope h operand).bind
      intro v
      exact .refl _
  | .binary op left right => by
    rw [eval, eval]
    apply (shortens_eval scope h left).bind
    intro a
    apply (shortens_eval scope h right).bind
    intro b
    exact .refl _
  | .logical onTrue left right => by
    rw [eval, eval]
    apply (shortens_eval scope h left).bind
    intro v
    split
    · exact shortens_eval scope h right
    · exact .refl _
  | .conditional test yes no => by
    rw [eval, eval]
    apply (shortens_eval scope h test).bind
    intro v
    split
    · exact shortens_eval scope h yes
    · exact shortens_eval scope h no
  | .assign name op value => by
    rw [eval, eval]
    apply (shortens_eval scope h value).bind
    intro v
    exact .refl _
  | .update _ _ _ => .refl _
  | .function _ _ => .refl _

theorem shortens_evalAll (scope : Scope) (h : limit ≤ limit') : (es : List Expr) →
    Shortens (evalAll scope limit es) (evalAll scope limit' es)
  | [] => .refl _
  | e :: rest => by
    rw [evalAll, evalAll]
    apply (shortens_eval scope h e).bind
    intro v
    apply (shortens_evalAll scope h rest).bind
    intro vs
    exact .refl _

theorem shortens_evalFields (scope : Scope) (h : limit ≤ limit') :
    (fields : List (String × Expr)) →
    Shortens (evalFields scope limit fields) (evalFields scope limit' fields)
  | [] => .refl _
  | (name, e) :: rest => by
    rw [evalFields, evalFields]
    apply (shortens_eval scope h e).bind
    intro v
    apply (shortens_evalFields scope h rest).bind
    intro vs
    exact .refl _

theorem shortens_declareAll (scope : Scope) (h : limit ≤ limit') (kind : DeclKind) :
    (decls : List (String × Option Expr)) →
    Shortens (declareAll scope limit kind decls) (declareAll scope limit' kind decls)
  | [] => .refl _
  | (name, some e) :: rest => by
    rw [declareAll, declareAll]
    apply (shortens_eval scope h e).bind
    intro v
    apply (Shortens.refl _).bind
    intro _
    exact shortens_declareAll scope h kind rest
  | (name, none) :: rest => by
    rw [declareAll, declareAll]
    apply (Shortens.refl _).bind
    intro _
    exact shortens_declareAll scope h kind rest

theorem shortens_exec (scope : Scope) (h : limit ≤ limit') : (stmt : Stmt) →
    Shortens (exec scope limit stmt) (exec scope limit' stmt)
  | .text _ => .refl _
  | .output e escape line => by
    rw [exec, exec]
    apply (Shortens.refl _).bind
    intro _
    apply (shortens_eval scope h e).bind
    intro v
    exact .refl _
  | .expr e line => by
    rw [exec, exec]
    apply (Shortens.refl _).bind
    intro _
    apply (shortens_eval scope h e).bind
    intro v
    exact .refl _
  | .declare kind decls line => by
    rw [exec, exec]
    apply (Shortens.refl _).bind
    intro _
    apply (shortens_declareAll scope h kind decls).bind
    intro _
    exact .refl _
  | .branch test yes no line => by
    rw [exec.eq_def, exec.eq_def]
    dsimp only
    apply (Shortens.refl _).bind
    intro _
    apply (shortens_eval scope h test).bind
    intro v
    split
    · exact shortens_exec scope h yes
    · cases no with
      | some no => exact shortens_exec scope h no
      | none => exact .refl _
  | .forOf name items body line => by
    rw [exec, exec]
    apply (Shortens.refl _).bind
    intro _
    apply (shortens_eval scope h items).bind
    intro v
    cases elements? v with
    | none => exact .refl _
    | some values =>
      apply Shortens.each
      intro v
      apply Shortens.inBlock
      apply (Shortens.refl _).bind
      intro _
      apply (shortens_exec scope h body).bind
      intro flow
      exact .refl _
  | .forIn name target body line => by
    rw [exec, exec]
    apply (Shortens.refl _).bind
    intro _
    apply (shortens_eval scope h target).bind
    intro v
    apply Shortens.each
    intro key
    apply Shortens.inBlock
    apply (Shortens.refl _).bind
    intro _
    apply (shortens_exec scope h body).bind
    intro flow
    exact .refl _
  | .loop first test update body line => by
    rw [exec, exec]
    apply Shortens.inBlock
    apply (Shortens.refl _).bind
    intro _
    -- The end of a round, a round, and all rounds are common to the optional parts of the head.
    extract_lets next round rest round' rest'
    have hround : ∀ go, Shortens (round go) (round' go) := by
      intro go
      dsimp only [round, round']
      split
      · apply (shortens_exec scope h body).inBlock.bind
        intro flow
        cases flow.ofRound with
        | some flow => exact .refl _
        | none =>
          apply (Shortens.refl _).bind
          intro _
          cases update with
          | none => exact .refl _
          | some update =>
            apply (shortens_eval scope h update).discard.bind
            intro _
            exact .refl _
      · exact .refl _
    have hrest : ∀ u, Shortens (rest u) (rest' u) := by
      intro _
      apply Shortens.rounds _ h
      apply (Shortens.refl _).bind
      intro _
      cases test with
      | none => exact hround true
      | some test =>
        apply (shortens_eval scope h test).bind
        intro _
        exact hround _
    cases first with
    | none => exact hrest ()
    | some first =>
      apply (shortens_exec scope h first).discard.bind
      exact hrest
  | .whileDo test body line => by
    rw [exec, exec]
    apply Shortens.rounds _ h
    apply (Shortens.refl _).bind
    intro _
    apply (shortens_eval scope h test).bind
    intro v
    split
    · apply (shortens_exec scope h body).inBlock.bind
      intro flow
      exact .refl _
    · exact .refl _
  | .block body => by
    rw [exec, exec]
    exact (shortens_run scope h body).inBlock
  | .breakLoop => .refl _
  | .continueLoop => .refl _
  | .giveBack (some e) => by
    rw [exec, exec]
    apply (shortens_eval scope h e).bind
    intro v
    exact .refl _
  | .giveBack none => .refl _
  | .empty => .refl _

theorem shortens_run (scope : Scope) (h : limit ≤ limit') : (body : List Stmt) →
    Shortens (run scope limit body) (run scope limit' body)
  | [] => .refl _
  | stmt :: rest => by
    rw [run, run]
    apply (shortens_exec scope h stmt).bind
    intro flow
    cases flow with
    | normal => exact shortens_run scope h rest
    | _ => exact .refl _

end

/-- A larger bound does not change how a template ends, if it has come to an end. -/
theorem execute_of_le (h : limit ≤ limit')
    (hs : ∀ line, execute scope limit program ≠ .error (.exhausted, line)) :
    execute scope limit' program = execute scope limit program := by
  unfold execute at hs ⊢
  have hc := (shortens_run scope h program).cut .initial
  generalize run scope limit program .initial = r, run scope limit' program .initial = r' at hc hs ⊢
  cases hc with
  | whole => rfl
  | short => exact absurd rfl (hs _)

/-- Under any two bounds under which it comes to an end, a template ends in the same way. -/
theorem execute_unique (h : ∀ line, execute scope limit program ≠ .error (.exhausted, line))
    (h' : ∀ line, execute scope limit' program ≠ .error (.exhausted, line)) :
    execute scope limit program = execute scope limit' program := by
  rcases Nat.le_total limit limit' with hle | hle
  · exact (execute_of_le hle h).symm
  · exact execute_of_le hle h'

/-- Rounds that come to an end are one round and, if it does not end the loop, the same rounds. -/
theorem Exec.shortens_rounds_bind (round : Exec (Option Flow)) (limit : Nat) :
    Shortens (Exec.rounds round limit) (do
      match ← round with
      | some flow => pure flow
      | none => Exec.rounds round limit) :=
  .rounds (.refl round) (Nat.le_succ limit)

/-- A loop is its body and the same loop again, as long as its condition holds. -/
theorem shortens_whileDo (scope : Scope) (limit : Nat) (test : Expr) (body : Stmt) (line : Nat) :
    Shortens (exec scope limit (.whileDo test body line)) (do
      Exec.atLine line
      let v ← eval scope limit test
      if v.truthy then
        let flow ← Exec.inBlock (exec scope limit body)
        match flow.ofRound with
        | some flow => pure flow
        | none => exec scope limit (.whileDo test body line)
      else pure .normal) := by
  rw [exec]
  convert Exec.shortens_rounds_bind _ limit using 1
  -- What is left to show is that the end of a round may be looked at in each of its branches.
  rw [bind_assoc]
  congr 1
  funext _
  rw [bind_assoc]
  congr 1
  funext v
  split
  · rw [bind_assoc]
    rfl
  · rfl

end Stencil.Script

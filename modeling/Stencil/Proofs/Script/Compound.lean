import Stencil.Proofs.Script.Scoping

/-!
Assignments with an operator. The old value is taken when the right side has run, so such an
assignment is short for one of the result of the operator as long as the right side does not change
the variable. The main statement is `eval_compound`.
-/

namespace Stencil.Script

set_option autoImplicit true

/-- What the name stands for in each frame, the innermost first. -/
def State.bindings (name : String) (s : State) : List (Option Binding) :=
  s.frames.map (·.get? name)

/-- No expression assigns to the name, and no statement binds it in the frame of the template. -/
def Checks.keeping (name : String) : Checks where
  expr e := e.writes? ≠ some name
  stmt stmt := ∀ decls line, stmt = .declare .var decls line → name ∉ decls.map Prod.fst

/-- No part of the expression can change the variable. -/
def Expr.Spares (name : String) (e : Expr) : Prop := e.Every (.keeping name)

namespace State

theorem bindings_eq (name : String) (s : State) :
    s.bindings name = s.blocks.map (·.get? name) ++ [s.base.get? name] := by
  rw [bindings, frames, List.map_append]
  rfl

theorem binding?_of_bindings {s t : State} (h : s.bindings name = t.bindings name) :
    s.binding? name = t.binding? name := by
  have hf (s : State) : s.binding? name = (s.bindings name).findSome? id := by
    rw [binding?, bindings, List.findSome?_map]
    rfl
  rw [hf, hf, h]

/-- In some block, there are blocks. -/
theorem blocks_ne_nil {s : State} (h : (s.bindings name).drop (n + 1) ≠ []) : s.blocks ≠ [] := by
  intro hs
  rw [bindings_eq, hs] at h
  exact h List.drop_nil

theorem bindings_leave {s : State} (h : s.blocks ≠ []) :
    s.leave.bindings name = (s.bindings name).tail := by
  obtain ⟨frame, rest, hs⟩ := List.exists_cons_of_ne_nil h
  rw [bindings_eq, bindings_eq, leave, hs]
  rfl

theorem bindings_insertBase (h : name ≠ other) (s : State) (b : Binding) :
    (s.insertBase other b).bindings name = s.bindings name := by
  rw [bindings_eq, bindings_eq, insertBase, Table.get?_insert, if_neg h]

/-- A binding in the innermost block is not seen outside of it. -/
theorem bindings_insertInner {s : State} (h : s.blocks ≠ []) (other : String) (b : Binding) :
    ((s.insertInner other b).bindings name).tail = (s.bindings name).tail := by
  obtain ⟨frame, rest, hs⟩ := List.exists_cons_of_ne_nil h
  rw [bindings_eq, bindings_eq, insertInner, hs]
  rfl

/-- A declaration in a block does not change what a name stands for outside of it, unless it is one
with `var` of that name. -/
theorem drop_bindings_declare {s : State} (h : (s.bindings name).drop (n + 1) ≠ [])
    (hk : kind = .var → name ≠ other) (v : Value) :
    ((s.declare kind other v).bindings name).drop (n + 1) = (s.bindings name).drop (n + 1) := by
  have hs := blocks_ne_nil h
  rw [← List.drop_tail, ← List.drop_tail]
  cases kind with
  | var => exact congrArg (List.drop n ·.tail) (bindings_insertBase (hk rfl) s _)
  | block => exact congrArg (List.drop n) (bindings_insertInner hs other _)
  | constant => exact congrArg (List.drop n) (bindings_insertInner hs other _)

theorem map_rebound (h : name ≠ other) (b : Binding) (frames : List (Table Binding)) :
    (rebound other b frames).map (·.get? name) = frames.map (·.get? name) := by
  induction frames with
  | nil => rfl
  | cons frame rest ih =>
    rw [rebound]
    split
    · rw [List.map_cons, List.map_cons, Table.get?_insert, if_neg h]
    · rw [List.map_cons, List.map_cons, ih]

theorem bindings_assign? (h : name ≠ other) {s : State} (ht : s.assign? other v = some t) :
    t.bindings name = s.bindings name := by
  unfold assign? at ht
  split at ht
  · split at ht
    · cases ht
    · cases ht
      rw [bindings_eq, bindings_eq, map_rebound h]
  · split at ht
    · split at ht
      · cases ht
      · cases ht
        exact bindings_insertBase h s _
    · cases ht
      exact bindings_insertBase h s _

end State

/-- What cannot change a variable, by depth of blocks: the frames that were there before them have
the name as they had it. -/
def sparing (scope : Scope) (name : String) {bs : List (Option Binding)} (hbs : bs ≠ []) :
    Invariant Nat scope (Expr.Spares name) (Stmt.Every (.keeping name)) where
  holds n s := (s.bindings name).drop n = bs
  inner n := n + 1
  opened n := 0 < n
  opened_inner := Nat.succ_pos _
  enter h := h
  leave h := by
    rw [State.bindings_leave (State.blocks_ne_nil (h ▸ hbs)), List.drop_tail]
    exact h
  line _ _ h := h
  back _ h := h
  text _ h := h
  shown _ h := h
  bind {_ s other v} hn h := by
    obtain ⟨m, rfl⟩ := Nat.exists_eq_succ_of_ne_zero (Nat.ne_of_gt hn)
    have hk : DeclKind.block = .var → name ≠ other := fun h => DeclKind.noConfusion h
    exact (State.drop_bindings_declare (h ▸ hbs) hk v).trans h
  declare {kind decls l other _ s v} hs hd hn h := by
    obtain ⟨m, rfl⟩ := Nat.exists_eq_succ_of_ne_zero (Nat.ne_of_gt hn)
    have hk : kind = .var → name ≠ other := by
      rintro rfl rfl
      exact hs.here decls l rfl hd
    exact (State.drop_bindings_declare (h ▸ hbs) hk v).trans h
  assign {e other s v t n} he hw ht h := by
    have hne : name ≠ other := by
      rintro rfl
      exact he.here hw
    rw [State.bindings_assign? hne ht]
    exact h

theorem lookup?_of_spares (h : e.Spares name) (ht : eval scope limit e s = .ok v t) :
    scope.lookup? t name = scope.lookup? s name := by
  have hbs : State.bindings name s ≠ [] := by
    rw [State.bindings_eq]
    exact List.append_ne_nil_of_right_ne_nil _ (List.cons_ne_nil _ _)
  have hb := (sparing scope name hbs).after_eval (hereditary_every _) limit (i := 0) h rfl
  rw [Exec.after, ht] at hb
  rw [Scope.lookup?, Scope.lookup?, State.binding?_of_bindings hb]

/-- What follows the right side of an assignment with an operator. -/
def Exec.combine (scope : Scope) (name : String) (op : BinaryOp) (v : Value) : Exec Value := do
  let old ← Exec.lookup scope name
  Exec.assign name (op.apply old v)
  pure (op.apply old v)

theorem eval_compound_eq (scope : Scope) (limit : Nat) (name : String) (op : BinaryOp)
    (e : Expr) : eval scope limit (.assign name (some op) e) =
      eval scope limit e >>= Exec.combine scope name op := by
  rw [eval]
  simp only [pure_bind]
  rfl

theorem eval_combine (scope : Scope) (limit : Nat) (name : String) (op : BinaryOp) (v : Value) :
    eval scope limit (.assign name none (.binary op (.ident name) (.value v))) =
      Exec.combine scope name op v := by
  rw [eval, eval, eval, eval]
  simp only [bind_assoc, pure_bind]
  rfl

/-- An assignment of the result of an operator takes the old value first. -/
theorem eval_assign_binary (scope : Scope) (limit : Nat) (name : String) (op : BinaryOp)
    (e : Expr) : eval scope limit (.assign name none (.binary op (.ident name) e)) = (do
      let old ← Exec.lookup scope name
      let v ← eval scope limit e
      Exec.assign name (op.apply old v)
      pure (op.apply old v)) := by
  rw [eval, eval, eval]
  simp only [bind_assoc, pure_bind]

section

variable {scope : Scope} {limit : Nat} {name : String} {op : BinaryOp} {e : Expr} {s : State}

/-- If the right side leaves the variable as it was, it does not matter when its value is taken. -/
theorem eval_compound_of_some (h : scope.lookup? s name = some old)
    (hk : ∀ v t, eval scope limit e s = .ok v t → scope.lookup? t name = some old) :
    eval scope limit (.assign name (some op) e) s =
      eval scope limit (.assign name none (.binary op (.ident name) e)) s := by
  rw [eval_compound_eq, eval_assign_binary, bind_eq_of_ok (Exec.lookup_of_some h)]
  cases he : eval scope limit e s with
  | error halt t => rw [bind_eq_of_error he, bind_eq_of_error he]
  | ok v t =>
    rw [bind_eq_of_ok he, bind_eq_of_ok he, Exec.combine,
      bind_eq_of_ok (Exec.lookup_of_some (hk v t he))]

/-- Without a value before and after the right side, both fail for the same reason. -/
theorem eval_compound_of_none (h : scope.lookup? s name = none)
    (he : eval scope limit e s = .ok v t) (hk : scope.lookup? t name = none) :
    eval scope limit (.assign name (some op) e) s = .error (.error (.undefined name)) t ∧
      eval scope limit (.assign name none (.binary op (.ident name) e)) s =
        .error (.error (.undefined name)) s := by
  constructor
  · rw [eval_compound_eq, bind_eq_of_ok he, Exec.combine]
    exact bind_eq_of_error (Exec.lookup_of_none hk)
  · rw [eval_assign_binary]
    exact bind_eq_of_error (Exec.lookup_of_none h)

end

/-- An assignment with an operator runs its right side and is then an assignment of the result for
the value of that side. So it is short for the assignment of the result, with the same value or
error and the same state after it, if the variable has a value that the right side does not change;
and that cannot change it if none of its parts can. Without a value, both fail for the same
reason. -/
theorem eval_compound (scope : Scope) (limit : Nat) (name : String) (op : BinaryOp) (e : Expr)
    (s : State) :
    eval scope limit (.assign name (some op) e) s =
        (eval scope limit e >>= fun v =>
          eval scope limit (.assign name none (.binary op (.ident name) (.value v)))) s ∧
      (∀ old, scope.lookup? s name = some old →
        (∀ v t, eval scope limit e s = .ok v t → scope.lookup? t name = some old) →
        eval scope limit (.assign name (some op) e) s =
          eval scope limit (.assign name none (.binary op (.ident name) e)) s) ∧
      (∀ old, scope.lookup? s name = some old → e.Spares name →
        eval scope limit (.assign name (some op) e) s =
          eval scope limit (.assign name none (.binary op (.ident name) e)) s) ∧
      ∀ v t, scope.lookup? s name = none → eval scope limit e s = .ok v t →
        scope.lookup? t name = none →
        eval scope limit (.assign name (some op) e) s = .error (.error (.undefined name)) t ∧
          eval scope limit (.assign name none (.binary op (.ident name) e)) s =
            .error (.error (.undefined name)) s := by
  refine ⟨?_, fun old => eval_compound_of_some, fun old h he => ?_,
    fun v t => eval_compound_of_none⟩
  · simp only [eval_combine]
    rw [eval_compound_eq]
  · apply eval_compound_of_some h
    intro v t ht
    rw [lookup?_of_spares he ht, h]

/-- A template with one variable. -/
def variableState (v : Value) : State := ⟨[], .ofList [("x", ⟨v, false⟩)], "", 1⟩

/-- A callback puts out text and returns, and its value is added to a variable. -/
def compoundCallback : Expr :=
  .method (.array [.value .null]) "map" [.function ["i"] [.text "-", .giveBack none]]

theorem compoundCallback_spares : compoundCallback.Spares "x" := by
  simp [compoundCallback, Expr.Spares, Expr.Every, Expr.AllEvery, Stmt.Every, Stmt.AllEvery,
    Expr.OptionEvery, Checks.keeping, Expr.writes?]

/-- The right side assigns the value that the variable has. -/
def sameAssigned : Expr := .assign "x" none (.value .null)

theorem eval_compound_callback :
    bareScope.lookup? (variableState .null) "x" = some .null ∧ compoundCallback.Spares "x" ∧
      eval bareScope 0 (.assign "x" (some .add) compoundCallback) (variableState .null) =
        eval bareScope 0 (.assign "x" none (.binary .add (.ident "x") compoundCallback))
          (variableState .null) ∧
      (∀ v t, eval bareScope 0 sameAssigned (variableState .null) = .ok v t →
        bareScope.lookup? t "x" = some .null) ∧
      eval bareScope 0 (.assign "x" (some .add) sameAssigned) (variableState .null) =
        eval bareScope 0 (.assign "x" none (.binary .add (.ident "x") sameAssigned))
          (variableState .null) ∧
      bareScope.lookup? (variableState .null) "y" = none ∧
      eval bareScope 0 (.assign "y" (some .add) .self) (variableState .null) =
        .error (.error (.undefined "y")) (variableState .null) := by
  have hx : bareScope.lookup? (variableState .null) "x" = some .null := rfl
  have hy : bareScope.lookup? (variableState .null) "y" = none := rfl
  have hsame : ∀ v t, eval bareScope 0 sameAssigned (variableState .null) = .ok v t →
      bareScope.lookup? t "x" = some .null := by
    rintro v t ⟨⟩
    rfl
  have h (name : String) (e : Expr) := eval_compound bareScope 0 name .add e (variableState .null)
  exact ⟨hx, compoundCallback_spares, (h "x" _).2.2.1 _ hx compoundCallback_spares, hsame,
    (h "x" _).2.1 _ hx hsame, hy, ((h "y" .self).2.2.2 _ _ hy rfl hy).1⟩

/-- The right side assigns to the variable, and the value that this had before is lost. -/
theorem eval_compound_assigned :
    eval bareScope 0 (.assign "x" (some .add) (.assign "x" none (.value (.string "b"))))
        (variableState (.string "a")) = .ok (.string "bb") (variableState (.string "bb")) ∧
      eval bareScope 0 (.assign "x" none
          (.binary .add (.ident "x") (.assign "x" none (.value (.string "b")))))
        (variableState (.string "a")) = .ok (.string "ab") (variableState (.string "ab")) :=
  ⟨rfl, rfl⟩

end Stencil.Script

import Mathlib.Data.List.Forall2
import Stencil.Proofs.Script.Simulation

/-!
Blocks keep their names to themselves. Whatever an expression, a block, a loop or a callback does, and
however it ends, the frames around it have the names that they had, and constants their values; only
the frame of the template may get names. An assignment to a constant fails and binds nothing.
-/

namespace Stencil.Script

set_option autoImplicit true

/-- A frame with the same names, in which constants are as they were. -/
structure Frame.Kept (before after : Table Binding) : Prop where
  names : ∀ name, after.contains name = before.contains name
  constants : ∀ name b, before.get? name = some b → b.constant = true → after.get? name = some b

/-- The frames are as high as they were, and all but the innermost `n` blocks are kept; the frame of
the template has lost no name. -/
structure State.Kept (n : Nat) (s t : State) : Prop where
  height : t.blocks.length = s.blocks.length
  blocks : List.Forall₂ Frame.Kept (s.blocks.drop n) (t.blocks.drop n)
  base : ∀ name, s.base.contains name = true → t.base.contains name = true

theorem Frame.Kept.refl (frame : Table Binding) : Frame.Kept frame frame :=
  ⟨fun _ => rfl, fun _ _ h _ => h⟩

theorem Frame.Kept.trans (h : Frame.Kept a b) (h' : Frame.Kept b c) : Frame.Kept a c where
  names name := (h'.names name).trans (h.names name)
  constants name binding hb hc := h'.constants name binding (h.constants name binding hb hc) hc

theorem Table.contains_insert (t : Table α) (name other : String) (v : α) :
    (t.insert other v).contains name = (decide (name = other) || t.contains name) := by
  rw [Table.contains, Table.get?_insert, Table.contains]
  split
  · rename_i h
    rw [decide_eq_true h]
    rfl
  · rename_i h
    rw [decide_eq_false h]
    rfl

/-- A variable in the frame gets another value. -/
theorem Frame.Kept.insert {frame : Table Binding} (h : frame.get? name = some b)
    (hb : b.constant = false) (b' : Binding) : Frame.Kept frame (frame.insert name b') where
  names other := by
    rw [Table.contains_insert]
    by_cases ho : other = name
    · subst ho
      rw [Table.contains, h]
      simp
    · rw [decide_eq_false ho, Bool.false_or]
  constants other binding ho hc := by
    have hne : other ≠ name := by
      rintro rfl
      rw [h] at ho
      cases ho
      rw [hb] at hc
      cases hc
    rw [Table.get?_insert, if_neg hne]
    exact ho

namespace State

theorem kept_blocks_refl (blocks : List (Table Binding)) : List.Forall₂ Frame.Kept blocks blocks :=
  List.forall₂_same.mpr fun frame _ => .refl frame

theorem kept_blocks_trans (h : List.Forall₂ Frame.Kept as bs)
    (h' : List.Forall₂ Frame.Kept bs cs) : List.Forall₂ Frame.Kept as cs := by
  induction h generalizing cs with
  | nil => exact h'
  | cons hab _ ih =>
    cases h' with
    | cons hbc hrest => exact .cons (hab.trans hbc) (ih hrest)

namespace Kept

theorem refl (n : Nat) (s : State) : Kept n s s := ⟨rfl, kept_blocks_refl _, fun _ h => h⟩

theorem trans (h : Kept n s t) (h' : Kept n t u) : Kept n s u where
  height := h'.height.trans h.height
  blocks := kept_blocks_trans h.blocks h'.blocks
  base name hn := h'.base name (h.base name hn)

theorem mono (h : Kept n s t) (hm : n ≤ m) : Kept m s t where
  height := h.height
  blocks := by
    obtain ⟨d, rfl⟩ := Nat.exists_eq_add_of_le hm
    have hd := List.forall₂_drop d h.blocks
    rwa [List.drop_drop, List.drop_drop] at hd
  base := h.base

theorem enter (h : Kept n s t) : Kept (n + 1) s.enter t.enter where
  height := congrArg (· + 1) h.height
  blocks := h.blocks
  base := h.base

theorem leave (h : Kept (n + 1) (State.enter s) t) : Kept n s t.leave where
  height := by
    rw [State.leave, List.length_tail, h.height]
    rfl
  blocks := by
    rw [State.leave, List.drop_tail]
    exact h.blocks
  base := h.base

end Kept

theorem kept_insertBase (n : Nat) (s : State) (name : String) (b : Binding) :
    s.Kept n (s.insertBase name b) where
  height := rfl
  blocks := kept_blocks_refl _
  base other h := by
    rw [insertBase, Table.contains_insert, h, Bool.or_true]

theorem kept_insertInner (n : Nat) (s : State) (name : String) (b : Binding) :
    s.Kept (n + 1) (s.insertInner name b) := by
  unfold insertInner
  split
  · exact kept_insertBase _ s name b
  · rename_i frame rest hs
    refine ⟨?_, ?_, fun _ h => h⟩
    · rw [hs]
      rfl
    · rw [hs]
      exact kept_blocks_refl _

theorem kept_declare (n : Nat) (s : State) (kind : DeclKind) (name : String) (v : Value) :
    s.Kept (n + 1) (s.declare kind name v) := by
  cases kind with
  | var => exact kept_insertBase _ s name _
  | block => exact kept_insertInner n s name _
  | constant => exact kept_insertInner n s name _

/-- The nearest binding in some frames is replaced. -/
theorem kept_rebound {frames : List (Table Binding)}
    (h : (frames.findSome? fun frame => frame.get? name) = some b) (hb : b.constant = false)
    (b' : Binding) : List.Forall₂ Frame.Kept frames (rebound name b' frames) := by
  induction frames with
  | nil => exact .nil
  | cons frame rest ih =>
    rw [List.findSome?_cons] at h
    rw [rebound, Table.contains]
    cases hf : frame.get? name with
    | none =>
      rw [hf] at h
      exact .cons (.refl frame) (ih h)
    | some c =>
      rw [hf] at h
      cases h
      exact .cons (.insert hf hb b') (kept_blocks_refl rest)

theorem kept_assign? (h : State.assign? s name v = some t) : s.Kept 0 t := by
  unfold State.assign? at h
  split at h
  · rename_i b hf
    split at h
    · cases h
    · rename_i hb
      cases h
      refine ⟨?_, kept_rebound hf (Bool.eq_false_iff.mpr hb) _, fun _ h => h⟩
      exact (List.Forall₂.length_eq (kept_rebound hf (Bool.eq_false_iff.mpr hb) _)).symm
  · split at h
    · split at h
      · cases h
      · cases h
        exact kept_insertBase 0 s name _
    · cases h
      exact kept_insertBase 0 s name _

end State

/-- What is kept of a state, for a run of any statements from there. -/
def scoping (scope : Scope) : Invariant (Nat × State) scope (fun _ => True) (fun _ => True) where
  holds i s := i.2.Kept i.1 s
  inner i := (i.1 + 1, i.2.enter)
  opened i := 0 < i.1
  opened_inner := Nat.succ_pos _
  enter h := h.enter
  leave h := h.leave
  line _ _ h := ⟨h.height, h.blocks, h.base⟩
  back _ h := ⟨h.height, h.blocks, h.base⟩
  text _ h := ⟨h.height, h.blocks, h.base⟩
  shown _ h := ⟨h.height, h.blocks, h.base⟩
  bind := by
    rintro ⟨n, s₀⟩ s name v hn h
    obtain ⟨m, rfl⟩ := Nat.exists_eq_succ_of_ne_zero (Nat.ne_of_gt hn)
    exact h.trans (State.kept_declare m s .block name v)
  declare := by
    rintro kind decls l name ⟨n, s₀⟩ s v - - hn h
    obtain ⟨m, rfl⟩ := Nat.exists_eq_succ_of_ne_zero (Nat.ne_of_gt hn)
    exact h.trans (State.kept_declare m s kind name v)
  assign _ _ ht h := h.trans ((State.kept_assign? ht).mono (Nat.zero_le _))

theorem hereditary_true : Hereditary (fun _ => True) (fun _ => True) := by
  constructor <;> simp

theorem kept_eval (scope : Scope) (limit : Nat) (e : Expr) (s : State) :
    s.Kept 0 ((eval scope limit e).after s) :=
  (scoping scope).after_eval hereditary_true limit (i := (0, s)) trivial (.refl 0 s)

theorem kept_exec (scope : Scope) (limit : Nat) (stmt : Stmt) (hb : stmt.binds = false)
    (s : State) : s.Kept 0 ((exec scope limit stmt).after s) := by
  apply (scoping scope).after_exec hereditary_true limit (i := (0, s)) trivial _ (.refl 0 s)
  rw [hb]
  nofun

theorem kept_callback (scope : Scope) (limit : Nat) (params : List String) (args : List Value)
    (body : List Stmt) (s : State) :
    s.Kept 0 ((callback params args (run scope limit body)).after s) :=
  (scoping scope).after_callback hereditary_true limit (i := (0, s)) (fun _ _ => trivial) params
    args (.refl 0 s)

theorem binding?_eq (s : State) (name : String) :
    s.binding? name = (s.blocks.findSome? fun frame => frame.get? name).or (s.base.get? name) := by
  rw [State.binding?, State.frames, List.findSome?_append, List.findSome?_singleton]

theorem assign?_of_constant {s : State} (h : s.binding? name = some b) (hb : b.constant = true) :
    s.assign? name v = none := by
  rw [binding?_eq] at h
  unfold State.assign?
  cases hf : s.blocks.findSome? fun frame => frame.get? name with
  | some c =>
    rw [hf] at h
    cases h
    exact if_pos hb
  | none =>
    rw [hf, Option.none_or] at h
    dsimp only
    rw [h]
    exact if_pos hb

theorem Exec.assign_of_constant {s : State} (h : s.binding? name = some b)
    (hb : b.constant = true) (v : Value) :
    Exec.assign name v s = .error (.error (.constantAssigned name)) s := by
  have hg : (get : Exec State) s = .ok s s := rfl
  rw [Exec.assign, bind_eq_of_ok hg, assign?_of_constant h hb]
  rfl

theorem Exec.lookup_of_some {scope : Scope} {s : State} (h : scope.lookup? s name = some v) :
    Exec.lookup scope name s = .ok v s := by
  have hg : (get : Exec State) s = .ok s s := rfl
  rw [Exec.lookup, bind_eq_of_ok hg, h]
  rfl

theorem Exec.lookup_of_none {scope : Scope} {s : State} (h : scope.lookup? s name = none) :
    Exec.lookup scope name s = .error (.error (.undefined name)) s := by
  have hg : (get : Exec State) s = .ok s s := rfl
  rw [Exec.lookup, bind_eq_of_ok hg, h]
  rfl

theorem Exec.lookup_of_binding {s : State} (h : s.binding? name = some b) (scope : Scope) :
    Exec.lookup scope name s = .ok b.value s := by
  apply Exec.lookup_of_some
  rw [Scope.lookup?, h]

theorem eval_assign_constant (hv : eval scope limit value s = .ok v t)
    (h : t.binding? name = some b) (hb : b.constant = true) (op : Option BinaryOp) :
    eval scope limit (.assign name op value) s = .error (.error (.constantAssigned name)) t := by
  rw [eval, bind_eq_of_ok hv]
  cases op with
  | none =>
    dsimp only
    rw [pure_bind]
    exact bind_eq_of_error (Exec.assign_of_constant h hb _)
  | some op =>
    apply (bind_eq_of_ok (Exec.lookup_of_binding h scope)).trans
    rw [pure_bind]
    exact bind_eq_of_error (Exec.assign_of_constant h hb _)

theorem eval_update_constant (h : State.binding? s name = some b) (hb : b.constant = true)
    (scope : Scope) (limit : Nat) (increment before : Bool) :
    eval scope limit (.update name increment before) s =
      .error (.error (.constantAssigned name)) s := by
  rw [eval, bind_eq_of_ok (Exec.lookup_of_binding h scope)]
  exact bind_eq_of_error (Exec.assign_of_constant h hb _)

/-- Expressions, blocks, loops and callbacks keep the frames around them, however they end; and what
assigns to a constant fails, with the bindings that there are at that moment. -/
theorem scopes_kept (scope : Scope) (limit : Nat) (s : State) :
    (∀ e, s.Kept 0 ((eval scope limit e).after s)) ∧
      (∀ stmt, stmt.binds = false → s.Kept 0 ((exec scope limit stmt).after s)) ∧
      (∀ params args body, s.Kept 0 ((callback params args (run scope limit body)).after s)) ∧
      (∀ name op value v t b, eval scope limit value s = .ok v t → t.binding? name = some b →
        b.constant = true → eval scope limit (.assign name op value) s =
          .error (.error (.constantAssigned name)) t) ∧
      ∀ name increment before b, s.binding? name = some b → b.constant = true →
        eval scope limit (.update name increment before) s =
          .error (.error (.constantAssigned name)) s := by
  refine ⟨fun e => kept_eval scope limit e s, fun stmt hb => kept_exec scope limit stmt hb s,
    fun params args body => kept_callback scope limit params args body s, ?_, ?_⟩
  · intro name op value v t b hv h hb
    exact eval_assign_constant hv h hb op
  · intro name increment before b h hb
    exact eval_update_constant h hb scope limit increment before

def bareScope : Scope := ⟨∅, ∅, .null, ⟨∅, ∅, Value.display⟩⟩

/-- A block with a constant, in a template with a variable of the given value. -/
def constantInBlock (v : Value) : State :=
  ⟨[.ofList [("x", ⟨.null, true⟩)]], .ofList [("n", ⟨v, false⟩)], "", 1⟩

/-- The variable has got its value before the constant refuses one. -/
theorem scopes_kept_constant :
    eval bareScope 0 (.assign "n" none (.value (.bool true))) (constantInBlock .null) =
        .ok (.bool true) (constantInBlock (.bool true)) ∧
      (constantInBlock (.bool true)).binding? "x" = some ⟨.null, true⟩ ∧
      eval bareScope 0 (.assign "x" (some .add) (.assign "n" none (.value (.bool true))))
          (constantInBlock .null) =
        .error (.error (.constantAssigned "x")) (constantInBlock (.bool true)) := by
  have hv : eval bareScope 0 (.assign "n" none (.value (.bool true))) (constantInBlock .null) =
      .ok (.bool true) (constantInBlock (.bool true)) := rfl
  have hb : (constantInBlock (.bool true)).binding? "x" = some ⟨.null, true⟩ := rfl
  have h := (scopes_kept bareScope 0 (constantInBlock .null)).2.2.2.1
  exact ⟨hv, hb, h "x" (some .add) _ _ _ _ hv hb rfl⟩

end Stencil.Script

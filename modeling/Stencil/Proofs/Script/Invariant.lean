import Stencil.Proofs.Script.Limits
import Stencil.Proofs.Script.Simulation

/-!
What every run keeps, also a run that stops early: the line stays one of those of the statements,
and the output is made of texts of the template and of values shown by its output tags.
-/

namespace Stencil.Script

set_option autoImplicit true

/-- A text that a statement may add to the output. -/
inductive Addition (k : Limits) (env : Environment) : String → Prop
  | text (h : k.text t) : Addition k env t
  | shown (h : k.output escape) (v : Value) :
    Addition k env (if escape then env.escaper v else v.display)

structure State.Within (k : Limits) (env : Environment) (s : State) : Prop where
  line : k.line s.line
  out : ∃ parts, s.out = String.join parts ∧ ∀ part ∈ parts, Addition k env part

namespace State.Within

variable {k : Limits} {env : Environment} {s : State}

theorem initial (h : k.line 1) : Within k env .initial :=
  ⟨h, [], rfl, fun _ hp => absurd hp List.not_mem_nil⟩

theorem write (h : s.Within k env) (ht : Addition k env t) : (s.write t).Within k env := by
  obtain ⟨hline, parts, ho, hp⟩ := h
  refine ⟨hline, parts ++ [t], ?_, ?_⟩
  · rw [String.join_append, String.join_cons, String.join_nil, String.append_empty, ← ho]
    rfl
  · exact List.forall_mem_append.mpr ⟨hp, fun part h => List.mem_singleton.mp h ▸ ht⟩

theorem atLine (h : s.Within k env) {line : Nat} (hl : k.line line) :
    (s.atLine line).Within k env :=
  ⟨hl, h.out⟩

theorem enter (h : s.Within k env) : s.enter.Within k env := ⟨h.line, h.out⟩

theorem leave (h : s.Within k env) : s.leave.Within k env := ⟨h.line, h.out⟩

theorem insertInner (h : s.Within k env) (name : String) (b : Binding) :
    (s.insertInner name b).Within k env := by
  unfold State.insertInner
  split
  · exact ⟨h.line, h.out⟩
  · exact ⟨h.line, h.out⟩

theorem declare (h : s.Within k env) (kind : DeclKind) (name : String) (v : Value) :
    (s.declare kind name v).Within k env := by
  cases kind with
  | var => exact ⟨h.line, h.out⟩
  | block => exact h.insertInner name _
  | constant => exact h.insertInner name _

theorem assign? (h : s.Within k env) (hs : s.assign? name v = some s') : s'.Within k env := by
  unfold State.assign? at hs
  split at hs
  · split at hs
    · cases hs
    · cases hs
      exact ⟨h.line, h.out⟩
  · split at hs
    · split at hs
      · cases hs
      · cases hs
        exact ⟨h.line, h.out⟩
    · cases hs
      exact ⟨h.line, h.out⟩

end State.Within

/-- A computation that leaves every state within the limits there. -/
def Exec.Keeps (k : Limits) (env : Environment) (x : Exec α) : Prop :=
  ∀ s : State, s.Within k env → (x.after s).Within k env

theorem exprs_within (h : Expr.AllWithin k es) : ∀ e ∈ es, e.Within k := by
  induction es with
  | nil => exact nofun
  | cons e es ih => exact List.forall_mem_cons.mpr ⟨h.1, ih h.2⟩

theorem fields_within (h : Expr.FieldsWithin k fields) : ∀ field ∈ fields, field.2.Within k := by
  induction fields with
  | nil => exact nofun
  | cons field fields ih => exact List.forall_mem_cons.mpr ⟨h.1, ih h.2⟩

theorem option_within (h : Expr.OptionWithin k value) : ∀ e ∈ value, e.Within k := by
  rintro e rfl
  exact h

theorem decls_within (h : Expr.DeclsWithin k decls) :
    ∀ decl ∈ decls, ∀ e ∈ decl.2, e.Within k := by
  induction decls with
  | nil => exact nofun
  | cons decl decls ih => exact List.forall_mem_cons.mpr ⟨option_within h.1, ih h.2⟩

theorem stmts_within (h : Stmt.AllWithin k body) : ∀ stmt ∈ body, stmt.Within k := by
  induction body with
  | nil => exact nofun
  | cons stmt body ih => exact List.forall_mem_cons.mpr ⟨h.1, ih h.2⟩

theorem optionStmt_within (h : Stmt.OptionWithin k no) : ∀ stmt ∈ no, stmt.Within k := by
  rintro stmt rfl
  exact h

theorem hereditary_within (k : Limits) : Hereditary (Expr.Within k) (Stmt.Within k) where
  array := exprs_within
  object := fields_within
  member := id
  filter := exprs_within
  call := exprs_within
  method h := ⟨h.1, exprs_within h.2⟩
  unary := id
  binary := id
  logical := id
  conditional := id
  assign := id
  function := stmts_within
  output h := h.2.2
  expr h := h.2
  declare h := decls_within h.2
  branch h := ⟨h.2.1, h.2.2.1, optionStmt_within h.2.2.2⟩
  forOf h := h.2
  forIn h := h.2
  loop h := ⟨optionStmt_within h.2.1, option_within h.2.2.1, option_within h.2.2.2.1, h.2.2.2.2⟩
  whileDo h := h.2
  block := stmts_within
  giveBack := option_within

theorem Stmt.Within.line {stmt : Stmt} (h : stmt.Within k) (hl : stmt.line? = some l) :
    k.line l := by
  cases stmt with
  | output e escape line => exact Option.some.inj hl ▸ h.2.1
  | text | block | breakLoop | continueLoop | giveBack | empty => cases hl
  | _ => exact Option.some.inj hl ▸ h.1

/-- A run stays within the limits that its statements keep. -/
def staying (k : Limits) (scope : Scope) : Invariant Unit scope (Expr.Within k) (Stmt.Within k) where
  holds _ s := s.Within k scope.env
  inner := id
  opened _ := True
  opened_inner := trivial
  enter h := h.enter
  leave h := h.leave
  line hw hl h := h.atLine (hw.line hl)
  back hs ht := ht.atLine hs.line
  text hw h := h.write (.text hw)
  shown hw h := h.write (.shown hw.1 _)
  bind _ h := h.declare .block _ _
  declare _ _ _ h := h.declare _ _ _
  assign _ _ hs h := h.assign? hs

theorem keeps_run (scope : Scope) (limit : Nat) (body : List Stmt) (h : Stmt.AllWithin k body) :
    Exec.Keeps k scope.env (run scope limit body) := by
  intro s hs
  apply (staying k scope).after_run (hereditary_within k) limit (i := ()) (stmts_within h) trivial
  exact hs

/-- The output of a template is made of its own texts and of values shown by its output tags; if it
ends early, it does so at the line of a statement. -/
theorem execute_within (scope : Scope) (limit : Nat) {program : List Stmt}
    (hp : Stmt.AllWithin k program) (hl : k.line 1) :
    match execute scope limit program with
    | .ok out => ∃ parts, out = String.join parts ∧ ∀ part ∈ parts, Addition k scope.env part
    | .error (_, line) => k.line line := by
  have h := keeps_run scope limit program hp .initial (.initial hl)
  unfold execute
  unfold Exec.after at h
  cases hr : run scope limit program .initial with
  | ok flow s =>
    rw [hr] at h
    exact h.out
  | error e s =>
    rw [hr] at h
    exact h.line

end Stencil.Script

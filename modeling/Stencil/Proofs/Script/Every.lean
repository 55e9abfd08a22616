import Stencil.Proofs.Script.Leaves
import Stencil.Proofs.Script.WellFormed

/-!
What holds of every expression and every statement of a tree, also of those in the output tags and
in the functions inside expressions. The main statement is `every_of_build`: what is well formed
passes a check, and so does everything in the statements of a template.
-/

namespace Stencil.Script

set_option autoImplicit true

/-- A check of single expressions and statements. -/
structure Checks where
  expr : Expr → Prop
  stmt : Stmt → Prop

mutual

def Expr.Every (k : Checks) : Expr → Prop
  | .value v => k.expr (.value v)
  | .ident name => k.expr (.ident name)
  | .self => k.expr .self
  | .array items => k.expr (.array items) ∧ Expr.AllEvery k items
  | .object fields => k.expr (.object fields) ∧ Expr.FieldsEvery k fields
  | .member target key => k.expr (.member target key) ∧ target.Every k ∧ key.Every k
  | .filter name args => k.expr (.filter name args) ∧ Expr.AllEvery k args
  | .call name args => k.expr (.call name args) ∧ Expr.AllEvery k args
  | .method target name args =>
    k.expr (.method target name args) ∧ target.Every k ∧ Expr.AllEvery k args
  | .unary op operand => k.expr (.unary op operand) ∧ operand.Every k
  | .binary op left right => k.expr (.binary op left right) ∧ left.Every k ∧ right.Every k
  | .logical onTrue left right =>
    k.expr (.logical onTrue left right) ∧ left.Every k ∧ right.Every k
  | .conditional test yes no =>
    k.expr (.conditional test yes no) ∧ test.Every k ∧ yes.Every k ∧ no.Every k
  | .assign name op value => k.expr (.assign name op value) ∧ value.Every k
  | .update name increment before => k.expr (.update name increment before)
  | .function params body => k.expr (.function params body) ∧ Stmt.AllEvery k body

def Expr.AllEvery (k : Checks) : List Expr → Prop
  | [] => True
  | e :: es => e.Every k ∧ Expr.AllEvery k es

def Expr.OptionEvery (k : Checks) : Option Expr → Prop
  | none => True
  | some e => e.Every k

def Expr.FieldsEvery (k : Checks) : List (String × Expr) → Prop
  | [] => True
  | (_, e) :: fields => e.Every k ∧ Expr.FieldsEvery k fields

def Expr.DeclsEvery (k : Checks) : List (String × Option Expr) → Prop
  | [] => True
  | (_, value) :: decls => Expr.OptionEvery k value ∧ Expr.DeclsEvery k decls

def Stmt.Every (k : Checks) : Stmt → Prop
  | .text s => k.stmt (.text s)
  | .output e escape line => k.stmt (.output e escape line) ∧ e.Every k
  | .expr e line => k.stmt (.expr e line) ∧ e.Every k
  | .declare kind decls line => k.stmt (.declare kind decls line) ∧ Expr.DeclsEvery k decls
  | .branch test yes no line =>
    k.stmt (.branch test yes no line) ∧ test.Every k ∧ yes.Every k ∧ Stmt.OptionEvery k no
  | .forOf name items body line =>
    k.stmt (.forOf name items body line) ∧ items.Every k ∧ body.Every k
  | .forIn name target body line =>
    k.stmt (.forIn name target body line) ∧ target.Every k ∧ body.Every k
  | .loop first test update body line =>
    k.stmt (.loop first test update body line) ∧ Stmt.OptionEvery k first ∧
      Expr.OptionEvery k test ∧ Expr.OptionEvery k update ∧ body.Every k
  | .whileDo test body line => k.stmt (.whileDo test body line) ∧ test.Every k ∧ body.Every k
  | .block body => k.stmt (.block body) ∧ Stmt.AllEvery k body
  | .breakLoop => k.stmt .breakLoop
  | .continueLoop => k.stmt .continueLoop
  | .giveBack value => k.stmt (.giveBack value) ∧ Expr.OptionEvery k value
  | .empty => k.stmt .empty

def Stmt.AllEvery (k : Checks) : List Stmt → Prop
  | [] => True
  | stmt :: rest => stmt.Every k ∧ Stmt.AllEvery k rest

def Stmt.OptionEvery (k : Checks) : Option Stmt → Prop
  | none => True
  | some stmt => stmt.Every k

end

/-- Properties that pass from expressions and statements to their parts. -/
structure Hereditary (E : Expr → Prop) (S : Stmt → Prop) : Prop where
  array : E (.array items) → ∀ e ∈ items, E e
  object : E (.object fields) → ∀ field ∈ fields, E field.2
  member : E (.member target key) → E target ∧ E key
  filter : E (.filter name args) → ∀ e ∈ args, E e
  call : E (.call name args) → ∀ e ∈ args, E e
  method : E (.method target name args) → E target ∧ ∀ e ∈ args, E e
  unary : E (.unary op operand) → E operand
  binary : E (.binary op left right) → E left ∧ E right
  logical : E (.logical onTrue left right) → E left ∧ E right
  conditional : E (.conditional test yes no) → E test ∧ E yes ∧ E no
  assign : E (.assign name op value) → E value
  function : E (.function params body) → ∀ stmt ∈ body, S stmt
  output : S (.output e escape line) → E e
  expr : S (.expr e line) → E e
  declare : S (.declare kind decls line) → ∀ decl ∈ decls, ∀ e ∈ decl.2, E e
  branch : S (.branch test yes no line) → E test ∧ S yes ∧ ∀ stmt ∈ no, S stmt
  forOf : S (.forOf name items body line) → E items ∧ S body
  forIn : S (.forIn name target body line) → E target ∧ S body
  loop : S (.loop first test update body line) →
    (∀ stmt ∈ first, S stmt) ∧ (∀ e ∈ test, E e) ∧ (∀ e ∈ update, E e) ∧ S body
  whileDo : S (.whileDo test body line) → E test ∧ S body
  block : S (.block body) → ∀ stmt ∈ body, S stmt
  giveBack : S (.giveBack value) → ∀ e ∈ value, E e

theorem Expr.Every.here {e : Expr} (h : e.Every k) : k.expr e := by
  cases e with
  | value | ident | self | update => exact h
  | _ => exact h.1

theorem Stmt.Every.here {stmt : Stmt} (h : stmt.Every k) : k.stmt stmt := by
  cases stmt with
  | text | breakLoop | continueLoop | empty => exact h
  | _ => exact h.1

theorem exprs_every (h : Expr.AllEvery k es) : ∀ e ∈ es, e.Every k := by
  induction es with
  | nil => exact nofun
  | cons e es ih => exact List.forall_mem_cons.mpr ⟨h.1, ih h.2⟩

theorem fields_every (h : Expr.FieldsEvery k fields) : ∀ field ∈ fields, field.2.Every k := by
  induction fields with
  | nil => exact nofun
  | cons field fields ih => exact List.forall_mem_cons.mpr ⟨h.1, ih h.2⟩

theorem option_every (h : Expr.OptionEvery k value) : ∀ e ∈ value, e.Every k := by
  rintro e rfl
  exact h

theorem decls_every (h : Expr.DeclsEvery k decls) : ∀ decl ∈ decls, ∀ e ∈ decl.2, e.Every k := by
  induction decls with
  | nil => exact nofun
  | cons decl decls ih => exact List.forall_mem_cons.mpr ⟨option_every h.1, ih h.2⟩

theorem stmts_every (h : Stmt.AllEvery k body) : ∀ stmt ∈ body, stmt.Every k := by
  induction body with
  | nil => exact nofun
  | cons stmt body ih => exact List.forall_mem_cons.mpr ⟨h.1, ih h.2⟩

theorem optionStmt_every (h : Stmt.OptionEvery k no) : ∀ stmt ∈ no, stmt.Every k := by
  rintro stmt rfl
  exact h

theorem hereditary_every (k : Checks) : Hereditary (Expr.Every k) (Stmt.Every k) where
  array h := exprs_every h.2
  object h := fields_every h.2
  member h := h.2
  filter h := exprs_every h.2
  call h := exprs_every h.2
  method h := ⟨h.2.1, exprs_every h.2.2⟩
  unary h := h.2
  binary h := h.2
  logical h := h.2
  conditional h := h.2
  assign h := h.2
  function h := stmts_every h.2
  output h := h.2
  expr h := h.2
  declare h := decls_every h.2
  branch h := ⟨h.2.1, h.2.2.1, optionStmt_every h.2.2.2⟩
  forOf h := h.2
  forIn h := h.2
  loop h := ⟨optionStmt_every h.2.1, option_every h.2.2.1, option_every h.2.2.2.1, h.2.2.2.2⟩
  whileDo h := h.2
  block h := stmts_every h.2
  giveBack h := option_every h.2

/-- What is well formed passes the checks. So do all variables, since that of a field without a
value may have any name. -/
structure Checks.Follow (k : Checks) : Prop where
  ident : ∀ name, k.expr (.ident name)
  expr : ∀ e : Expr, e.WellFormed → k.expr e
  stmt : ∀ inLoop inFunction (stmt : Stmt), stmt.WellFormed inLoop inFunction → k.stmt stmt

/-- The expression of an output tag is well formed. -/
def Leaf.WellFormed : Leaf → Prop
  | text _ => True
  | output e _ _ => e.WellFormed

theorem Stmt.wellFormed_of_start {first : Stmt} (h : Stmt.StartWellFormed line (some first)) :
    first.WellFormed false false := by
  cases first with
  | expr e l => exact h.2
  | declare kind decls l => exact h.2
  | _ => cases h

section every

variable {k : Checks}

mutual

theorem every_expr (hk : k.Follow) : (e : Expr) → e.WellFormed →
    (∀ leaf ∈ e.leaves, leaf.WellFormed) → e.Every k
  | .value v, h, _ => hk.expr (.value v) h
  | .ident name, _, _ => hk.ident name
  | .self, h, _ => hk.expr .self h
  | .array items, h, hl => ⟨hk.expr _ h, every_exprs hk items h hl⟩
  | .object fields, h, hl => ⟨hk.expr _ h, every_fields hk fields h hl⟩
  | .member target key, h, hl => by
    obtain ⟨ht, hkey⟩ := List.forall_mem_append.mp hl
    exact ⟨hk.expr _ h, every_expr hk target h.1 ht, every_expr hk key h.2 hkey⟩
  | .filter name args, h, hl => ⟨hk.expr _ h, every_exprs hk args h hl⟩
  | .call name args, h, hl => ⟨hk.expr _ h, every_exprs hk args h hl⟩
  | .method target name args, h, hl => by
    obtain ⟨ht, ha⟩ := List.forall_mem_append.mp hl
    exact ⟨hk.expr _ h, every_expr hk target h.2.1 ht, every_exprs hk args h.2.2 ha⟩
  | .unary op operand, h, hl => ⟨hk.expr _ h, every_expr hk operand h hl⟩
  | .binary op left right, h, hl => by
    obtain ⟨hleft, hright⟩ := List.forall_mem_append.mp hl
    exact ⟨hk.expr _ h, every_expr hk left h.1 hleft, every_expr hk right h.2 hright⟩
  | .logical onTrue left right, h, hl => by
    obtain ⟨hleft, hright⟩ := List.forall_mem_append.mp hl
    exact ⟨hk.expr _ h, every_expr hk left h.1 hleft, every_expr hk right h.2 hright⟩
  | .conditional test yes no, h, hl => by
    obtain ⟨hl, hno⟩ := List.forall_mem_append.mp hl
    obtain ⟨ht, hyes⟩ := List.forall_mem_append.mp hl
    exact ⟨hk.expr _ h, every_expr hk test h.1 ht, every_expr hk yes h.2.1 hyes,
      every_expr hk no h.2.2 hno⟩
  | .assign name op value, h, hl => ⟨hk.expr _ h, every_expr hk value h.2.2 hl⟩
  | .update name increment before, h, _ => hk.expr (.update name increment before) h
  | .function params body, h, hl => ⟨hk.expr _ h, every_stmts hk body h.2 hl⟩

theorem every_exprs (hk : k.Follow) : (es : List Expr) → Expr.AllWellFormed es →
    (∀ leaf ∈ Expr.leavesAll es, leaf.WellFormed) → Expr.AllEvery k es
  | [], _, _ => trivial
  | e :: es, h, hl => by
    obtain ⟨he, hes⟩ := List.forall_mem_append.mp hl
    exact ⟨every_expr hk e h.1 he, every_exprs hk es h.2 hes⟩

theorem every_option (hk : k.Follow) : (value : Option Expr) → Expr.OptionWellFormed value →
    (∀ leaf ∈ Expr.optionLeaves value, leaf.WellFormed) → Expr.OptionEvery k value
  | none, _, _ => trivial
  | some e, h, hl => every_expr hk e h hl

theorem every_fields (hk : k.Follow) : (fields : List (String × Expr)) →
    Expr.FieldsWellFormed fields →
    (∀ leaf ∈ Expr.fieldLeaves fields, leaf.WellFormed) → Expr.FieldsEvery k fields
  | [], _, _ => trivial
  | (name, e) :: fields, h, hl => by
    obtain ⟨he, hfields⟩ := List.forall_mem_append.mp hl
    refine ⟨?_, every_fields hk fields h.2 hfields⟩
    rcases h.1 with hi | hw
    · rw [hi]
      exact hk.ident name
    · exact every_expr hk e hw he

theorem every_decls (hk : k.Follow) : (decls : List (String × Option Expr)) →
    Expr.DeclsWellFormed decls →
    (∀ leaf ∈ Expr.declLeaves decls, leaf.WellFormed) → Expr.DeclsEvery k decls
  | [], _, _ => trivial
  | (name, value) :: decls, h, hl => by
    obtain ⟨hv, hdecls⟩ := List.forall_mem_append.mp hl
    exact ⟨every_option hk value h.2.1 hv, every_decls hk decls h.2.2 hdecls⟩

theorem every_stmt (hk : k.Follow) : (stmt : Stmt) → stmt.WellFormed inLoop inFunction →
    (∀ leaf ∈ stmt.leaves, leaf.WellFormed) → stmt.Every k
  | .text s, h, _ => hk.stmt inLoop inFunction (.text s) h
  | .output e escape line, h, hl => by
    obtain ⟨he, hl⟩ := List.forall_mem_cons.mp hl
    exact ⟨hk.stmt inLoop inFunction _ h, every_expr hk e he hl⟩
  | .expr e line, h, hl => ⟨hk.stmt inLoop inFunction _ h, every_expr hk e h hl⟩
  | .declare kind decls line, h, hl =>
    ⟨hk.stmt inLoop inFunction _ h, every_decls hk decls h.2 hl⟩
  | .branch test yes no line, h, hl => by
    obtain ⟨hl, hno⟩ := List.forall_mem_append.mp hl
    obtain ⟨ht, hyes⟩ := List.forall_mem_append.mp hl
    exact ⟨hk.stmt inLoop inFunction _ h, every_expr hk test h.1 ht, every_stmt hk yes h.2.1 hyes,
      every_optionStmt hk no h.2.2.1 hno⟩
  | .forOf name items body line, h, hl => by
    obtain ⟨hi, hb⟩ := List.forall_mem_append.mp hl
    exact ⟨hk.stmt inLoop inFunction _ h, every_expr hk items h.2.1 hi,
      every_stmt hk body h.2.2 hb⟩
  | .forIn name target body line, h, hl => by
    obtain ⟨ht, hb⟩ := List.forall_mem_append.mp hl
    exact ⟨hk.stmt inLoop inFunction _ h, every_expr hk target h.2.1 ht,
      every_stmt hk body h.2.2 hb⟩
  | .loop first test update body line, h, hl => by
    obtain ⟨hl, hb⟩ := List.forall_mem_append.mp hl
    obtain ⟨hl, hu⟩ := List.forall_mem_append.mp hl
    obtain ⟨hf, ht⟩ := List.forall_mem_append.mp hl
    have hfirst : Stmt.OptionWellFormed false false first := by
      cases first with
      | none => trivial
      | some first => exact Stmt.wellFormed_of_start h.1
    exact ⟨hk.stmt inLoop inFunction _ h, every_optionStmt hk first hfirst hf,
      every_option hk test h.2.1 ht, every_option hk update h.2.2.1 hu,
      every_stmt hk body h.2.2.2 hb⟩
  | .whileDo test body line, h, hl => by
    obtain ⟨ht, hb⟩ := List.forall_mem_append.mp hl
    exact ⟨hk.stmt inLoop inFunction _ h, every_expr hk test h.1 ht, every_stmt hk body h.2 hb⟩
  | .block body, h, hl => ⟨hk.stmt inLoop inFunction _ h, every_stmts hk body h hl⟩
  | .breakLoop, h, _ => hk.stmt inLoop inFunction .breakLoop h
  | .continueLoop, h, _ => hk.stmt inLoop inFunction .continueLoop h
  | .giveBack value, h, hl => ⟨hk.stmt inLoop inFunction _ h, every_option hk value h.2 hl⟩
  | .empty, h, _ => hk.stmt inLoop inFunction .empty h

theorem every_stmts (hk : k.Follow) : (body : List Stmt) →
    Stmt.AllWellFormed inLoop inFunction body →
    (∀ leaf ∈ Stmt.leavesAll body, leaf.WellFormed) → Stmt.AllEvery k body
  | [], _, _ => trivial
  | stmt :: rest, h, hl => by
    obtain ⟨hs, hr⟩ := List.forall_mem_append.mp hl
    exact ⟨every_stmt hk stmt h.1 hs, every_stmts hk rest h.2 hr⟩

theorem every_optionStmt (hk : k.Follow) : (no : Option Stmt) →
    Stmt.OptionWellFormed inLoop inFunction no →
    (∀ leaf ∈ Stmt.optionLeaves no, leaf.WellFormed) → Stmt.OptionEvery k no
  | none, _, _ => trivial
  | some stmt, h, hl => every_stmt hk stmt h hl

end

end every

theorem wellFormed_of_parseExpression (h : parseExpression code line = .ok e) : e.WellFormed := by
  rcases derives_of_parseExpression h with ⟨-, rfl⟩ | ⟨items, _, hd⟩
  · exact .null
  · exact hd.wellFormed trivial

theorem wellFormed_of_leaf? {segment : Segment} (h : leaf? segment = some (.ok leaf)) :
    leaf.WellFormed := by
  cases segment with
  | literal t =>
    cases h
    trivial
  | emit code escape line =>
    obtain ⟨e, he, rfl⟩ := map_eq_ok (Option.some.inj h)
    exact wellFormed_of_parseExpression he
  | statement => cases h

theorem wellFormed_of_build (h : build segments = .ok program) :
    Stmt.AllWellFormed false false program ∧
      ∀ leaf ∈ Stmt.leavesAll program, leaf.WellFormed := by
  obtain ⟨items, hi, h⟩ := bind_eq_ok h
  have hd := derivesAll_of_statements h
  refine ⟨hd.wellFormed, fun leaf hm => ?_⟩
  rw [← hd.leaves] at hm
  have hs : Except.ok leaf ∈ segments.filterMap leaf? := by
    rw [← leaves_of_ofSegments hi]
    exact List.mem_map_of_mem hm
  obtain ⟨segment, _, hl⟩ := List.mem_filterMap.mp hs
  exact wellFormed_of_leaf? hl

/-- Checks that follow from being well formed hold throughout the statements of a template. -/
theorem every_of_build {k : Checks} (hk : k.Follow) (h : build segments = .ok program) :
    Stmt.AllEvery k program := by
  obtain ⟨hw, hl⟩ := wellFormed_of_build h
  exact every_stmts hk program hw hl

end Stencil.Script

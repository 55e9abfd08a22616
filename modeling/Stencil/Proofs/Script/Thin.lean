import Mathlib.Data.Option.Basic
import Stencil.Script.Parser

/-!
What is left of trees and of items when their texts change. `f` says what becomes of a text; where
that is nothing, the text is taken out of the sequence in which it stands. Trees without texts to
change stay as they are (`Stmt.thinAll_some`).
-/

namespace Stencil.Script

set_option autoImplicit true

/-- The statement is a text of which nothing is left. -/
def Stmt.gone (f : String → Option String) : Stmt → Bool
  | .text t => (f t).isNone
  | _ => false

theorem Stmt.eq_of_gone {stmt : Stmt} (h : stmt.gone f = true) :
    ∃ t, stmt = .text t ∧ f t = none := by
  cases stmt with
  | text t => exact ⟨t, rfl, Option.isNone_iff_eq_none.mp h⟩
  | _ => cases h

mutual

def Expr.thin (f : String → Option String) : Expr → Expr
  | .value v => .value v
  | .ident name => .ident name
  | .self => .self
  | .array items => .array (Expr.thinAll f items)
  | .object fields => .object (Expr.thinFields f fields)
  | .member target key => .member (target.thin f) (key.thin f)
  | .filter name args => .filter name (Expr.thinAll f args)
  | .call name args => .call name (Expr.thinAll f args)
  | .method target name args => .method (target.thin f) name (Expr.thinAll f args)
  | .unary op operand => .unary op (operand.thin f)
  | .binary op left right => .binary op (left.thin f) (right.thin f)
  | .logical onTrue left right => .logical onTrue (left.thin f) (right.thin f)
  | .conditional test yes no => .conditional (test.thin f) (yes.thin f) (no.thin f)
  | .assign name op value => .assign name op (value.thin f)
  | .update name increment before => .update name increment before
  | .function params body => .function params (Stmt.thinAll f body)

def Expr.thinAll (f : String → Option String) : List Expr → List Expr
  | [] => []
  | e :: es => e.thin f :: Expr.thinAll f es

def Expr.thinOption (f : String → Option String) : Option Expr → Option Expr
  | none => none
  | some e => some (e.thin f)

def Expr.thinFields (f : String → Option String) : List (String × Expr) → List (String × Expr)
  | [] => []
  | (name, e) :: fields => (name, e.thin f) :: Expr.thinFields f fields

def Expr.thinDecls (f : String → Option String) :
    List (String × Option Expr) → List (String × Option Expr)
  | [] => []
  | (name, value) :: decls => (name, Expr.thinOption f value) :: Expr.thinDecls f decls

/-- The statement by itself; a text of which nothing is left is an empty one. -/
def Stmt.thin (f : String → Option String) : Stmt → Stmt
  | .text t => .text ((f t).getD "")
  | .output e escape line => .output (e.thin f) escape line
  | .expr e line => .expr (e.thin f) line
  | .declare kind decls line => .declare kind (Expr.thinDecls f decls) line
  | .branch test yes no line => .branch (test.thin f) (yes.thin f) (Stmt.thinOption f no) line
  | .forOf name items body line => .forOf name (items.thin f) (body.thin f) line
  | .forIn name target body line => .forIn name (target.thin f) (body.thin f) line
  | .loop first test update body line =>
    .loop (Stmt.thinOption f first) (Expr.thinOption f test) (Expr.thinOption f update)
      (body.thin f) line
  | .whileDo test body line => .whileDo (test.thin f) (body.thin f) line
  | .block body => .block (Stmt.thinAll f body)
  | .breakLoop => .breakLoop
  | .continueLoop => .continueLoop
  | .giveBack value => .giveBack (Expr.thinOption f value)
  | .empty => .empty

/-- The statements of which something is left. -/
def Stmt.thinAll (f : String → Option String) : List Stmt → List Stmt
  | [] => []
  | stmt :: rest =>
    if stmt.gone f then Stmt.thinAll f rest else stmt.thin f :: Stmt.thinAll f rest

def Stmt.thinOption (f : String → Option String) : Option Stmt → Option Stmt
  | none => none
  | some stmt => some (stmt.thin f)

end

theorem Stmt.thinAll_of_gone {stmt : Stmt} (h : stmt.gone f = true) (rest : List Stmt) :
    Stmt.thinAll f (stmt :: rest) = Stmt.thinAll f rest := by
  rw [Stmt.thinAll, if_pos h]

theorem Stmt.thinAll_of_left {stmt : Stmt} (h : stmt.gone f = false) (rest : List Stmt) :
    Stmt.thinAll f (stmt :: rest) = stmt.thin f :: Stmt.thinAll f rest := by
  rw [Stmt.thinAll, h, if_neg Bool.false_ne_true]

/-- Something is left of every text. -/
def Total (f : String → Option String) : Prop := ∀ t, ∃ t', f t = some t'

theorem total_some : Total some := fun t => ⟨t, rfl⟩

theorem Stmt.gone_of_total (h : Total f) (stmt : Stmt) : stmt.gone f = false := by
  cases stmt with
  | text t =>
    obtain ⟨t', ht⟩ := h t
    rw [gone, ht]
    rfl
  | _ => rfl

mutual

theorem Expr.thin_some : (e : Expr) → e.thin some = e
  | .value _ => rfl
  | .ident _ => rfl
  | .self => rfl
  | .array items => congrArg Expr.array (Expr.thinAll_some items)
  | .object fields => congrArg Expr.object (Expr.thinFields_some fields)
  | .member target key => congrArg₂ Expr.member (Expr.thin_some target) (Expr.thin_some key)
  | .filter name args => congrArg (Expr.filter name) (Expr.thinAll_some args)
  | .call name args => congrArg (Expr.call name) (Expr.thinAll_some args)
  | .method target name args =>
    congrArg₂ (Expr.method · name ·) (Expr.thin_some target) (Expr.thinAll_some args)
  | .unary op operand => congrArg (Expr.unary op) (Expr.thin_some operand)
  | .binary op left right =>
    congrArg₂ (Expr.binary op) (Expr.thin_some left) (Expr.thin_some right)
  | .logical onTrue left right =>
    congrArg₂ (Expr.logical onTrue) (Expr.thin_some left) (Expr.thin_some right)
  | .conditional test yes no => by
    rw [Expr.thin, Expr.thin_some test, Expr.thin_some yes, Expr.thin_some no]
  | .assign name op value => congrArg (Expr.assign name op) (Expr.thin_some value)
  | .update _ _ _ => rfl
  | .function params body => congrArg (Expr.function params) (Stmt.thinAll_some body)

theorem Expr.thinAll_some : (es : List Expr) → Expr.thinAll some es = es
  | [] => rfl
  | e :: es => congrArg₂ List.cons (Expr.thin_some e) (Expr.thinAll_some es)

theorem Expr.thinOption_some : (value : Option Expr) → Expr.thinOption some value = value
  | none => rfl
  | some e => congrArg some (Expr.thin_some e)

theorem Expr.thinFields_some :
    (fields : List (String × Expr)) → Expr.thinFields some fields = fields
  | [] => rfl
  | (name, e) :: fields =>
    congrArg₂ (fun e es => (name, e) :: es) (Expr.thin_some e) (Expr.thinFields_some fields)

theorem Expr.thinDecls_some :
    (decls : List (String × Option Expr)) → Expr.thinDecls some decls = decls
  | [] => rfl
  | (name, value) :: decls =>
    congrArg₂ (fun e es => (name, e) :: es) (Expr.thinOption_some value)
      (Expr.thinDecls_some decls)

theorem Stmt.thin_some : (stmt : Stmt) → stmt.thin some = stmt
  | .text _ => rfl
  | .output e escape line => congrArg (Stmt.output · escape line) (Expr.thin_some e)
  | .expr e line => congrArg (Stmt.expr · line) (Expr.thin_some e)
  | .declare kind decls line => congrArg (Stmt.declare kind · line) (Expr.thinDecls_some decls)
  | .branch test yes no line => by
    rw [Stmt.thin, Expr.thin_some test, Stmt.thin_some yes, Stmt.thinOption_some no]
  | .forOf name items body line =>
    congrArg₂ (Stmt.forOf name · · line) (Expr.thin_some items) (Stmt.thin_some body)
  | .forIn name target body line =>
    congrArg₂ (Stmt.forIn name · · line) (Expr.thin_some target) (Stmt.thin_some body)
  | .loop first test update body line => by
    rw [Stmt.thin, Stmt.thinOption_some first, Expr.thinOption_some test,
      Expr.thinOption_some update, Stmt.thin_some body]
  | .whileDo test body line =>
    congrArg₂ (Stmt.whileDo · · line) (Expr.thin_some test) (Stmt.thin_some body)
  | .block body => congrArg Stmt.block (Stmt.thinAll_some body)
  | .breakLoop => rfl
  | .continueLoop => rfl
  | .giveBack value => congrArg Stmt.giveBack (Expr.thinOption_some value)
  | .empty => rfl

theorem Stmt.thinAll_some : (body : List Stmt) → Stmt.thinAll some body = body
  | [] => rfl
  | stmt :: rest => by
    rw [Stmt.thinAll_of_left (Stmt.gone_of_total total_some stmt), Stmt.thin_some stmt,
      Stmt.thinAll_some rest]

theorem Stmt.thinOption_some : (no : Option Stmt) → Stmt.thinOption some no = no
  | none => rfl
  | some stmt => congrArg some (Stmt.thin_some stmt)

end

theorem Expr.eq_of_thin_ident {e : Expr} (h : .ident name = e.thin f) : e = .ident name := by
  cases e <;> cases h
  rfl

theorem Expr.eq_of_thinAll_function (h : Expr.thinAll f args = [.function params body]) :
    ∃ body', args = [.function params body'] := by
  match args with
  | [] => cases h
  | [e] =>
    obtain ⟨he, -⟩ := List.cons.inj h
    cases e <;> cases he
    exact ⟨_, rfl⟩
  | _ :: _ :: _ => cases (List.cons.inj h).2

theorem Operator.thin_apply (op : Operator) (left right : Expr) :
    (op.apply left right).thin f = op.apply (left.thin f) (right.thin f) := by
  cases op <;> rfl

theorem thin_callOf (target : Expr) (name : String) (args : List Expr) :
    (callOf target name args).thin f = callOf (target.thin f) name (Expr.thinAll f args) := by
  cases target with
  | ident object =>
    simp only [Expr.thin, callOf]
    split
    · rfl
    · split <;> rfl
  | _ => rfl

/-- What is left of an item. -/
def Item.thin (f : String → Option String) : Item → Option Item
  | .lexeme l line => some (.lexeme l line)
  | .text t line => (f t).map (.text · line)
  | .output e escape line => some (.output (e.thin f) escape line)

def Items.thin (f : String → Option String) (s : List Item) : List Item :=
  s.filterMap (Item.thin f)

theorem Item.exists_thin (h : Total f) (item : Item) : ∃ item', item.thin f = some item' := by
  cases item with
  | lexeme l line => exact ⟨_, rfl⟩
  | text t line =>
    obtain ⟨t', ht⟩ := h t
    exact ⟨.text t' line, by rw [thin, ht]; rfl⟩
  | output e escape line => exact ⟨_, rfl⟩

theorem Item.found_of_thin {item item' : Item} (h : item.thin f = some item') :
    item'.found = item.found := by
  cases item with
  | lexeme l line =>
    cases h
    rfl
  | text t line =>
    obtain ⟨t', -, rfl⟩ := Option.map_eq_some_iff.mp h
    rfl
  | output e escape line =>
    cases h
    rfl

theorem Item.eq_of_thin_lexeme {item : Item} (h : item.thin f = some (.lexeme l n)) :
    item = .lexeme l n := by
  cases item with
  | lexeme l line =>
    cases h
    rfl
  | text t line =>
    obtain ⟨t', -, he⟩ := Option.map_eq_some_iff.mp h
    cases he
  | output e escape line => cases h

theorem Item.eq_of_thin_text {item : Item} (h : item.thin f = some (.text t n)) :
    ∃ t', item = .text t' n ∧ f t' = some t := by
  cases item with
  | lexeme l line => cases h
  | text t' line =>
    obtain ⟨_, ht, he⟩ := Option.map_eq_some_iff.mp h
    cases he
    exact ⟨t', rfl, ht⟩
  | output e escape line => cases h

theorem Item.eq_of_thin_output {item : Item} (h : item.thin f = some (.output e escape n)) :
    ∃ e', item = .output e' escape n ∧ e = e'.thin f := by
  cases item with
  | lexeme l line => cases h
  | text t' line =>
    obtain ⟨_, -, he⟩ := Option.map_eq_some_iff.mp h
    cases he
  | output e' escape line =>
    cases h
    exact ⟨e', rfl, rfl⟩

theorem Item.eq_of_thin_none {item : Item} (h : item.thin f = none) :
    ∃ t n, item = .text t n ∧ f t = none := by
  cases item with
  | lexeme l line => cases h
  | text t n => exact ⟨t, n, rfl, Option.map_eq_none_iff.mp h⟩
  | output e escape line => cases h

theorem Items.thin_some (s : List Item) : Items.thin some s = s := by
  induction s with
  | nil => rfl
  | cons item s ih =>
    have hi : item.thin some = some item := by
      cases item with
      | lexeme l line => rfl
      | text t line => rfl
      | output e escape line => rw [Item.thin, e.thin_some]
    rw [thin, List.filterMap_cons_some hi]
    exact congrArg (item :: ·) ih

/-- The same is left of both, of the second one every item. -/
structure Thins (g g' : String → Option String) (u u' : List Item) : Prop where
  total : Total g'
  eq : Items.thin g u = Items.thin g' u'

namespace Thins

variable {g g' : String → Option String} {u u' : List Item}

theorem nil (h : Thins g g' [] u') : u' = [] := by
  cases u' with
  | nil => rfl
  | cons item u' =>
    obtain ⟨item', hi⟩ := item.exists_thin h.total
    have he := h.eq
    rw [Items.thin, Items.thin, List.filterMap_cons_some hi] at he
    cases he

theorem nil_of_gone (h : Thins g g' u u') (hu : Items.thin g u = []) : u' = [] := by
  have hnil : Thins g g' [] u' := ⟨h.total, hu.symm.trans h.eq⟩
  exact hnil.nil

theorem of_gone (h : Thins g g' (item :: u) u') (hi : item.thin g = none) : Thins g g' u u' where
  total := h.total
  eq := by
    have he := h.eq
    rwa [Items.thin, List.filterMap_cons_none hi] at he

theorem cons (h : Thins g g' (item :: u) u') (hi : item.thin g = some left) :
    ∃ item' v, u' = item' :: v ∧ item'.thin g' = some left ∧ Thins g g' u v := by
  have he := h.eq
  rw [Items.thin, List.filterMap_cons_some hi] at he
  cases u' with
  | nil => cases he
  | cons item' v =>
    obtain ⟨left', hi'⟩ := item'.exists_thin h.total
    rw [Items.thin, List.filterMap_cons_some hi'] at he
    obtain ⟨rfl, hv⟩ := List.cons.inj he
    exact ⟨item', v, rfl, hi', h.total, hv⟩

theorem lexeme (h : Thins g g' (.lexeme l line :: u) u') :
    ∃ v, u' = .lexeme l line :: v ∧ Thins g g' u v := by
  obtain ⟨item', v, rfl, hi, hv⟩ := h.cons rfl
  rw [Item.eq_of_thin_lexeme hi]
  exact ⟨v, rfl, hv⟩

theorem single (h : Thins g g' [.lexeme l line] u') : u' = [.lexeme l line] := by
  obtain ⟨v, rfl, hv⟩ := h.lexeme
  rw [hv.nil]

theorem split (h : Thins g g' (u ++ v) u') :
    ∃ w x, u' = w ++ x ∧ Thins g g' u w ∧ Thins g g' v x := by
  induction u generalizing u' with
  | nil => exact ⟨[], u', rfl, ⟨h.total, rfl⟩, h⟩
  | cons item u ih =>
    cases hi : item.thin g with
    | none =>
      obtain ⟨w, x, hu, hw, hx⟩ := ih (h.of_gone hi)
      refine ⟨w, x, hu, ⟨h.total, ?_⟩, hx⟩
      rw [Items.thin, List.filterMap_cons_none hi]
      exact hw.eq
    | some left =>
      obtain ⟨item', u', rfl, hi', h'⟩ := h.cons hi
      obtain ⟨w, x, rfl, hw, hx⟩ := ih h'
      refine ⟨item' :: w, x, rfl, ⟨h.total, ?_⟩, hx⟩
      rw [Items.thin, Items.thin, List.filterMap_cons_some hi, List.filterMap_cons_some hi']
      exact congrArg (left :: ·) hw.eq

theorem concat (h : Thins g g' (u ++ [.lexeme l line]) u') :
    ∃ v, u' = v ++ [.lexeme l line] ∧ Thins g g' u v := by
  obtain ⟨w, x, rfl, hw, hx⟩ := h.split
  obtain rfl := hx.single
  exact ⟨w, rfl, hw⟩

theorem append (hu : Thins g g' u u') (hv : Thins g g' v v') : Thins g g' (u ++ v) (u' ++ v') where
  total := hu.total
  eq := by
    rw [Items.thin, Items.thin, List.filterMap_append, List.filterMap_append]
    exact congrArg₂ (· ++ ·) hu.eq hv.eq

theorem refl (u : List Item) : Thins some some u u := ⟨total_some, rfl⟩

end Thins

end Stencil.Script

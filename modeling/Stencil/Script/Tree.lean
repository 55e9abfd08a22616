import Stencil.Value

/-!
The trees of template code: expressions and statements. Text and output tags are statements too, so
they may stand inside any block.
-/

namespace Stencil.Script

inductive UnaryOp where
  | not
  | negate
  | plus
  | kind
deriving DecidableEq, Repr

inductive BinaryOp where
  | add | sub | mul | div | rem
  | equal | notEqual | identical | notIdentical
  | less | atMost | greater | atLeast
deriving DecidableEq, Repr

inductive DeclKind where
  | var
  | block
  | constant
deriving DecidableEq, Repr

mutual

inductive Expr where
  | value (v : Value)
  | ident (name : String)
  /-- The value of `this`. -/
  | self
  | array (items : List Expr)
  | object (fields : List (String × Expr))
  | member (target key : Expr)
  /-- A filter on its first argument. -/
  | filter (name : String) (args : List Expr)
  | call (name : String) (args : List Expr)
  | method (target : Expr) (name : String) (args : List Expr)
  | unary (op : UnaryOp) (operand : Expr)
  | binary (op : BinaryOp) (left right : Expr)
  /-- The right side counts if the truth of the left one is `onTrue`. -/
  | logical (onTrue : Bool) (left right : Expr)
  | conditional (test yes no : Expr)
  /-- An assignment; with an operator, of its result on the old value. -/
  | assign (name : String) (op : Option BinaryOp) (value : Expr)
  /-- One more or one less; the value is the new one if the mark stands before the name. -/
  | update (name : String) (increment before : Bool)
  | function (params : List String) (body : List Stmt)

inductive Stmt where
  | text (s : String)
  | output (value : Expr) (escape : Bool) (line : Nat)
  | expr (e : Expr) (line : Nat)
  | declare (kind : DeclKind) (decls : List (String × Option Expr)) (line : Nat)
  | branch (test : Expr) (yes : Stmt) (no : Option Stmt) (line : Nat)
  | forOf (name : String) (items : Expr) (body : Stmt) (line : Nat)
  | forIn (name : String) (target : Expr) (body : Stmt) (line : Nat)
  | loop (first : Option Stmt) (test update : Option Expr) (body : Stmt) (line : Nat)
  | whileDo (test : Expr) (body : Stmt) (line : Nat)
  | block (body : List Stmt)
  | breakLoop
  | continueLoop
  | giveBack (value : Option Expr)
  | empty

end

instance : Inhabited Expr := ⟨.self⟩

instance : Inhabited Stmt := ⟨.empty⟩

end Stencil.Script

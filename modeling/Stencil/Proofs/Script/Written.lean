import Stencil.Proofs.Script.Items

/-!
The canonical form in which a tree is written as items. Every expression that is not a single token
stands in parentheses, and every statement that may end in a semicolon does.
-/

namespace Stencil.Script

set_option autoImplicit true

/-- A choice of the float with which each number is written. -/
structure Spelling where
  float : Number → Float
  exact : ∀ {x n}, Value.ofFloat x = .number n → Value.ofFloat (float n) = .number n

open Classical in
noncomputable instance : Inhabited Spelling where
  default :=
    { float := fun n => if h : ∃ x, Value.ofFloat x = .number n then h.choose else 0
      exact := by
        intro x n h
        have hn : ∃ x, Value.ofFloat x = .number n := ⟨x, h⟩
        rw [dif_pos hn]
        exact hn.choose_spec }

def literalLexeme (sp : Spelling) : Value → Lexeme
  | .number n => .number (sp.float n)
  | .string s => .text s
  | .bool true => .word "true"
  | .bool false => .word "false"
  | _ => .word "null"

def assignMark : Option BinaryOp → Punct
  | some .add => .addTo
  | some .sub => .takeFrom
  | some .mul => .multiplyBy
  | some .div => .divideBy
  | _ => .set

def DeclKind.word : DeclKind → String
  | var => "var"
  | block => "let"
  | constant => "const"

/-- The expression is the variable of the name. -/
def Expr.names (name : String) : Expr → Bool
  | ident n => n = name
  | _ => false

def parens (line : Nat) (inner : List Item → List Item) (rest : List Item) : List Item :=
  .mark .openParen line :: inner (.mark .closeParen line :: rest)

def writtenParams (line : Nat) : List String → List Item → List Item
  | [], rest => .mark .closeParen line :: rest
  | [name], rest => .word name line :: .mark .closeParen line :: rest
  | name :: more, rest =>
    .word name line :: .mark .comma line :: writtenParams line more rest

mutual

/-- The items of an expression, in front of a rest. -/
def Expr.written (sp : Spelling) (line : Nat) : Expr → List Item → List Item
  | .value v => fun rest => .lexeme (literalLexeme sp v) line :: rest
  | .ident name => fun rest => .word name line :: rest
  | .self => fun rest => .word "this" line :: rest
  | .array items => parens line fun rest =>
    .mark .openBracket line :: Expr.writtenAll sp line .closeBracket items rest
  | .object fields => parens line fun rest =>
    .mark .openBrace line :: Expr.writtenFields sp line fields rest
  | .member target key => parens line fun rest =>
    target.written sp line (.mark .openBracket line ::
      key.written sp line (.mark .closeBracket line :: rest))
  | .filter name args => parens line fun rest =>
    .word "filters" line :: .mark .dot line :: .word name line :: .mark .openParen line ::
      Expr.writtenAll sp line .closeParen args rest
  | .call name args => parens line fun rest =>
    .word "funcs" line :: .mark .dot line :: .word name line :: .mark .openParen line ::
      Expr.writtenAll sp line .closeParen args rest
  | .method target name args => parens line fun rest =>
    target.written sp line (.mark .dot line :: .word name line :: .mark .openParen line ::
      Expr.writtenAll sp line .closeParen args rest)
  | .unary op operand => parens line fun rest =>
    .lexeme op.lexeme line :: operand.written sp line rest
  | .binary op left right => parens line fun rest =>
    left.written sp line (.mark (Operator.binary op).mark line :: right.written sp line rest)
  | .logical onTrue left right => parens line fun rest =>
    left.written sp line (.mark (Operator.logical onTrue).mark line ::
      right.written sp line rest)
  | .conditional test yes no => parens line fun rest =>
    test.written sp line (.mark .question line ::
      yes.written sp line (.mark .colon line :: no.written sp line rest))
  | .assign name op value => parens line fun rest =>
    .word name line :: .mark (assignMark op) line :: value.written sp line rest
  | .update name up true => parens line fun rest =>
    .mark (stepMark up) line :: .word name line :: rest
  | .update name up false => parens line fun rest =>
    .word name line :: .mark (stepMark up) line :: rest
  | .function params body => parens line fun rest =>
    .word "function" line :: .mark .openParen line :: writtenParams line params
      (.mark .openBrace line :: Stmt.writtenAll sp line body (.mark .closeBrace line :: rest))

/-- Expressions with commas between them, and the mark that closes them. -/
def Expr.writtenAll (sp : Spelling) (line : Nat) (closer : Punct) :
    List Expr → List Item → List Item
  | [], rest => .mark closer line :: rest
  | [e], rest => e.written sp line (.mark closer line :: rest)
  | e :: next :: more, rest =>
    e.written sp line (.mark .comma line :: Expr.writtenAll sp line closer (next :: more) rest)

/-- An expression that may be left out, and the mark that closes it. -/
def Expr.writtenOption (sp : Spelling) (line : Nat) (closer : Punct) :
    Option Expr → List Item → List Item
  | none, rest => .mark closer line :: rest
  | some e, rest => e.written sp line (.mark closer line :: rest)

/-- The fields of an object up to its closing brace. A field with the value of the variable of its
name has no value of its own. -/
def Expr.writtenFields (sp : Spelling) (line : Nat) :
    List (String × Expr) → List Item → List Item
  | [], rest => .mark .closeBrace line :: rest
  | [(name, e)], rest =>
    .lexeme (.text name) line ::
      if e.names name then .mark .closeBrace line :: rest
      else .mark .colon line :: e.written sp line (.mark .closeBrace line :: rest)
  | (name, e) :: next :: more, rest =>
    .lexeme (.text name) line ::
      if e.names name then .mark .comma line :: Expr.writtenFields sp line (next :: more) rest
      else .mark .colon line :: e.written sp line (.mark .comma line ::
        Expr.writtenFields sp line (next :: more) rest)

def Expr.writtenInitial (sp : Spelling) (line : Nat) : Option Expr → List Item → List Item
  | none, rest => rest
  | some e, rest => .mark .set line :: e.written sp line rest

/-- The names of a declaration up to its semicolon. -/
def Expr.writtenDecls (sp : Spelling) (line : Nat) :
    List (String × Option Expr) → List Item → List Item
  | [], rest => .mark .semicolon line :: rest
  | [(name, value)], rest =>
    .word name line :: Expr.writtenInitial sp line value (.mark .semicolon line :: rest)
  | (name, value) :: next :: more, rest =>
    .word name line :: Expr.writtenInitial sp line value (.mark .comma line ::
      Expr.writtenDecls sp line (next :: more) rest)

/-- The items of a statement, in front of a rest. They have the line of the statement, or the given
one if it has none. -/
def Stmt.written (sp : Spelling) (line : Nat) : Stmt → List Item → List Item
  | .text s, rest => .text s line :: rest
  | .output e escape l, rest => .output e escape l :: rest
  | .expr e l, rest => e.written sp l (.mark .semicolon l :: rest)
  | .declare kind decls l, rest => .word kind.word l :: Expr.writtenDecls sp l decls rest
  | .branch test yes no l, rest =>
    .word "if" l :: .mark .openParen l :: test.written sp l (.mark .closeParen l ::
      yes.written sp l (Stmt.writtenElse sp l no rest))
  | .forOf name items body l, rest =>
    .word "for" l :: .mark .openParen l :: .word name l :: .word "of" l ::
      items.written sp l (.mark .closeParen l :: body.written sp l rest)
  | .forIn name target body l, rest =>
    .word "for" l :: .mark .openParen l :: .word name l :: .word "in" l ::
      target.written sp l (.mark .closeParen l :: body.written sp l rest)
  | .loop first test update body l, rest =>
    .word "for" l :: .mark .openParen l :: Stmt.writtenStart sp l first
      (Expr.writtenOption sp l .semicolon test
        (Expr.writtenOption sp l .closeParen update (body.written sp l rest)))
  | .whileDo test body l, rest =>
    .word "while" l :: .mark .openParen l :: test.written sp l (.mark .closeParen l ::
      body.written sp l rest)
  | .block body, rest =>
    .mark .openBrace line :: Stmt.writtenAll sp line body (.mark .closeBrace line :: rest)
  | .breakLoop, rest => .word "break" line :: .mark .semicolon line :: rest
  | .continueLoop, rest => .word "continue" line :: .mark .semicolon line :: rest
  | .giveBack value, rest =>
    .word "return" line :: Expr.writtenOption sp line .semicolon value rest
  | .empty, rest => .mark .semicolon line :: rest

def Stmt.writtenAll (sp : Spelling) (line : Nat) : List Stmt → List Item → List Item
  | [], rest => rest
  | stmt :: more, rest => stmt.written sp line (Stmt.writtenAll sp line more rest)

def Stmt.writtenElse (sp : Spelling) (line : Nat) : Option Stmt → List Item → List Item
  | none, rest => rest
  | some stmt, rest => .word "else" line :: stmt.written sp line rest

/-- What a counting loop does first, up to its semicolon. -/
def Stmt.writtenStart (sp : Spelling) (line : Nat) : Option Stmt → List Item → List Item
  | none, rest => .mark .semicolon line :: rest
  | some stmt, rest => stmt.written sp line rest

end

end Stencil.Script

import Stencil.Script.Item
import Stencil.Script.Operator

/-!
Reading statements and expressions from a sequence of items. Every reader consumes at least one item,
and `16 * s.length` plus the rank of a reader decreases from call to call.
-/

namespace Stencil.Script

open Stencil.Text (Read)

/-- The words that begin a statement. -/
inductive Keyword where
  | branch
  | otherwise
  | loop
  | whileDo
  | declare (kind : DeclKind)
  | breakLoop
  | continueLoop
  | giveBack
deriving DecidableEq

def declKind? (w : String) : Option DeclKind :=
  if w = "var" then some .var
  else if w = "let" then some .block
  else if w = "const" then some .constant
  else none

def keyword? (w : String) : Option Keyword :=
  if w = "if" then some .branch
  else if w = "else" then some .otherwise
  else if w = "for" then some .loop
  else if w = "while" then some .whileDo
  else if w = "break" then some .breakLoop
  else if w = "continue" then some .continueLoop
  else if w = "return" then some .giveBack
  else (declKind? w).map .declare

/-- What a word is as an operand. -/
inductive Atom where
  | value (v : Value)
  | self
  | function
  | variable
  | refused

def atom (w : String) : Atom :=
  if w = "true" then .value (.bool true)
  else if w = "false" then .value (.bool false)
  else if w = "null" then .value .null
  else if w = "undefined" then .value .null
  else if w = "this" then .self
  else if w = "function" then .function
  else if isReserved w then .refused
  else .variable

/-- Where a statement stands. -/
structure Context where
  /-- The line that is given for the end of the template. -/
  last : Nat
  inLoop : Bool
  inFunction : Bool

namespace Context

def looping (c : Context) : Context := { c with inLoop := true }

/-- Inside a function, jumps cannot leave a loop around it. -/
def function (c : Context) : Context := { c with inLoop := false, inFunction := true }

end Context

/-- The head of a loop over the elements or the keys of a value: the name it binds, and whether it
goes over elements. -/
def eachHead? (s : List Item) : Option (Read Item (String × Bool) s.length) :=
  match s with
  | .lexeme (.word name) _ :: .lexeme (.word w) _ :: rest =>
    if isReserved name then none
    else if w = "of" then some ⟨(name, true), rest, by simp only [List.length_cons]; omega⟩
    else if w = "in" then some ⟨(name, false), rest, by simp only [List.length_cons]; omega⟩
    else none
  | _ => none

/-- The word of a declaration at the head. -/
def declHead? (s : List Item) : Option (Read Item DeclKind s.length) :=
  match s with
  | .lexeme (.word w) _ :: rest => (declKind? w).map fun kind => ⟨kind, rest, Nat.lt_succ_self _⟩
  | _ => none

/-- The head of a loop over elements or keys, whether or not it declares the name. -/
def loopHead? (s : List Item) : Option (Read Item (String × Bool) s.length) :=
  match declHead? s with
  | some ⟨_, rest, h⟩ => (eachHead? rest).map fun r => r.weaken (Nat.le_of_lt h)
  | none => eachHead? s

/-- The word `else` at the head. -/
def elseHead? (s : List Item) : Option (Read Item Unit s.length) :=
  match s with
  | .lexeme (.word w) _ :: rest => if w = "else" then some ⟨(), rest, Nat.lt_succ_self _⟩ else none
  | _ => none

/-- No value follows the word `return`. -/
def endsReturn : List Item → Bool
  | [] => true
  | .text _ _ :: _ => true
  | .output _ _ _ :: _ => true
  | .lexeme (.mark .semicolon) _ :: _ => true
  | .lexeme (.mark .closeBrace) _ :: _ => true
  | _ => false

/-- A variable that is assigned to at the head, and the operator of the assignment. -/
def assignHead? (s : List Item) : Option (Read Item (String × Option BinaryOp) s.length) :=
  match s with
  | .lexeme (.word w) _ :: .lexeme (.mark p) _ :: rest =>
    if isReserved w then none
    else p.assignment?.map fun op => ⟨(w, op), rest, by simp only [List.length_cons]; omega⟩
  | _ => none

/-- An operator between two operands at the head. -/
def operatorHead? (s : List Item) : Option (Read Item Operator s.length) :=
  match s with
  | .lexeme (.mark p) _ :: rest => p.operator?.map fun op => ⟨op, rest, Nat.lt_succ_self _⟩
  | _ => none

/-- An operator before its operand at the head. -/
def unaryHead? (s : List Item) : Option (Read Item UnaryOp s.length) :=
  match s with
  | .lexeme (.mark .bang) _ :: rest => some ⟨.not, rest, Nat.lt_succ_self _⟩
  | .lexeme (.mark .minus) _ :: rest => some ⟨.negate, rest, Nat.lt_succ_self _⟩
  | .lexeme (.mark .plus) _ :: rest => some ⟨.plus, rest, Nat.lt_succ_self _⟩
  | .lexeme (.word w) _ :: rest =>
    if w = "typeof" then some ⟨.kind, rest, Nat.lt_succ_self _⟩ else none
  | _ => none

/-- A change by one at the head: up or down. -/
def stepHead? (s : List Item) : Option (Read Item Bool s.length) :=
  match s with
  | .lexeme (.mark .increment) _ :: rest => some ⟨true, rest, Nat.lt_succ_self _⟩
  | .lexeme (.mark .decrement) _ :: rest => some ⟨false, rest, Nat.lt_succ_self _⟩
  | _ => none

/-- The name that a function may have, which means nothing. -/
def functionName (last : Nat) (s : List Item) : Parsed Unit (s.length + 1) :=
  match s with
  | .lexeme (.word w) line :: rest =>
    (Items.name last (.lexeme (.word w) line :: rest)).map fun r =>
      (r.map fun _ => ()).weaken (Nat.le_succ _)
  | s => .ok ⟨(), s, Nat.lt_succ_self _⟩

/-- A call of a property: of a filter, of a function or of a method of the value. -/
def callOf (target : Expr) (name : String) (args : List Expr) : Expr :=
  match target with
  | .ident object =>
    if object = "filters" then .filter name args
    else if object = "funcs" then .call name args
    else .method target name args
  | _ => .method target name args

mutual

def statement (c : Context) (s : List Item) : Parsed Stmt s.length :=
  match s with
  | [] => Items.unexpected c.last []
  | .text t _ :: rest => .ok ⟨.text t, rest, Nat.lt_succ_self _⟩
  | .output e escape line :: rest => .ok ⟨.output e escape line, rest, Nat.lt_succ_self _⟩
  | .lexeme (.mark .openBrace) _ :: rest => do
    let ⟨body, s₁, h⟩ ← block c rest
    pure ⟨.block body, s₁, Nat.lt_succ_of_lt h⟩
  | .lexeme (.mark .semicolon) _ :: rest => .ok ⟨.empty, rest, Nat.lt_succ_self _⟩
  | .lexeme (.word w) line :: rest =>
    match keyword? w with
    | some keyword => do
      let ⟨stmt, s₁, h⟩ ← keywordStatement c w keyword line rest
      pure ⟨stmt, s₁, h⟩
    | none => expressionStatement c line (.lexeme (.word w) line :: rest)
  | .lexeme l line :: rest => expressionStatement c line (.lexeme l line :: rest)
termination_by 16 * s.length + 10
decreasing_by all_goals simp only [List.length_cons] at *; omega

def expressionStatement (c : Context) (line : Nat) (s : List Item) : Parsed Stmt s.length := do
  let ⟨e, s₁, _⟩ ← assignment c s
  let ⟨_, s₂, _⟩ := Items.skip .semicolon s₁
  pure ⟨.expr e line, s₂, by omega⟩
termination_by 16 * s.length + 9
decreasing_by all_goals omega

/-- The rest of a statement after its first word. -/
def keywordStatement (c : Context) (w : String) (keyword : Keyword) (line : Nat) (s : List Item) :
    Parsed Stmt (s.length + 1) :=
  match keyword with
  | .branch => do
    let ⟨test, s₁, _⟩ ← condition c s
    let ⟨yes, s₂, _⟩ ← statement c s₁
    let ⟨no, s₃, _⟩ ← alternative c s₂
    pure ⟨.branch test yes no line, s₃, by omega⟩
  | .otherwise => .error ⟨line, .unexpected (.lexeme (.word w))⟩
  | .loop => do
    let ⟨_, s₁, _⟩ ← Items.mark c.last .openParen s
    match loopHead? s₁ with
    | some ⟨(name, elements), s₂, _⟩ =>
      let ⟨target, s₃, _⟩ ← assignment c s₂
      let ⟨_, s₄, _⟩ ← Items.mark c.last .closeParen s₃
      let ⟨body, s₅, _⟩ ← statement c.looping s₄
      pure ⟨if elements then .forOf name target body line else .forIn name target body line, s₅,
        by omega⟩
    | none =>
      let ⟨first, s₂, _⟩ ← loopStart c line s₁
      let ⟨test, s₃, _⟩ ← optional c .semicolon s₂
      let ⟨update, s₄, _⟩ ← optional c .closeParen s₃
      let ⟨body, s₅, _⟩ ← statement c.looping s₄
      pure ⟨.loop first test update body line, s₅, by omega⟩
  | .whileDo => do
    let ⟨test, s₁, _⟩ ← condition c s
    let ⟨body, s₂, _⟩ ← statement c.looping s₁
    pure ⟨.whileDo test body line, s₂, by omega⟩
  | .declare kind => do
    let ⟨decls, s₁, _⟩ ← declarations c s
    let ⟨_, s₂, _⟩ := Items.skip .semicolon s₁
    pure ⟨.declare kind decls line, s₂, by omega⟩
  | .breakLoop =>
    if c.inLoop then .ok ((Items.skip .semicolon s).map fun _ => .breakLoop)
    else .error ⟨line, .jumpOutsideLoop w⟩
  | .continueLoop =>
    if c.inLoop then .ok ((Items.skip .semicolon s).map fun _ => .continueLoop)
    else .error ⟨line, .jumpOutsideLoop w⟩
  | .giveBack =>
    if c.inFunction then do
      let ⟨value, s₁, _⟩ ← returned c s
      let ⟨_, s₂, _⟩ := Items.skip .semicolon s₁
      pure ⟨.giveBack value, s₂, by omega⟩
    else .error ⟨line, .returnOutsideFunction⟩
termination_by 16 * s.length + 12
decreasing_by all_goals omega

/-- An expression in parentheses. -/
def condition (c : Context) (s : List Item) : Parsed Expr s.length := do
  let ⟨_, s₁, _⟩ ← Items.mark c.last .openParen s
  let ⟨e, s₂, _⟩ ← assignment c s₁
  let ⟨_, s₃, _⟩ ← Items.mark c.last .closeParen s₂
  pure ⟨e, s₃, by omega⟩
termination_by 16 * s.length
decreasing_by all_goals omega

/-- The statement after `else`, if there is one. -/
def alternative (c : Context) (s : List Item) : Parsed (Option Stmt) (s.length + 1) :=
  match elseHead? s with
  | some ⟨_, s₁, _⟩ => do
    let ⟨stmt, s₂, _⟩ ← statement c s₁
    pure ⟨some stmt, s₂, by omega⟩
  | none => .ok ⟨none, s, Nat.lt_succ_self _⟩
termination_by 16 * s.length
decreasing_by all_goals omega

/-- The value that a function gives back, if one is written. -/
def returned (c : Context) (s : List Item) : Parsed (Option Expr) (s.length + 1) :=
  if endsReturn s then .ok ⟨none, s, Nat.lt_succ_self _⟩
  else do
    let ⟨e, s₁, _⟩ ← assignment c s
    pure ⟨some e, s₁, by omega⟩
termination_by 16 * s.length + 9
decreasing_by all_goals omega

/-- The statements of a block up to its closing brace. -/
def block (c : Context) (s : List Item) : Parsed (List Stmt) s.length :=
  match Items.after? .closeBrace s with
  | some r => .ok (r.map fun _ => [])
  | none =>
    if s.isEmpty then Items.fail c.last s .unclosedBlock
    else do
      let ⟨first, s₁, h₁⟩ ← statement c s
      let ⟨more, s₂, h₂⟩ ← block c s₁
      pure ⟨first :: more, s₂, Nat.lt_trans h₂ h₁⟩
termination_by 16 * s.length + 11
decreasing_by all_goals omega

/-- What a counting loop does first, up to its first semicolon. -/
def loopStart (c : Context) (line : Nat) (s : List Item) : Parsed (Option Stmt) s.length :=
  match Items.after? .semicolon s with
  | some r => .ok (r.map fun _ => none)
  | none =>
    match declHead? s with
    | some ⟨kind, s₁, _⟩ => do
      let ⟨decls, s₂, _⟩ ← declarations c s₁
      let ⟨_, s₃, _⟩ ← Items.mark c.last .semicolon s₂
      pure ⟨some (.declare kind decls line), s₃, by omega⟩
    | none => do
      let ⟨e, s₁, _⟩ ← assignment c s
      let ⟨_, s₂, _⟩ ← Items.mark c.last .semicolon s₁
      pure ⟨some (.expr e line), s₂, by omega⟩
termination_by 16 * s.length + 9
decreasing_by all_goals omega

/-- An expression that may be left out, and the mark after it. -/
def optional (c : Context) (closer : Punct) (s : List Item) : Parsed (Option Expr) s.length :=
  match Items.after? closer s with
  | some r => .ok (r.map fun _ => none)
  | none => do
    let ⟨e, s₁, _⟩ ← assignment c s
    let ⟨_, s₂, _⟩ ← Items.mark c.last closer s₁
    pure ⟨some e, s₂, by omega⟩
termination_by 16 * s.length + 9
decreasing_by all_goals omega

/-- The names of a declaration with their values. -/
def declarations (c : Context) (s : List Item) :
    Parsed (List (String × Option Expr)) s.length := do
  let ⟨name, s₁, h₁⟩ ← Items.name c.last s
  let ⟨value, s₂, h₂⟩ ← initial c s₁
  match Items.after? .comma s₂ with
  | some ⟨_, s₃, h₃⟩ =>
    let ⟨more, s₄, h₄⟩ ← declarations c s₃
    pure ⟨(name, value) :: more, s₄,
      Nat.lt_trans h₄ (Nat.lt_trans h₃ (Nat.lt_of_lt_of_le h₂ h₁))⟩
  | none => pure ⟨[(name, value)], s₂, Nat.lt_of_lt_of_le h₂ h₁⟩
termination_by 16 * s.length
decreasing_by all_goals omega

/-- The value after an equals sign, if there is one. -/
def initial (c : Context) (s : List Item) : Parsed (Option Expr) (s.length + 1) :=
  match Items.after? .set s with
  | some ⟨_, s₁, _⟩ => do
    let ⟨e, s₂, _⟩ ← assignment c s₁
    pure ⟨some e, s₂, by omega⟩
  | none => .ok ⟨none, s, Nat.lt_succ_self _⟩
termination_by 16 * s.length
decreasing_by all_goals omega

/-- An assignment or any other expression. -/
def assignment (c : Context) (s : List Item) : Parsed Expr s.length :=
  match assignHead? s with
  | some ⟨(name, op), s₁, _⟩ => do
    let ⟨e, s₂, _⟩ ← assignment c s₁
    pure ⟨.assign name op e, s₂, by omega⟩
  | none => conditional c s
termination_by 16 * s.length + 8
decreasing_by all_goals omega

def conditional (c : Context) (s : List Item) : Parsed Expr s.length := do
  let ⟨test, s₁, _⟩ ← binary c 0 s
  match Items.after? .question s₁ with
  | some ⟨_, s₂, _⟩ =>
    let ⟨yes, s₃, _⟩ ← assignment c s₂
    let ⟨_, s₄, _⟩ ← Items.mark c.last .colon s₃
    let ⟨no, s₅, _⟩ ← assignment c s₄
    pure ⟨.conditional test yes no, s₅, by omega⟩
  | none => pure ⟨test, s₁, by omega⟩
termination_by 16 * s.length + 7
decreasing_by all_goals omega

/-- Operands joined by operators of at least the given level. -/
def binary (c : Context) (level : Nat) (s : List Item) : Parsed Expr s.length := do
  let left ← unary c s
  binaryFrom c level left
termination_by 16 * s.length + 6
decreasing_by
  · omega
  · have := left.shorter
    omega

/-- What follows the left operand. -/
def binaryFrom {n : Nat} (c : Context) (level : Nat) (left : Read Item Expr n) : Parsed Expr n :=
  match operatorHead? left.rest with
  | some ⟨op, s₁, _⟩ =>
    if op.level < level then .ok left
    else do
      let ⟨right, s₂, _⟩ ← binary c (op.level + 1) s₁
      have := left.shorter
      binaryFrom c level ⟨op.apply left.value right, s₂, by omega⟩
  | none => .ok left
termination_by 16 * left.rest.length + 7
decreasing_by all_goals omega

/-- An operand with the operators before it. -/
def unary (c : Context) (s : List Item) : Parsed Expr s.length :=
  match unaryHead? s with
  | some ⟨op, s₁, _⟩ => do
    let ⟨e, s₂, _⟩ ← unary c s₁
    pure ⟨.unary op e, s₂, by omega⟩
  | none =>
    match stepHead? s with
    | some ⟨up, s₁, _⟩ => do
      let ⟨name, s₂, _⟩ ← Items.name c.last s₁
      pure ⟨.update name up true, s₂, by omega⟩
    | none => suffixed c s
termination_by 16 * s.length + 5
decreasing_by all_goals omega

/-- An operand, which may be a variable with a change by one after it. -/
def suffixed (c : Context) (s : List Item) : Parsed Expr s.length := do
  let ⟨e, s₁, h⟩ ← chain c s
  match e, stepHead? s₁ with
  | .ident name, some ⟨up, s₂, _⟩ => pure ⟨.update name up false, s₂, by omega⟩
  | e, _ => pure ⟨e, s₁, h⟩
termination_by 16 * s.length + 4
decreasing_by all_goals omega

/-- A primary expression with the properties and calls after it. -/
def chain (c : Context) (s : List Item) : Parsed Expr s.length := do
  let first ← primary c s
  chainFrom c first
termination_by 16 * s.length + 3
decreasing_by
  · omega
  · have := first.shorter
    omega

/-- The properties and calls after a target. -/
def chainFrom {n : Nat} (c : Context) (target : Read Item Expr n) : Parsed Expr n :=
  match Items.after? .dot target.rest with
  | some ⟨_, s₁, _⟩ => do
    let ⟨name, s₂, _⟩ ← Items.propertyName c.last s₁
    have := target.shorter
    match Items.after? .openParen s₂ with
    | some ⟨_, s₃, _⟩ =>
      let ⟨args, s₄, _⟩ ← expressions c .closeParen s₃
      chainFrom c ⟨callOf target.value name args, s₄, by omega⟩
    | none => chainFrom c ⟨.member target.value (.value (.string name)), s₂, by omega⟩
  | none =>
    match Items.after? .openBracket target.rest with
    | some ⟨_, s₁, _⟩ => do
      let ⟨key, s₂, _⟩ ← assignment c s₁
      let ⟨_, s₃, _⟩ ← Items.mark c.last .closeBracket s₂
      have := target.shorter
      chainFrom c ⟨.member target.value key, s₃, by omega⟩
    | none =>
      match Items.after? .openParen target.rest with
      | some ⟨_, s₁, _⟩ =>
        match target.value with
        | .ident name => do
          let ⟨args, s₂, _⟩ ← expressions c .closeParen s₁
          have := target.shorter
          chainFrom c ⟨.call name args, s₂, by omega⟩
        | _ => Items.fail c.last target.rest .notCallable
      | none => .ok target
termination_by 16 * target.rest.length + 2
decreasing_by all_goals omega

/-- Expressions separated by commas, up to a closing mark; a comma may stand before it. -/
def expressions (c : Context) (closer : Punct) (s : List Item) : Parsed (List Expr) s.length :=
  match Items.after? closer s with
  | some r => .ok (r.map fun _ => [])
  | none => do
    let ⟨first, s₁, _⟩ ← assignment c s
    match Items.after? .comma s₁ with
    | some ⟨_, s₂, _⟩ =>
      let ⟨more, s₃, _⟩ ← expressions c closer s₂
      pure ⟨first :: more, s₃, by omega⟩
    | none =>
      let ⟨_, s₂, _⟩ ← Items.mark c.last closer s₁
      pure ⟨[first], s₂, by omega⟩
termination_by 16 * s.length + 9
decreasing_by all_goals omega

/-- The fields of an object up to its closing brace; a field without a value has that of the variable
of its name. -/
def objectFields (c : Context) (s : List Item) : Parsed (List (String × Expr)) s.length :=
  match Items.after? .closeBrace s with
  | some r => .ok (r.map fun _ => [])
  | none => do
    let ⟨name, s₁, _⟩ ← Items.fieldName c.last s
    let ⟨value, s₂, _⟩ ← fieldValue c name s₁
    match Items.after? .comma s₂ with
    | some ⟨_, s₃, _⟩ =>
      let ⟨more, s₄, _⟩ ← objectFields c s₃
      pure ⟨(name, value) :: more, s₄, by omega⟩
    | none =>
      let ⟨_, s₃, _⟩ ← Items.mark c.last .closeBrace s₂
      pure ⟨[(name, value)], s₃, by omega⟩
termination_by 16 * s.length
decreasing_by all_goals omega

def fieldValue (c : Context) (name : String) (s : List Item) : Parsed Expr (s.length + 1) :=
  match Items.after? .colon s with
  | some ⟨_, s₁, _⟩ => do
    let ⟨e, s₂, _⟩ ← assignment c s₁
    pure ⟨e, s₂, by omega⟩
  | none => .ok ⟨.ident name, s, Nat.lt_succ_self _⟩
termination_by 16 * s.length
decreasing_by all_goals omega

/-- A function after its first word. -/
def functionBody (c : Context) (s : List Item) : Parsed Expr s.length := do
  let ⟨_, s₁, h₁⟩ ← functionName c.last s
  let ⟨_, s₂, h₂⟩ ← Items.mark c.last .openParen s₁
  let ⟨params, s₃, h₃⟩ ← Items.params c.last s₂
  let ⟨_, s₄, h₄⟩ ← Items.mark c.last .openBrace s₃
  let ⟨body, s₅, h₅⟩ ← block c.function s₄
  pure ⟨.function params body, s₅, Nat.lt_trans h₅ (Nat.lt_trans h₄ (Nat.lt_trans h₃
    (Nat.lt_of_lt_of_le h₂ (Nat.le_of_lt_succ h₁))))⟩
termination_by 16 * s.length
decreasing_by all_goals omega

def primary (c : Context) (s : List Item) : Parsed Expr s.length :=
  match s with
  | .lexeme (.number x) _ :: rest => .ok ⟨.value (.ofFloat x), rest, Nat.lt_succ_self _⟩
  | .lexeme (.text t) _ :: rest => .ok ⟨.value (.string t), rest, Nat.lt_succ_self _⟩
  | .lexeme (.word w) line :: rest =>
    match atom w with
    | .value v => .ok ⟨.value v, rest, Nat.lt_succ_self _⟩
    | .self => .ok ⟨.self, rest, Nat.lt_succ_self _⟩
    | .variable => .ok ⟨.ident w, rest, Nat.lt_succ_self _⟩
    | .function => do
      let ⟨e, s₁, h⟩ ← functionBody c rest
      pure ⟨e, s₁, Nat.lt_succ_of_lt h⟩
    | .refused => Items.unexpected c.last (.lexeme (.word w) line :: rest)
  | .lexeme (.mark .openParen) _ :: rest => do
    let ⟨e, s₁, _⟩ ← assignment c rest
    let ⟨_, s₂, _⟩ ← Items.mark c.last .closeParen s₁
    pure ⟨e, s₂, by simp only [List.length_cons]; omega⟩
  | .lexeme (.mark .openBracket) _ :: rest => do
    let ⟨items, s₁, h⟩ ← expressions c .closeBracket rest
    pure ⟨.array items, s₁, Nat.lt_succ_of_lt h⟩
  | .lexeme (.mark .openBrace) _ :: rest => do
    let ⟨fields, s₁, h⟩ ← objectFields c rest
    pure ⟨.object fields, s₁, Nat.lt_succ_of_lt h⟩
  | s => Items.unexpected c.last s
termination_by 16 * s.length
decreasing_by all_goals simp only [List.length_cons] at *; omega

end

/-- The statements of a whole sequence. -/
def statements (last : Nat) (s : List Item) : Except SyntaxError (List Stmt) :=
  if s.isEmpty then .ok []
  else if (Items.after? .closeBrace s).isSome then Items.fail last s .strayBrace
  else do
    let ⟨first, s₁, _⟩ ← statement ⟨last, false, false⟩ s
    let more ← statements last s₁
    pure (first :: more)
termination_by s.length

end Stencil.Script

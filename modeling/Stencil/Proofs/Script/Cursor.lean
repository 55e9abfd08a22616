import Stencil.Proofs.Script.Ahead

/-!
Reading by position. A cursor stands at a place in some items and counts the loops and the functions
that are open there. The movers below push it on by hand, under tests on the items ahead, and call one
another without a measure: a mover whose calls never end gives nothing.
-/

namespace Stencil.Script

set_option autoImplicit true

structure Cursor where
  items : List Item
  /-- The line that is given for the end of the template. -/
  last : Nat
  pos : Nat
  loopDepth : Nat
  functionDepth : Nat

/-- What a mover gives: nothing if it does not end. A fault ends all reading and leaves no cursor. -/
abbrev Answer := ExceptT SyntaxError Option

namespace Cursor

/-- What is ahead. -/
def rest (p : Cursor) : List Item := p.items.drop p.pos

/-- The same cursor at another place. -/
def moved (p : Cursor) (i : Nat) : Cursor := { p with pos := i }

/-- The same cursor in so many loops and functions. -/
def inside (p : Cursor) (loops functions : Nat) : Cursor :=
  { p with loopDepth := loops, functionDepth := functions }

/-- Where a statement at the cursor stands. -/
def context (p : Cursor) : Context := ⟨p.last, 0 < p.loopDepth, 0 < p.functionDepth⟩

/-- A cursor at the front of the items of a template. -/
def start (last : Nat) (items : List Item) : Cursor := ⟨items, last, 0, 0, 0⟩

/-- The item that stands `k` places ahead. -/
def peek (k : Nat) (p : Cursor) : Option Item := p.items[p.pos + k]?

/-- Whether nothing is ahead. -/
def ended (p : Cursor) : Bool := (p.peek 0).isNone

def advance (k : Nat) (p : Cursor) : Cursor := p.moved (p.pos + k)

def fail (fault : Fault) (p : Cursor) : Answer α := throw ⟨Items.line p.last p.rest, fault⟩

def unexpected (p : Cursor) : Answer α := p.fail (.unexpected (Items.found p.rest))

def expected (wanted : Wanted) (p : Cursor) : Answer α :=
  p.fail (.expected wanted (Items.found p.rest))

/-- What the lexeme at the cursor stands for. -/
def look (f : Lexeme → Option α) (p : Cursor) : Option α :=
  match p.peek 0 with
  | some (.lexeme l _) => f l
  | _ => none

/-- Whether the mark stands there. -/
def ahead (m : Punct) (p : Cursor) : Bool := (p.look (Lexeme.only? m)).isSome

/-- What the lexeme at the cursor stands for, and the cursor behind it. -/
def accept (f : Lexeme → Option α) (p : Cursor) : Option (α × Cursor) :=
  (p.look f).map fun v => (v, p.advance 1)

def eat (m : Punct) (p : Cursor) : Option (Unit × Cursor) := p.accept (Lexeme.only? m)

/-- The cursor behind the mark, if that stands there. -/
def skip (m : Punct) (p : Cursor) : Cursor :=
  match p.eat m with
  | some (_, p) => p
  | none => p

def require (f : Lexeme → Option α) (wanted : Wanted) (p : Cursor) : Answer (α × Cursor) :=
  match p.accept f with
  | some r => pure r
  | none => p.expected wanted

def expect (m : Punct) (p : Cursor) : Answer (Unit × Cursor) :=
  p.require (Lexeme.only? m) (.mark m)

def name (p : Cursor) : Answer (String × Cursor) := p.require Lexeme.name? .name

def propertyName (p : Cursor) : Answer (String × Cursor) := p.require Lexeme.word? .name

def fieldName (p : Cursor) : Answer (String × Cursor) := p.require Lexeme.fieldName? .fieldName

/-- The name that a function may have. -/
def functionName (p : Cursor) : Answer (Unit × Cursor) := do
  if (p.look Lexeme.word?).isSome then
    let (_, p) ← p.name
    return ((), p)
  else return ((), p)

/-- What two lexemes stand for together, and the cursor behind them; they may lie further ahead. -/
def acceptPair (k : Nat) (f : Lexeme → Lexeme → Option α) (p : Cursor) : Option (α × Cursor) :=
  match p.peek k, p.peek (k + 1) with
  | some (.lexeme l _), some (.lexeme l' _) => (f l l').map fun v => (v, p.advance (k + 2))
  | _, _ => none

/-- The head of a loop over elements or keys, which lies one lexeme further if the name is declared. -/
def loopHead (p : Cursor) : Option ((String × Bool) × Cursor) :=
  p.acceptPair (if (p.look Lexeme.declKind?).isSome then 1 else 0) Lexeme.each?

/-- A variable that is assigned to, and the operator of the assignment. -/
def assignHead (p : Cursor) : Option ((String × Option BinaryOp) × Cursor) :=
  p.acceptPair 0 Lexeme.assign?

/-- The parameters of a function up to the closing parenthesis, behind those that were read. -/
def params (names : List String) (p : Cursor) : Answer (List String × Cursor) := do
  match p.eat .closeParen with
  | some (_, p) => return (names, p)
  | none =>
    let (name, p) ← p.name
    match p.eat .comma with
    | some (_, p) => p |>.params (names ++ [name])
    | none =>
      let (_, p) ← p.expect .closeParen
      return (names ++ [name], p)
partial_fixpoint

-- a call within the recursion is written with |>.
mutual

-- statements

def statement (p : Cursor) : Answer (Stmt × Cursor) := do
  match p.peek 0 with
  | none => p.unexpected
  | some (.text t _) => return (.text t, p.advance 1)
  | some (.output e escape line) => return (.output e escape line, p.advance 1)
  | some (.lexeme l line) =>
    match l with
    | .mark .openBrace =>
      let (body, p) ← p.advance 1 |>.block []
      return (.block body, p)
    | .mark .semicolon => return (.empty, p.advance 1)
    | .word w =>
      match keyword? w with
      | some keyword => p.advance 1 |>.keywordStatement w keyword line
      | none => p |>.expressionStatement line
    | _ => p |>.expressionStatement line
partial_fixpoint

def expressionStatement (line : Nat) (p : Cursor) : Answer (Stmt × Cursor) := do
  let (e, p) ← p |>.expression
  return (.expr e line, p.skip .semicolon)
partial_fixpoint

/-- The rest of a statement after its first word. -/
def keywordStatement (w : String) (keyword : Keyword) (line : Nat) (p : Cursor) :
    Answer (Stmt × Cursor) := do
  match keyword with
  | .branch =>
    let (test, p) ← p |>.condition
    let (yes, p) ← p |>.statement
    let (no, p) ← p |>.alternative
    return (.branch test yes no line, p)
  | .otherwise => throw ⟨line, .unexpected (.lexeme (.word w))⟩
  | .loop =>
    let (_, p) ← p.expect .openParen
    match p.loopHead with
    | some ((name, elements), p) =>
      let (target, p) ← p |>.expression
      let (_, p) ← p.expect .closeParen
      let (body, p) ← p |>.loopBody
      return (if elements then .forOf name target body line else .forIn name target body line, p)
    | none =>
      let (first, p) ← p |>.loopStart line
      let (test, p) ← p |>.optional .semicolon
      let (update, p) ← p |>.optional .closeParen
      let (body, p) ← p |>.loopBody
      return (.loop first test update body line, p)
  | .whileDo =>
    let (test, p) ← p |>.condition
    let (body, p) ← p |>.loopBody
    return (.whileDo test body line, p)
  | .declare kind =>
    let (decls, p) ← p |>.declarations []
    return (.declare kind decls line, p.skip .semicolon)
  | .breakLoop =>
    if p.loopDepth = 0 then throw ⟨line, .jumpOutsideLoop w⟩
    else return (.breakLoop, p.skip .semicolon)
  | .continueLoop =>
    if p.loopDepth = 0 then throw ⟨line, .jumpOutsideLoop w⟩
    else return (.continueLoop, p.skip .semicolon)
  | .giveBack =>
    if p.functionDepth = 0 then throw ⟨line, .returnOutsideFunction⟩
    else
      let (value, p) ← p |>.returned
      return (.giveBack value, p.skip .semicolon)
partial_fixpoint

def condition (p : Cursor) : Answer (Expr × Cursor) := do
  let (_, p) ← p.expect .openParen
  let (e, p) ← p |>.expression
  let (_, p) ← p.expect .closeParen
  return (e, p)
partial_fixpoint

def alternative (p : Cursor) : Answer (Option Stmt × Cursor) := do
  match p.accept Lexeme.else? with
  | some (_, p) =>
    let (stmt, p) ← p |>.statement
    return (some stmt, p)
  | none => return (none, p)
partial_fixpoint

def returned (p : Cursor) : Answer (Option Expr × Cursor) := do
  if endsReturn p.rest then return (none, p)
  else
    let (e, p) ← p |>.expression
    return (some e, p)
partial_fixpoint

/-- The statements of a block up to its closing brace, behind those that were read. -/
def block (body : List Stmt) (p : Cursor) : Answer (List Stmt × Cursor) := do
  match p.eat .closeBrace with
  | some (_, p) => return (body, p)
  | none =>
    if p.ended then p.fail .unclosedBlock
    else
      let (stmt, p) ← p |>.statement
      p |>.block (body ++ [stmt])
partial_fixpoint

/-- A statement with one more loop around it. -/
def loopBody (p : Cursor) : Answer (Stmt × Cursor) := do
  let (body, p) ← p.inside (p.loopDepth + 1) p.functionDepth |>.statement
  return (body, p.inside (p.loopDepth - 1) p.functionDepth)
partial_fixpoint

def loopStart (line : Nat) (p : Cursor) : Answer (Option Stmt × Cursor) := do
  match p.eat .semicolon with
  | some (_, p) => return (none, p)
  | none =>
    match p.accept Lexeme.declKind? with
    | some (kind, p) =>
      let (decls, p) ← p |>.declarations []
      let (_, p) ← p.expect .semicolon
      return (some (.declare kind decls line), p)
    | none =>
      let (e, p) ← p |>.expression
      let (_, p) ← p.expect .semicolon
      return (some (.expr e line), p)
partial_fixpoint

def optional (closer : Punct) (p : Cursor) : Answer (Option Expr × Cursor) := do
  match p.eat closer with
  | some (_, p) => return (none, p)
  | none =>
    let (e, p) ← p |>.expression
    let (_, p) ← p.expect closer
    return (some e, p)
partial_fixpoint

/-- The names of a declaration with their values, behind those that were read. -/
def declarations (decls : List (String × Option Expr)) (p : Cursor) :
    Answer (List (String × Option Expr) × Cursor) := do
  let (name, p) ← p.name
  let (value, p) ← p |>.initial
  match p.eat .comma with
  | some (_, p) => p |>.declarations (decls ++ [(name, value)])
  | none => return (decls ++ [(name, value)], p)
partial_fixpoint

def initial (p : Cursor) : Answer (Option Expr × Cursor) := do
  match p.eat .set with
  | some (_, p) =>
    let (e, p) ← p |>.assignment
    return (some e, p)
  | none => return (none, p)
partial_fixpoint

-- expressions

def expression (p : Cursor) : Answer (Expr × Cursor) := p |>.assignment
partial_fixpoint

def assignment (p : Cursor) : Answer (Expr × Cursor) := do
  match p.assignHead with
  | some ((name, op), p) =>
    let (e, p) ← p |>.assignment
    return (.assign name op e, p)
  | none => p |>.conditional
partial_fixpoint

def conditional (p : Cursor) : Answer (Expr × Cursor) := do
  let (test, p) ← p |>.binary 0
  match p.eat .question with
  | some (_, p) =>
    let (yes, p) ← p |>.assignment
    let (_, p) ← p.expect .colon
    let (no, p) ← p |>.assignment
    return (.conditional test yes no, p)
  | none => return (test, p)
partial_fixpoint

def binary (level : Nat) (p : Cursor) : Answer (Expr × Cursor) := do
  let (left, p) ← p |>.unary
  p |>.binaryFrom level left
partial_fixpoint

/-- What follows the left operand: each operator that binds tightly enough, with its right operand. -/
def binaryFrom (level : Nat) (left : Expr) (p : Cursor) : Answer (Expr × Cursor) := do
  match p.look Lexeme.operator? with
  | some op =>
    if op.level < level then return (left, p)
    else
      let (right, p) ← p.advance 1 |>.binary (op.level + 1)
      p |>.binaryFrom level (op.apply left right)
  | none => return (left, p)
partial_fixpoint

def unary (p : Cursor) : Answer (Expr × Cursor) := do
  match p.accept Lexeme.unary? with
  | some (op, p) =>
    let (e, p) ← p |>.unary
    return (.unary op e, p)
  | none =>
    match p.accept Lexeme.step? with
    | some (up, p) =>
      let (name, p) ← p.name
      return (.update name up true, p)
    | none => p |>.suffixed
partial_fixpoint

def suffixed (p : Cursor) : Answer (Expr × Cursor) := do
  let (e, p) ← p |>.chain
  match e with
  | .ident name =>
    match p.accept Lexeme.step? with
    | some (up, p) => return (.update name up false, p)
    | none => return (.ident name, p)
  | e => return (e, p)
partial_fixpoint

def chain (p : Cursor) : Answer (Expr × Cursor) := do
  let (first, p) ← p |>.primary
  p |>.chainFrom first
partial_fixpoint

/-- The properties and calls after a target. -/
def chainFrom (target : Expr) (p : Cursor) : Answer (Expr × Cursor) := do
  match p.eat .dot with
  | some (_, p) =>
    let (name, p) ← p.propertyName
    if p.ahead .openParen then
      let (args, p) ← p |>.arguments
      p |>.chainFrom (callOf target name args)
    else p |>.chainFrom (.member target (.value (.string name)))
  | none =>
    match p.eat .openBracket with
    | some (_, p) =>
      let (key, p) ← p |>.expression
      let (_, p) ← p.expect .closeBracket
      p |>.chainFrom (.member target key)
    | none =>
      if p.ahead .openParen then
        match target with
        | .ident name =>
          let (args, p) ← p |>.arguments
          p |>.chainFrom (.call name args)
        | _ => p.fail .notCallable
      else return (target, p)
partial_fixpoint

def arguments (p : Cursor) : Answer (List Expr × Cursor) := do
  let (_, p) ← p.expect .openParen
  p |>.expressions .closeParen []
partial_fixpoint

/-- Expressions up to a closing mark, behind those that were read. -/
def expressions (closer : Punct) (es : List Expr) (p : Cursor) : Answer (List Expr × Cursor) := do
  match p.eat closer with
  | some (_, p) => return (es, p)
  | none =>
    let (e, p) ← p |>.assignment
    match p.eat .comma with
    | some (_, p) => p |>.expressions closer (es ++ [e])
    | none =>
      let (_, p) ← p.expect closer
      return (es ++ [e], p)
partial_fixpoint

/-- The fields of an object up to its closing brace, behind those that were read. -/
def objectFields (fields : List (String × Expr)) (p : Cursor) :
    Answer (List (String × Expr) × Cursor) := do
  match p.eat .closeBrace with
  | some (_, p) => return (fields, p)
  | none =>
    let (name, p) ← p.fieldName
    let (value, p) ← p |>.fieldValue name
    match p.eat .comma with
    | some (_, p) => p |>.objectFields (fields ++ [(name, value)])
    | none =>
      let (_, p) ← p.expect .closeBrace
      return (fields ++ [(name, value)], p)
partial_fixpoint

def fieldValue (name : String) (p : Cursor) : Answer (Expr × Cursor) := do
  match p.eat .colon with
  | some (_, p) => p |>.assignment
  | none => return (.ident name, p)
partial_fixpoint

/-- A function with its first word. -/
def function (p : Cursor) : Answer (Expr × Cursor) := p.advance 1 |>.functionBody
partial_fixpoint

def functionBody (p : Cursor) : Answer (Expr × Cursor) := do
  let (_, p) ← p.functionName
  let (_, p) ← p.expect .openParen
  let (params, p) ← p.params []
  let (_, p) ← p.expect .openBrace
  let (body, p) ← p |>.functionBlock
  return (.function params body, p)
partial_fixpoint

/-- A block with no loop around it and one more function. -/
def functionBlock (p : Cursor) : Answer (List Stmt × Cursor) := do
  let (body, q) ← p.inside 0 (p.functionDepth + 1) |>.block []
  return (body, q.inside p.loopDepth (q.functionDepth - 1))
partial_fixpoint

def primary (p : Cursor) : Answer (Expr × Cursor) := do
  match p.peek 0 with
  | some (.lexeme l _) =>
    match l with
    | .number x => return (.value (.ofFloat x), p.advance 1)
    | .text t => return (.value (.string t), p.advance 1)
    | .word w =>
      match atom w with
      | .value v => return (.value v, p.advance 1)
      | .self => return (.self, p.advance 1)
      | .variable => return (.ident w, p.advance 1)
      | .function => p |>.function
      | .refused => p.unexpected
    | .mark .openParen =>
      let (e, p) ← p.advance 1 |>.expression
      let (_, p) ← p.expect .closeParen
      return (e, p)
    | .mark .openBracket =>
      let (es, p) ← p.advance 1 |>.expressions .closeBracket []
      return (.array es, p)
    | .mark .openBrace =>
      let (fields, p) ← p.advance 1 |>.objectFields []
      return (.object fields, p)
    | _ => p.unexpected
  | _ => p.unexpected
partial_fixpoint

end

/-- The statements of a template, behind those that were read. -/
def program (stmts : List Stmt) (p : Cursor) : Answer (List Stmt × Cursor) := do
  if p.ended then return (stmts, p)
  else if p.ahead .closeBrace then p.fail .strayBrace
  else
    let (stmt, p) ← p.statement
    p |>.program (stmts ++ [stmt])
partial_fixpoint

end Cursor

end Stencil.Script

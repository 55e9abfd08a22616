import Stencil.Script.Parser
import Stencil.Segment

/-!
From the segments of a template to its statements. The code of all tags makes one sequence of items,
so a block may begin in one tag and end in another.
-/

namespace Stencil.Script

open Stencil.Text (Read)

def lexemes (code : String) (line : Nat) : Except SyntaxError (List Item) :=
  match tokenize code line with
  | .ok tokens => .ok (tokens.map Item.ofToken)
  | .error fault => .error ⟨line, .lexical fault⟩

/-- The expression of an output tag; without code it is null. -/
def parseExpression (code : String) (line : Nat) : Except SyntaxError Expr := do
  let items ← lexemes code line
  if items.isEmpty then pure (.value .null)
  else
    let ⟨e, rest, _⟩ ← assignment ⟨line, false, false⟩ items
    if rest.isEmpty then pure e else Items.unexpected line rest

/-- The items of a segment; `last` is the line of the last tag before it. -/
def Items.ofSegment (last : Nat) : Segment → Except SyntaxError (List Item)
  | .literal text => .ok [.text text last]
  | .emit code escape line => (parseExpression code line).map fun e => [.output e escape line]
  | .statement code line => lexemes code line

/-- The line of the last of some items. -/
def Items.lastLine (last : Nat) (items : List Item) : Nat := items.getLast?.elim last Item.line

def Items.ofSegments (last : Nat) : List Segment → Except SyntaxError (List Item)
  | [] => .ok []
  | segment :: rest => do
    let items ← ofSegment last segment
    let more ← ofSegments (lastLine last items) rest
    pure (items ++ more)

/-- The statements of a template. -/
def build (segments : List Segment) : Except SyntaxError (List Stmt) := do
  let items ← Items.ofSegments 1 segments
  statements (Items.lastLine 1 items) items

end Stencil.Script

import Stencil.Script.Token
import Stencil.Script.Tree

/-!
Operators between two operands: how tightly they bind and what trees they make.
-/

namespace Stencil.Script

inductive Operator where
  | binary (op : BinaryOp)
  | logical (onTrue : Bool)
deriving DecidableEq, Repr

namespace Operator

/-- How tightly the operator binds. -/
def level : Operator → Nat
  | logical false => 1
  | logical true => 2
  | binary .equal => 3
  | binary .notEqual => 3
  | binary .identical => 3
  | binary .notIdentical => 3
  | binary .less => 4
  | binary .atMost => 4
  | binary .greater => 4
  | binary .atLeast => 4
  | binary .add => 5
  | binary .sub => 5
  | binary .mul => 6
  | binary .div => 6
  | binary .rem => 6

def apply : Operator → Expr → Expr → Expr
  | binary op, left, right => .binary op left right
  | logical onTrue, left, right => .logical onTrue left right

end Operator

namespace Punct

/-- The operator that a mark stands for between two operands. -/
def operator? : Punct → Option Operator
  | either => some (.logical false)
  | both => some (.logical true)
  | equal => some (.binary .equal)
  | notEqual => some (.binary .notEqual)
  | identical => some (.binary .identical)
  | notIdentical => some (.binary .notIdentical)
  | less => some (.binary .less)
  | atMost => some (.binary .atMost)
  | greater => some (.binary .greater)
  | atLeast => some (.binary .atLeast)
  | plus => some (.binary .add)
  | minus => some (.binary .sub)
  | times => some (.binary .mul)
  | divided => some (.binary .div)
  | modulo => some (.binary .rem)
  | _ => none

/-- The assignment that a mark stands for: plain, or with the operator that is applied first. -/
def assignment? : Punct → Option (Option BinaryOp)
  | set => some none
  | addTo => some (some .add)
  | takeFrom => some (some .sub)
  | multiplyBy => some (some .mul)
  | divideBy => some (some .div)
  | _ => none

end Punct

end Stencil.Script

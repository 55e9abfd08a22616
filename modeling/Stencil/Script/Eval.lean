import Stencil.Script.State
import Stencil.Value.Method

/-!
Running a template. Every loop gets the same bound on its rounds, so that running is defined by
recursion on the tree; a run that would need more rounds is `exhausted`, and any other outcome stays
the same under a larger bound.
-/

namespace Stencil.Script

/-- Why a run stops early. -/
inductive Halt where
  | error (e : RuntimeError)
  | exhausted

/-- A computation on the state; the state is kept when it stops early. -/
abbrev Exec := EStateM Halt State

/-- How a statement ends. -/
inductive Flow where
  | normal
  | breakLoop
  | continueLoop
  | giveBack (v : Value)

/-- The outcome of one round of a loop: another round, or the flow that the loop ends with. -/
def Flow.ofRound : Flow → Option Flow
  | normal => none
  | continueLoop => none
  | breakLoop => some normal
  | giveBack v => some (giveBack v)

/-- The value of a function whose body ends with the flow. -/
def Flow.result : Flow → Value
  | giveBack v => v
  | _ => .null

namespace Exec

variable {α : Type}

def fail (e : RuntimeError) : Exec α := throw (.error e)

def lift (r : Except RuntimeError α) : Exec α :=
  match r with
  | .ok a => pure a
  | .error e => fail e

/-- Runs in a new block, which is left however the run ends. -/
def inBlock (run : Exec α) : Exec α := fun s =>
  match run s.enter with
  | .ok a s => .ok a s.leave
  | .error h s => .error h s.leave

def atLine (line : Nat) : Exec Unit := modify fun s => s.atLine line

def declare (kind : DeclKind) (name : String) (v : Value) : Exec Unit :=
  modify fun s => s.declare kind name v

def assign (name : String) (v : Value) : Exec Unit := do
  match (← get).assign? name v with
  | some s => set s
  | none => fail (.constantAssigned name)

def lookup (scope : Scope) (name : String) : Exec Value := do
  match scope.lookup? (← get) name with
  | some v => pure v
  | none => fail (.undefined name)

/-- Rounds until one ends the loop. -/
def rounds (round : Exec (Option Flow)) : (limit : Nat) → Exec Flow
  | 0 => throw .exhausted
  | limit + 1 => do
    match ← round with
    | some flow => pure flow
    | none => rounds round limit

/-- A round for each value. -/
def each (round : Value → Exec (Option Flow)) : List Value → Exec Flow
  | [] => pure .normal
  | v :: rest => do
    match ← round v with
    | some flow => pure flow
    | none => each round rest

end Exec

/-- The array methods that take a function. -/
inductive Visit where
  | each
  | map
  | filter
  | some
  | every
  | find
deriving DecidableEq

namespace Visit

def ofName? : String → Option Visit
  | "forEach" => Option.some each
  | "map" => Option.some map
  | "filter" => Option.some filter
  | "some" => Option.some some
  | "every" => Option.some every
  | "find" => Option.some find
  | _ => none

/-- The values that an element adds to the result. -/
def kept (visit : Visit) (item result : Value) : List Value :=
  match visit with
  | map => [result]
  | filter => if result.truthy then [item] else []
  | _ => []

/-- The value at which the visit stops after an element. -/
def stop? (visit : Visit) (item result : Value) : Option Value :=
  match visit with
  | some => if result.truthy then Option.some (.bool true) else none
  | every => if result.truthy then none else Option.some (.bool false)
  | find => if result.truthy then Option.some item else none
  | _ => none

/-- The value of a visit that has come to the end, having kept these values. -/
def final (visit : Visit) (values : List Value) : Value :=
  match visit with
  | map => .array values
  | filter => .array values
  | some => .bool false
  | every => .bool true
  | each => .null
  | find => .null

/-- Visits elements from left to right; `soFar` has been kept from those before, the last one
first. -/
def run (visit : Visit) (call : Value → Nat → Exec Value) (soFar : List Value) (index : Nat) :
    List Value → Exec Value
  | [] => pure (visit.final soFar.reverse)
  | item :: rest => do
    let result ← call item index
    match visit.stop? item result with
    | Option.some v => pure v
    | none => run visit call (visit.kept item result ++ soFar) (index + 1) rest

end Visit

def BinaryOp.apply (op : BinaryOp) (a b : Value) : Value :=
  match op with
  | add => a.add b
  | sub => a.sub b
  | mul => a.mul b
  | div => a.div b
  | rem => a.rem b
  | equal => .bool (a.looseEq b)
  | notEqual => .bool !(a.looseEq b)
  | identical => .bool (a.strictEq b)
  | notIdentical => .bool !(a.strictEq b)
  | less => .bool ((a.compare b).any (·.isLT))
  | atMost => .bool ((a.compare b).any (·.isLE))
  | greater => .bool ((a.compare b).any (·.isGT))
  | atLeast => .bool ((a.compare b).any (·.isGE))

/-- Operators on one operand; the kind of a variable is asked for before its value. -/
def UnaryOp.apply (op : UnaryOp) (v : Value) : Value :=
  match op with
  | not => .bool !v.truthy
  | negate => .ofFloat (-v.toFloat)
  | plus => .ofFloat v.toFloat
  | kind => .string v.typeName

/-- The elements that a loop over a value goes through, if it has any. -/
def elements? : Value → Option (List Value)
  | .array items => some items
  | .string s => some (s.toList.map .ofChar)
  | _ => none

/-- The keys that a loop over a value goes through. -/
def keys : Value → List Value
  | .object fields => (Entries.names fields).map .string
  | .array items => (List.range items.length).map fun i => .string (toString i)
  | .string s => (List.range s.length).map fun i => .string (toString i)
  | _ => []

/-- The array and the method of a call with a function. -/
def visited (target : Value) (name : String) : Except RuntimeError (Visit × List Value) :=
  match target, Visit.ofName? name with
  | .array items, some visit => .ok (visit, items)
  | .null, _ => .error (.nullProperty "null" name)
  | target, _ => .error (.notAFunction (target.describe ++ "." ++ name))

def callMethod (target : Value) (name : String) (args : List Value) :
    Except RuntimeError Value :=
  match target.method? name args with
  | some v => .ok v
  | none =>
    if target.isNull then .error (.nullProperty "null" name)
    else .error (.notAFunction (target.describe ++ "." ++ name))

/-- The property of a value under a key. -/
def property (target key : Value) : Except RuntimeError Value :=
  match target.property? key with
  | some v => .ok v
  | none => .error (.nullProperty target.describe key.display)

/-- A call by name; without a function of that name, `escape` is the escaper. -/
def callFunction (env : Environment) (name : String) (args : List Value) :
    Except RuntimeError Value :=
  if name = "escape" && !env.functions.contains name then
    .ok (.string (env.escaper (args.headD .null)))
  else env.call name args

/-- A filter on the first of the arguments. -/
def callFilter (env : Environment) (name : String) (args : List Value) :
    Except RuntimeError Value :=
  env.filter name (args.headD .null) args.tail

/-- Binds parameters to arguments; what is left over on either side is ignored. -/
def bindParams : List String → List Value → Exec Unit
  | name :: names, v :: vs => do
    Exec.declare .block name v
    bindParams names vs
  | _, _ => pure ()

/-- Calls a function; the line of the caller is back in place after it. -/
def callback (params : List String) (args : List Value) (body : Exec Flow) : Exec Value := do
  let line := (← get).line
  let flow ← Exec.inBlock do
    bindParams params args
    body
  Exec.atLine line
  pure flow.result

mutual

def eval (scope : Scope) (limit : Nat) : Expr → Exec Value
  | .value v => pure v
  | .ident name => Exec.lookup scope name
  | .self => pure scope.self
  | .array items => do
    let values ← evalAll scope limit items
    pure (.array values)
  | .object fields => do
    let values ← evalFields scope limit fields
    pure (.object (Entries.ofList values))
  | .member target key => do
    let target ← eval scope limit target
    let key ← eval scope limit key
    Exec.lift (property target key)
  | .filter name args => do
    let values ← evalAll scope limit args
    Exec.lift (callFilter scope.env name values)
  | .call name args => do
    let values ← evalAll scope limit args
    Exec.lift (callFunction scope.env name values)
  | .method target name args => do
    let target ← eval scope limit target
    match args with
    | [.function params body] => do
      let (visit, items) ← Exec.lift (visited target name)
      visit.run (fun item index =>
        callback params [item, .ofNat index, target] (run scope limit body)) [] 0 items
    | args => do
      let values ← evalAll scope limit args
      Exec.lift (callMethod target name values)
  | .unary op operand => do
    match op, operand with
    | .kind, .ident name =>
      pure (.string ((scope.lookup? (← get) name).elim "undefined" Value.typeName))
    | op, operand => do
      let v ← eval scope limit operand
      pure (op.apply v)
  | .binary op left right => do
    let a ← eval scope limit left
    let b ← eval scope limit right
    pure (op.apply a b)
  | .logical onTrue left right => do
    let v ← eval scope limit left
    if v.truthy = onTrue then eval scope limit right else pure v
  | .conditional test yes no => do
    let v ← eval scope limit test
    if v.truthy then eval scope limit yes else eval scope limit no
  | .assign name op value => do
    let v ← eval scope limit value
    let v ← match op with
      | none => pure v
      | some op => do
        let old ← Exec.lookup scope name
        pure (op.apply old v)
    Exec.assign name v
    pure v
  | .update name increment before => do
    let old ← Exec.lookup scope name
    let x := old.toFloat
    let y := if increment then x + 1 else x - 1
    Exec.assign name (.ofFloat y)
    pure (.ofFloat (if before then y else x))
  | .function _ _ => Exec.fail .strayFunction

def evalAll (scope : Scope) (limit : Nat) : List Expr → Exec (List Value)
  | [] => pure []
  | e :: rest => do
    let v ← eval scope limit e
    let vs ← evalAll scope limit rest
    pure (v :: vs)

def evalFields (scope : Scope) (limit : Nat) : List (String × Expr) → Exec (List (String × Value))
  | [] => pure []
  | (name, e) :: rest => do
    let v ← eval scope limit e
    let vs ← evalFields scope limit rest
    pure ((name, v) :: vs)

def declareAll (scope : Scope) (limit : Nat) (kind : DeclKind) :
    List (String × Option Expr) → Exec Unit
  | [] => pure ()
  | (name, some e) :: rest => do
    let v ← eval scope limit e
    Exec.declare kind name v
    declareAll scope limit kind rest
  | (name, none) :: rest => do
    Exec.declare kind name .null
    declareAll scope limit kind rest

def exec (scope : Scope) (limit : Nat) : Stmt → Exec Flow
  | .text s => do
    modify fun st => st.write s
    pure .normal
  | .output e escape line => do
    Exec.atLine line
    let v ← eval scope limit e
    modify fun st => st.write (if escape then scope.env.escaper v else v.display)
    pure .normal
  | .expr e line => do
    Exec.atLine line
    let _ ← eval scope limit e
    pure .normal
  | .declare kind decls line => do
    Exec.atLine line
    declareAll scope limit kind decls
    pure .normal
  | .branch test yes no line => do
    Exec.atLine line
    let v ← eval scope limit test
    if v.truthy then exec scope limit yes
    else
      match no with
      | some no => exec scope limit no
      | none => pure .normal
  | .forOf name items body line => do
    Exec.atLine line
    let v ← eval scope limit items
    match elements? v with
    | none => Exec.fail (.notIterable v.describe)
    | some values =>
      Exec.each (fun v => Exec.inBlock do
        Exec.declare .block name v
        let flow ← exec scope limit body
        pure flow.ofRound) values
  | .forIn name target body line => do
    Exec.atLine line
    let v ← eval scope limit target
    Exec.each (fun key => Exec.inBlock do
      Exec.declare .block name key
      let flow ← exec scope limit body
      pure flow.ofRound) (keys v)
  | .loop first test update body line => Exec.inBlock do
    Exec.atLine line
    match first with
    | some first => discard (exec scope limit first)
    | none => pure ()
    Exec.rounds (do
      Exec.atLine line
      let go ← match test with
        | some test => do
          let v ← eval scope limit test
          pure v.truthy
        | none => pure true
      if go then
        let flow ← Exec.inBlock (exec scope limit body)
        match flow.ofRound with
        | some flow => pure (some flow)
        | none => do
          Exec.atLine line
          match update with
          | some update => discard (eval scope limit update)
          | none => pure ()
          pure none
      else pure (some .normal)) limit
  | .whileDo test body line =>
    Exec.rounds (do
      Exec.atLine line
      let v ← eval scope limit test
      if v.truthy then
        let flow ← Exec.inBlock (exec scope limit body)
        pure flow.ofRound
      else pure (some .normal)) limit
  | .block body => Exec.inBlock (run scope limit body)
  | .breakLoop => pure .breakLoop
  | .continueLoop => pure .continueLoop
  | .giveBack (some e) => do
    let v ← eval scope limit e
    pure (.giveBack v)
  | .giveBack none => pure (.giveBack .null)
  | .empty => pure .normal

/-- Statements one after the other, up to one that does not end normally. -/
def run (scope : Scope) (limit : Nat) : List Stmt → Exec Flow
  | [] => pure .normal
  | stmt :: rest => do
    match ← exec scope limit stmt with
    | .normal => run scope limit rest
    | flow => pure flow

end

/-- The number of rounds that a loop is given when a template is rendered; no run comes near it. -/
def maxRounds : Nat := Nat.pow 2 62

/-- How a template ends: with its output, or early, with the line reached. -/
def execute (scope : Scope) (limit : Nat) (program : List Stmt) : Except (Halt × Nat) String :=
  match run scope limit program .initial with
  | .ok _ s => .ok s.out
  | .error h s => .error (h, s.line)

end Stencil.Script

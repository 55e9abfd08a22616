import Stencil.Environment
import Stencil.Script.Tree

/-!
The state of a running template: the variables of the template and of the blocks around the place of
execution, the output so far, and the line of the statement under execution.
-/

namespace Stencil.Script

structure Binding where
  value : Value
  constant : Bool

structure State where
  /-- The frames of the blocks, the innermost first. -/
  blocks : List (Table Binding)
  /-- The frame of the template. -/
  base : Table Binding
  out : String
  line : Nat

namespace State

def initial : State := ⟨[], ∅, "", 1⟩

/-- The frames, the innermost first. -/
def frames (s : State) : List (Table Binding) := s.blocks ++ [s.base]

/-- The nearest binding of a name. -/
def binding? (s : State) (name : String) : Option Binding :=
  s.frames.findSome? fun frame => frame.get? name

/-- The frames with the nearest binding of a name replaced. -/
def rebound (name : String) (b : Binding) : List (Table Binding) → List (Table Binding)
  | [] => []
  | frame :: rest =>
    if frame.contains name then frame.insert name b :: rest else frame :: rebound name b rest

def insertBase (s : State) (name : String) (b : Binding) : State :=
  { s with base := s.base.insert name b }

/-- Binds a name in the innermost frame. -/
def insertInner (s : State) (name : String) (b : Binding) : State :=
  match s.blocks with
  | [] => s.insertBase name b
  | frame :: rest => { s with blocks := frame.insert name b :: rest }

/-- A declaration binds in the frame of the template if it is made with `var`, else in the innermost
frame. -/
def declare (s : State) (kind : DeclKind) (name : String) (value : Value) : State :=
  match kind with
  | .var => s.insertBase name ⟨value, false⟩
  | .block => s.insertInner name ⟨value, false⟩
  | .constant => s.insertInner name ⟨value, true⟩

/-- An assignment changes the nearest binding, or makes one in the frame of the template; it fails on
a constant. -/
def assign? (s : State) (name : String) (value : Value) : Option State :=
  match s.blocks.findSome? fun frame => frame.get? name with
  | some b =>
    if b.constant then none
    else some { s with blocks := rebound name ⟨value, false⟩ s.blocks }
  | none =>
    match s.base.get? name with
    | some b => if b.constant then none else some (s.insertBase name ⟨value, false⟩)
    | none => some (s.insertBase name ⟨value, false⟩)

def enter (s : State) : State := { s with blocks := ∅ :: s.blocks }

def leave (s : State) : State := { s with blocks := s.blocks.tail }

def write (s : State) (text : String) : State := { s with out := s.out ++ text }

def atLine (s : State) (line : Nat) : State := { s with line := line }

end State

/-- What a template sees besides its own variables. -/
structure Scope where
  values : Table Value
  /-- Values that count where there is none of the same name above. -/
  locals : Table Value
  self : Value
  env : Environment

/-- The value of a name: of its nearest binding, else among the values, else among the locals. The
name `locals` stands for all values unless it is bound. -/
def Scope.lookup? (scope : Scope) (s : State) (name : String) : Option Value :=
  match s.binding? name with
  | some b => some b.value
  | none =>
    match scope.values.get? name with
    | some v => some v
    | none =>
      match scope.locals.get? name with
      | some v => some v
      | none => if name = "locals" then some (.object scope.values.entries) else none

end Stencil.Script

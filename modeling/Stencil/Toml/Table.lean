import Stencil.Value

/-!
Tables of a configuration file while it is read. How a table came about decides whether it may be
opened or extended again.
-/

namespace Stencil.Toml

/-- How a table came about: under a header of its own, on the way to another table, or by a key with
dots. -/
inductive Origin where
  | headed
  | passed
  | dotted
deriving DecidableEq

inductive Node where
  | value (v : Value)
  | table (origin : Origin) (entries : List (String × Node))
  /-- An array of tables, the last one first. -/
  | tables (items : List (List (String × Node)))
deriving Inhabited

abbrev Nodes := List (String × Node)

mutual

def Node.toValue : Node → Value
  | .value v => v
  | .table _ entries => .object (fieldsOf entries)
  | .tables items => .array (objectsOf items).reverse

def fieldsOf : List (String × Node) → List (String × Value)
  | [] => []
  | (name, node) :: rest => (name, node.toValue) :: fieldsOf rest

def objectsOf : List (List (String × Node)) → List Value
  | [] => []
  | entries :: rest => .object (fieldsOf entries) :: objectsOf rest

end

/-- Gives a key with dots a value. `top` says that the table is the one that is open; a table below it
must have come about by a key with dots too. -/
def assign (top : Bool) (origin : Origin) (entries : Nodes) : List String → Value → Option Nodes
  | [], _ => none
  | [key], v =>
    if !top && origin ≠ .dotted then none
    else if (Entries.get? key entries).isSome then none
    else some (Entries.insert key (.value v) entries)
  | key :: rest, v =>
    match Entries.get? key entries with
    | none =>
      (assign false .dotted [] rest v).map fun more =>
        Entries.insert key (.table .dotted more) entries
    | some (.table .headed _) => none
    | some (.table origin inner) =>
      (assign false origin inner rest v).map fun more =>
        Entries.insert key (.table origin more) entries
    | some (.tables (last :: before)) =>
      (assign false .headed last rest v).map fun more =>
        Entries.insert key (.tables (more :: before)) entries
    | some _ => none

/-- Changes the table under a path; tables that are missing on the way are made. -/
def changeAt (change : Nodes → Option Nodes) : List String → Nodes → Option Nodes
  | [], entries => change entries
  | key :: rest, entries =>
    match Entries.get? key entries with
    | none =>
      (changeAt change rest []).map fun more => Entries.insert key (.table .passed more) entries
    | some (.table origin inner) =>
      (changeAt change rest inner).map fun more =>
        Entries.insert key (.table origin more) entries
    | some (.tables (last :: before)) =>
      (changeAt change rest last).map fun more =>
        Entries.insert key (.tables (more :: before)) entries
    | some _ => none

/-- Opens the table of a header; one that was only passed on the way is opened for the first time. -/
def openTable (key : String) (entries : Nodes) : Option Nodes :=
  match Entries.get? key entries with
  | none => some (Entries.insert key (.table .headed []) entries)
  | some (.table .passed inner) => some (Entries.insert key (.table .headed inner) entries)
  | some _ => none

/-- Adds a table to an array of tables. -/
def addTable (key : String) (entries : Nodes) : Option Nodes :=
  match Entries.get? key entries with
  | none => some (Entries.insert key (.tables [[]]) entries)
  | some (.tables items) => some (Entries.insert key (.tables ([] :: items)) entries)
  | some _ => none

end Stencil.Toml

import Stencil.Text.Runs
import Stencil.Text.Search

/-!
Filter pipelines: `base | name:args | ...` stands for filter calls nested from the left.
-/

namespace Stencil.Pipeline

open Stencil.Text (cut? runs trimBoth isBlank)

def trimmed (s : List Char) : List Char := trimBoth isBlank s

/-- The call of one filter on the code before it. -/
def call (base name args : List Char) : List Char :=
  "filters.".toList ++ name ++ ['('] ++ base ++
    (if args.isEmpty then [] else [',', ' '] ++ args) ++ [')']

/-- The name and the arguments of a stage stand on the two sides of its first colon. -/
def stage (base text : List Char) : List Char :=
  match cut? [':'] text with
  | some (name, args) => call base (trimmed name) (trimmed args)
  | none => call base (trimmed text) []

/-- The code of a pipeline. -/
def code (pipeline : List Char) : List Char :=
  match runs (· == '|') pipeline with
  | [] => []
  | base :: stages => stages.foldl stage (trimmed base)

end Stencil.Pipeline

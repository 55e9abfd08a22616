import Stencil.Template.Error

/-!
The frame of a place: a row for each line near it, in order, and no other row. Rows can be told
apart because neither lines nor numbers have line breaks in them.
-/

namespace Stencil

set_option autoImplicit true

theorem no_break_of_mem_sourceLines (h : text ∈ sourceLines source) : '\n' ∉ text.toList := by
  obtain ⟨run, hr, rfl⟩ := List.mem_map.mp h
  intro hc
  rw [String.toList_ofList] at hc
  exact absurd (Text.none_of_mem_runs hr '\n' hc) (by decide)

theorem no_break_toString (n : Nat) : '\n' ∉ (toString n).toList := by
  intro hc
  change '\n' ∈ n.repr.toList at hc
  rw [Nat.toList_repr] at hc
  exact absurd (Nat.isDigit_of_mem_toDigits (by decide) (by decide) hc) (by decide)

theorem length_sourceLines (source : String) :
    (sourceLines source).length = source.toList.count '\n' + 1 := by
  rw [sourceLines, Text.split, List.length_map, Text.length_runs]
  rfl

/-- Lines that are joined are the lines of the whole. -/
theorem sourceLines_intercalate {rows : List String} (hne : rows ≠ [])
    (h : ∀ row ∈ rows, '\n' ∉ row.toList) : sourceLines (String.intercalate "\n" rows) = rows := by
  have hruns : Text.runs (· == '\n') (List.intercalate ['\n'] (rows.map String.toList)) =
      rows.map String.toList := by
    refine Text.runs_intercalate rfl (mt List.map_eq_nil_iff.mp hne) fun run hr c hc => ?_
    obtain ⟨row, hrow, rfl⟩ := List.mem_map.mp hr
    exact beq_eq_false_iff_ne.mpr (ne_of_mem_of_not_mem hc (h row hrow))
  rw [sourceLines, Text.split, String.toList_intercalate]
  change (Text.runs _ (List.intercalate ['\n'] _)).map String.ofList = _
  rw [hruns, List.map_map]
  exact List.map_id'' (fun _ => String.ofList_toList) rows

/-- The frame of a line shows this and up to three lines on either side, one row each, in order,
with its number and its text; the row of the line, and no other, is marked. -/
structure Framed (source : String) (line : Nat) (frame : String) : Prop where
  length : (sourceLines frame).length + max 1 (line - 3) =
    min (sourceLines source).length (line + 3) + 1
  row : ∀ n, max 1 (line - 3) ≤ n → n ≤ min (sourceLines source).length (line + 3) →
    ∃ text, (sourceLines source)[n - 1]? = some text ∧
      (sourceLines frame)[n - max 1 (line - 3)]? =
        some ((if n = line then " >> " else "    ") ++ toString n ++ "| " ++ text)

theorem no_break_frameRow (line n : Nat) (source : String) :
    '\n' ∉ (frameRow line (sourceLines source) n).toList := by
  have htext : '\n' ∉ ((sourceLines source)[n - 1]?.getD "").toList := by
    cases ht : (sourceLines source)[n - 1]? with
    | none => decide
    | some text => exact no_break_of_mem_sourceLines (List.mem_of_getElem? ht)
  have hmark : '\n' ∉ (if n = line then " >> " else "    ").toList := by
    split <;> decide
  have hbar : '\n' ∉ "| ".toList := by decide
  simp only [frameRow, String.toList_append, List.mem_append, not_or]
  exact ⟨⟨⟨hmark, no_break_toString n⟩, hbar⟩, htext⟩

theorem framed_sourceFrame (hl : 1 ≤ line) (hu : line ≤ (sourceLines source).length) :
    Framed source line (sourceFrame source line) := by
  have hrows : sourceLines (sourceFrame source line) =
      (List.range' (max (line - 3) 1) (min (line + 3) (sourceLines source).length + 1 -
        max (line - 3) 1)).map fun n => frameRow line (sourceLines source) n := by
    refine sourceLines_intercalate ?_ fun row hr => ?_
    · rw [ne_eq, List.map_eq_nil_iff, List.range'_eq_nil_iff]
      omega
    · obtain ⟨n, _, rfl⟩ := List.mem_map.mp hr
      exact no_break_frameRow line n source
  constructor
  · rw [hrows, List.length_map, List.length_range']
    omega
  · intro n hs he
    have hlt : n - 1 < (sourceLines source).length := by omega
    refine ⟨(sourceLines source)[n - 1], List.getElem?_eq_getElem hlt, ?_⟩
    have hi : n - max 1 (line - 3) <
        min (line + 3) (sourceLines source).length + 1 - max (line - 3) 1 := by omega
    have hn : max (line - 3) 1 + 1 * (n - max 1 (line - 3)) = n := by omega
    rw [hrows, List.getElem?_map, List.getElem?_range' hi, hn, Option.map_some, frameRow,
      List.getElem?_eq_getElem hlt]
    rfl

end Stencil

/-!
The runs of elements between those of a kind, as in the lines of a text. There is one more run than
there are separating elements (`length_runs`), and a separating element divides the runs before it from
those after it (`runs_append_cons`). So joining runs by a separating element gives a list with just
these runs (`runs_intercalate`).
-/

namespace Stencil.Text

variable {α : Type}

/-- The runs of elements between those of a kind; there is always one. -/
def runs (p : α → Bool) : List α → List (List α)
  | [] => [[]]
  | c :: rest =>
    if p c then [] :: runs p rest
    else
      match runs p rest with
      | [] => [[c]]
      | run :: more => (c :: run) :: more

theorem runs_ne_nil (p : α → Bool) (s : List α) : runs p s ≠ [] := by
  cases s with
  | nil => exact List.cons_ne_nil _ _
  | cons c rest =>
    rw [runs]
    split
    · exact List.cons_ne_nil _ _
    · split <;> exact List.cons_ne_nil _ _

theorem length_runs (p : α → Bool) (s : List α) : (runs p s).length = s.countP p + 1 := by
  induction s with
  | nil => rfl
  | cons c rest ih =>
    rw [runs]
    by_cases h : p c = true
    · rw [if_pos h, List.length_cons, ih, List.countP_cons_of_pos h]
    · rw [if_neg h, List.countP_cons_of_neg h, ← ih]
      split
      · rename_i hruns
        exact absurd hruns (runs_ne_nil p rest)
      · rename_i run more hruns
        rw [hruns]
        rfl

theorem runs_append_cons {p : α → Bool} {c : α} (h : p c = true) (s t : List α) :
    runs p (s ++ c :: t) = runs p s ++ runs p t := by
  induction s with
  | nil => simp [runs, h]
  | cons d s ih =>
    rw [List.cons_append, runs, runs, ih]
    split
    · rfl
    · cases hs : runs p s with
      | nil => exact absurd hs (runs_ne_nil p s)
      | cons run more => rfl

theorem runs_of_none {p : α → Bool} {s : List α} (h : ∀ c ∈ s, p c = false) : runs p s = [s] := by
  induction s with
  | nil => rfl
  | cons c s ih =>
    obtain ⟨hc, hs⟩ := List.forall_mem_cons.mp h
    rw [runs, hc, ih hs]
    rfl

/-- What separates the runs stands in none of them. -/
theorem none_of_mem_runs {p : α → Bool} {run s : List α} (h : run ∈ runs p s) :
    ∀ c ∈ run, p c = false := by
  induction s generalizing run with
  | nil =>
    obtain rfl := List.mem_singleton.mp h
    exact fun c hc => absurd hc List.not_mem_nil
  | cons c s ih =>
    rw [runs] at h
    split at h
    · rcases List.mem_cons.mp h with rfl | h
      · exact fun c hc => absurd hc List.not_mem_nil
      · exact ih h
    · rename_i hc
      have hc : p c = false := by simpa using hc
      split at h
      · rename_i hr
        exact absurd hr (runs_ne_nil p s)
      · rename_i first more hr
        rcases List.mem_cons.mp h with rfl | h
        · exact List.forall_mem_cons.mpr ⟨hc, ih (hr ▸ List.mem_cons_self)⟩
        · exact ih (hr ▸ List.mem_cons_of_mem first h)

/-- Runs that are joined are the runs of the whole. -/
theorem runs_intercalate {p : α → Bool} {c : α} (hc : p c = true) {rows : List (List α)}
    (hne : rows ≠ []) (h : ∀ row ∈ rows, ∀ d ∈ row, p d = false) :
    runs p (List.intercalate [c] rows) = rows := by
  induction rows with
  | nil => exact absurd rfl hne
  | cons row rows ih =>
    obtain ⟨hrow, hrows⟩ := List.forall_mem_cons.mp h
    cases rows with
    | nil => rw [List.intercalate_singleton, runs_of_none hrow]
    | cons next rest =>
      rw [List.intercalate_cons_cons, List.append_assoc, List.singleton_append,
        runs_append_cons hc, runs_of_none hrow, ih (List.cons_ne_nil _ _) hrows,
        List.singleton_append]

/-- The texts between the characters of a kind. -/
def split (p : Char → Bool) (s : String) : List String := (runs p s.toList).map String.ofList

end Stencil.Text

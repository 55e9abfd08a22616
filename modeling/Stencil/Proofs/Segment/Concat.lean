import Stencil.Proofs.Segment.Lines

/-!
A source that is followed by a tag. With the standard delimiters, what can be scanned by itself gives
the same pieces in front of a tag: an opening delimiter has no part in the text before it, and no tag
reaches beyond its own end.
-/

namespace Stencil

open Stencil.Text (cut?)

set_option autoImplicit true

theorem Text.cut?_append_of_cut? {needle s : List Char}
    (h : cut? needle s = some (before, rest)) (t : List Char) :
    cut? needle (s ++ t) = some (before, rest ++ t) := by
  rw [eq_of_cut? h, List.append_assoc _ rest t]
  exact (endsFirst_of_cut? h).cut? (rest ++ t)

namespace Tag

theorem marked_append (h : inside ≠ []) (t : List Char) :
    marked (inside ++ t) = ((marked inside).1, (marked inside).2 ++ t) := by
  have ho := opens_marked inside
  generalize marked inside = m at ho
  obtain ⟨kind, s⟩ := m
  obtain ⟨rfl, hc⟩ := ho
  apply Opens.marked
  refine ⟨List.append_assoc _ _ _, ?_⟩
  rintro rfl
  cases s with
  | nil => exact absurd rfl h
  | cons c s => exact hc rfl

/-- A tag brings no line break with it. -/
theorem afterNewline?_append (rest inside : List Char) :
    afterNewline? (rest ++ '<' :: inside) =
      (afterNewline? rest).map fun next => next ++ '<' :: inside := by
  fun_cases afterNewline? rest with
  | case1 rest => rfl
  | case2 rest => rfl
  | case3 rest hf hr =>
    apply afterNewline?_eq_none
    · rintro ⟨r, he⟩
      cases rest with
      | nil => cases he
      | cons c rest =>
        cases he
        exact hf rest rfl
    · rintro ⟨r, he⟩
      match rest with
      | [] => cases he
      | [c] => cases he
      | c :: d :: rest =>
        cases he
        exact hr rest rfl

end Tag

namespace Piece

theorem not_opener_append {s : List Char} (h : ¬Delimiters.standard.opener <+: c :: s)
    (inside : List Char) :
    ¬Delimiters.standard.opener <+: c :: s ++ (Delimiters.standard.opener ++ inside) := by
  rintro ⟨r, he⟩
  cases s with
  | nil => cases he
  | cons d s =>
    cases he
    exact h ⟨s, rfl⟩

/-- A tag takes the same part of a source if another tag follows the source. -/
theorem ofSource_tag_append
    (hc : cut? Delimiters.standard.closer (Tag.marked source).2 = some (written, rest))
    (line : Nat) (inside : List Char) : ∃ tag line' next, next.length ≤ rest.length ∧
      ofSource .standard line (Delimiters.standard.opener ++ source) =
        (ofSource .standard line' next).map (.tag tag :: ·) ∧
      ofSource .standard line (Delimiters.standard.opener ++
          (source ++ (Delimiters.standard.opener ++ inside))) =
        (ofSource .standard line' (next ++ (Delimiters.standard.opener ++ inside))).map
          (.tag tag :: ·) := by
  have hne : source ≠ [] := by
    rintro rfl
    cases hc
  have hm := Tag.marked_append hne (Delimiters.standard.opener ++ inside)
  have hc' : cut? Delimiters.standard.closer
      (Tag.marked (source ++ (Delimiters.standard.opener ++ inside))).2 =
      some (written, rest ++ (Delimiters.standard.opener ++ inside)) := by
    rw [hm]
    exact Text.cut?_append_of_cut? hc _
  rw [ofSource_tag hc, ofSource_tag hc', hm]
  cases Tag.trimsNewline written with
  | false => exact ⟨_, _, rest, Nat.le_refl _, rfl, rfl⟩
  | true =>
    have hn : Tag.afterNewline? (rest ++ (Delimiters.standard.opener ++ inside)) = _ :=
      Tag.afterNewline?_append rest ('%' :: inside)
    rw [if_pos rfl, if_pos rfl, hn]
    cases ha : Tag.afterNewline? rest with
    | none => exact ⟨_, _, rest, Nat.le_refl _, rfl, rfl⟩
    | some next => exact ⟨_, _, next, Tag.length_afterNewline? ha, rfl, rfl⟩

theorem map_append_cons (r : Except Nat (List Piece)) (piece : Piece) (pieces : List Piece) :
    (r.map (pieces ++ ·)).map (piece :: ·) = r.map (piece :: pieces ++ ·) := by
  cases r with
  | error line => rfl
  | ok rest => rfl

/-- The pieces of a source in front of a tag are those that it has by itself. -/
theorem ofSource_append (h : ofSource .standard line s = .ok pieces) (inside : List Char) :
    ∃ line', ofSource .standard line (s ++ (Delimiters.standard.opener ++ inside)) =
      (ofSource .standard line' (Delimiters.standard.opener ++ inside)).map (pieces ++ ·) := by
  by_cases ho : Delimiters.standard.opener <+: s
  · obtain ⟨source, rfl⟩ := ho
    cases hc : cut? Delimiters.standard.closer (Tag.marked source).2 with
    | none =>
      rw [ofSource_unclosed hc] at h
      cases h
    | some parts =>
      obtain ⟨tag, line₁, next, hle, he, he'⟩ := ofSource_tag_append hc line inside
      have hlt : next.length < (Delimiters.standard.opener ++ source).length := by
        have hopener := Delimiters.standard.length_opener_pos
        have hcut := Text.length_of_cut? hc
        have hmark := Tag.length_marked source
        rw [List.length_append]
        omega
      rw [he] at h
      cases hn : ofSource .standard line₁ next with
      | error l =>
        rw [hn] at h
        cases h
      | ok pieces =>
        rw [hn] at h
        cases h
        obtain ⟨line', hl⟩ := ofSource_append hn inside
        refine ⟨line', ?_⟩
        rw [List.append_assoc, he', hl]
        exact map_append_cons _ _ _
  · cases s with
    | nil =>
      rw [ofSource_nil] at h
      cases h
      refine ⟨line, ?_⟩
      rw [List.nil_append]
      cases ofSource .standard line (Delimiters.standard.opener ++ inside) with
      | error l => rfl
      | ok pieces => rfl
    | cons c s =>
      rw [ofSource_char ho] at h
      cases hn : ofSource .standard (if c = '\n' then line + 1 else line) s with
      | error l =>
        rw [hn] at h
        cases h
      | ok pieces =>
        rw [hn] at h
        cases h
        obtain ⟨line', hl⟩ := ofSource_append hn inside
        refine ⟨line', ?_⟩
        have ho' := not_opener_append ho inside
        rw [List.cons_append] at ho' ⊢
        rw [ofSource_char ho', hl]
        exact map_append_cons _ _ _
termination_by s.length

end Piece

/-- Where space is not eaten, what becomes of a character does not depend on those before it. -/
theorem Spacing.kept_append (w : Spacing) (ps qs : List Piece) :
    ∃ w', kept false w (ps ++ qs) = kept false w ps ++ kept false w' qs := by
  induction ps generalizing w with
  | nil => exact ⟨w, rfl⟩
  | cons piece ps ih =>
    cases piece with
    | tag t =>
      obtain ⟨w', hw⟩ := ih w
      refine ⟨w', ?_⟩
      rw [List.cons_append, kept, hw, kept]
      rfl
    | char c =>
      rw [List.cons_append, kept, kept]
      generalize step false w c = r
      obtain ⟨c', w₁⟩ := r
      obtain ⟨w', hw⟩ := ih w₁
      cases c' with
      | none => exact ⟨w', hw⟩
      | some c' => exact ⟨w', congrArg (.char c' :: ·) hw⟩

namespace Segment

theorem flush_append (pending : List Char) (rest more : List Segment) :
    flush pending (rest ++ more) = flush pending rest ++ more := by
  unfold flush
  split <;> rfl

/-- A tag at the end is a segment at the end. -/
theorem gather_concat_tag (pending : List Char) (ps : List Piece) (t : Tag) :
    gather pending (ps ++ [.tag t]) = gather pending ps ++ [t.segment] := by
  induction ps generalizing pending with
  | nil => exact flush_append pending [] [t.segment]
  | cons piece ps ih =>
    cases piece with
    | tag t' =>
      rw [List.cons_append, gather, gather, ih, ← List.cons_append, flush_append]
    | char c => exact ih (c :: pending)

end Segment

end Stencil

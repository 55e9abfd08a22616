import Stencil.Proofs.Segment.Lines
import Stencil.Proofs.Template.Frame
import Stencil.Proofs.Template.Rendered

/-!
The places of errors. Whatever refuses a source or stops its template, be it the scanner, the parser
or the run, the place that the error names is a line of that source.
-/

namespace Stencil

open Script

set_option autoImplicit true

namespace Piece

/-- Every line in the outcome of reading a source, those of the tags or that of the error, has a
property. -/
def OnLines (p : Nat → Prop) : Except Nat (List Piece) → Prop
  | .ok pieces => ∀ t, .tag t ∈ pieces → p t.line
  | .error line => p line

theorem OnLines.char (h : OnLines p r) (c : Char) : OnLines p (r.map (.char c :: ·)) := by
  cases r with
  | error line => exact h
  | ok pieces =>
    intro t ht
    rcases List.mem_cons.mp ht with ht | ht
    · cases ht
    · exact h t ht

theorem OnLines.tag (h : OnLines p r) (ht : p t.line) : OnLines p (r.map (.tag t :: ·)) := by
  cases r with
  | error line => exact h
  | ok pieces =>
    intro u hu
    rcases List.mem_cons.mp hu with hu | hu
    · cases hu
      exact ht
    · exact h u hu

/-- The lines that are counted while a source is read are lines of it, also if there are line breaks
in the delimiters, which are not counted. -/
theorem onLines_ofSource (h : Scans d before s sites stuck)
    (hp : ∀ n, line ≤ n → n ≤ line + newlines s → p n) : OnLines p (ofSource d line s) := by
  induction h generalizing line with
  | ending =>
    rw [ofSource_nil]
    exact fun t ht => absurd ht List.not_mem_nil
  | @char c s before sites stuck hn _ ih =>
    rw [ofSource_char hn]
    refine (ih fun n hl hu => hp n ?_ ?_).char c
    · split at hl <;> omega
    · have hc : newlines (c :: s) = newlines [c] + newlines s := newlines_append [c] s
      rw [newlines_singleton] at hc
      split at hu <;> rename_i h
      · rw [if_pos h] at hc
        omega
      · omega
  | @tag kind inside written br rest before sites stuck hk he ht _ ih =>
    have hs : newlines written + newlines br + newlines rest ≤ newlines (d.opener ++ inside) := by
      rw [hk.1]
      simp only [newlines_append]
      omega
    rw [ofSource_of_trims hk he ht]
    have hrest : OnLines p (ofSource d (line + newlines written + newlines br) rest) :=
      ih fun n hl hu => hp n (by omega) (by omega)
    exact hrest.tag (hp line (Nat.le_refl _) (Nat.le_add_right _ _))
  | unclosed hk hn =>
    rw [ofSource_of_unclosed hk hn]
    exact hp _ (Nat.le_refl _) (Nat.le_add_right _ _)

end Piece

/-- The number of a line of the source. -/
def IsLine (source : String) (n : Nat) : Prop := 1 ≤ n ∧ n ≤ (sourceLines source).length

theorem isLine_one (source : String) : IsLine source 1 := by
  refine ⟨Nat.le_refl 1, ?_⟩
  rw [length_sourceLines]
  omega

def sourceLimits (source : String) : Limits where
  line := IsLine source
  text _ := True
  output _ := True

theorem Tag.within_segment {t : Tag} (h : IsLine source t.line) :
    t.segment.Within (sourceLimits source) := by
  obtain ⟨kind, body, line⟩ := t
  cases kind with
  | code => exact h
  | escaped => exact ⟨trivial, h⟩
  | raw => exact ⟨trivial, h⟩

theorem Piece.onLines_source (d : Delimiters) (source : String) :
    OnLines (IsLine source) (ofSource d 1 source.toList) := by
  obtain ⟨sites, stuck, hs⟩ := exists_scans d [] source.toList
  refine onLines_ofSource hs fun n hl hu => ⟨hl, ?_⟩
  rw [length_sourceLines]
  rw [newlines] at hu
  omega

/-- The segments that come from some pieces keep to their lines. -/
theorem Segment.within_gather {source : String} {pieces : List Piece}
    (h : ∀ t, .tag t ∈ pieces → IsLine source t.line) (eatspace : Bool) :
    ∀ segment ∈ gather [] (Spacing.kept eatspace ⟨false, false⟩ pieces),
      segment.Within (sourceLimits source) := by
  intro segment hs
  by_cases hl : segment.isLiteral = true
  · cases segment with
    | literal => trivial
    | emit => cases hl
    | statement => cases hl
  · have hf : segment ∈ (gather [] (Spacing.kept eatspace ⟨false, false⟩ pieces)).filter
        (!·.isLiteral) := List.mem_filter.mpr ⟨hs, by simpa using hl⟩
    rw [filter_gather, Piece.filterMap_kept] at hf
    obtain ⟨t, ht, rfl⟩ := List.mem_map.mp hf
    obtain ⟨piece, hp, hpt⟩ := List.mem_filterMap.mp ht
    cases piece with
    | char => cases hpt
    | tag u =>
      cases hpt
      exact Tag.within_segment (h t hp)

/-- The place has this path, and it is a line of the source, with its frame. -/
structure Place.Points (p : Place) (path : Option String) (source : String) : Prop where
  path : p.path = path
  line : IsLine source p.line
  frame : Framed source p.line p.frame

theorem Place.points_of (path : Option String) {line : Nat} (h : IsLine source line) :
    (Place.of path source line).Points path source :=
  ⟨rfl, h, framed_sourceFrame h.1 h.2⟩

namespace TemplateError

/-- What is wrong, apart from the place. -/
def reason : TemplateError → String
  | unterminatedTag _ closer => "未闭合的标签，缺少 '" ++ closer ++ "'"
  | badCode _ fault => fault.message
  | failed _ cause => cause.message
  | endless _ => "循环没有结束"
  | e => e.message

/-- An error with a place says where it is, shows the frame, and goes on with the reason. -/
theorem message_eq {e : TemplateError} (h : e.place? = some p) :
    e.message = p.path.getD "ejs" ++ ":" ++ toString p.line ++ "\n" ++ p.frame ++ "\n\n" ++
      e.reason := by
  cases e <;> cases h <;> rfl

end TemplateError

namespace Template

variable {stamp : Nat} {source : String} {o : Options} {env : Environment} {t : Template}
  {e : TemplateError} {p : Place}

theorem parse_within {segments : List Segment} (h : parse source o = .ok segments) :
    ∀ segment ∈ segments, segment.Within (sourceLimits source) := by
  unfold parse at h
  split at h
  · cases h
  · rename_i d _
    have hl := Piece.onLines_source d source
    have h := mapError_eq_ok h
    unfold Segment.scan at h
    obtain ⟨pieces, hp, rfl⟩ := map_eq_ok h
    rw [hp] at hl
    exact Segment.within_gather hl o.eatspace

theorem parse_points (h : parse source o = .error e) (hp : e.place? = some p) :
    p.Points o.filename source := by
  unfold parse at h
  split at h
  · cases h
    cases hp
  · rename_i d _
    obtain ⟨line, hs, rfl⟩ := mapError_eq_error h
    cases hp
    refine Place.points_of _ ?_
    have hl := Piece.onLines_source d source
    unfold Segment.scan at hs
    cases hr : Piece.ofSource d 1 source.toList with
    | ok pieces =>
      rw [hr] at hs
      cases hs
    | error n =>
      rw [hr] at hs hl
      cases hs
      exact hl

/-- If a source is refused, the place that is named is a line of it. -/
theorem compile_points (h : compile stamp source o env = .error e) (hp : e.place? = some p) :
    p.Points o.filename source := by
  rcases refused_of_compile h with hs | ⟨segments, fault, hs, hb, rfl⟩
  · exact parse_points hs hp
  · cases hp
    have hw := ends_build (parse_within hs) (isLine_one source)
    rw [hb] at hw
    exact Place.points_of _ hw

/-- If a template stops, the place that is named is a line of its source. -/
theorem renderWith_points (hc : compile stamp source o env = .ok t)
    (h : t.renderWith values locals self = .error e) (hp : e.place? = some p) :
    p.Points o.filename source := by
  obtain ⟨segments, program, hs, _, rfl⟩ := eq_of_compile hc
  have hw := renderWith_within hc (parse_within hs) (isLine_one source) values locals self
  rw [h] at hw
  obtain ⟨line, hl, hpl⟩ := hw
  rw [hpl] at hp
  cases hp
  exact Place.points_of _ hl

end Template

end Stencil

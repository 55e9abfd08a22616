import Mathlib.Data.List.Chain
import Stencil.Proofs.Segment.Pieces
import Stencil.Template

/-!
Segments written back as a source, and what a scan makes of it. The main statement is
`parse_source`: scanning undoes writing.
-/

namespace Stencil

open Stencil.Text (isBlank EndsFirst)

set_option autoImplicit true

namespace Segment

/-- A segment as it stands in a source. -/
def written (d : Delimiters) : Segment → List Char
  | literal text => text.toList
  | emit code escape _ => d.opener ++ (if escape then '=' else '-') :: (code.toList ++ d.closer)
  | statement code _ => d.opener ++ (code.toList ++ d.closer)

def source (d : Delimiters) (segments : List Segment) : List Char :=
  segments.flatMap (written d)

/-- The line breaks that the text or the code of a segment holds. -/
def breaks : Segment → Nat
  | literal text => newlines text.toList
  | emit code _ _ => newlines code.toList
  | statement code _ => newlines code.toList

def atLine (line : Nat) : Segment → Segment
  | literal text => literal text
  | emit code escape _ => emit code escape line
  | statement code _ => statement code line

/-- The segments with every tag at the line on which it stands, if the first one begins on
`line`. -/
def numbered (line : Nat) : List Segment → List Segment
  | [] => []
  | segment :: rest => segment.atLine line :: numbered (line + segment.breaks) rest

/-- A code that its tag gives back: the tag does not end before it, and its last character is not
taken for a mark. -/
structure Kept (d : Delimiters) (code : List Char) : Prop where
  ends : EndsFirst d.closer code
  unmarked : code.getLast? ≠ some '-'

/-- A segment that is read as it is written. -/
def Legible (d : Delimiters) : Segment → Prop
  | literal text => '\r' ∉ text.toList
  | emit code _ _ =>
    Kept d code.toList ∧ (code.toList.dropWhile isBlank).head? ≠ some ':'
  | statement code _ =>
    Kept d code.toList ∧ (code.toList ++ d.closer).head? ≠ some '=' ∧
      (code.toList ++ d.closer).head? ≠ some '-'

/-- No opening delimiter starts inside a literal of the source. -/
def OpenedByTags (d : Delimiters) : List Segment → Prop
  | [] => True
  | literal text :: rest =>
    (∀ i < text.toList.length, ¬d.opener <+: (text.toList ++ source d rest).drop i) ∧
      OpenedByTags d rest
  | _ :: rest => OpenedByTags d rest

/-- Segments that a scan gives back from their source. -/
structure Scannable (d : Delimiters) (segments : List Segment) : Prop where
  filled : literal "" ∉ segments
  apart : segments.IsChain fun a b => ¬(a.isLiteral ∧ b.isLiteral)
  legible : ∀ segment ∈ segments, segment.Legible d
  opened : OpenedByTags d segments

instance (d : Delimiters) (code : List Char) : Decidable (Kept d code) :=
  decidable_of_iff (EndsFirst d.closer code ∧ code.getLast? ≠ some '-')
    ⟨fun h => ⟨h.1, h.2⟩, fun h => ⟨h.ends, h.unmarked⟩⟩

instance (d : Delimiters) : (segment : Segment) → Decidable (segment.Legible d)
  | literal _ => inferInstanceAs (Decidable ¬_)
  | emit _ _ _ => inferInstanceAs (Decidable (_ ∧ _))
  | statement _ _ => inferInstanceAs (Decidable (_ ∧ _ ∧ _))

instance decidableOpenedByTags (d : Delimiters) :
    (segments : List Segment) → Decidable (OpenedByTags d segments)
  | [] => isTrue trivial
  | literal _ :: rest =>
    have := decidableOpenedByTags d rest
    inferInstanceAs (Decidable (_ ∧ OpenedByTags d rest))
  | emit _ _ _ :: rest => decidableOpenedByTags d rest
  | statement _ _ :: rest => decidableOpenedByTags d rest

theorem OpenedByTags.tail {segment : Segment} (h : OpenedByTags d (segment :: rest)) :
    OpenedByTags d rest := by
  cases segment with
  | literal => exact h.2
  | emit => exact h
  | statement => exact h

@[simp] theorem source_cons (d : Delimiters) (segment : Segment) (rest : List Segment) :
    source d (segment :: rest) = segment.written d ++ source d rest := List.flatMap_cons

/-- The pieces that a scan of a segment gives. -/
def pieces (line : Nat) : Segment → List Piece
  | literal text => text.toList.map .char
  | emit code escape _ => [.tag ⟨if escape then .escaped else .raw, code.toList, line⟩]
  | statement code _ => [.tag ⟨.code, code.toList, line⟩]

def allPieces (line : Nat) : List Segment → List Piece
  | [] => []
  | segment :: rest => segment.pieces line ++ allPieces (line + segment.breaks) rest

theorem Kept.trimsNewline (h : Kept d code) : Tag.trimsNewline code = false := by
  simpa only [Tag.trimsNewline, beq_eq_false_iff_ne] using h.unmarked

theorem Kept.withoutMark (h : Kept d code) : Tag.withoutMark code = code := by
  rw [Tag.withoutMark, h.trimsNewline]
  rfl

/-- A tag whose code is kept is read as one piece. -/
theorem Kept.ofSource (h : Kept d code)
    (hm : Tag.marked inside = (kind, code ++ d.closer ++ rest)) :
    Piece.ofSource d line (d.opener ++ inside) =
      (Piece.ofSource d (line + newlines code) rest).map (.tag ⟨kind, code, line⟩ :: ·) := by
  have hc : Text.cut? d.closer (Tag.marked inside).2 = some (code, rest) := by
    rw [hm]
    exact h.ends.cut? rest
  rw [Piece.ofSource_tag hc, h.trimsNewline, h.withoutMark, hm]
  rfl

theorem marked_of_head (h₁ : s.head? ≠ some '=') (h₂ : s.head? ≠ some '-') :
    Tag.marked s = (.code, s) := by
  unfold Tag.marked
  split
  · exact absurd rfl h₁
  · exact absurd rfl h₂
  · rfl

theorem head?_append_closer (d : Delimiters) (code rest : List Char) :
    (code ++ d.closer ++ rest).head? = (code ++ d.closer).head? := by
  have hne : code ++ d.closer ≠ [] := by
    intro he
    exact d.closer_ne_nil (List.append_eq_nil_iff.mp he).2
  cases hs : code ++ d.closer with
  | nil => exact absurd hs hne
  | cons c s => rfl

theorem ofSource_text (line : Nat) (ho : ∀ i < text.length, ¬d.opener <+: (text ++ rest).drop i) :
    Piece.ofSource d line (text ++ rest) =
      (Piece.ofSource d (line + newlines text) rest).map (text.map .char ++ ·) := by
  induction text generalizing line with
  | nil =>
    cases hr : Piece.ofSource d line rest <;>
      simp only [List.nil_append, newlines, List.count_nil, Nat.add_zero, hr, List.map_nil,
        Except.map]
  | cons c text ih =>
    have hc : ¬d.opener <+: c :: (text ++ rest) := ho 0 (Nat.succ_pos _)
    have ht := ih (if c = '\n' then line + 1 else line)
      fun i hi => ho (i + 1) (Nat.succ_lt_succ hi)
    have hline : (if c = '\n' then line + 1 else line) + newlines text =
        line + newlines (c :: text) := by
      simp only [newlines, List.count_cons, beq_iff_eq]
      split <;> omega
    rw [List.cons_append, Piece.ofSource_char hc, ht, hline]
    cases Piece.ofSource d (line + newlines (c :: text)) rest <;> rfl

/-- The source of legible segments falls into their pieces. -/
theorem ofSource_source (line : Nat) (hl : ∀ segment ∈ segments, segment.Legible d)
    (ho : OpenedByTags d segments) :
    Piece.ofSource d line (source d segments) = .ok (allPieces line segments) := by
  induction segments generalizing line with
  | nil => exact Piece.ofSource_nil d line
  | cons segment rest ih =>
    have hs := hl segment List.mem_cons_self
    have hr := fun line => ih line
      (fun s hs => hl s (List.mem_cons_of_mem segment hs)) ho.tail
    rw [source_cons]
    cases segment with
    | literal text =>
      rw [written, ofSource_text line ho.1, hr]
      rfl
    | emit code escape line' =>
      have hm : Tag.marked ((if escape then '=' else '-') :: (code.toList ++ d.closer) ++
          source d rest) =
          (if escape then .escaped else .raw, code.toList ++ d.closer ++ source d rest) := by
        cases escape <;> rfl
      rw [written, List.append_assoc, hs.1.ofSource hm, hr]
      rfl
    | statement code line' =>
      obtain ⟨hk, he, hd⟩ := hs
      rw [← head?_append_closer d code.toList (source d rest)] at he hd
      rw [written, List.append_assoc, hk.ofSource (marked_of_head he hd), hr]
      rfl

theorem step_plain (w : Spacing) (h : c ≠ '\r') : (Spacing.step false w c).1 = some c := by
  unfold Spacing.step
  simp only [if_neg h, Bool.false_and, Bool.not_false, if_true, Bool.false_eq_true, if_false]
  split
  · rename_i he
    rw [he]
  · split
    · rename_i he
      rw [he]
    · split
      · rename_i he
        rw [he]
      · rfl

/-- Where white space is kept, only carriage returns change. -/
theorem kept_plain (w : Spacing) (ps : List Piece) (h : ∀ c, .char c ∈ ps → c ≠ '\r') :
    Spacing.kept false w ps = ps := by
  induction ps generalizing w with
  | nil => rfl
  | cons piece rest ih =>
    have hr : ∀ c, .char c ∈ rest → c ≠ '\r' := fun c hc => h c (List.mem_cons_of_mem piece hc)
    cases piece with
    | tag t => rw [Spacing.kept, ih w hr]
    | char c =>
      have hc := step_plain w (h c List.mem_cons_self)
      rw [Spacing.kept]
      split
      · rename_i c' w' hs
        rw [hs] at hc
        cases hc
        rw [ih w' hr]
      · rename_i w' hs
        rw [hs] at hc
        cases hc

theorem ne_of_mem_allPieces (hl : ∀ segment ∈ segments, segment.Legible d)
    (h : .char c ∈ allPieces line segments) : c ≠ '\r' := by
  induction segments generalizing line with
  | nil => cases h
  | cons segment rest ih =>
    rcases List.mem_append.mp h with h | h
    · have hs := hl segment List.mem_cons_self
      cases segment with
      | literal text =>
        obtain ⟨c', hc, he⟩ := List.mem_map.mp h
        cases he
        rintro rfl
        exact hs hc
      | emit => cases List.mem_singleton.mp h
      | statement => cases List.mem_singleton.mp h
    · exact ih (fun s hs => hl s (List.mem_cons_of_mem segment hs)) h

theorem gather_text (pending text : List Char) (rest : List Piece) :
    gather pending (text.map .char ++ rest) = gather (text.reverse ++ pending) rest := by
  induction text generalizing pending with
  | nil => rfl
  | cons c text ih =>
    rw [List.map_cons, List.cons_append, gather, ih, List.reverse_cons, List.append_assoc]
    rfl

theorem flush_text (text : String) (h : text ≠ "") (rest : List Segment) :
    flush (text.toList.reverse ++ []) rest = literal text :: rest := by
  have hne : text.toList ≠ [] := by
    intro he
    exact h (String.toList_eq_nil_iff.mp he)
  rw [flush, List.append_nil, List.reverse_reverse, String.ofList_toList]
  simp only [List.isEmpty_reverse, List.isEmpty_iff, hne, if_false]

theorem segment_tag (hc : (code.toList.dropWhile isBlank).head? ≠ some ':') :
    Tag.segment ⟨if escape then .escaped else .raw, code.toList, line⟩ = emit code escape line := by
  cases escape <;>
  · simp only [Tag.segment, Bool.false_eq_true, if_false, if_true]
    split
    · rename_i hd
      rw [hd] at hc
      exact absurd rfl hc
    · rw [String.ofList_toList]

/-- Characters between tags are gathered into the literals that they come from. -/
theorem gather_allPieces (line : Nat) (hf : literal "" ∉ segments)
    (ha : segments.IsChain fun a b => ¬(a.isLiteral ∧ b.isLiteral))
    (hl : ∀ segment ∈ segments, segment.Legible d) :
    gather [] (allPieces line segments) = numbered line segments := by
  induction segments generalizing line with
  | nil => rfl
  | cons segment rest ih =>
    have hr := fun line => ih line (fun h => hf (List.mem_cons_of_mem segment h))
      ha.tail (fun s hs => hl s (List.mem_cons_of_mem segment hs))
    have hs := hl segment List.mem_cons_self
    rw [allPieces, numbered, ← hr]
    cases segment with
    | emit code escape line' =>
      rw [pieces, List.singleton_append, gather, segment_tag hs.2]
      rfl
    | statement code line' =>
      rw [pieces, List.singleton_append, gather, Tag.segment]
      simp only [String.ofList_toList]
      rfl
    | literal text =>
      have ht : text ≠ "" := by
        intro he
        exact hf (by rw [← he]; exact List.mem_cons_self)
      rw [pieces, gather_text]
      cases rest with
      | nil => exact flush_text text ht []
      | cons next rest =>
        cases next with
        | literal t => exact absurd ⟨rfl, rfl⟩ (List.isChain_cons_cons.mp ha).1
        | emit => exact flush_text text ht _
        | statement => exact flush_text text ht _

/-- Scanning undoes writing: where white space is kept, the source of scannable segments is read as
these segments, each tag at its line. -/
theorem parse_source (hd : Delimiters.ofStrings? o.opener o.closer = some d)
    (he : o.eatspace = false) (h : Scannable d segments) :
    Template.parse (String.ofList (source d segments)) o = .ok (numbered 1 segments) := by
  have hp := ofSource_source 1 h.legible h.opened
  have hk := kept_plain ⟨false, false⟩ (allPieces 1 segments) fun c hc =>
    ne_of_mem_allPieces h.legible hc
  have hg := gather_allPieces 1 h.filled h.apart h.legible
  simp only [Template.parse, hd, scan, he, String.toList_ofList, hp, Except.map, hk, hg,
    Except.mapError]

/-- Arrows as delimiters; both share their minus with the marks of tags. -/
def arrows : Delimiters :=
  ⟨['<', '-'], ['-', '>'], by decide, by decide, by decide⟩

def arrowSegments : List Segment :=
  [.literal "a<\n", .emit " x- >" true 1, .statement "y\n<-=" 1, .literal "-> b\n-<",
    .emit "z" false 1]

def arrowOptions : Options :=
  { Options.initial with opener := "<-", closer := "->", eatspace := false }

theorem parse_source_arrows :
    Scannable arrows arrowSegments ∧
      Template.parse "a<\n<-= x- >-><-y\n<-=->-> b\n-<<--z->" arrowOptions =
        .ok [.literal "a<\n", .emit " x- >" true 2, .statement "y\n<-=" 2, .literal "-> b\n-<",
          .emit "z" false 4] := by
  have h : Scannable arrows arrowSegments := ⟨by decide, by decide, by decide, by decide⟩
  have hp := parse_source (o := arrowOptions) (d := arrows) rfl rfl h
  exact ⟨h, hp⟩

end Segment

end Stencil

import Stencil.Proofs.Segment.Texts

/-!
Eating space is one pass over the text between the tags. `collapse` says what is left of a text,
looking back at what has been read and at what has been kept of it. The main statement is
`literals_of_parse`: the literals of a template put together are what is left of the texts outside its
tags put together, as if the tags were not there.
-/

namespace Stencil

open Stencil.Text (EndsFirst)

set_option autoImplicit true

namespace Spacing

/-- Tabs, carriage returns and line breaks, which are not looked back at. -/
def isBreak (c : Char) : Bool := c == '\r' || c == '\t' || c == '\n'

/-- What is left of a character when `seen` has been read and `left` has been kept of it. -/
def leftOf (seen left : List Char) (c : Char) : List Char :=
  if c = '\r' ∨ c = '\t' then []
  else if c = '\n' then if (seen.filter (!isBreak ·)).getLast? = some '>' then [] else [' ']
  else if c = ' ' then if left.getLast? = some ' ' then [] else [' ']
  else [c]

/-- What has been kept in the end, if the text goes on. -/
def collapseFrom (seen left : List Char) : List Char → List Char
  | [] => left
  | c :: text => collapseFrom (seen ++ [c]) (left ++ leftOf seen left c) text

/-- What is left of a text where space is eaten. -/
def collapse (text : List Char) : List Char := collapseFrom [] [] text

example : collapse "<p>\r\n\t b  \n<i>".toList = "<p> b  <i>".toList := by decide

/-- What the white-space rule remembers of what has been read and kept. -/
structure Recalls (w : Spacing) (seen left : List Char) : Prop where
  blank : w.blank = true ↔ left.getLast? = some ' '
  angle : w.angle = true ↔ (seen.filter (!isBreak ·)).getLast? = some '>'

theorem recalls_nothing : Recalls ⟨false, false⟩ [] [] := ⟨by decide, by decide⟩

theorem filter_concat_of_isBreak (h : isBreak c = true) (seen : List Char) :
    (seen ++ [c]).filter (!isBreak ·) = seen.filter (!isBreak ·) := by
  rw [List.filter_append, List.filter_singleton, h]
  exact List.append_nil _

theorem getLast?_filter_concat (h : isBreak c = false) (seen : List Char) :
    ((seen ++ [c]).filter (!isBreak ·)).getLast? = some c := by
  rw [List.filter_append, List.filter_singleton, h]
  exact List.getLast?_concat

theorem Recalls.skip (h : Recalls w seen left) (hc : isBreak c = true) :
    Recalls w (seen ++ [c]) left :=
  ⟨h.blank, by rw [filter_concat_of_isBreak hc]; exact h.angle⟩

/-- The rule keeps what is left of a character, and goes on remembering. -/
theorem Recalls.step (h : Recalls w seen left) (c : Char) :
    (step true w c).1.toList = leftOf seen left c ∧
      Recalls (step true w c).2 (seen ++ [c]) (left ++ leftOf seen left c) := by
  obtain ⟨blank, angle⟩ := w
  by_cases hr : c = '\r'
  · subst hr
    exact ⟨rfl, by rw [leftOf, if_pos (.inl rfl), List.append_nil]; exact h.skip rfl⟩
  by_cases ht : c = '\t'
  · subst ht
    exact ⟨rfl, by rw [leftOf, if_pos (.inr rfl), List.append_nil]; exact h.skip rfl⟩
  by_cases hn : c = '\n'
  · subst hn
    cases angle with
    | true =>
      have hleft : leftOf seen left '\n' = [] := if_pos (h.angle.mp rfl)
      rw [hleft, List.append_nil]
      exact ⟨rfl, h.skip rfl⟩
    | false =>
      have hleft : leftOf seen left '\n' = [' '] := if_neg (Bool.false_ne_true ∘ h.angle.mpr)
      rw [hleft]
      exact ⟨rfl, iff_of_true rfl List.getLast?_concat, (h.skip rfl).angle⟩
  by_cases hs : c = ' '
  · subst hs
    have hangle : false = true ↔ ((seen ++ [' ']).filter (!isBreak ·)).getLast? = some '>' := by
      rw [getLast?_filter_concat rfl]
      decide
    cases blank with
    | true =>
      have hleft : leftOf seen left ' ' = [] := if_pos (h.blank.mp rfl)
      rw [hleft, List.append_nil]
      exact ⟨rfl, h.blank, hangle⟩
    | false =>
      have hleft : leftOf seen left ' ' = [' '] := if_neg (Bool.false_ne_true ∘ h.blank.mpr)
      rw [hleft]
      exact ⟨rfl, iff_of_true rfl List.getLast?_concat, hangle⟩
  · have hbreak : isBreak c = false := by
      simp only [isBreak, Bool.or_eq_false_iff, beq_eq_false_iff_ne]
      exact ⟨⟨hr, ht⟩, hn⟩
    have hstep : Spacing.step true ⟨blank, angle⟩ c = (some c, ⟨false, c == '>'⟩) := by
      simp only [Spacing.step, hr, ht, hn, hs, if_false]
    have hleft : leftOf seen left c = [c] := by
      simp only [leftOf, hr, ht, hn, hs, or_self, if_false]
    rw [hstep, hleft]
    refine ⟨rfl, iff_of_false Bool.false_ne_true ?_, ?_⟩
    · rw [List.getLast?_concat]
      exact fun he => hs (Option.some.inj he)
    · rw [getLast?_filter_concat hbreak, beq_iff_eq, Option.some.injEq]

end Spacing

namespace Piece

def char? : Piece → Option Char
  | char c => some c
  | tag _ => none

theorem texts_ne_nil (pieces : List Piece) : texts pieces ≠ [] := by
  induction pieces with
  | nil => exact List.cons_ne_nil _ _
  | cons piece pieces ih =>
    cases piece with
    | char c => exact mt List.modifyHead_eq_nil_iff.mp ih
    | tag t => exact List.cons_ne_nil _ _

theorem flatten_texts (pieces : List Piece) : (texts pieces).flatten = pieces.filterMap char? := by
  induction pieces with
  | nil => rfl
  | cons piece pieces ih =>
    cases piece with
    | char c =>
      obtain ⟨text, rest, ht⟩ := List.exists_cons_of_ne_nil (texts_ne_nil pieces)
      rw [ht] at ih
      rw [texts, ht]
      exact congrArg (c :: ·) ih
    | tag t => exact ih

/-- A tag between two characters has no part in what is left of the second one. -/
theorem chars_kept (h : w.Recalls seen left) (pieces : List Piece) :
    left ++ (Spacing.kept true w pieces).filterMap char? =
      Spacing.collapseFrom seen left (pieces.filterMap char?) := by
  induction pieces generalizing w seen left with
  | nil => exact List.append_nil left
  | cons piece pieces ih =>
    cases piece with
    | tag t => exact ih h
    | char c =>
      obtain ⟨hleft, hw⟩ := h.step c
      rw [List.filterMap_cons_some (f := char?) (b := c) rfl, Spacing.collapseFrom, ← ih hw, ← hleft,
        Spacing.kept]
      cases Spacing.step true w c with
      | mk c' w' =>
        cases c' with
        | none => exact congrArg (· ++ _) (List.append_nil left).symm
        | some c' => exact (List.append_assoc left [c'] _).symm

end Piece

/-- The texts of a source in front of its first tag, between two tags, and behind the last one. A line
break that a tag takes with it belongs to the tag. -/
inductive Stretches (d : Delimiters) : List Char → List (List Char) → Prop where
  | ending : Stretches d [] [[]]
  | char : ¬d.opener <+: c :: s → Stretches d s texts →
      Stretches d (c :: s) (texts.modifyHead (c :: ·))
  | tag : Tag.Opens kind inside (written ++ d.closer ++ (br ++ rest)) →
      EndsFirst d.closer written → Tag.Trims written br rest → Stretches d rest texts →
      Stretches d (d.opener ++ inside) ([] :: texts)

theorem stretches_of_ofSource (h : Piece.ofSource d line s = .ok pieces) :
    Stretches d s (Piece.texts pieces) := by
  refine Piece.ofSource_induction (motive := fun _ s pieces => Stretches d s (Piece.texts pieces))
    ?ending ?char ?tag h
  case ending => exact fun _ => .ending
  case char => exact fun _ _ _ _ ho ih => .char ho ih
  case tag => exact fun _ _ _ _ _ _ _ hm he ht ih => .tag hm he ht ih

theorem Stretches.ofSource (h : Stretches d s texts) (line : Nat) :
    ∃ pieces, Piece.ofSource d line s = .ok pieces ∧ Piece.texts pieces = texts := by
  induction h generalizing line with
  | ending => exact ⟨[], Piece.ofSource_nil d line, rfl⟩
  | @char c s texts ho _ ih =>
    obtain ⟨pieces, hp, rfl⟩ := ih (if c = '\n' then line + 1 else line)
    refine ⟨.char c :: pieces, ?_, rfl⟩
    rw [Piece.ofSource_char ho, hp]
    rfl
  | @tag kind inside written br rest texts hm he ht _ ih =>
    obtain ⟨pieces, hp, rfl⟩ := ih (line + newlines written + newlines br)
    refine ⟨.tag ⟨kind, Tag.withoutMark written, line⟩ :: pieces, ?_, rfl⟩
    rw [Piece.ofSource_of_trims hm he ht, hp]
    rfl

namespace Segment

def text? : Segment → Option String
  | literal text => some text
  | _ => none

/-- All literals put together. -/
def literals (segments : List Segment) : String := String.join (segments.filterMap text?)

theorem literals_flush (pending : List Char) (rest : List Segment) :
    literals (flush pending rest) = String.ofList pending.reverse ++ literals rest := by
  cases pending with
  | nil => exact String.empty_append.symm
  | cons c pending => exact String.join_cons

theorem literals_segment (t : Tag) (rest : List Segment) :
    literals (t.segment :: rest) = literals rest := by
  obtain ⟨kind, body, line⟩ := t
  cases kind <;> rfl

theorem literals_gather (pending : List Char) (pieces : List Piece) :
    literals (gather pending pieces) =
      String.ofList (pending.reverse ++ pieces.filterMap Piece.char?) := by
  induction pieces generalizing pending with
  | nil =>
    rw [gather, literals_flush, List.filterMap_nil, List.append_nil]
    exact String.append_empty
  | cons piece pieces ih =>
    cases piece with
    | char c =>
      rw [gather, ih, List.reverse_cons, List.append_assoc]
      rfl
    | tag t =>
      rw [gather, literals_flush, literals_segment, ih, ← String.ofList_append]
      rfl

/-- All texts outside the tags make one text, of which the literals are what is left. -/
theorem literals_of_ofSource {pieces : List Piece} (h : Piece.ofSource d line s = .ok pieces)
    (hs : Stretches d s xs) :
    literals (gather [] (Spacing.kept true ⟨false, false⟩ pieces)) =
      String.ofList (Spacing.collapse xs.flatten) := by
  obtain ⟨pieces', hp, rfl⟩ := hs.ofSource line
  obtain rfl := Except.ok.inj (h.symm.trans hp)
  have hkept := Piece.chars_kept Spacing.recalls_nothing pieces
  rw [literals_gather, Piece.flatten_texts]
  exact congrArg String.ofList hkept

end Segment

/-- Where space is eaten, the literals of a template put together are what is left of the texts
outside its tags put together. So any other source with the same text outside its tags has the same
literals, whatever its tags are and wherever they stand. -/
theorem literals_of_parse {o : Options}
    (h : Template.parse source { o with eatspace := true } = .ok segments) :
    ∃ d texts, Delimiters.ofStrings? o.opener o.closer = some d ∧
      (∀ texts', Stretches d source.toList texts' ↔ texts' = texts) ∧
      Segment.literals segments = String.ofList (Spacing.collapse texts.flatten) ∧
      ∀ (o' : Options) (source' : String) (segments' : List Segment) (d' : Delimiters)
        (texts' : List (List Char)),
        Template.parse source' { o' with eatspace := true } = .ok segments' →
        Delimiters.ofStrings? o'.opener o'.closer = some d' → Stretches d' source'.toList texts' →
        texts'.flatten = texts.flatten → Segment.literals segments' = Segment.literals segments := by
  obtain ⟨d, pieces, hd, hp, rfl⟩ := exists_pieces_of_parse h
  have hs := stretches_of_ofSource hp
  have hl := Segment.literals_of_ofSource hp hs
  refine ⟨d, Piece.texts pieces, hd, ?_, hl, ?_⟩
  · intro texts'
    constructor
    · intro hs'
      obtain ⟨pieces', hp', rfl⟩ := hs'.ofSource 1
      rw [Except.ok.inj (hp'.symm.trans hp)]
    · rintro rfl
      exact hs
  · intro o' source' segments' d' texts' h' hd' hs' ht
    obtain ⟨d₁, pieces', hd₁, hp', rfl⟩ := exists_pieces_of_parse h'
    obtain rfl := Option.some.inj (hd'.symm.trans hd₁)
    exact (Segment.literals_of_ofSource hp' hs').trans ((congrArg _ (congrArg _ ht)).trans hl.symm)

/-- A space and a line break behind a tag are looked at as if they stood right behind the text before
it. -/
theorem literals_of_parse_tags :
    Template.parse "<p>\r\n\t<%= x -%>\n b <% y %> \n<i>" Options.initial =
      .ok [.literal "<p>", .emit " x " true 2, .literal " b ", .statement " y " 3,
        .literal " <i>"] ∧
    ∃ d texts, Delimiters.ofStrings? "<%" "%>" = some d ∧
      Stretches d "<p>\r\n\t<%= x -%>\n b <% y %> \n<i>".toList texts ∧
      "<p> b  <i>" = String.ofList (Spacing.collapse texts.flatten) := by
  have hp : Template.parse "<p>\r\n\t<%= x -%>\n b <% y %> \n<i>" Options.initial =
      .ok [.literal "<p>", .emit " x " true 2, .literal " b ", .statement " y " 3,
        .literal " <i>"] := by
    cbv
  obtain ⟨d, texts, hd, hs, hl, _⟩ := literals_of_parse (o := Options.initial) hp
  exact ⟨hp, d, texts, hd, (hs texts).mpr rfl, hl⟩

end Stencil

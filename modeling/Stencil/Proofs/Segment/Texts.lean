import Stencil.Proofs.Segment.Spacing

/-!
The texts of a template between its tags. `ofSource_induction` goes through a source that is read to
its end, character by character and tag by tag. The main statement is `parse_alike`: the treatment of
white space has no part in whether a source can be read, nor in its tags, nor in what its texts are
without their white space.
-/

namespace Stencil

open Stencil.Text (EndsFirst after? cut?)

set_option autoImplicit true

namespace Piece

/-- What holds of every source that can be read holds of the empty one, and is passed on by a
character in front of which no tag opens, and by a tag with the line break that it takes with it. -/
theorem ofSource_induction {motive : Nat → List Char → List Piece → Prop}
    (ending : ∀ line, motive line [] [])
    (char : ∀ line c s pieces, ¬d.opener <+: c :: s →
      motive (if c = '\n' then line + 1 else line) s pieces →
      motive line (c :: s) (.char c :: pieces))
    (tag : ∀ line kind inside written br rest pieces,
      Tag.Opens kind inside (written ++ d.closer ++ (br ++ rest)) → EndsFirst d.closer written →
      Tag.Trims written br rest → motive (line + newlines written + newlines br) rest pieces →
      motive line (d.opener ++ inside) (.tag ⟨kind, Tag.withoutMark written, line⟩ :: pieces))
    (h : ofSource d line s = .ok pieces) : motive line s pieces := by
  by_cases ho : d.opener <+: s
  · obtain ⟨inside, rfl⟩ := ho
    have hm := Tag.opens_marked inside
    cases hc : cut? d.closer (Tag.marked inside).2 with
    | none =>
      rw [ofSource_unclosed hc] at h
      cases h
    | some parts =>
      obtain ⟨written, after⟩ := parts
      obtain ⟨br, rest, rfl, ht⟩ := Tag.exists_trims written after
      have hlt : rest.length < (d.opener ++ inside).length := by
        have := d.length_opener_pos
        have := Tag.length_marked inside
        have := Text.length_of_cut? hc
        simp only [List.length_append] at *
        omega
      rw [Text.eq_of_cut? hc] at hm
      have he := Text.endsFirst_of_cut? hc
      rw [ofSource_of_trims hm he ht] at h
      cases hr : ofSource d (line + newlines written + newlines br) rest with
      | error l =>
        rw [hr] at h
        cases h
      | ok pieces' =>
        rw [hr] at h
        cases h
        exact tag _ _ _ _ _ _ _ hm he ht (ofSource_induction ending char tag hr)
  · cases s with
    | nil =>
      rw [ofSource_nil] at h
      cases h
      exact ending line
    | cons c s =>
      rw [ofSource_char ho] at h
      cases hr : ofSource d (if c = '\n' then line + 1 else line) s with
      | error l =>
        rw [hr] at h
        cases h
      | ok pieces' =>
        rw [hr] at h
        cases h
        exact char _ _ _ _ ho (ofSource_induction ending char tag hr)
termination_by s.length

/-- The texts in front of the first tag, between two tags, and behind the last tag. -/
def texts : List Piece → List (List Char)
  | [] => [[]]
  | .char c :: rest => (texts rest).modifyHead (c :: ·)
  | .tag _ :: rest => [] :: texts rest

theorem map_modifyHead {f : α → α} {f' : β → β} {g : α → β} (h : ∀ a, g (f a) = f' (g a))
    (l : List α) : (l.modifyHead f).map g = (l.map g).modifyHead f' := by
  cases l with
  | nil => rfl
  | cons a l => exact congrArg (· :: l.map g) (h a)

/-- Nothing but white space changes in the texts. -/
theorem texts_kept (eatspace : Bool) (w : Spacing) (pieces : List Piece) :
    (texts (Spacing.kept eatspace w pieces)).map (List.filter (!Spacing.isSpace ·)) =
      (texts pieces).map (List.filter (!Spacing.isSpace ·)) := by
  induction pieces generalizing w with
  | nil => rfl
  | cons piece pieces ih =>
    cases piece with
    | tag t => exact congrArg ([] :: ·) (ih w)
    | char c =>
      have hcons (c : Char) (l : List (List Char)) :
          (l.modifyHead (c :: ·)).map (List.filter (!Spacing.isSpace ·)) =
            (l.map (List.filter (!Spacing.isSpace ·))).modifyHead
              ([c].filter (!Spacing.isSpace ·) ++ ·) :=
        map_modifyHead (fun text => List.filter_append [c] text) l
      have hstep := Spacing.filter_step eatspace w c
      rw [Spacing.kept, texts, hcons, ← hstep]
      cases hs : Spacing.step eatspace w c with
      | mk left w' =>
        cases left with
        | none =>
          rw [← ih w']
          cases texts (Spacing.kept eatspace w' pieces) <;> rfl
        | some c' =>
          rw [texts, hcons, ih w']
          rfl

end Piece

namespace Segment

/-- The texts in front of the first tag, between two tags, and behind the last tag. -/
def texts : List Segment → List String
  | [] => [""]
  | .literal t :: rest => (texts rest).modifyHead (t ++ ·)
  | _ :: rest => "" :: texts rest

theorem texts_segment (t : Tag) (rest : List Segment) :
    texts (t.segment :: rest) = "" :: texts rest := by
  obtain ⟨kind, body, line⟩ := t
  cases kind <;> rfl

theorem modifyHead_empty (texts : List String) :
    texts.modifyHead (String.ofList [].reverse ++ ·) = texts := by
  cases texts with
  | nil => rfl
  | cons text texts => exact congrArg (· :: texts) String.empty_append

theorem texts_flush (pending : List Char) (rest : List Segment) :
    texts (flush pending rest) = (texts rest).modifyHead (String.ofList pending.reverse ++ ·) := by
  cases pending with
  | nil => exact (modifyHead_empty (texts rest)).symm
  | cons c pending => rfl

theorem texts_gather (pending : List Char) (pieces : List Piece) :
    texts (gather pending pieces) =
      ((Piece.texts pieces).map String.ofList).modifyHead (String.ofList pending.reverse ++ ·) := by
  induction pieces generalizing pending with
  | nil => exact texts_flush pending []
  | cons piece pieces ih =>
    cases piece with
    | tag t =>
      rw [gather, texts_flush, texts_segment, ih, modifyHead_empty]
      rfl
    | char c =>
      have hc : ∀ text : List Char, String.ofList pending.reverse ++ String.ofList (c :: text) =
          String.ofList (c :: pending).reverse ++ String.ofList text := by
        intro text
        rw [← String.ofList_append, ← String.ofList_append, List.reverse_cons, List.append_assoc]
        rfl
      rw [gather, ih, Piece.texts]
      cases Piece.texts pieces with
      | nil => rfl
      | cons text texts => exact congrArg (· :: texts.map String.ofList) (hc text).symm

/-- No literal is empty, and no two of them stand side by side. -/
structure Gathered (segments : List Segment) : Prop where
  nonempty : .literal "" ∉ segments
  apart : segments.IsChain fun a b => ¬(a.isLiteral = true ∧ b.isLiteral = true)

theorem Gathered.cons {segment : Segment} (h : Gathered rest) (hs : segment.isLiteral = false) :
    Gathered (segment :: rest) where
  nonempty := by
    rintro (_ | ⟨_, hm⟩)
    · cases hs
    · exact h.nonempty hm
  apart := by
    refine h.apart.cons fun next _ hb => ?_
    rw [hs] at hb
    cases hb.1

theorem Gathered.flush (h : Gathered rest) (hr : ∀ segment ∈ rest.head?, segment.isLiteral = false)
    (pending : List Char) : Gathered (flush pending rest) := by
  cases pending with
  | nil => exact h
  | cons c pending =>
    refine ⟨?_, h.apart.cons fun next hn hb => ?_⟩
    · intro hm
      rcases List.mem_cons.mp hm with he | hm
      · have hl := congrArg String.toList (Segment.literal.inj he).symm
        rw [String.toList_ofList, String.toList_empty, List.reverse_eq_nil_iff] at hl
        cases hl
      · exact h.nonempty hm
    · rw [hr next hn] at hb
      cases hb.2

theorem gathered_gather (pending : List Char) (pieces : List Piece) :
    Gathered (gather pending pieces) := by
  induction pieces generalizing pending with
  | nil => exact Gathered.flush ⟨List.not_mem_nil, .nil⟩ nofun pending
  | cons piece pieces ih =>
    cases piece with
    | tag t =>
      refine ((ih []).cons (isLiteral_segment t)).flush (fun segment hm => ?_) pending
      obtain rfl := Option.some.inj hm
      exact isLiteral_segment t
    | char c => exact ih (c :: pending)

/-- The texts of a template without their white space are those of its source, whatever the
treatment of white space is. -/
theorem bare_texts (eatspace : Bool) (w : Spacing) (pieces : List Piece) :
    (texts (gather [] (Spacing.kept eatspace w pieces))).map Spacing.bare =
      ((Piece.texts pieces).map (List.filter (!Spacing.isSpace ·))).map String.ofList := by
  have hbare : Spacing.bare ∘ String.ofList =
      String.ofList ∘ List.filter (!Spacing.isSpace ·) := by
    funext text
    rw [Function.comp_apply, Spacing.bare, String.toList_ofList]
    rfl
  rw [texts_gather, modifyHead_empty, List.map_map, hbare, ← List.map_map, Piece.texts_kept]

end Segment

/-- With and without eating space a source is refused with the same error, or it is read in both
ways. Then the tags are the same, and the texts in front of the first tag, between two tags and behind
the last one are the same without their white space; and literals are never empty or side by side. -/
theorem parse_alike (o : Options) (source : String) :
    (∃ e, ∀ eatspace, Template.parse source { o with eatspace := eatspace } = .error e) ∨
      ∃ kept eaten, Template.parse source { o with eatspace := false } = .ok kept ∧
        Template.parse source { o with eatspace := true } = .ok eaten ∧
        kept.filter (!·.isLiteral) = eaten.filter (!·.isLiteral) ∧
        (Segment.texts kept).map Spacing.bare = (Segment.texts eaten).map Spacing.bare ∧
        Segment.Gathered kept ∧ Segment.Gathered eaten := by
  cases hd : Delimiters.ofStrings? o.opener o.closer with
  | none =>
    refine .inl ⟨.invalidDelimiters o.opener o.closer, fun eatspace => ?_⟩
    rw [Template.parse, hd]
  | some d =>
    cases hp : Piece.ofSource d 1 source.toList with
    | error line =>
      refine .inl ⟨.unterminatedTag (.of o.filename source line) o.closer, fun eatspace => ?_⟩
      simp only [Template.parse, hd, Segment.scan, hp]
      rfl
    | ok pieces =>
      refine .inr ⟨_, _, parse_of_ofSource (o := { o with eatspace := false }) hd hp,
        parse_of_ofSource (o := { o with eatspace := true }) hd hp, ?_, ?_,
        Segment.gathered_gather _ _, Segment.gathered_gather _ _⟩
      · simp only [Segment.filter_gather, Piece.filterMap_kept]
      · simp only [Segment.bare_texts]

end Stencil

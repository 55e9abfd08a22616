import Mathlib
import Stencil.Proofs.Segment.Pieces
import Stencil.Template

/-!
Where the tags of a source stand. `Scans` reads a source from left to right with the text before
each tag in view, and counts no lines. The main statement is `parse_lines`: the segments that are
not literals are the tags that a scan meets, in order, each at the line of the source on which it
opens; and a source is refused just where a scan meets a tag without an end.
-/

namespace Stencil

open Stencil.Text (after? cut? EndsFirst)

set_option autoImplicit true

namespace Tag

/-- What stands between the opening delimiter of a tag and its code. -/
def Kind.mark : Kind → List Char
  | code => []
  | escaped => ['=']
  | raw => ['-']

/-- What follows an opening delimiter begins with the mark of a kind, and goes on with `s`. -/
def Opens (kind : Kind) (inside s : List Char) : Prop :=
  inside = kind.mark ++ s ∧ (kind = .code → s.head? ≠ some '=' ∧ s.head? ≠ some '-')

/-- The line break that a tag takes with it: one that follows a minus and the end of the tag. -/
inductive Trims (written : List Char) : List Char → List Char → Prop where
  | feed : written.getLast? = some '-' → Trims written ['\n'] rest
  | returnFeed : written.getLast? = some '-' → Trims written ['\r', '\n'] rest
  | unmarked : written.getLast? ≠ some '-' → Trims written [] rest
  | noBreak : ¬['\n'] <+: rest → ¬['\r', '\n'] <+: rest → Trims written [] rest

theorem opens_marked (inside : List Char) : Opens (marked inside).1 inside (marked inside).2 := by
  unfold marked
  split
  · exact ⟨rfl, nofun⟩
  · exact ⟨rfl, nofun⟩
  · rename_i he hr
    refine ⟨rfl, fun _ => ⟨?_, ?_⟩⟩ <;>
    · intro h
      obtain ⟨t, rfl⟩ := List.head?_eq_some_iff.mp h
      first
        | exact he t rfl
        | exact hr t rfl

theorem Opens.marked {k : Kind} (h : Opens k inside s) : Tag.marked inside = (k, s) := by
  obtain ⟨rfl, hc⟩ := h
  cases k with
  | escaped => rfl
  | raw => rfl
  | code =>
    obtain ⟨he, hr⟩ := hc rfl
    change Tag.marked s = _
    unfold Tag.marked
    split
    · exact absurd rfl he
    · exact absurd rfl hr
    · rfl

theorem exists_trims (written s : List Char) :
    ∃ br rest, s = br ++ rest ∧ Trims written br rest := by
  by_cases hw : written.getLast? = some '-'
  · by_cases hf : ['\n'] <+: s
    · obtain ⟨rest, rfl⟩ := hf
      exact ⟨['\n'], rest, rfl, .feed hw⟩
    · by_cases hr : ['\r', '\n'] <+: s
      · obtain ⟨rest, rfl⟩ := hr
        exact ⟨['\r', '\n'], rest, rfl, .returnFeed hw⟩
      · exact ⟨[], s, rfl, .noBreak hf hr⟩
  · exact ⟨[], s, rfl, .unmarked hw⟩

theorem afterNewline?_eq_none (hf : ¬['\n'] <+: s) (hr : ¬['\r', '\n'] <+: s) :
    afterNewline? s = none := by
  unfold afterNewline?
  split
  · exact absurd ⟨_, rfl⟩ hf
  · exact absurd ⟨_, rfl⟩ hr
  · rfl

theorem newlines_withoutMark (written : List Char) :
    newlines (withoutMark written) = newlines written := by
  unfold withoutMark
  split
  · rename_i h
    have hl : written.getLast? = some '-' := by simpa only [trimsNewline, beq_iff_eq] using h
    obtain ⟨body, rfl⟩ := List.getLast?_eq_some_iff.mp hl
    rw [List.dropLast_concat, newlines, newlines, List.count_append]
    rfl
  · rfl

end Tag

@[simp] theorem newlines_append (s t : List Char) : newlines (s ++ t) = newlines s + newlines t :=
  List.count_append

theorem newlines_singleton (c : Char) : newlines [c] = if c = '\n' then 1 else 0 := by
  simp only [newlines, List.count_singleton, beq_iff_eq]

/-- A tag in a source: the text before it, its kind, and what is written between its mark and its
end. -/
structure Site where
  before : List Char
  kind : Tag.Kind
  written : List Char

namespace Site

/-- The line on which the tag opens. -/
def line (site : Site) : Nat := 1 + newlines site.before

def tag (site : Site) : Tag := ⟨site.kind, Tag.withoutMark site.written, site.line⟩

end Site

/-- The scan of `s` after the text `before` meets these tags. It comes to the end, or is stuck at a
tag without an end; then the text before that tag is given. -/
inductive Scans (d : Delimiters) :
    List Char → List Char → List Site → Option (List Char) → Prop where
  | ending : Scans d before [] [] none
  | char : ¬d.opener <+: c :: s → Scans d (before ++ [c]) s sites stuck →
      Scans d before (c :: s) sites stuck
  | tag : Tag.Opens kind inside (written ++ d.closer ++ (br ++ rest)) →
      EndsFirst d.closer written → Tag.Trims written br rest →
      Scans d (before ++ d.opener ++ kind.mark ++ written ++ d.closer ++ br) rest sites stuck →
      Scans d before (d.opener ++ inside) (⟨before, kind, written⟩ :: sites) stuck
  | unclosed : Tag.Opens kind inside s → ¬d.closer <:+: s →
      Scans d before (d.opener ++ inside) [] (some before)

/-- Every source has a scan. -/
theorem exists_scans (d : Delimiters) (before s : List Char) :
    ∃ sites stuck, Scans d before s sites stuck := by
  by_cases ho : d.opener <+: s
  · obtain ⟨inside, rfl⟩ := ho
    have hm := Tag.opens_marked inside
    cases hc : cut? d.closer (Tag.marked inside).2 with
    | none => exact ⟨[], some before, .unclosed hm (Text.cut?_eq_none_iff.mp hc)⟩
    | some parts =>
      obtain ⟨written, after⟩ := parts
      obtain ⟨br, rest, rfl, ht⟩ := Tag.exists_trims written after
      have hlt : rest.length < (d.opener ++ inside).length := by
        have := d.length_opener_pos
        have := Tag.length_marked inside
        have := Text.length_of_cut? hc
        simp only [List.length_append] at *
        omega
      rw [Text.eq_of_cut? hc] at hm
      obtain ⟨sites, stuck, h⟩ := exists_scans d
        (before ++ d.opener ++ (Tag.marked inside).1.mark ++ written ++ d.closer ++ br) rest
      exact ⟨_, stuck, .tag hm (Text.endsFirst_of_cut? hc) ht h⟩
  · cases s with
    | nil => exact ⟨[], none, .ending⟩
    | cons c s =>
      obtain ⟨sites, stuck, h⟩ := exists_scans d (before ++ [c]) s
      exact ⟨sites, stuck, .char ho h⟩
termination_by s.length

/-- Every tag that a scan meets, and the one that it is stuck at, opens behind the text before
it. -/
theorem Scans.opens (h : Scans d before s sites stuck) :
    (∀ site ∈ sites, site.before ++ d.opener <+: before ++ s) ∧
      ∀ b, stuck = some b → b ++ d.opener <+: before ++ s := by
  induction h with
  | ending => exact ⟨nofun, nofun⟩
  | char _ _ ih =>
    rw [List.append_assoc] at ih
    exact ih
  | @tag kind inside written br rest before sites stuck hk _ _ _ ih =>
    obtain ⟨rfl, -⟩ := hk
    simp only [List.append_assoc] at ih ⊢
    refine ⟨?_, ih.2⟩
    intro site hs
    rcases List.mem_cons.mp hs with rfl | hs
    · exact List.prefix_append_right_inj _ |>.mpr (List.prefix_append _ _)
    · exact ih.1 site hs
  | @unclosed kind inside s before _ _ =>
    refine ⟨nofun, ?_⟩
    rintro b ⟨⟩
    rw [← List.append_assoc]
    exact List.prefix_append _ _

namespace Piece

def tag? : Piece → Option Tag
  | char _ => none
  | tag t => some t

/-- The pieces of a source, or the line of the tag that is not closed, are those that a scan
gives. -/
def Agrees (r : Except Nat (List Piece)) (sites : List Site) : Option (List Char) → Prop
  | none => ∃ pieces, r = .ok pieces ∧ pieces.filterMap tag? = sites.map Site.tag
  | some before => r = .error (1 + newlines before)

theorem Agrees.char (h : Agrees r sites stuck) (c : Char) :
    Agrees (r.map (.char c :: ·)) sites stuck := by
  cases stuck with
  | none =>
    obtain ⟨pieces, rfl, hp⟩ := h
    exact ⟨.char c :: pieces, rfl, hp⟩
  | some before =>
    rw [h]
    rfl

theorem Agrees.tag (h : Agrees r sites stuck) (site : Site) :
    Agrees (r.map (.tag site.tag :: ·)) (site :: sites) stuck := by
  cases stuck with
  | none =>
    obtain ⟨pieces, rfl, hp⟩ := h
    exact ⟨.tag site.tag :: pieces, rfl, congrArg (site.tag :: ·) hp⟩
  | some before =>
    rw [h]
    rfl

/-- A tag, and the line break that it takes with it, are read before the rest. -/
theorem ofSource_of_trims (hk : Tag.Opens kind inside (written ++ d.closer ++ (br ++ rest)))
    (he : EndsFirst d.closer written) (ht : Tag.Trims written br rest) (line : Nat) :
    ofSource d line (d.opener ++ inside) =
      (ofSource d (line + newlines written + newlines br) rest).map
        (.tag ⟨kind, Tag.withoutMark written, line⟩ :: ·) := by
  have hcut : cut? d.closer (Tag.marked inside).2 = some (written, br ++ rest) := by
    rw [hk.marked]
    exact he.cut? (br ++ rest)
  rw [ofSource_tag hcut, hk.marked, Tag.newlines_withoutMark]
  cases ht with
  | feed hw =>
    rw [Tag.trimsNewline, hw]
    rfl
  | returnFeed hw =>
    rw [Tag.trimsNewline, hw]
    rfl
  | unmarked hw =>
    have hf : Tag.trimsNewline written = false := by
      simpa only [Tag.trimsNewline, beq_eq_false_iff_ne] using hw
    rw [hf]
    rfl
  | noBreak hf hr =>
    have hn : (if Tag.trimsNewline written then Tag.afterNewline? ([] ++ rest) else none) =
        none := by
      rw [List.nil_append, Tag.afterNewline?_eq_none hf hr, ite_self]
    rw [hn]
    rfl

theorem ofSource_of_unclosed (hk : Tag.Opens kind inside s) (hn : ¬d.closer <:+: s) (line : Nat) :
    ofSource d line (d.opener ++ inside) = .error line := by
  have hcut : cut? d.closer (Tag.marked inside).2 = none := by
    rw [hk.marked]
    exact Text.cut?_eq_none_iff.mpr hn
  exact ofSource_unclosed hcut

/-- The line that is counted while a source is read is that of the text before. -/
theorem ofSource_agrees (h : Scans d before s sites stuck) (ho : '\n' ∉ d.opener)
    (hc : '\n' ∉ d.closer) : Agrees (ofSource d (1 + newlines before) s) sites stuck := by
  induction h with
  | ending => exact ⟨[], ofSource_nil d _, rfl⟩
  | @char c s before sites stuck hn _ ih =>
    have hl : (if c = '\n' then 1 + newlines before + 1 else 1 + newlines before) =
        1 + newlines (before ++ [c]) := by
      rw [newlines_append, newlines_singleton]
      split <;> omega
    rw [ofSource_char hn, hl]
    exact ih.char c
  | @tag kind inside written br rest before sites stuck hk he ht _ ih =>
    have hl : newlines (before ++ d.opener ++ kind.mark ++ written ++ d.closer ++ br) =
        newlines before + newlines written + newlines br := by
      have hd : newlines d.opener = 0 ∧ newlines d.closer = 0 :=
        ⟨List.count_eq_zero.mpr ho, List.count_eq_zero.mpr hc⟩
      have hm : newlines kind.mark = 0 := by cases kind <;> rfl
      simp only [newlines_append, hd.1, hd.2, hm, Nat.add_zero]
    rw [hl, ← Nat.add_assoc, ← Nat.add_assoc] at ih
    rw [ofSource_of_trims hk he ht]
    exact ih.tag ⟨before, kind, written⟩
  | unclosed hk hn => exact ofSource_of_unclosed hk hn _

theorem filterMap_kept (eatspace : Bool) (w : Spacing) (pieces : List Piece) :
    (Spacing.kept eatspace w pieces).filterMap tag? = pieces.filterMap tag? := by
  induction pieces generalizing w with
  | nil => rfl
  | cons piece rest ih =>
    cases piece with
    | tag t => exact congrArg (t :: ·) (ih w)
    | char c =>
      rw [Spacing.kept]
      split
      · exact ih _
      · exact ih _

end Piece

namespace Segment

theorem isLiteral_segment (t : Tag) : t.segment.isLiteral = false := by
  obtain ⟨kind, body, line⟩ := t
  cases kind <;> rfl

theorem filter_flush (pending : List Char) (rest : List Segment) :
    (flush pending rest).filter (!·.isLiteral) = rest.filter (!·.isLiteral) := by
  unfold flush
  split <;> rfl

theorem filter_gather (pending : List Char) (pieces : List Piece) :
    (gather pending pieces).filter (!·.isLiteral) =
      (pieces.filterMap Piece.tag?).map Tag.segment := by
  induction pieces generalizing pending with
  | nil => exact filter_flush pending []
  | cons piece rest ih =>
    cases piece with
    | char c => exact ih (c :: pending)
    | tag t =>
      rw [gather, filter_flush, List.filter_cons, isLiteral_segment]
      exact congrArg (t.segment :: ·) (ih [])

end Segment

section

variable {o : Options} {d : Delimiters} (hd : Delimiters.ofStrings? o.opener o.closer = some d)
  (ho : '\n' ∉ d.opener) (hc : '\n' ∉ d.closer)

include hd

theorem parse_of_ofSource (h : Piece.ofSource d 1 source.toList = .ok pieces) :
    Template.parse source o =
      .ok (Segment.gather [] (Spacing.kept o.eatspace ⟨false, false⟩ pieces)) := by
  simp only [Template.parse, hd, Segment.scan, h]
  rfl

include ho hc

theorem parse_of_scans (h : Scans d [] source.toList sites none) :
    ∃ segments, Template.parse source o = .ok segments ∧
      segments.filter (!·.isLiteral) = sites.map fun site => site.tag.segment := by
  obtain ⟨pieces, hp, ht⟩ := Piece.ofSource_agrees h ho hc
  refine ⟨_, parse_of_ofSource hd hp, ?_⟩
  rw [Segment.filter_gather, Piece.filterMap_kept, ht, List.map_map]
  rfl

theorem parse_of_stuck (h : Scans d [] source.toList sites (some before)) :
    Template.parse source o =
      .error (.unterminatedTag (.of o.filename source (1 + newlines before)) o.closer) := by
  have hp : Piece.ofSource d 1 source.toList = .error (1 + newlines before) :=
    Piece.ofSource_agrees h ho hc
  simp only [Template.parse, hd, Segment.scan, hp]
  rfl

end

theorem exists_pieces_of_parse {o : Options} (h : Template.parse source o = .ok segments) :
    ∃ d pieces, Delimiters.ofStrings? o.opener o.closer = some d ∧
      Piece.ofSource d 1 source.toList = .ok pieces ∧
      segments = Segment.gather [] (Spacing.kept o.eatspace ⟨false, false⟩ pieces) := by
  cases hd : Delimiters.ofStrings? o.opener o.closer with
  | none =>
    rw [Template.parse, hd] at h
    cases h
  | some d =>
    cases hp : Piece.ofSource d 1 source.toList with
    | error line =>
      simp only [Template.parse, hd, Segment.scan, hp] at h
      cases h
    | ok pieces =>
      rw [parse_of_ofSource hd hp] at h
      exact ⟨d, pieces, rfl, hp, (Except.ok.inj h).symm⟩

/-- Reading a source gives a segment for each tag that a scan of it meets, in order, with the line
on which the tag opens, whether white space is eaten or not. It fails just when the scan meets a tag
without an end, with the line on which that tag opens. -/
theorem parse_lines (hd : Delimiters.ofStrings? o.opener o.closer = some d)
    (ho : '\n' ∉ d.opener) (hc : '\n' ∉ d.closer) (source : String) :
    (∀ segments, Template.parse source o = .ok segments →
      ∃ sites, Scans d [] source.toList sites none ∧
        (∀ site ∈ sites, site.before ++ d.opener <+: source.toList) ∧
        segments.filter (!·.isLiteral) = sites.map fun site => site.tag.segment) ∧
    ∀ e, Template.parse source o = .error e ↔
      ∃ sites before, Scans d [] source.toList sites (some before) ∧
        before ++ d.opener <+: source.toList ∧
        e = .unterminatedTag (.of o.filename source (1 + newlines before)) o.closer := by
  obtain ⟨sites, stuck, hs⟩ := exists_scans d [] source.toList
  constructor
  · intro segments hp
    cases stuck with
    | none =>
      obtain ⟨segments', hp', hf⟩ := parse_of_scans hd ho hc hs
      rw [hp'] at hp
      cases hp
      exact ⟨sites, hs, hs.opens.1, hf⟩
    | some before =>
      rw [parse_of_stuck hd ho hc hs] at hp
      cases hp
  · intro e
    constructor
    · intro hp
      cases stuck with
      | none =>
        obtain ⟨segments', hp', _⟩ := parse_of_scans hd ho hc hs
        rw [hp'] at hp
        cases hp
      | some before =>
        rw [parse_of_stuck hd ho hc hs] at hp
        cases hp
        exact ⟨sites, before, hs, hs.opens.2 before rfl, rfl⟩
    · rintro ⟨sites', before, hs', _, rfl⟩
      exact parse_of_stuck hd ho hc hs'

/-- Line breaks inside a tag, between tags, and behind a tag that takes them with it. -/
def queries : Delimiters := ⟨['<', '?'], ['?', '>'], by decide, by decide, by decide⟩

def queryOptions : Options := { Options.initial with opener := "<?", closer := "?>" }

theorem parse_lines_queries :
    Template.parse "a\r\n<?= x -?>\r\nb\n<? y\n?>\n<?- z ?>" queryOptions =
      .ok [.literal "a ", .emit " x " true 2, .literal "b ", .statement " y\n" 4, .literal " ",
        .emit " z " false 6] ∧
    (∃ sites, Scans queries [] "a\r\n<?= x -?>\r\nb\n<? y\n?>\n<?- z ?>".toList sites none ∧
      (∀ site ∈ sites, site.before ++ queries.opener <+:
        "a\r\n<?= x -?>\r\nb\n<? y\n?>\n<?- z ?>".toList) ∧
      [.emit " x " true 2, .statement " y\n" 4, .emit " z " false 6] =
        sites.map fun site => site.tag.segment) ∧
    ∃ sites before, Scans queries [] "<? x -?>\n\n<?= y".toList sites (some before) ∧
      newlines before = 2 := by
  have hp : Template.parse "a\r\n<?= x -?>\r\nb\n<? y\n?>\n<?- z ?>" queryOptions =
      .ok [.literal "a ", .emit " x " true 2, .literal "b ", .statement " y\n" 4, .literal " ",
        .emit " z " false 6] := by
    cbv
  have he : Template.parse "<? x -?>\n\n<?= y" queryOptions =
      .error (.unterminatedTag (.of none "<? x -?>\n\n<?= y" 3) "?>") := by
    cbv
  have hl := parse_lines (o := queryOptions) (d := queries) rfl (by decide) (by decide)
  obtain ⟨sites, before, hs, _, hb⟩ := ((hl "<? x -?>\n\n<?= y").2 _).mp he
  refine ⟨hp, (hl _).1 _ hp, sites, before, hs, ?_⟩
  have hn : 3 = 1 + newlines before := by
    injection hb with hplace
    injection hplace
  omega

end Stencil

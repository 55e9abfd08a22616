import Stencil.Proofs.Interpolation
import Stencil.Proofs.Script.Breaks
import Stencil.Proofs.Script.Delimited
import Stencil.Proofs.Script.Leaves
import Stencil.Segment.Pipeline

/-!
Filter pipelines. A stage is put around the code before it as text; what comes out is read as a call
of the filter whose first argument is what the code before it is read as. The main statement is
`parseExpression_pipeline`: a pipeline means the calls of its filters, nested from the left.
-/

namespace Stencil

open Stencil.Text (isBlank cut? runs trimBoth trimEnd)

set_option autoImplicit true

namespace Text

variable {p : α → Bool}

theorem trimEnd_append (hw : ∀ c ∈ w, p c = true) (s : List α) :
    trimEnd p (s ++ w) = trimEnd p s := by
  rw [trimEnd, List.reverse_append,
    List.dropWhile_append_of_pos fun c hc => hw c (List.mem_reverse.mp hc), trimEnd]

theorem trimBoth_between {before after : List α} (hb : ∀ c ∈ before, p c = true)
    (ha : ∀ c ∈ after, p c = true) (s : List α) :
    trimBoth p (before ++ s ++ after) = trimBoth p s := by
  rw [trimBoth, List.append_assoc, List.dropWhile_append_of_pos hb, trimBoth, List.dropWhile_append]
  split
  · rename_i hs
    rw [List.isEmpty_iff.mp hs, List.dropWhile_eq_nil_iff.mpr ha]
  · exact trimEnd_append ha _

theorem exists_trimBoth (p : α → Bool) (s : List α) : ∃ before after,
    s = before ++ trimBoth p s ++ after ∧ (∀ c ∈ before, p c = true) ∧ ∀ c ∈ after, p c = true := by
  have htake (s : List α) : ∀ c ∈ s.takeWhile p, p c = true :=
    List.all_eq_true.mp List.all_takeWhile
  refine ⟨s.takeWhile p, ((s.dropWhile p).reverse.takeWhile p).reverse, ?_, htake s,
    fun c hc => htake _ c (List.mem_reverse.mp hc)⟩
  rw [trimBoth, trimEnd, List.append_assoc, ← List.reverse_append, List.takeWhile_append_dropWhile,
    List.reverse_reverse, List.takeWhile_append_dropWhile]

theorem trimBoth_of_none {s : List α} (hs : ∀ c ∈ s, p c = false) : trimBoth p s = s := by
  have hdrop {s : List α} (hs : ∀ c ∈ s, p c = false) : s.dropWhile p = s := by
    cases s with
    | nil => rfl
    | cons c s => exact List.dropWhile_cons_of_neg (Bool.eq_false_iff.mp (hs c List.mem_cons_self))
  rw [trimBoth, hdrop hs, trimEnd, hdrop fun c hc => hs c (List.mem_reverse.mp hc),
    List.reverse_reverse]

end Text

namespace Script

namespace Lexeme

/-- The code is read as the lexemes in front of any code of a kind. -/
def ReadsBefore (P : List Char → Prop) (s : List Char) (ls : List Lexeme) : Prop :=
  ∀ t, P t → ofCode (s ++ t) = (ofCode t).map (ls ++ ·)

/-- Nothing is left, or what is left begins with a character that divides. -/
def Divided (t : List Char) : Prop := ∀ d ∈ t.head?, divides d = true

theorem ReadsBefore.append (h : ReadsBefore P s ls) (h' : ReadsBefore Q s' ls')
    (hP : ∀ t, Q t → P (s' ++ t)) : ReadsBefore Q (s ++ s') (ls ++ ls') := by
  intro t ht
  rw [List.append_assoc, h _ (hP t ht), h' t ht]
  cases ofCode t with
  | error fault => rfl
  | ok more => exact congrArg Except.ok (List.append_assoc ls ls' more).symm

theorem ReadsBefore.ofCode (h : ReadsBefore P s ls) (hP : P []) : ofCode s = .ok ls := by
  have h := h [] hP
  rw [List.append_nil, Lexeme.ofCode] at h
  rw [h]
  exact congrArg Except.ok (List.append_nil ls)

theorem divided_nil : Divided [] := nofun

theorem not_endsInComment_nil : ¬EndsInComment [] := by
  rintro (⟨_, h, -⟩ | ⟨h⟩)
  · cases h
  · exact h.ne_nil rfl

theorem divided_cons (hd : divides d = true) (t : List Char) : Divided (d :: t) := by
  rintro c ⟨⟩
  exact hd

theorem readsBefore_of_reads (h : Reads s ls) (hc : ¬EndsInComment s) :
    ReadsBefore Divided s ls := by
  intro t ht
  cases t with
  | nil =>
    rw [List.append_nil, ofCode_of_reads h, Lexeme.ofCode]
    exact congrArg Except.ok (List.append_nil ls).symm
  | cons d t => exact ofCode_append (ofCode_of_reads h) (ht d rfl) (.inr hc) t

theorem readsBefore_mark (hc : c ∈ ['(', ')', '\x7b', '\x7d', ';', ','])
    (hm : ∀ t, mark? (c :: t) = some (p, t)) : ReadsBefore (fun _ => True) [c] [.mark p] := by
  intro t _
  exact ofCode_mark hc (hm t)

theorem readsBefore_filter (hn : IsName name) :
    ReadsBefore (fun _ => True) ("filters.".toList ++ name.toList ++ ['('])
      [.word "filters", .mark .dot, .word name, .mark .openParen] := by
  intro t _
  have hfilters : IsName "filters" := by decide
  have hdot : Decimal.startsDecimal ('.' :: (name.toList ++ '(' :: t)) = false := by
    obtain ⟨c, cs, he, hc, -⟩ := hn
    rw [he]
    exact isAsciiDigit_of_isNameStart hc
  have htext : "filters.".toList ++ name.toList ++ ['('] ++ t =
      "filters".toList ++ '.' :: (name.toList ++ '(' :: t) := by
    rw [List.append_assoc, List.append_assoc]
    rfl
  rw [htext, ofCode_word hfilters rfl, ofCode_dot hdot, ofCode_word hn rfl,
    ofCode_mark (by decide) rfl]
  cases Lexeme.ofCode t <;> rfl

end Lexeme

open Pipeline (trimmed)

/-- The lexemes as items of a tag. -/
def Items.ofLexemes (line : Nat) (ls : List Lexeme) : List Item := ls.map fun l => .lexeme l line

theorem lexemes_ofList : lexemes (String.ofList s) line = .ok items ↔
    ∃ ls, Lexeme.ofCode s = .ok ls ∧ items = Items.ofLexemes line ls := by
  rw [lexemes, tokenize, String.toList_ofList]
  cases Lexeme.ofCode s with
  | error fault =>
    constructor
    · intro h
      cases h
    · rintro ⟨_, h, -⟩
      cases h
  | ok ls =>
    have he : (ls.map fun l => (⟨l, line⟩ : Token)).map Item.ofToken = Items.ofLexemes line ls :=
      List.map_map
    constructor
    · intro h
      exact ⟨ls, rfl, (Except.ok.inj h).symm.trans he⟩
    · rintro ⟨_, h, rfl⟩
      cases h
      exact congrArg Except.ok he

/-- The code is an expression, also in front of what divides its lexemes from others. -/
def Means (line : Nat) (s : List Char) (e : Expr) : Prop :=
  ∃ ls, Lexeme.ReadsBefore Lexeme.Divided s ls ∧
    Derives ⟨line, false, false⟩ .assignment (Items.ofLexemes line ls) e []

/-- The code is an argument list, up to a closing parenthesis. -/
def MeansArguments (line : Nat) (s : List Char) (es : List Expr) : Prop :=
  ∃ ls, Lexeme.ReadsBefore Lexeme.Divided s ls ∧
    Derives ⟨line, false, false⟩ (.expressions .closeParen)
      (Items.ofLexemes line ls ++ [.mark .closeParen line]) es []

/-- The code between parentheses is an argument list, to its end. -/
def IsArguments (line : Nat) (s : List Char) (es : List Expr) : Prop :=
  ∃ items h, lexemes (String.ofList ('(' :: (s ++ [')']))) line =
      .ok (.mark .openParen line :: items) ∧
    expressions ⟨line, false, false⟩ .closeParen items = .ok ⟨es, [], h⟩

/-- White space around code makes no lexemes. -/
theorem lexemes_trimmed (h : lexemes (String.ofList s) line = .ok items) :
    lexemes (String.ofList (trimmed s)) line = .ok items := by
  obtain ⟨ls, hls, rfl⟩ := lexemes_ofList.mp h
  obtain ⟨before, after, hs, hb, ha⟩ := Text.exists_trimBoth isBlank s
  rw [hs, List.append_assoc, Lexeme.ofCode_blanks hb] at hls
  have hr := (Lexeme.reads_of_ofCode hls).of_blanks ha
  exact lexemes_ofList.mpr ⟨ls, Lexeme.ofCode_of_reads hr, rfl⟩

theorem parseExpression_trimmed (h : parseExpression (String.ofList s) line = .ok e) :
    parseExpression (String.ofList (trimmed s)) line = .ok e := by
  obtain ⟨items, hi, _⟩ := bind_eq_ok h
  rw [← h, parseExpression, parseExpression, hi, lexemes_trimmed hi]

theorem means_of_parseExpression (h : parseExpression (String.ofList s) line = .ok e)
    (hl : lexemes (String.ofList s) line ≠ .ok []) (hc : ¬Lexeme.EndsInComment s) :
    Means line s e := by
  rcases derives_of_parseExpression h with ⟨hn, -⟩ | ⟨items, hi, hd⟩
  · exact absurd hn hl
  · obtain ⟨ls, hls, rfl⟩ := lexemes_ofList.mp hi
    exact ⟨ls, Lexeme.readsBefore_of_reads (Lexeme.reads_of_ofCode hls) hc, hd⟩

theorem ofLexemes_append (line : Nat) (ls ls' : List Lexeme) :
    Items.ofLexemes line (ls ++ ls') = Items.ofLexemes line ls ++ Items.ofLexemes line ls' :=
  List.map_append

/-- Arguments without the white space around them are read as they are between parentheses. -/
theorem meansArguments_trimmed (h : IsArguments line s es)
    (hc : ¬Lexeme.EndsInComment (trimmed s)) : MeansArguments line (trimmed s) es := by
  obtain ⟨items, hlt, hi, he⟩ := h
  obtain ⟨ls, hls, hitems⟩ := lexemes_ofList.mp hi
  have hm : Lexeme.mark? ('(' :: (s ++ [')'])) = some (.openParen, s ++ [')']) := rfl
  rw [Lexeme.ofCode_mark (by decide) hm] at hls
  obtain ⟨inside, hinside, rfl⟩ := map_eq_ok hls
  obtain ⟨-, rfl⟩ := List.cons.inj hitems
  obtain ⟨before, after, hs, hb, ha⟩ := Text.exists_trimBoth isBlank s
  have hsep : ∀ c ∈ after ++ [')'], Lexeme.separates c = true := by
    intro c hmem
    rcases List.mem_append.mp hmem with hmem | hmem
    · exact Lexeme.separates_of_isBlank (ha c hmem)
    · rw [List.mem_singleton.mp hmem]
      rfl
  rw [hs, List.append_assoc, List.append_assoc, Lexeme.ofCode_blanks hb] at hinside
  obtain ⟨ls₁, ls₂, rfl, hr, hr'⟩ := (Lexeme.reads_of_ofCode hinside).split hsep hc
  have hp := Lexeme.ofCode_of_reads hr'
  rw [Lexeme.ofCode_blanks ha, Lexeme.ofCode_mark (by decide) rfl, Lexeme.ofCode] at hp
  cases hp
  have hd := derives_of_reads (.expressions .closeParen) ⟨hlt, he⟩
  rw [← Items.ofLexemes, ofLexemes_append] at hd
  exact ⟨ls₁, Lexeme.readsBefore_of_reads hr hc, hd⟩

theorem MeansArguments.nil (line : Nat) : MeansArguments line [] [] :=
  ⟨[], Lexeme.readsBefore_of_reads .nil Lexeme.not_endsInComment_nil, .noExpressions⟩

theorem MeansArguments.eq_nil (h : MeansArguments line [] es) : es = [] := by
  obtain ⟨ls, hr, hd⟩ := h
  have hls := hr.ofCode Lexeme.divided_nil
  rw [Lexeme.ofCode] at hls
  cases hls
  exact (hd.unique .noExpressions).1

/-- Code and the arguments behind it are an argument list. -/
theorem MeansArguments.cons (h : Means line s e) (ha : MeansArguments line args es) :
    MeansArguments line (s ++ if args.isEmpty then [] else [',', ' '] ++ args) (e :: es) := by
  obtain ⟨ls, hr, hd⟩ := h
  have hclose (t : List Item) :
      Items.after? .closeParen (Items.ofLexemes line ls ++ t) = none := by
    refine Items.after?_eq_none_iff.mpr fun hf => ?_
    rw [Items.found_append_left (Expr.Ends.whole_ne_nil hd.ends)] at hf
    have hopens : (Items.found (Items.ofLexemes line ls)).Opens := hd.begins
    rw [hf] at hopens
    exact absurd hopens (by decide : Punct.closeParen ∉ openers)
  cases args with
  | nil =>
    rw [ha.eq_nil]
    refine ⟨ls, ?_, ?_⟩
    · rwa [List.isEmpty_nil, if_pos rfl, List.append_nil]
    · have hd := hd.append_mark (p := .closeParen) rfl rfl line []
      exact .lastExpression (by decide) (hclose _) hd
  | cons c args =>
    obtain ⟨ls', hr', hd'⟩ := ha
    have hcomma := Lexeme.readsBefore_mark (c := ',') (by decide) fun t => rfl
    have hspace : Lexeme.ReadsBefore (fun _ => True) [' '] [] := by
      intro t _
      exact (Lexeme.ofCode_space t).trans (Lexeme.map_nil_append _).symm
    have hargs := (hcomma.append hspace fun _ _ => trivial).append hr' fun _ _ => trivial
    refine ⟨ls ++ (.mark .comma :: ls'), hr.append hargs fun t _ => ?_, ?_⟩
    · exact Lexeme.divided_cons rfl _
    · rw [ofLexemes_append, List.append_assoc]
      exact .expressions (hclose _) (hd.append_mark (p := .comma) rfl rfl line _) hd'

/-- A filter call is read as one. -/
theorem Means.call (h : Means line s e) (hn : IsName name) (ha : MeansArguments line args es) :
    Means line (Pipeline.call s name.toList args) (.filter name (e :: es)) := by
  obtain ⟨ls, hr, hd⟩ := MeansArguments.cons h ha
  have hparen := Lexeme.readsBefore_mark (c := ')') (by decide) fun t => rfl
  have hcall := ((Lexeme.readsBefore_filter hn).append hr fun _ _ => trivial).append hparen
    fun t _ => Lexeme.divided_cons rfl t
  have htext : Pipeline.call s name.toList args = "filters.".toList ++ name.toList ++ ['('] ++
      (s ++ if args.isEmpty then [] else [',', ' '] ++ args) ++ [')'] := by
    unfold Pipeline.call
    generalize "filters.".toList = start
    simp only [List.append_assoc]
  rw [htext]
  have hchain : Derives ⟨line, false, false⟩ .chain
      (.word "filters" line :: .mark .dot line :: .word name line :: .mark .openParen line ::
        (Items.ofLexemes line ls ++ [.mark .closeParen line])) (.filter name (e :: es)) [] :=
    .chain (.ident rfl) (.callProperty hd (.chainEnd rfl rfl rfl))
  have hunary := Derives.noUnary rfl rfl (.noStep hchain nofun)
  refine ⟨_, fun t _ => hcall t trivial, ?_⟩
  rw [ofLexemes_append, ofLexemes_append, List.append_assoc]
  exact .unassigned rfl (.noChoice (.binary hunary (.noOperator nofun)) rfl)

theorem parseExpression_of_means (h : Means line s e) :
    parseExpression (String.ofList s) line = .ok e := by
  obtain ⟨ls, hr, hd⟩ := h
  exact parseExpression_of_derives
    (lexemes_ofList.mpr ⟨ls, hr.ofCode Lexeme.divided_nil, rfl⟩) hd

end Script

namespace Pipeline

open Script (IsName Expr lexemes parseExpression IsArguments Means MeansArguments)
open Script.Lexeme (EndsInComment endsInComment_iff ofCode_of_reads reads_of_ofCode)

/-- A text with white space around it. -/
structure Spaced where
  before : List Char
  text : List Char
  after : List Char
  before_blank : ∀ c ∈ before, isBlank c = true
  after_blank : ∀ c ∈ after, isBlank c = true

namespace Spaced

variable (x : Spaced)

def source : List Char := x.before ++ x.text ++ x.after

theorem trimmed_source : trimmed x.source = trimmed x.text :=
  Text.trimBoth_between x.before_blank x.after_blank x.text

theorem not_mem_source (h : c ∉ x.text) (hc : isBlank c = false) : c ∉ x.source := by
  rw [source, List.mem_append, List.mem_append, not_or, not_or]
  exact ⟨⟨Text.not_mem_of_all x.before_blank hc, h⟩, Text.not_mem_of_all x.after_blank hc⟩

end Spaced

/-- The code that a pipeline begins with. -/
structure Base (line : Nat) where
  code : Spaced
  value : Expr
  accepted : parseExpression (String.ofList code.text) line = .ok value
  no_bar : '|' ∉ code.text

/-- The code can be the first argument of a call: there is something in it, and no comment at its
end takes what is written behind it. -/
structure Base.Filterable (base : Base line) : Prop where
  inhabited : lexemes (String.ofList base.code.text) line ≠ .ok []
  ended : ¬EndsInComment (trimmed base.code.text)

/-- A filter of a pipeline, with the code of its arguments if there is a colon. -/
structure Stage (line : Nat) where
  filter : String
  isName : IsName filter
  name : Spaced
  named : name.text = filter.toList
  args : Option Spaced
  values : List Expr
  accepted : match args with
    | none => values = []
    | some x => (∀ c ∈ x.text, isBlank c = true) ∧ values = [] ∨
        IsArguments line x.text values
  no_bar : ∀ x ∈ args, '|' ∉ x.text
  ended : ∀ x ∈ args, ¬EndsInComment (trimmed x.text)

def Stage.source (g : Stage line) : List Char :=
  match g.args with
  | none => g.name.source
  | some x => g.name.source ++ ':' :: x.source

/-- The code of a pipeline as it is written. -/
def source (base : Base line) (stages : List (Stage line)) : List Char :=
  base.code.source ++ stages.flatMap fun g => '|' :: g.source

namespace Stage

variable (g : Stage line)

theorem not_mem_name (hc : Script.isNamePart c = false) (hb : isBlank c = false) :
    c ∉ g.name.source := by
  apply g.name.not_mem_source _ hb
  rw [g.named]
  exact Text.not_mem_of_all (fun _ hx => g.isName.part_of_mem hx) hc

theorem source_of_none (h : g.args = none) : g.source = g.name.source := by
  rw [source, h]

theorem source_of_some (h : g.args = some x) :
    g.source = g.name.source ++ ':' :: x.source := by
  rw [source, h]

theorem bar_not_mem_source : '|' ∉ g.source := by
  have hname : '|' ∉ g.name.source := g.not_mem_name rfl rfl
  cases ha : g.args with
  | none => rwa [g.source_of_none ha]
  | some x =>
    rw [g.source_of_some ha, List.mem_append, List.mem_cons]
    rintro (h | h | h)
    · exact hname h
    · revert h
      decide
    · exact x.not_mem_source (g.no_bar x ha) rfl h

theorem trimmed_name : trimmed g.name.source = g.filter.toList := by
  rw [g.name.trimmed_source, g.named]
  exact Text.trimBoth_of_none fun c hc =>
    Script.Lexeme.isBlank_of_isNamePart (g.isName.part_of_mem hc)

theorem stage_of_none (h : g.args = none) (s : List Char) :
    stage s g.source = call s g.filter.toList [] := by
  have hcut : cut? [':'] g.name.source = none := by
    rw [Text.cut?_eq_none_iff]
    rintro ⟨before, after, he⟩
    refine g.not_mem_name (c := ':') rfl rfl ?_
    rw [← he, List.append_assoc]
    exact List.mem_append_right _ List.mem_cons_self
  rw [g.source_of_none h, stage, hcut, g.trimmed_name]

theorem stage_of_some (h : g.args = some x) (s : List Char) :
    stage s g.source = call s g.filter.toList (trimmed x.text) := by
  have hends : Text.EndsFirst [':'] g.name.source :=
    Text.endsFirst_of_not_mem (g.not_mem_name rfl rfl)
  have hcut : cut? [':'] (g.name.source ++ ':' :: x.source) = some (g.name.source, x.source) := by
    rw [← hends.cut? x.source, List.append_assoc]
    rfl
  rw [g.source_of_some h, stage, hcut]
  dsimp only
  rw [g.trimmed_name, x.trimmed_source]

/-- A stage makes a call of its filter from code that is an expression. -/
theorem means (h : Means line s e) :
    Means line (stage s g.source) (.filter g.filter (e :: g.values)) := by
  have haccepted := g.accepted
  cases ha : g.args with
  | none =>
    rw [ha] at haccepted
    rw [g.stage_of_none ha, haccepted]
    exact h.call g.isName (.nil line)
  | some x =>
    rw [ha] at haccepted
    rw [g.stage_of_some ha]
    refine h.call g.isName ?_
    rcases haccepted with ⟨hblank, he⟩ | hargs
    · rw [he, trimmed, trimBoth, List.dropWhile_eq_nil_iff.mpr hblank]
      exact .nil line
    · exact Script.meansArguments_trimmed hargs (g.ended x ha)

end Stage

theorem runs_bars (hb : '|' ∉ b) (texts : List (List Char)) (ht : ∀ t ∈ texts, '|' ∉ t) :
    runs (· == '|') (b ++ texts.flatMap fun t => '|' :: t) = b :: texts := by
  have hnone {s : List Char} (hs : '|' ∉ s) : runs (· == '|') s = [s] := by
    refine Text.runs_of_none fun c hc => beq_eq_false_iff_ne.mpr ?_
    rintro rfl
    exact hs hc
  induction texts generalizing b with
  | nil => rw [List.flatMap_nil, List.append_nil, hnone hb]
  | cons t texts ih =>
    obtain ⟨ht, hts⟩ := List.forall_mem_cons.mp ht
    rw [List.flatMap_cons, List.cons_append, Text.runs_append_cons rfl, hnone hb, ih ht hts]
    rfl

/-- The code of a pipeline is an expression, the calls of its filters nested from the left. -/
theorem means_foldl (stages : List (Stage line)) (h : Means line s e) :
    Means line ((stages.map Stage.source).foldl stage s)
      (stages.foldl (fun e g => .filter g.filter (e :: g.values)) e) := by
  induction stages generalizing s e with
  | nil => exact h
  | cons g stages ih => exact ih (g.means h)

theorem Base.Filterable.means {base : Base line} (h : base.Filterable) :
    Means line (trimmed base.code.source) base.value := by
  rw [base.code.trimmed_source]
  refine Script.means_of_parseExpression (Script.parseExpression_trimmed base.accepted) ?_ h.ended
  obtain ⟨items, hi, _⟩ := Script.bind_eq_ok base.accepted
  rw [Script.lexemes_trimmed hi, ← hi]
  exact h.inhabited

/-- A pipeline means the calls of its filters, nested from the left. -/
theorem parseExpression_pipeline (base : Base line) (stages : List (Stage line))
    (h : stages ≠ [] → base.Filterable) :
    parseExpression (String.ofList (code (source base stages))) line =
      .ok (stages.foldl (fun e g => .filter g.filter (e :: g.values)) base.value) := by
  have hruns : runs (· == '|') (source base stages) =
      base.code.source :: stages.map Stage.source := by
    have h := runs_bars (base.code.not_mem_source base.no_bar rfl) (stages.map Stage.source)
      (List.forall_mem_map.mpr fun g _ => g.bar_not_mem_source)
    rwa [List.flatMap_map] at h
  rw [code, hruns]
  dsimp only
  cases stages with
  | nil =>
    rw [base.code.trimmed_source]
    exact Script.parseExpression_trimmed base.accepted
  | cons g stages =>
    have hmeans := (h (List.cons_ne_nil _ _)).means
    exact Script.parseExpression_of_means (means_foldl (g :: stages) hmeans)

theorem ofCode_commented : Script.Lexeme.ofCode ['/', '/', '\n', 'a'] = .ok [.word "a"] :=
  ofCode_of_reads (.step .lineComment (.step (.blank rfl) (.step (.word rfl) .nil)))

/-- A name behind a comment. -/
def commented : Base 1 where
  code := ⟨[], ['/', '/', '\n', 'a'], [' '], nofun, List.all_eq_true.mp rfl⟩
  value := .ident "a"
  accepted := by
    refine Script.parseExpression_of_derives
      (Script.lexemes_ofList.mpr ⟨_, ofCode_commented, rfl⟩) ?_
    exact .unassigned rfl
      (.noChoice (.binary (.variable rfl rfl rfl rfl rfl) (.noOperator nofun)) rfl)
  no_bar := by decide

theorem commented_filterable : commented.Filterable where
  inhabited := by
    intro h
    cases (Script.lexemes_ofList.mpr ⟨_, ofCode_commented, rfl⟩).symm.trans h
  ended := by
    intro hc
    have h : Script.Lexeme.ofCode ['/', '/', '\n', 'a', ')'] = .ok [.word "a", .mark .closeParen] :=
      ofCode_of_reads (.step .lineComment (.step (.blank rfl) (.step (.word rfl)
        (.step (.mark rfl rfl rfl) .nil))))
    cases h.symm.trans ((endsInComment_iff ofCode_commented).mp hc)

/-- A filter with one argument and a comma behind it. -/
def withComma : Stage 1 where
  filter := "default"
  isName := by decide
  name := ⟨[' '], "default".toList, [], List.all_eq_true.mp rfl, nofun⟩
  named := rfl
  args := some ⟨[' '], ['c', ','], [' '], List.all_eq_true.mp rfl, List.all_eq_true.mp rfl⟩
  values := [.ident "c"]
  accepted := by
    have hl : Script.Lexeme.ofCode ['(', 'c', ',', ')'] =
        .ok [.mark .openParen, .word "c", .mark .comma, .mark .closeParen] :=
      ofCode_of_reads (.step (.mark rfl rfl rfl) (.step (.word rfl)
        (.step (.mark rfl rfl rfl) (.step (.mark rfl rfl rfl) .nil))))
    have hd : Script.Derives ⟨1, false, false⟩ (.expressions .closeParen)
        [.word "c" 1, .mark .comma 1, .mark .closeParen 1] [.ident "c"] [] :=
      .expressions rfl (.unassigned rfl (.noChoice (.binary (.variable rfl rfl rfl rfl rfl)
        (.noOperator nofun)) rfl)) .noExpressions
    obtain ⟨h, he⟩ := Script.accepts_of_derives hd
    exact .inr ⟨_, h, Script.lexemes_ofList.mpr ⟨_, hl, rfl⟩, he⟩
  no_bar := by
    rintro x ⟨⟩
    decide
  ended := by
    rintro x ⟨⟩ hc
    have hl : Script.Lexeme.ofCode ['c', ','] = .ok [.word "c", .mark .comma] :=
      ofCode_of_reads (.step (.word rfl) (.step (.mark rfl rfl rfl) .nil))
    have hl' : Script.Lexeme.ofCode ['c', ',', ')'] =
        .ok [.word "c", .mark .comma, .mark .closeParen] :=
      ofCode_of_reads (.step (.word rfl) (.step (.mark rfl rfl rfl)
        (.step (.mark rfl rfl rfl) .nil)))
    cases hl'.symm.trans ((endsInComment_iff hl).mp hc)

/-- A filter by its name alone. -/
def bare : Stage 1 where
  filter := "trim"
  isName := by decide
  name := ⟨[' '], "trim".toList, [], List.all_eq_true.mp rfl, nofun⟩
  named := rfl
  args := none
  values := []
  accepted := rfl
  no_bar := nofun
  ended := nofun

/-- A comment in the base, a comma behind the last argument. -/
theorem parseExpression_pipeline_comment : commented.Filterable ∧
    parseExpression (String.ofList (code "//\na | default: c, | trim".toList)) 1 =
      .ok (.filter "trim" [.filter "default" [.ident "a", .ident "c"]]) :=
  ⟨commented_filterable,
    parseExpression_pipeline commented [withComma, bare] fun _ => commented_filterable⟩

/-- The rewriting is one of texts. White space goes with the line break that ends the comment of a
base, and a base of nothing but a comment leaves no argument in the call. -/
theorem pipeline_of_comments : IsName "upper" ∧
    (parseExpression "x//\n" 1 = .ok (.ident "x") ∧ '|' ∉ "x//\n".toList ∧
      trimmed "x//\n".toList ≠ [] ∧ ¬EndsInComment "x//\n".toList ∧
      parseExpression (String.ofList (code "x//\n|upper".toList)) 1 ≠
        .ok (.filter "upper" [.ident "x"])) ∧
    (parseExpression "/**/" 1 = .ok (.value .null) ∧ '|' ∉ "/**/".toList ∧
      trimmed "/**/".toList ≠ [] ∧ ¬EndsInComment "/**/".toList ∧
      parseExpression (String.ofList (code "/**/|upper".toList)) 1 ≠
        .ok (.filter "upper" [.value .null])) := by
  have hupper : IsName "upper" := by decide
  have hx : Script.Lexeme.ofCode ['x', '/', '/', '\n'] = .ok [.word "x"] :=
    ofCode_of_reads (.step (.word rfl) (.step .lineComment (.step (.blank rfl) .nil)))
  have hx' : Script.Lexeme.ofCode ['x', '/', '/', '\n', ')'] = .ok [.word "x", .mark .closeParen] :=
    ofCode_of_reads (.step (.word rfl) (.step .lineComment (.step (.blank rfl)
      (.step (.mark rfl rfl rfl) .nil))))
  have hopen : Script.Lexeme.ofCode ['x', '/', '/', ')'] = .ok [.word "x"] :=
    ofCode_of_reads (.step (.word rfl) (.step .lineComment .nil))
  have hempty : Script.Lexeme.ofCode ['/', '*', '*', '/'] = .ok [] :=
    ofCode_of_reads (.step (.comment rfl) .nil)
  have hempty' : Script.Lexeme.ofCode ['/', '*', '*', '/', ')'] = .ok [.mark .closeParen] :=
    ofCode_of_reads (.step (.comment rfl) (.step (.mark rfl rfl rfl) .nil))
  have hcall {t : List Char} {ls : List Script.Lexeme} (h : Script.Lexeme.ofCode t = .ok ls) :
      lexemes (String.ofList ("filters.".toList ++ "upper".toList ++ ['('] ++ t)) 1 =
        .ok (.word "filters" 1 :: .mark .dot 1 :: .word "upper" 1 :: .mark .openParen 1 ::
          Script.Items.ofLexemes 1 ls) := by
    refine Script.lexemes_ofList.mpr
      ⟨[.word "filters", .mark .dot, .word "upper", .mark .openParen] ++ ls, ?_, rfl⟩
    rw [Script.Lexeme.readsBefore_filter hupper t trivial, h]
    rfl
  refine ⟨hupper, ⟨?_, by decide, by decide, ?_, ?_⟩, ?_, by decide, by decide, ?_, ?_⟩
  · have hs : "x//\n" = String.ofList ['x', '/', '/', '\n'] := rfl
    rw [hs, parseExpression, Script.lexemes_ofList.mpr ⟨_, hx, rfl⟩]
    cbv
  · intro h
    cases hx'.symm.trans ((endsInComment_iff hx).mp h)
  · have hc : code "x//\n|upper".toList =
        "filters.".toList ++ "upper".toList ++ ['('] ++ ['x', '/', '/', ')'] := rfl
    rw [hc, parseExpression, hcall hopen]
    cbv
    intro h
    cases h
  · have hs : "/**/" = String.ofList ['/', '*', '*', '/'] := rfl
    rw [hs, parseExpression, Script.lexemes_ofList.mpr ⟨_, hempty, rfl⟩]
    rfl
  · intro h
    cases hempty'.symm.trans ((endsInComment_iff hempty).mp h)
  · have hc : code "/**/|upper".toList =
        "filters.".toList ++ "upper".toList ++ ['('] ++ ['/', '*', '*', '/', ')'] := rfl
    rw [hc, parseExpression, hcall hempty']
    cbv
    intro h
    cases h

end Pipeline
end Stencil

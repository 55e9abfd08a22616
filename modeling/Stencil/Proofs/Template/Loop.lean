import Stencil.Proofs.Interpolation
import Stencil.Proofs.Script.Breaks
import Stencil.Proofs.Script.Inside
import Stencil.Proofs.Script.Nesting
import Stencil.Proofs.Segment.Concat
import Stencil.Proofs.Template.Rendered

/-!
A loop around a template. A source that compiles by itself also compiles between a tag that opens a
loop over the elements of an array and one that closes it, to a loop with the same statements. The
main statement is `render_loopSource`: it puts out what the source alone puts out for each element,
one after the other.
-/

namespace Stencil

open Script

set_option autoImplicit true

/-- The code of a tag that opens a loop over the elements of a variable. -/
def loopOpening (x xs : String) : String := " for (const " ++ x ++ " of " ++ xs ++ ") \x7b "

def loopSource (x xs body : String) : String :=
  "<%" ++ loopOpening x xs ++ "%>" ++ body ++ "<% \x7d %>"

theorem toList_loopOpening (x xs : String) : (loopOpening x xs).toList =
    ' ' :: ("for".toList ++ ' ' :: '(' :: ("const".toList ++ ' ' :: (x.toList ++
      ' ' :: ("of".toList ++ ' ' :: (xs.toList ++ [')', ' ', '\x7b', ' ']))))) := by
  simp only [loopOpening, String.toList_append, List.append_assoc]
  rfl

theorem toList_loopSource (x xs body : String) : (loopSource x xs body).toList =
    Delimiters.standard.opener ++ ((loopOpening x xs).toList ++ Delimiters.standard.closer ++
      (body.toList ++ (Delimiters.standard.opener ++ [' ', '\x7d', ' ', '%', '>']))) := by
  simp only [loopSource, String.toList_append, List.append_assoc]
  rfl

theorem ofCode_loopOpening (hx : IsName x) (hxs : IsName xs) :
    Lexeme.ofCode (loopOpening x xs).toList =
      .ok [.word "for", .mark .openParen, .word "const", .word x, .word "of", .word xs,
        .mark .closeParen, .mark .openBrace] := by
  rw [toList_loopOpening, Lexeme.ofCode_space, Lexeme.ofCode_word (by decide) rfl,
    Lexeme.ofCode_space, Lexeme.ofCode_mark (by decide) rfl, Lexeme.ofCode_word (by decide) rfl,
    Lexeme.ofCode_space, Lexeme.ofCode_word hx rfl, Lexeme.ofCode_space,
    Lexeme.ofCode_word (by decide) rfl, Lexeme.ofCode_space, Lexeme.ofCode_word hxs rfl,
    Lexeme.ofCode_mark (by decide) rfl, Lexeme.ofCode_space, Lexeme.ofCode_mark (by decide) rfl,
    Lexeme.ofCode_space, Lexeme.ofCode]
  rfl

theorem not_mem_loopOpening (hx : IsName x) (hxs : IsName xs) (hc : isNamePart c = false)
    (hm : c ∉ [' ', '(', ')', '\x7b']) : c ∉ (loopOpening x xs).toList := by
  have hw : ∀ w, IsName w → c ∉ w.toList := by
    intro w h hw
    rw [h.part_of_mem hw] at hc
    cases hc
  have hfor := hw "for" (by decide)
  have hconst := hw "const" (by decide)
  have hof := hw "of" (by decide)
  simp only [List.mem_cons, List.not_mem_nil, or_false, not_or] at hm
  obtain ⟨hspace, hopen, hclose, hbrace⟩ := hm
  rw [toList_loopOpening]
  simp only [List.mem_cons, List.mem_append, List.not_mem_nil, hspace, hopen, hclose, hbrace, hfor,
    hconst, hof, hw x hx, hw xs hxs, or_self, not_false_eq_true]

theorem kept_loopOpening (hx : IsName x) (hxs : IsName xs) :
    Segment.Kept .standard (loopOpening x xs).toList where
  ends := Text.endsFirst_of_not_mem (not_mem_loopOpening hx hxs (by decide) (by decide))
  unmarked := by
    have hl : (loopOpening x xs).toList =
        (" for (const " ++ x ++ " of " ++ xs ++ ") \x7b").toList ++ [' '] := by
      simp only [loopOpening, String.toList_append, List.append_assoc]
      rfl
    rw [hl, List.getLast?_concat]
    nofun

theorem newlines_loopOpening (hx : IsName x) (hxs : IsName xs) :
    newlines (loopOpening x xs).toList = 0 :=
  List.count_eq_zero.mpr (not_mem_loopOpening hx hxs (by decide) (by decide))

theorem marked_loopOpening (x xs : String) (closer rest : List Char) :
    Tag.marked ((loopOpening x xs).toList ++ closer ++ rest) =
      (.code, (loopOpening x xs).toList ++ closer ++ rest) := by
  rw [toList_loopOpening]
  rfl

/-- The pieces of the closing tag of a loop. -/
theorem ofSource_loopClosing (line : Nat) :
    Piece.ofSource .standard line
        (Delimiters.standard.opener ++ [' ', '\x7d', ' ', '%', '>']) =
      .ok [.tag ⟨.code, [' ', '\x7d', ' '], line⟩] := by
  have hk : Segment.Kept .standard [' ', '\x7d', ' '] := by decide
  have hm : Tag.marked [' ', '\x7d', ' ', '%', '>'] =
      (.code, [' ', '\x7d', ' '] ++ Delimiters.standard.closer ++ []) := rfl
  rw [hk.ofSource hm, Piece.ofSource_nil]
  rfl

theorem parse_loopSource (hd : Delimiters.ofStrings? o.opener o.closer = some .standard)
    (he : o.eatspace = false) (hx : IsName x) (hxs : IsName xs)
    (h : Template.parse body o = .ok segments) :
    ∃ line, Template.parse (loopSource x xs body) o =
      .ok (.statement (loopOpening x xs) 1 :: (segments ++ [.statement " \x7d " line])) := by
  simp only [Template.parse, hd, Segment.scan, he] at h ⊢
  obtain ⟨pieces, hp, rfl⟩ := map_eq_ok (Template.mapError_eq_ok h)
  obtain ⟨line, hl⟩ := Piece.ofSource_append hp [' ', '\x7d', ' ', '%', '>']
  rw [ofSource_loopClosing] at hl
  refine ⟨line, ?_⟩
  rw [toList_loopSource, (kept_loopOpening hx hxs).ofSource (marked_loopOpening x xs _ _),
    newlines_loopOpening hx hxs, hl]
  obtain ⟨w, hw⟩ := Spacing.kept_append ⟨false, false⟩ pieces
    [.tag ⟨.code, [' ', '\x7d', ' '], line⟩]
  change Except.ok (.statement (String.ofList (loopOpening x xs).toList) 1 ::
    Segment.gather [] (Spacing.kept false ⟨false, false⟩ (pieces ++ _))) = _
  rw [hw, String.ofList_toList]
  exact congrArg (fun rest => Except.ok (_ :: rest)) (Segment.gather_concat_tag [] _ _)

namespace Script

theorem Items.ofSegments_append (h : ofSegments last segments = .ok items)
    (h' : ofSegments (lastLine last items) more = .ok items') :
    ofSegments last (segments ++ more) = .ok (items ++ items') := by
  induction segments generalizing last items with
  | nil =>
    cases h
    exact h'
  | cons segment rest ih =>
    obtain ⟨first, hf, h⟩ := bind_eq_ok h
    obtain ⟨others, ho, h⟩ := bind_eq_ok h
    cases h
    rw [lastLine_append] at h'
    rw [List.cons_append, ofSegments, hf]
    change ofSegments (lastLine last first) (rest ++ more) >>= _ = _
    rw [ih ho h', List.append_assoc]
    rfl

theorem loopHead?_const (hx : isReserved x = false) (l : Nat) (s : List Item) :
    ∃ r, loopHead? (.word "const" l :: .word x l :: .word "of" l :: s) = some r ∧
      r.value = (x, true) ∧ r.rest = s := by
  have he : eachHead? (.word x l :: .word "of" l :: s) =
      some ⟨(x, true), s, by simp only [List.length_cons]; omega⟩ := by
    rw [eachHead?, hx]
    rfl
  have hd : declHead? (.word "const" l :: .word x l :: .word "of" l :: s) =
      some ⟨.constant, .word x l :: .word "of" l :: s, Nat.lt_succ_self _⟩ := rfl
  rw [loopHead?, hd]
  dsimp only
  rw [he]
  exact ⟨_, rfl, rfl, rfl⟩

/-- Statements between the opening and the end of a loop are the block that it repeats. -/
theorem build_loopSource (hx : IsName x) (hxs : IsName xs) (hxr : isReserved x = false)
    (hxsr : isReserved xs = false) (h : build segments = .ok program) (line : Nat) :
    build (.statement (loopOpening x xs) 1 :: (segments ++ [.statement " \x7d " line])) =
      .ok [.forOf x (.ident xs) (.block program) 1] := by
  obtain ⟨items, hi, h⟩ := bind_eq_ok h
  have hd := derivesAll_of_statements h
  have hopening : lexemes (loopOpening x xs) 1 = .ok [.word "for" 1, .mark .openParen 1,
      .word "const" 1, .word x 1, .word "of" 1, .word xs 1, .mark .closeParen 1,
      .mark .openBrace 1] := by
    rw [lexemes, tokenize, ofCode_loopOpening hx hxs]
    rfl
  have hclosing : lexemes " \x7d " line = .ok [.mark .closeBrace line] := by
    have ho : Lexeme.ofCode " \x7d ".toList = .ok [.mark .closeBrace] := by
      change Lexeme.ofCode [' ', '\x7d', ' '] = _
      rw [Lexeme.ofCode_space, Lexeme.ofCode_mark (by decide) rfl, Lexeme.ofCode_space,
        Lexeme.ofCode]
      rfl
    rw [lexemes, tokenize, ho]
    rfl
  have hitems : Items.ofSegments 1
      (.statement (loopOpening x xs) 1 :: (segments ++ [.statement " \x7d " line])) =
      .ok (.word "for" 1 :: .mark .openParen 1 :: .word "const" 1 :: .word x 1 :: .word "of" 1 ::
        .word xs 1 :: .mark .closeParen 1 :: .mark .openBrace 1 ::
        (items ++ [.mark .closeBrace line])) := by
    have hc : Items.ofSegments (Items.lastLine 1 items) [.statement " \x7d " line] =
        .ok [.mark .closeBrace line] := by
      rw [Items.ofSegments, Items.ofSegment, hclosing]
      rfl
    rw [Items.ofSegments, Items.ofSegment, hopening]
    change Items.ofSegments 1 (segments ++ [.statement " \x7d " line]) >>= _ = _
    rw [Items.ofSegments_append hi hc]
    rfl
  obtain ⟨r, hr, hv, hrest⟩ := loopHead?_const hxr 1 (.word xs 1 :: .mark .closeParen 1 ::
    .mark .openBrace 1 :: (items ++ [.mark .closeBrace line]))
  have htarget : ∀ c, Derives c .assignment r.rest (.ident xs) (.mark .closeParen 1 ::
      .mark .openBrace 1 :: (items ++ [.mark .closeBrace line])) := by
    intro c
    rw [hrest]
    exact (Operand.ident hxsr).assignment rfl
  have hbody : ∀ c, Derives c .statement
      (.mark .openBrace 1 :: (items ++ [.mark .closeBrace line])) (.block program) [] := by
    intro c
    exact .braces (hd.block c line [])
  rw [build, hitems]
  apply statements_of_derivesAll
  exact .cons rfl (.keyword rfl (.forOf hr hv (htarget _) (hbody _))) .nil

end Script

/-- A loop over an array puts out what its body puts out for each element. -/
theorem Writes.loop {program : List Stmt} {f : Value → String}
    (hp : Stmt.AllPlaced false false program) (hk : Stmt.AllEvery .settled program)
    (hv : scope.values.get? xs = some (.array items))
    (h : ∀ v ∈ items, execute (scope.set x v) limit program = .ok (f v)) (line : Nat) :
    Writes scope limit [.forOf x (.ident xs) (.block program) line]
      (String.join (items.map f)) := by
  intro s hb hf
  obtain ⟨line', hr⟩ := each_of_execute hp hk items h (s := s.atLine line) hb hf
  have ha : Exec.atLine line s = .ok () (s.atLine line) := rfl
  have hx : eval scope limit (.ident xs) (s.atLine line) = .ok (.array items) (s.atLine line) := by
    rw [eval]
    exact lookup_of_values hb hf hv
  have he : exec scope limit (.forOf x (.ident xs) (.block program) line) s =
      .ok .normal { s with out := s.out ++ String.join (items.map f), line := line' } := by
    rw [exec, bind_eq_of_ok ha, bind_eq_of_ok hx]
    exact hr
  refine ⟨line', ?_⟩
  rw [run, bind_eq_of_ok he]
  rfl

theorem values_set (o : Options) (x : String) (v : Value) :
    (o.set x v).values = o.values.insert x v := by
  apply Table.ext
  intro name
  simp only [Options.values, Options.set, Table.get?_insert, Table.get?_extend]
  split <;> rfl

/-- A loop around a template puts out what the template does for each element of the array, in the
order of the array. -/
theorem render_loopSource {o : Options} {f : Value → String} (hopen : o.opener = "<%")
    (hclose : o.closer = "%>") (he : o.eatspace = false)
    (ht : Template.compile stamp body o env = .ok t) (hk : Stmt.AllEvery .settled t.program)
    (hx : IsName x) (hxr : isReserved x = false) (hxs : IsName xs) (hxsr : isReserved xs = false)
    (hd : o.data.get? xs = some (.array items))
    (hf : ∀ v ∈ items, t.render (o.set x v) = .ok (f v)) :
    (∀ stamp', ∃ t', Template.compile stamp' (loopSource x xs body) o env = .ok t' ∧
        t'.render o = .ok (String.join (items.map f))) ∧
      (o.cache = false → ∀ desk, (Rendering.render env (loopSource x xs body) o).run desk =
        .ok (String.join (items.map f)) (desk.compiled (loopSource x xs body) o)) := by
  have hstandard : Delimiters.ofStrings? o.opener o.closer = some .standard := by
    rw [hopen, hclose]
    rfl
  obtain ⟨segments, program, hs, hb, rfl⟩ := Template.eq_of_compile ht
  have hp : Stmt.AllPlaced false false program :=
    allPlaced_of_wellFormed program (wellFormed_of_build hb).1
  have hrounds : ∀ v ∈ items, execute (Scope.set ⟨o.values, o.locals, o.scope, env⟩ x v)
      maxRounds program = .ok (f v) := by
    intro v hv
    have hr := Template.mapError_eq_ok (hf v hv)
    rw [values_set] at hr
    exact hr
  have hw := Writes.loop hp hk (get?_values hd) hrounds 1
  obtain ⟨line, hrun⟩ := hw .initial rfl rfl
  obtain ⟨closing, hl⟩ := parse_loopSource hstandard he hx hxs hs
  have hbuild := build_loopSource hx hxs hxr hxsr hb closing
  have hall : ∀ stamp', ∃ t', Template.compile stamp' (loopSource x xs body) o env = .ok t' ∧
      t'.render o = .ok (String.join (items.map f)) := by
    intro stamp'
    refine ⟨_, Template.compile_of_build hl hbuild, ?_⟩
    have hx : execute ⟨o.values, o.locals, o.scope, env⟩ maxRounds
        [.forOf x (.ident xs) (.block program) 1] = .ok (String.join (items.map f)) := by
      rw [execute, hrun, State.initial, String.empty_append]
    simp only [Template.render, Template.renderWith, hx, Except.mapError]
  refine ⟨hall, fun hc desk => ?_⟩
  obtain ⟨t', ht', hr⟩ := hall desk.stamp
  exact Rendering.render_eq_ok hc ht' hr

/-- An output tag in front of a comma. -/
def itemTemplate : Template :=
  ⟨0, "<%= x %>,", none, [.emit " x " true 1, .literal ","],
    [.output (.ident "x") true 1, .text ","], .standard⟩

def itemOptions : Options :=
  { Options.initial with eatspace := false }.set "xs" (.array [.string "<", .bool true])

theorem compile_itemTemplate :
    Template.compile 0 "<%= x %>," itemOptions .standard = .ok itemTemplate := by
  have hp : Template.parse "<%= x %>," itemOptions = .ok itemTemplate.segments := by cbv
  have hb : build itemTemplate.segments = .ok itemTemplate.program := by cbv
  exact Template.compile_of_build hp hb

theorem render_loopSource_items :
    Template.compile 0 "<%= x %>," itemOptions .standard = .ok itemTemplate ∧
      Stmt.AllEvery .settled itemTemplate.program ∧
      (Rendering.render .standard "<% for (const x of xs) \x7b %><%= x %>,<% \x7d %>"
          itemOptions).run .new =
        .ok "&lt;,true," (Desk.new.compiled
          "<% for (const x of xs) \x7b %><%= x %>,<% \x7d %>" itemOptions) := by
  have hk : Stmt.AllEvery .settled itemTemplate.program :=
    ⟨⟨nofun, rfl, by decide⟩, nofun, trivial⟩
  have hf : ∀ v ∈ [Value.string "<", .bool true], itemTemplate.render (itemOptions.set "x" v) =
      .ok (Environment.standard.escaper v ++ ",") := by
    simp only [List.forall_mem_cons]
    exact ⟨rfl, rfl, List.forall_mem_nil _⟩
  have hx : IsName "x" ∧ isReserved "x" = false := by decide
  have hxs : IsName "xs" ∧ isReserved "xs" = false := by decide
  have hr := (render_loopSource rfl rfl rfl compile_itemTemplate hk hx.1 hx.2 hxs.1 hxs.2 rfl
    hf).2 rfl .new
  have hs : loopSource "x" "xs" "<%= x %>," =
      "<% for (const x of xs) \x7b %><%= x %>,<% \x7d %>" := by decide
  have hv : String.join ([Value.string "<", .bool true].map fun v =>
      Environment.standard.escaper v ++ ",") = "&lt;,true," := by decide
  rw [hs, hv] at hr
  exact ⟨compile_itemTemplate, hk, hr⟩

end Stencil

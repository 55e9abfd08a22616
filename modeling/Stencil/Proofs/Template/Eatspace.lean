import Stencil.Environment.Standard
import Stencil.Proofs.Script.Bare
import Stencil.Proofs.Script.Dependence
import Stencil.Proofs.Script.Name
import Stencil.Proofs.Script.Reread
import Stencil.Proofs.Segment.Spacing
import Stencil.Proofs.Template.Rendered

/-!
Eating space. A text is a statement, so one that vanishes may make room: what stands behind it becomes
the body of the loop in front of it, or belongs to the expression in front of it. The main statement
is `render_eatspace`: where that does not happen, only the white space of the output changes.
-/

namespace Stencil

open Script
open Spacing (bare bare_append bare_bare)

set_option autoImplicit true

namespace Script

/-- A text without its white space, which may be empty. -/
def bared (t : String) : Option String := some (bare t)

/-- An empty text goes. -/
def nonEmpty (t : String) : Option String := if t = "" then none else some t

theorem total_bared : Total bared := fun t => ⟨bare t, rfl⟩

theorem bare_bared (t : String) : bare ((bared t).getD "") = bare t := bare_bare t

theorem bare_nonEmpty (t : String) : bare ((nonEmpty t).getD "") = bare t := by
  unfold nonEmpty
  split
  · rename_i ht
    rw [ht]
    rfl
  · rfl

theorem nonEmpty_of_ne (h : t ≠ "") : nonEmpty t = some t := if_neg h

theorem Items.thin_text (h : f t = some t') (line : Nat) :
    Items.thin f [.text t line] = [.text t' line] := by
  have hi : (Item.text t line).thin f = some (.text t' line) := by
    rw [Item.thin, h]
    rfl
  exact List.filterMap_cons_some hi

theorem Items.ofSegments_cons {segment : Segment} (h : ofSegment last segment = .ok items)
    (hm : ofSegments (lastLine last items) segments = .ok more) :
    ofSegments last (segment :: segments) = .ok (items ++ more) := by
  rw [ofSegments, h]
  change ofSegments (lastLine last items) segments >>= _ = _
  rw [hm]
  rfl

theorem Items.ofSegments_literal (h : ofSegments last segments = .ok more) (t : String) :
    ofSegments last (.literal t :: segments) = .ok (.text t last :: more) := by
  have ht : ofSegment last (.literal t) = .ok [.text t last] := rfl
  exact ofSegments_cons ht h

/-- There are no texts in tags. -/
theorem Items.thin_of_ofSegment {segment : Segment} (h : ofSegment last segment = .ok items)
    (hs : segment.isLiteral = false) (g : String → Option String) : Items.thin g items = items := by
  cases segment with
  | literal t => cases hs
  | emit code escape line =>
    obtain ⟨e, he, rfl⟩ := map_eq_ok h
    have hi : (Item.output e escape line).thin g = some (.output e escape line) := by
      rw [Item.thin, thin_of_parseExpression he]
    exact List.filterMap_cons_some hi
  | statement code line =>
    obtain ⟨ls, rfl⟩ := eq_of_lexemes h
    exact Items.thin_lexemes g ls line

/-- Between the items of the two modes stand those of what remains of the texts. -/
theorem items_of_eaten (h : Segment.Eaten kept eaten) (hk : Items.ofSegments last kept = .ok s) :
    ∃ m t, Items.ofSegments last (Segment.remains kept eaten) = .ok m ∧
      Items.ofSegments last eaten = .ok t ∧ Thins bared bared s m ∧ Thins nonEmpty some m t := by
  induction h generalizing last s with
  | nil =>
    cases hk
    exact ⟨[], [], rfl, rfl, ⟨total_bared, rfl⟩, ⟨total_some, rfl⟩⟩
  | @tag kept eaten segment hs h ih =>
    obtain ⟨items, hi, hk⟩ := bind_eq_ok hk
    obtain ⟨more, hm, hk⟩ := bind_eq_ok hk
    cases hk
    obtain ⟨m, t, hm, ht, hsm, hmt⟩ := ih hm
    have hsame : Thins nonEmpty some items items :=
      ⟨total_some, (Items.thin_of_ofSegment hi hs nonEmpty).trans (Items.thin_some items).symm⟩
    refine ⟨items ++ m, items ++ t, ?_, Items.ofSegments_cons hi ht,
      .append ⟨total_bared, rfl⟩ hsm, hsame.append hmt⟩
    rw [Segment.remains_tag hs]
    exact Items.ofSegments_cons hi hm
  | @text s₁ t₁ kept eaten hbare hne h ih =>
    obtain ⟨items, hi, hk⟩ := bind_eq_ok hk
    obtain ⟨more, hm, hk⟩ := bind_eq_ok hk
    cases hk
    cases hi
    change Items.ofSegments last kept = .ok more at hm
    obtain ⟨m, t, hm, ht, hsm, hmt⟩ := ih hm
    have hbared : Thins bared bared [.text s₁ last] [.text t₁ last] := by
      refine ⟨total_bared, ?_⟩
      rw [Items.thin_text (f := bared) rfl, Items.thin_text (f := bared) rfl, hbare]
    have hleft : Thins nonEmpty some [.text t₁ last] [.text t₁ last] :=
      ⟨total_some, (Items.thin_text (nonEmpty_of_ne hne) last).trans (Items.thin_some _).symm⟩
    exact ⟨.text t₁ last :: m, .text t₁ last :: t, Items.ofSegments_literal hm t₁,
      Items.ofSegments_literal ht t₁, hbared.append hsm, hleft.append hmt⟩
  | @gone s₁ kept eaten hbare hh h ih =>
    obtain ⟨items, hi, hk⟩ := bind_eq_ok hk
    obtain ⟨more, hm, hk⟩ := bind_eq_ok hk
    cases hk
    cases hi
    change Items.ofSegments last kept = .ok more at hm
    obtain ⟨m, t, hm, ht, hsm, hmt⟩ := ih hm
    have hbared : Thins bared bared [.text s₁ last] [.text "" last] := by
      refine ⟨total_bared, ?_⟩
      rw [Items.thin_text (f := bared) rfl, Items.thin_text (f := bared) rfl, hbare]
      rfl
    have hgone : Thins nonEmpty some [.text "" last] [] := ⟨total_some, rfl⟩
    refine ⟨.text "" last :: m, t, ?_, ht, hbared.append hsm, hgone.append hmt⟩
    rw [Segment.remains_gone hh]
    exact Items.ofSegments_literal hm ""

end Script

/-- None of the texts that vanish where space is eaten is by itself the body of an `if`, an `else` or
a loop, and no statement in front of one would go on behind it. -/
def Segment.SpaceIdle (kept eaten : List Segment) : Prop :=
  ∀ items, Items.ofSegments 1 (Segment.remains kept eaten) = .ok items →
    Items.Thinnable nonEmpty items

/-- Between the statements of the two modes stand those of what remains of the texts. -/
theorem build_eaten (h : Segment.Eaten kept eaten) (hi : Segment.SpaceIdle kept eaten)
    (hk : build kept = .ok program) (he : build eaten = .ok program') :
    ∃ between, Stmt.thinAll bared program = Stmt.thinAll bared between ∧
      Stmt.thinAll nonEmpty between = program' := by
  obtain ⟨s, hs, hk⟩ := bind_eq_ok hk
  obtain ⟨t, ht, he⟩ := bind_eq_ok he
  obtain ⟨m, t', hm, ht', hsm, hmt⟩ := items_of_eaten h hs
  obtain rfl := Except.ok.inj (ht'.symm.trans ht)
  have hd := derivesAll_of_statements hk
  obtain ⟨between, hdm, hpm⟩ := hd.reread
    ⟨Items.thinnable_of_total total_bared s, List.suffix_refl s⟩ .front hsm 1
  obtain ⟨program'', hdt, hpt⟩ := hdm.reread ⟨hi m hm, List.suffix_refl m⟩ .front hmt
    (Items.lastLine 1 t')
  rw [Stmt.thinAll_some] at hpt
  obtain rfl := Except.ok.inj ((statements_of_derivesAll hdt).symm.trans he)
  exact ⟨between, hpm, hpt⟩

/-- Where no text that vanishes matters, the statements of the two modes run alike but for the white
space in the output. -/
theorem execute_eaten (h : Segment.Eaten kept eaten) (hi : Segment.SpaceIdle kept eaten)
    (hk : build kept = .ok program) (he : build eaten = .ok program') (scope : Scope)
    (limit : Nat) :
    (execute scope limit program').map bare = (execute scope limit program).map bare := by
  obtain ⟨between, hpm, rfl⟩ := build_eaten h hi hk he
  calc (execute scope limit (Stmt.thinAll nonEmpty between)).map bare
    _ = (execute scope limit between).map bare := execute_thin bare_nonEmpty scope limit between
    _ = (execute scope limit (Stmt.thinAll bared between)).map bare :=
      (execute_thin bare_bared scope limit between).symm
    _ = (execute scope limit (Stmt.thinAll bared program)).map bare := by rw [hpm]
    _ = (execute scope limit program).map bare := execute_thin bare_bared scope limit program

theorem Entries.get?_extend_congr {entries entries' : Entries α}
    (h : entries.get? name = entries'.get? name) (more : Entries α) :
    (entries.extend more).get? name = (entries'.extend more).get? name := by
  induction more generalizing entries entries' with
  | nil => exact h
  | cons e more ih =>
    refine ih ?_
    rw [get?_insert, get?_insert, h]

/-- How space is treated shows in the value of `eatspace` only. -/
theorem get?_values_eatspace (o : Options) (hn : name ≠ "eatspace") (eatspace : Bool) :
    { o with eatspace := eatspace }.values.get? name = o.values.get? name := by
  have hfirst (b : Bool) : Entries.get? name (Entries.extend []
      [("open", Value.string o.opener), ("close", .string o.closer), ("eatspace", .bool b)]) =
      Entries.get? name (Entries.extend []
        [("open", Value.string o.opener), ("close", .string o.closer)]) :=
    Entries.get?_insert_of_ne hn _ _
  have hall := Entries.get?_extend_congr ((hfirst eatspace).trans (hfirst o.eatspace).symm)
    (("cache", .bool o.cache) :: ("debug", .bool o.debug) ::
      (Options.textField "filename" o.filename ++ Options.textField "layout" o.layout ++
        Options.textField "views" o.views))
  unfold Options.values
  rw [Table.get?_extend, Table.get?_extend]
  exact congrArg (Option.or _) hall

theorem agree_eatspace (o : Options) (env : Environment)
    (hn : name ≠ "eatspace" ∧ name ≠ "locals") :
    Scope.Agree ⟨{ o with eatspace := false }.values, o.locals, o.scope, env⟩
      ⟨{ o with eatspace := true }.values, o.locals, o.scope, env⟩ name where
  ne_locals := hn.2
  outer? := by
    have hv := (get?_values_eatspace o hn.1 false).trans (get?_values_eatspace o hn.1 true).symm
    exact congrArg (·.or (o.locals.get? name)) hv

namespace Template

theorem map_mapError (x : Except ε α) (f : ε → ε') (g : α → β) :
    (x.mapError f).map g = (x.map g).mapError f := by
  cases x <;> rfl

/-- Eating space changes nothing but the white space of the output, if no text that vanishes matters
to a statement and the template asks neither for `eatspace` nor for all values at once. -/
theorem render_eatspace {stamp : Nat} {source : String} {o : Options} {env : Environment}
    (hk : compile stamp source { o with eatspace := false } env = .ok t)
    (he : compile stamp' source { o with eatspace := true } env = .ok t')
    (hn : Stmt.AllEvery (.reading fun name => name ≠ "eatspace" ∧ name ≠ "locals") t.program)
    (hi : Segment.SpaceIdle t.segments t'.segments) :
    (t'.render { o with eatspace := true }).map bare =
      (t.render { o with eatspace := false }).map bare := by
  obtain ⟨kept, program, hp, hb, rfl⟩ := eq_of_compile hk
  obtain ⟨eaten, program', hp', hb', rfl⟩ := eq_of_compile he
  have hsame := execute_congr (rfl : o.scope = o.scope) (rfl : env = env)
    (fun _ => agree_eatspace o env) hn maxRounds
  have heaten := execute_eaten (eaten_of_parse hp hp') hi hb hb'
    ⟨{ o with eatspace := true }.values, o.locals, o.scope, env⟩ maxRounds
  unfold render renderWith
  rw [map_mapError, map_mapError]
  exact congrArg (Except.mapError _) (heaten.trans (congrArg (Except.map bare) hsame.symm))

/-- A condition `a` and a text `b`. -/
def answered (a : Bool) : Options := (Options.initial.set "a" (.bool a)).set "b" (.string "B")

theorem ofCode_if (hr : Lexeme.ofCode rest = .ok ls) :
    Lexeme.ofCode ("if(a)".toList ++ rest) =
      .ok (.word "if" :: .mark .openParen :: .word "a" :: .mark .closeParen :: ls) := by
  change Lexeme.ofCode ("if".toList ++ '(' :: ("a".toList ++ ')' :: rest)) = _
  rw [Lexeme.ofCode_word (by decide) rfl, Lexeme.ofCode_mark (by decide) rfl,
    Lexeme.ofCode_word (by decide) rfl, Lexeme.ofCode_mark (by decide) rfl, hr]
  rfl

theorem ofSegment_if : Items.ofSegment 1 (.statement "if(a)" 1) =
    .ok [.word "if" 1, .mark .openParen 1, .word "a" 1, .mark .closeParen 1] := by
  have hn : Lexeme.ofCode [] = .ok [] := by rw [Lexeme.ofCode]
  have hc : Lexeme.ofCode "if(a)".toList =
      .ok [.word "if", .mark .openParen, .word "a", .mark .closeParen] := ofCode_if hn
  rw [Items.ofSegment, lexemes, tokenize, hc]
  rfl

theorem ofSegment_opening : Items.ofSegment 1 (.statement "if(a)\x7b" 1) =
    .ok [.word "if" 1, .mark .openParen 1, .word "a" 1, .mark .closeParen 1,
      .mark .openBrace 1] := by
  have hb : Lexeme.ofCode ['\x7b'] = .ok [.mark .openBrace] := by
    rw [Lexeme.ofCode_mark (by decide) rfl, Lexeme.ofCode]
    rfl
  have hc : Lexeme.ofCode "if(a)\x7b".toList = .ok [.word "if", .mark .openParen, .word "a",
      .mark .closeParen, .mark .openBrace] := ofCode_if hb
  rw [Items.ofSegment, lexemes, tokenize, hc]
  rfl

/-- A block over three tags, with its tabs. -/
def tabbed : Template :=
  ⟨0, "<%if(a)\x7b%>\t<%=b%>\t<%\x7d%>", none,
    [.statement "if(a)\x7b" 1, .literal "\t", .emit "b" true 1, .literal "\t",
      .statement "\x7d" 1],
    [.branch (.ident "a") (.block [.text "\t", .output (.ident "b") true 1, .text "\t"]) none 1],
    .standard⟩

/-- The same block with its tabs eaten. -/
def untabbed : Template :=
  ⟨1, tabbed.source, none,
    [.statement "if(a)\x7b" 1, .emit "b" true 1, .statement "\x7d" 1],
    [.branch (.ident "a") (.block [.output (.ident "b") true 1]) none 1],
    .standard⟩

theorem compile_tabbed :
    compile 0 tabbed.source { answered true with eatspace := false } .standard = .ok tabbed := by
  have hp : parse tabbed.source { answered true with eatspace := false } =
    .ok tabbed.segments := by cbv
  have hb : build tabbed.segments = .ok tabbed.program := by
    rw [build, tabbed, Items.ofSegments, ofSegment_opening]
    cbv
  exact compile_of_build hp hb

theorem compile_untabbed :
    compile 1 tabbed.source { answered true with eatspace := true } .standard = .ok untabbed := by
  have hp : parse tabbed.source { answered true with eatspace := true } =
    .ok untabbed.segments := by cbv
  have hb : build untabbed.segments = .ok untabbed.program := by
    rw [build, untabbed, Items.ofSegments, ofSegment_opening]
    cbv
  exact compile_of_build hp hb

/-- The tabs stand behind a brace and in front of one. -/
theorem spaceIdle_tabbed : Segment.SpaceIdle tabbed.segments untabbed.segments := by
  intro items hi
  have hitems : Items.ofSegments 1 (Segment.remains tabbed.segments untabbed.segments) =
      .ok [.word "if" 1, .mark .openParen 1, .word "a" 1, .mark .closeParen 1, .mark .openBrace 1,
        .text "" 1, .output (.ident "b") true 1, .text "" 1, .mark .closeBrace 1] := by
    have hr : Segment.remains tabbed.segments untabbed.segments =
        [.statement "if(a)\x7b" 1, .literal "", .emit "b" true 1, .literal "",
          .statement "\x7d" 1] := rfl
    rw [hr, Items.ofSegments, ofSegment_opening]
    cbv
  obtain rfl := Except.ok.inj (hi.symm.trans hitems)
  refine Items.thinnable (fun {item t n s} hs _ => ?_) (fun {t n l m s} hs _ => ?_)
  · have hitem : item = .mark .openBrace 1 ∨ item = .output (.ident "b") true 1 := by
      simp [List.suffix_cons_iff] at hs
      exact hs.imp And.left And.left
    rcases hitem with rfl | rfl
    · constructor <;> intro h <;> cases h
    · constructor <;> intro h <;> cases h
  · simp [List.suffix_cons_iff] at hs
    exact hs.2.1.1

theorem render_eatspace_tabbed :
    compile 0 tabbed.source { answered true with eatspace := false } .standard = .ok tabbed ∧
      compile 1 tabbed.source { answered true with eatspace := true } .standard = .ok untabbed ∧
      Stmt.AllEvery (.reading fun name => name ≠ "eatspace" ∧ name ≠ "locals") tabbed.program ∧
      Segment.SpaceIdle tabbed.segments untabbed.segments ∧
      tabbed.render { answered true with eatspace := false } = .ok "\tB\t" ∧
      (untabbed.render { answered true with eatspace := true }).map bare = .ok "B" := by
  have hn : Stmt.AllEvery (.reading fun name => name ≠ "eatspace" ∧ name ≠ "locals")
      tabbed.program := by
    simp [tabbed, Stmt.AllEvery, Stmt.Every, Stmt.OptionEvery, Expr.Every, Checks.reading,
      Expr.reads?]
  have hr : tabbed.render { answered true with eatspace := false } = .ok "\tB\t" := rfl
  have he := render_eatspace compile_tabbed compile_untabbed hn spaceIdle_tabbed
  rw [hr] at he
  exact ⟨compile_tabbed, compile_untabbed, hn, spaceIdle_tabbed, hr, he⟩

/-- A tab that is the body of an `if`. -/
def governed : Template :=
  ⟨0, "<%if(a)%>\t<%=b%>", none, [.statement "if(a)" 1, .literal "\t", .emit "b" true 1],
    [.branch (.ident "a") (.text "\t") none 1, .output (.ident "b") true 1], .standard⟩

/-- Without the tab the output that follows it is the body. -/
def ungoverned : Template :=
  ⟨1, governed.source, none, [.statement "if(a)" 1, .emit "b" true 1],
    [.branch (.ident "a") (.output (.ident "b") true 1) none 1], .standard⟩

/-- A tab that vanishes leaves its place as a body to what stands behind it. -/
theorem render_eatspace_governed :
    compile 0 governed.source { answered false with eatspace := false } .standard =
        .ok governed ∧
      compile 1 governed.source { answered false with eatspace := true } .standard =
        .ok ungoverned ∧
      Stmt.AllEvery (.reading fun name => name ≠ "eatspace" ∧ name ≠ "locals") governed.program ∧
      Stmt.AllEvery (.reading fun name => name ≠ "eatspace" ∧ name ≠ "locals")
        ungoverned.program ∧
      governed.render { answered false with eatspace := false } = .ok "B" ∧
      ungoverned.render { answered false with eatspace := true } = .ok "" ∧
      bare "B" ≠ bare "" := by
  have hp : parse governed.source { answered false with eatspace := false } =
    .ok governed.segments := by cbv
  have hb : build governed.segments = .ok governed.program := by
    rw [build, governed, Items.ofSegments, ofSegment_if]
    cbv
  have hp' : parse governed.source { answered false with eatspace := true } =
    .ok ungoverned.segments := by cbv
  have hb' : build ungoverned.segments = .ok ungoverned.program := by
    rw [build, ungoverned, Items.ofSegments, ofSegment_if]
    cbv
  refine ⟨compile_of_build hp hb, compile_of_build hp' hb', ?_, ?_, rfl, rfl, by decide⟩
  · simp [governed, Stmt.AllEvery, Stmt.Every, Stmt.OptionEvery, Expr.Every, Checks.reading,
      Expr.reads?]
  · simp [ungoverned, Stmt.AllEvery, Stmt.Every, Stmt.OptionEvery, Expr.Every, Checks.reading,
      Expr.reads?]

end Template

end Stencil

import Mathlib
import Stencil.Environment.Standard
import Stencil.Proofs.Script.Culprit
import Stencil.Proofs.Script.Located
import Stencil.Proofs.Script.Name
import Stencil.Proofs.Script.Operand
import Stencil.Proofs.Template.Rendered

/-!
The place that is reported when a template fails while it runs. It is the line of the tag in which the
innermost statement under execution begins, unless this statement gives back a value.
-/

namespace Stencil

open Script
open Traced

set_option autoImplicit true

namespace Script

/-- The innermost statement under execution when the run of a program stops early. -/
def culprit? (scope : Scope) (limit : Nat) (program : List Stmt) : Option Stmt :=
  match runTraced scope limit program .initial with
  | .ok _ _ => none
  | .error (_, culprit) _ => culprit

/-- A run that fails does so in some statement, whose line it ends at. -/
theorem culprit_of_execute {S : Stmt → Prop} (k : Hereditary E S)
    (hS : ∀ stmt ∈ program, S stmt) (h : execute scope limit program = .error (.error e, line)) :
    ∃ stmt, culprit? scope limit program = some stmt ∧ S stmt ∧ stmt.At line := by
  have ha := (told_run k scope limit program hS).alike (s := .initial) trivial
  unfold execute at h
  unfold culprit?
  generalize runTraced scope limit program .initial = r, run scope limit program .initial = r'
    at h ha ⊢
  cases ha with
  | ok _ => cases h
  | unowned hu => exact hu.elim
  | owned hs hl =>
    cases h
    exact ⟨_, rfl, hs, hl⟩
  | exhausted => cases h

end Script

namespace Template

variable {stamp : Nat} {source : String} {o : Options} {env : Environment} {t : Template}
  {values locals : Table Value} {self : Value}

/-- A template that fails while it runs is reported at the line of the tag in which the innermost
statement under execution begins, unless that statement gives back a value. -/
theorem line_of_failed (hc : compile stamp source o env = .ok t)
    (hr : t.renderWith values locals self = .error (.failed place cause)) :
    ∃ stmt, culprit? ⟨values, locals, self, t.env⟩ maxRounds t.program = some stmt ∧
      ((∃ e, stmt = .giveBack (some e)) ∨
        (∃ segment, stmt.BeginsIn t.segments segment) ∧
        ∀ segment, stmt.BeginsIn t.segments segment → segment.line? = some place.line) := by
  obtain ⟨segments, program, -, hb, rfl⟩ := eq_of_compile hc
  have hk := hereditary_every (.ofStmt (Stmt.Located segments))
  have hS := stmts_every (located_of_build hb)
  obtain ⟨⟨halt, line⟩, he, hf⟩ := mapError_eq_error hr
  cases halt with
  | exhausted => cases hf
  | error e =>
    cases hf
    obtain ⟨stmt, hculprit, hstmt, hat⟩ := culprit_of_execute hk hS he
    refine ⟨stmt, hculprit, ?_⟩
    rcases hat with hline | hreturn
    · exact .inr ⟨hstmt.here line hline, fun segment h => h.line hline⟩
    · exact .inl hreturn

/-- The first tag of a call with a callback that goes on behind the tag. -/
def mapping : String := "xs.map(function()\x7b "

def mappingOptions : Options := Options.initial.set "xs" (.array [.bool true])

theorem ofSegment_mapping : Items.ofSegment 1 (.statement mapping 1) =
    .ok [.word "xs" 1, .mark .dot 1, .word "map" 1, .mark .openParen 1, .word "function" 1,
      .mark .openParen 1, .mark .closeParen 1, .mark .openBrace 1] := by
  have hc : Lexeme.ofCode mapping.toList = .ok [.word "xs", .mark .dot, .word "map",
      .mark .openParen, .word "function", .mark .openParen, .mark .closeParen,
      .mark .openBrace] := by
    change Lexeme.ofCode ("xs".toList ++ '.' :: ("map".toList ++ '(' :: ("function".toList ++
      ['(', ')', '\x7b', ' ']))) = _
    rw [Lexeme.ofCode_word (by decide) rfl, Lexeme.ofCode_dot rfl,
      Lexeme.ofCode_word (by decide) rfl, Lexeme.ofCode_mark (by decide) rfl,
      Lexeme.ofCode_word (by decide) rfl, Lexeme.ofCode_mark (by decide) rfl,
      Lexeme.ofCode_mark (by decide) rfl, Lexeme.ofCode_mark (by decide) rfl,
      Lexeme.ofCode_space, Lexeme.ofCode]
    rfl
  rw [Items.ofSegment, lexemes, tokenize, hc]
  rfl

/-- A callback over three tags with an output tag on the second line. -/
def spread : Template :=
  ⟨0, "<%xs.map(function()\x7b %>\n<%=y%><%\x7d)%>", none,
    [.statement mapping 1, .literal " ", .emit "y" true 2, .statement "\x7d)" 2],
    [.expr (.method (.ident "xs") "map"
      [.function [] [.text " ", .output (.ident "y") true 2]]) 1],
    .standard⟩

theorem compile_spread : compile 0 spread.source mappingOptions .standard = .ok spread := by
  have hp : parse spread.source mappingOptions = .ok spread.segments := by cbv
  have hb : build spread.segments = .ok spread.program := by
    rw [build, spread, Items.ofSegments, ofSegment_mapping]
    cbv
  exact compile_of_build hp hb

theorem line_of_failed_spread :
    compile 0 spread.source mappingOptions .standard = .ok spread ∧
      spread.render mappingOptions =
        .error (.failed (.of none spread.source 2) (.undefined "y")) ∧
      ∃ stmt, culprit? ⟨mappingOptions.values, mappingOptions.locals, mappingOptions.scope,
          spread.env⟩ maxRounds spread.program = some stmt ∧
        ((∃ e, stmt = .giveBack (some e)) ∨
          (∃ segment, stmt.BeginsIn spread.segments segment) ∧
          ∀ segment, stmt.BeginsIn spread.segments segment → segment.line? = some 2) := by
  have hr : spread.render mappingOptions =
      .error (.failed (.of none spread.source 2) (.undefined "y")) := rfl
  exact ⟨compile_spread, hr, line_of_failed compile_spread hr⟩

/-- A callback over two tags that gives back a value in the second one. -/
def returning : Template :=
  ⟨0, "<%xs.map(function()\x7b %>\n<%return y\x7d)%>", none,
    [.statement mapping 1, .literal " ", .statement "return y\x7d)" 2],
    [.expr (.method (.ident "xs") "map"
      [.function [] [.text " ", .giveBack (some (.ident "y"))]]) 1],
    .standard⟩

theorem compile_returning :
    compile 0 returning.source mappingOptions .standard = .ok returning := by
  have hp : parse returning.source mappingOptions = .ok returning.segments := by cbv
  have hb : build returning.segments = .ok returning.program := by
    rw [build, returning, Items.ofSegments, ofSegment_mapping]
    cbv
  exact compile_of_build hp hb

/-- A statement that gives back a value begins on the second line and is reported on the first. -/
theorem line_of_failed_returning :
    compile 0 returning.source mappingOptions .standard = .ok returning ∧
      returning.render mappingOptions =
        .error (.failed (.of none returning.source 1) (.undefined "y")) ∧
      culprit? ⟨mappingOptions.values, mappingOptions.locals, mappingOptions.scope, returning.env⟩
        maxRounds returning.program = some (.giveBack (some (.ident "y"))) ∧
      ∃ segment, (Stmt.giveBack (some (.ident "y"))).BeginsIn returning.segments segment ∧
        segment.line? = some 2 := by
  have hy : Derives ⟨2, false, true⟩ .assignment
      [.word "y" 2, .mark .closeBrace 2, .mark .closeParen 2] (.ident "y")
      [.mark .closeBrace 2, .mark .closeParen 2] :=
    (Operand.ident (by decide)).assignment rfl
  have hd : Derives ⟨2, false, true⟩ .statement
      [.word "return" 2, .word "y" 2, .mark .closeBrace 2, .mark .closeParen 2]
      (.giveBack (some (.ident "y"))) [.mark .closeBrace 2, .mark .closeParen 2] :=
    .keyword rfl (.giveBack rfl (.returned rfl hy))
  have hs : returning.segments =
      [.statement mapping 1, .literal " "] ++ .statement "return y\x7d)" 2 :: [] := rfl
  have hi : lexemes "return y\x7d)" 2 =
      .ok ([] ++ .word "return" 2 :: [.word "y" 2, .mark .closeBrace 2, .mark .closeParen 2]) := by
    cbv
  have hm : Items.ofSegments 2 [] = .ok [] := rfl
  exact ⟨compile_returning, rfl, rfl, _, ⟨_, _, _, _, .code hs hi hm, hd, .inl rfl⟩, rfl⟩

end Template

end Stencil

import Mathlib
import Stencil.Proofs.Script.Locality
import Stencil.Script.Program

/-!
Code tags side by side. The tokens of all tags make one sequence, so a statement at the end of one
tag may go on in the next. The main statement is `build_adjacent`: where it does not, the statements
of two tags are those of the one and then those of the other.
-/

namespace Stencil.Script

set_option autoImplicit true

/-- The last of some statements, read from the items `s`, would go on with the head of `t`. -/
def LastGoesOn (program : List Stmt) (s t : List Item) : Prop :=
  ∃ stmt l, program.getLast? = some stmt ∧ Items.found t = .lexeme l ∧ stmt.GoesOn s l

/-- The statements of the first code, which is complete by itself, would go on with the first lexeme
of the second. -/
def Continues (line₁ : Nat) (code₁ : String) (line₂ : Nat) (code₂ : String) : Prop :=
  ∃ program items₁ items₂, build [.statement code₁ line₁] = .ok program ∧
    lexemes code₁ line₁ = .ok items₁ ∧ lexemes code₂ line₂ = .ok items₂ ∧
      LastGoesOn program items₁ items₂

theorem DerivesAll.opens (h : DerivesAll last s program) : (Items.found s).Opens := by
  cases h with
  | nil => trivial
  | cons _ hs _ => exact hs.opens

theorem LastGoesOn.cons (h : LastGoesOn program s t) (hs : s ≠ []) (u : List Item) :
    LastGoesOn (stmt :: program) (u ++ s) t := by
  obtain ⟨final, l, hp, hf, hg⟩ := h
  exact ⟨final, l, by rw [List.getLast?_cons, hp]; rfl, hf,
    hg.of_suffix hs (List.suffix_append u s) rfl⟩

theorem DerivesAll.append (h : DerivesAll last s program) (ht : DerivesAll last' t program')
    (hl : ¬LastGoesOn program s t) : DerivesAll last' (s ++ t) (program ++ program') := by
  induction h with
  | nil => exact ht
  | @cons s stmt s₁ more ha hs hm ih =>
    obtain ⟨u, rfl, hu⟩ := hs.ends
    have hq : Quiet (stmt.GoesOn u) s₁ (s₁ ++ t) := by
      refine .right fun h₁ => ?_
      cases hm with
      | nil =>
        rw [List.append_nil] at hl
        exact .inr ⟨ht.opens, fun l hf hg => hl ⟨stmt, l, rfl, hf, hg⟩⟩
      | cons _ h' => exact absurd h₁ (ne_nil_of_statement h')
    have hm' : ¬LastGoesOn more s₁ t := by
      intro hg
      cases hm with
      | nil =>
        obtain ⟨_, _, hn, -⟩ := hg
        cases hn
      | cons _ h' => exact hl (hg.cons (ne_nil_of_statement h') u)
    rw [List.append_assoc]
    exact .cons (Items.after?_congr (Items.found_append hu _ _) ha)
      (hs.before rfl ⟨nofun, nofun⟩ hq) (ih hm')

/-- The line that is given for the end does not count. -/
theorem DerivesAll.relocate (h : DerivesAll last s program) (last' : Nat) :
    DerivesAll last' s program := by
  have hn : DerivesAll last' [] [] := .nil
  have h' := h.append hn fun ⟨_, _, _, hf, _⟩ => nomatch hf
  rwa [List.append_nil, List.append_nil] at h'

theorem derivesAll_of_build (h : build [.statement code line] = .ok program) :
    ∃ items, lexemes code line = .ok items ∧ DerivesAll (Items.lastLine 1 items) items program := by
  obtain ⟨items, hi, h⟩ := bind_eq_ok h
  obtain ⟨items', hi', hi⟩ := bind_eq_ok hi
  obtain ⟨_, hn, hi⟩ := bind_eq_ok hi
  cases hn
  cases hi
  rw [List.append_nil] at h
  exact ⟨items', hi', derivesAll_of_statements h⟩

/-- The statements of two code tags, each complete by itself, are those of the one and then those of
the other, unless the first goes on in the second. -/
theorem build_adjacent (h₁ : build [.statement code₁ line₁] = .ok program₁)
    (h₂ : build [.statement code₂ line₂] = .ok program₂)
    (h : ¬Continues line₁ code₁ line₂ code₂) :
    build [.statement code₁ line₁, .statement code₂ line₂] = .ok (program₁ ++ program₂) := by
  obtain ⟨items₁, hi₁, hd₁⟩ := derivesAll_of_build h₁
  obtain ⟨items₂, hi₂, hd₂⟩ := derivesAll_of_build h₂
  have hd := hd₁.append hd₂ fun hl => h ⟨program₁, items₁, items₂, h₁, hi₁, hi₂, hl⟩
  have hs := statements_of_derivesAll (hd.relocate (Items.lastLine 1 (items₁ ++ items₂)))
  have hitems : Items.ofSegments 1 [.statement code₁ line₁, .statement code₂ line₂] =
      .ok (items₁ ++ items₂) := by
    simp only [Items.ofSegments, Items.ofSegment, hi₁, hi₂, bind, Except.bind, pure, Except.pure,
      List.append_nil]
  rw [build, hitems]
  exact hs

/-- A change by one takes no call after it. -/
theorem build_adjacent_update : build [.statement "x++" 1] = .ok [.expr (.update "x" true false) 1] ∧
    build [.statement "(y)" 2] = .ok [.expr (.ident "y") 2] ∧ ¬Continues 1 "x++" 2 "(y)" ∧
    build [.statement "x++" 1, .statement "(y)" 2] =
      .ok [.expr (.update "x" true false) 1, .expr (.ident "y") 2] := by
  have h₁ : build [.statement "x++" 1] = .ok [.expr (.update "x" true false) 1] := by cbv
  have h₂ : build [.statement "(y)" 2] = .ok [.expr (.ident "y") 2] := by cbv
  have hi₁ : lexemes "x++" 1 = .ok [.word "x" 1, .mark .increment 1] := by cbv
  have hi₂ : lexemes "(y)" 2 = .ok [.mark .openParen 2, .word "y" 2, .mark .closeParen 2] := by cbv
  have h : ¬Continues 1 "x++" 2 "(y)" := by
    rintro ⟨_, _, _, hp, hs, ht, _, _, hf, hl, -, hg⟩
    rw [h₁] at hp
    cases hp
    rw [hi₁] at hs
    cases hs
    rw [hi₂] at ht
    cases ht
    cases hf
    cases hl
    obtain hg | ⟨_, hg⟩ | hg := hg
    · cases hg
    · cases hg
    · exact hg ⟨"x", true, false, rfl⟩
  exact ⟨h₁, h₂, h, build_adjacent h₁ h₂ h⟩

/-- A call of a variable may begin in the next tag, and a semicolon there belongs to the statement
before it. -/
theorem build_adjacent_variable : build [.statement "x" 1] = .ok [.expr (.ident "x") 1] ∧
    (build [.statement "(y)" 1] = .ok [.expr (.ident "y") 1] ∧
      build [.statement "x" 1, .statement "(y)" 1] = .ok [.expr (.call "x" [.ident "y"]) 1]) ∧
    build [.statement ";" 1] = .ok [.empty] ∧
      build [.statement "x" 1, .statement ";" 1] = .ok [.expr (.ident "x") 1] := by
  refine ⟨?_, ⟨?_, ?_⟩, ?_, ?_⟩ <;> cbv

end Stencil.Script

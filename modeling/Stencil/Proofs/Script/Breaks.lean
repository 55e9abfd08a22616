import Stencil.Proofs.Script.Lexing

/-!
Code over several lines. No token goes on over a line break, so code can be cut at one, and the two
parts can stand in tags of their own.
-/

namespace Stencil.Script

set_option autoImplicit true

theorem tokenize_newline (h : tokenize a line = .ok tokens) (b : String) :
    tokenize (a ++ "\n" ++ b) line = (tokenize b line).map (tokens ++ ·) := by
  obtain ⟨ls, hls, rfl⟩ := map_eq_ok h
  have hl : (a ++ "\n" ++ b).toList = a.toList ++ '\n' :: b.toList := by
    rw [String.toList_append, String.toList_append, List.append_assoc]
    rfl
  rw [tokenize, hl, Lexeme.ofCode_append hls rfl (.inl rfl), Lexeme.ofCode_blank rfl, tokenize]
  cases Lexeme.ofCode b.toList with
  | error fault => rfl
  | ok more => exact congrArg Except.ok List.map_append

theorem lexemes_eq_ok_iff : lexemes code line = .ok items ↔
    ∃ tokens, tokenize code line = .ok tokens ∧ items = tokens.map Item.ofToken := by
  rw [lexemes]
  cases tokenize code line with
  | error fault =>
    constructor
    · intro h
      cases h
    · rintro ⟨_, h, -⟩
      cases h
  | ok tokens =>
    constructor
    · intro h
      exact ⟨tokens, rfl, (Except.ok.inj h).symm⟩
    · rintro ⟨_, h, rfl⟩
      cases h
      rfl

theorem lexemes_newline (h : lexemes a line = .ok items) (b : String) :
    lexemes (a ++ "\n" ++ b) line = (lexemes b line).map (items ++ ·) := by
  obtain ⟨tokens, ht, rfl⟩ := lexemes_eq_ok_iff.mp h
  rw [lexemes, tokenize_newline ht, lexemes]
  cases tokenize b line with
  | error fault => rfl
  | ok more => exact congrArg Except.ok List.map_append

namespace Items

theorem lastLine_append (last : Nat) (s t : List Item) :
    lastLine last (s ++ t) = lastLine (lastLine last s) t := by
  unfold lastLine
  rw [List.getLast?_append]
  cases t.getLast? with
  | none => rfl
  | some item => rfl

/-- Segments may give way to others that make the same items, whatever stands before them. -/
theorem ofSegments_congr (h : ∀ last, ofSegments last segments = ofSegments last segments')
    (before : List Segment) (last : Nat) :
    ofSegments last (before ++ segments) = ofSegments last (before ++ segments') := by
  induction before generalizing last with
  | nil => exact h last
  | cons segment before ih => simp only [List.cons_append, ofSegments, ih]

theorem ofSegments_newline {line : Nat} (h : lexemes a line = .ok items) (b : String) (last : Nat)
    (after : List Segment) :
    ofSegments last (.statement a line :: .statement b line :: after) =
      ofSegments last (.statement (a ++ "\n" ++ b) line :: after) := by
  simp only [ofSegments, ofSegment, lexemes_newline h, h]
  cases lexemes b line with
  | error e => rfl
  | ok more =>
    simp only [bind, Except.bind, Except.map, pure, Except.pure, lastLine_append]
    cases ofSegments (lastLine (lastLine last items) more) after with
    | error e => rfl
    | ok rest => exact congrArg Except.ok (List.append_assoc items more rest).symm

end Items

/-- A line break divides the tokens of code like the border of two tags. -/
theorem tokenize_and_build_newline (h : tokenize a line = .ok tokens) (b : String) :
    tokenize (a ++ "\n" ++ b) line = (tokenize b line).map (tokens ++ ·) ∧
      ∀ before after, build (before ++ .statement a line :: .statement b line :: after) =
        build (before ++ .statement (a ++ "\n" ++ b) line :: after) := by
  refine ⟨tokenize_newline h b, fun before after => ?_⟩
  have hl : lexemes a line = .ok (tokens.map Item.ofToken) := lexemes_eq_ok_iff.mpr ⟨tokens, h, rfl⟩
  have hs := Items.ofSegments_congr (fun last => Items.ofSegments_newline hl b last after) before 1
  rw [build, build, hs]

/-- A comment ends at the line break, and a statement goes on behind it. -/
theorem build_newline_comment :
    tokenize "x = y // it's" 2 =
        .ok [⟨.word "x", 2⟩, ⟨.mark .set, 2⟩, ⟨.word "y", 2⟩] ∧
      tokenize "x = y // it's\n+ z" 2 = .ok [⟨.word "x", 2⟩, ⟨.mark .set, 2⟩, ⟨.word "y", 2⟩,
        ⟨.mark .plus, 2⟩, ⟨.word "z", 2⟩] ∧
      build [.statement "x = y // it's" 2, .statement "+ z" 2] =
        build [.statement "x = y // it's\n+ z" 2] := by
  have h : tokenize "x = y // it's" 2 =
      .ok [⟨.word "x", 2⟩, ⟨.mark .set, 2⟩, ⟨.word "y", 2⟩] := by cbv
  obtain ⟨ht, hb⟩ := tokenize_and_build_newline h "+ z"
  have hz : tokenize "+ z" 2 = .ok [⟨.mark .plus, 2⟩, ⟨.word "z", 2⟩] := by cbv
  rw [hz] at ht
  exact ⟨h, ht, hb [] []⟩

end Stencil.Script

import Stencil.Proofs.Script.Completeness
import Stencil.Proofs.Script.Operand
import Stencil.Script.Program

/-!
Names and marks as code. The name of a variable with white space around it is read as that variable.
-/

namespace Stencil

open Stencil.Text (isBlank isAlphabetic isAsciiLetter isAsciiDigit inRanges_iff)

set_option autoImplicit true

namespace Text

theorem code_of_isAsciiLetter (h : isAsciiLetter c = true) :
    65 ≤ c.toNat ∧ c.toNat ≤ 90 ∨ 97 ≤ c.toNat ∧ c.toNat ≤ 122 := by
  simp only [isAsciiLetter, Bool.or_eq_true, Bool.and_eq_true, decide_eq_true_eq, Char.le_def,
    UInt32.le_iff_toNat_le] at h
  rcases h with h | h
  · exact .inr h
  · exact .inl h

theorem code_of_isAsciiDigit (h : isAsciiDigit c = true) : 48 ≤ c.toNat ∧ c.toNat ≤ 57 := by
  simp only [isAsciiDigit, Bool.and_eq_true, decide_eq_true_eq, Char.le_def,
    UInt32.le_iff_toNat_le] at h
  exact h

theorem blanks_apart : ∀ b ∈ blankRanges, b.2 < 48 ∨
    122 < b.1 ∧ ∀ r ∈ alphabeticRanges ++ numericRanges, b.2 < r.1 ∨ r.2 < b.1 := by
  decide +kernel

/-- A letter or a number is an ASCII one or is in the tables. -/
theorem code_of_isAlphanumeric (h : isAlphanumeric c = true) :
    48 ≤ c.toNat ∧ c.toNat ≤ 122 ∨
      128 ≤ c.toNat ∧ ∃ r ∈ alphabeticRanges ++ numericRanges, r.1 ≤ c.toNat ∧ c.toNat ≤ r.2 := by
  rcases Bool.or_eq_true_iff.mp h with h | h
  · unfold isAlphabetic at h
    split at h
    · have hc := code_of_isAsciiLetter h
      omega
    · obtain ⟨r, hr, hin⟩ := inRanges_iff.mp h
      exact .inr ⟨by omega, r, List.mem_append_left _ hr, hin⟩
  · unfold isNumeric at h
    split at h
    · have hc := code_of_isAsciiDigit h
      omega
    · obtain ⟨r, hr, hin⟩ := inRanges_iff.mp h
      exact .inr ⟨by omega, r, List.mem_append_right _ hr, hin⟩

/-- No letter or number is white space. -/
theorem isBlank_of_isAlphanumeric (h : isAlphanumeric c = true) : isBlank c = false := by
  rw [← Bool.not_eq_true]
  intro hb
  obtain ⟨b, hm, hlo, hhi⟩ := inRanges_iff.mp hb
  rcases blanks_apart b hm with hd | ⟨hd, hapart⟩
  · rcases code_of_isAlphanumeric h with hc | ⟨hc, _⟩ <;> omega
  · rcases code_of_isAlphanumeric h with hc | ⟨_, r, hr, hrlo, hrhi⟩
    · omega
    · rcases hapart r hr with hd | hd <;> omega

theorem isBlank_of_isAlphabetic (h : isAlphabetic c = true) : isBlank c = false :=
  isBlank_of_isAlphanumeric (Bool.or_eq_true_iff.mpr (.inl h))

theorem isAlphanumeric_of_isAsciiDigit (h : isAsciiDigit c = true) : isAlphanumeric c = true := by
  have hc := code_of_isAsciiDigit h
  have hn : isNumeric c = true := by
    rw [isNumeric, if_pos (by omega)]
    exact h
  exact Bool.or_eq_true_iff.mpr (.inr hn)

theorem isAsciiDigit_of_isAlphabetic (h : isAlphabetic c = true) : isAsciiDigit c = false := by
  rw [← Bool.not_eq_true]
  intro hd
  have hc := code_of_isAsciiDigit hd
  unfold isAlphabetic at h
  split at h
  · have hl := code_of_isAsciiLetter h
    omega
  · omega

end Text

namespace Script

/-- The lexer takes the text for one word. -/
def IsName (name : String) : Prop :=
  ∃ c rest, name.toList = c :: rest ∧ isNameStart c = true ∧ ∀ x ∈ rest, isNamePart x = true

instance : DecidablePred IsName := fun name =>
  match hn : name.toList with
  | [] => isFalse fun ⟨_, _, h, _⟩ => nomatch hn.symm.trans h
  | c :: rest =>
    decidable_of_iff (isNameStart c = true ∧ rest.all isNamePart = true)
      ⟨fun ⟨h, hd⟩ => ⟨c, rest, hn, h, List.all_eq_true.mp hd⟩, fun ⟨_, _, h, hc, hd⟩ => by
        cases hn.symm.trans h
        exact ⟨hc, List.all_eq_true.mpr hd⟩⟩

theorem isNameStart_cases (h : isNameStart c = true) :
    isAlphabetic c = true ∨ c = '_' ∨ c = '$' := by
  simpa only [isNameStart, Bool.or_eq_true, beq_iff_eq, or_assoc] using h

theorem isBlank_of_isNameStart (h : isNameStart c = true) : isBlank c = false := by
  rcases isNameStart_cases h with h | rfl | rfl
  · exact Text.isBlank_of_isAlphabetic h
  · rfl
  · rfl

theorem isAsciiDigit_of_isNameStart (h : isNameStart c = true) : isAsciiDigit c = false := by
  rcases isNameStart_cases h with h | rfl | rfl
  · exact Text.isAsciiDigit_of_isAlphabetic h
  · rfl
  · rfl

theorem ne_of_isNameStart (h : isNameStart c = true) (hd : isNameStart d = false) : c ≠ d := by
  rintro rfl
  rw [h] at hd
  cases hd

theorem IsName.part_of_mem (h : IsName name) (hx : x ∈ name.toList) : isNamePart x = true := by
  obtain ⟨c, rest, hn, hc, hrest⟩ := h
  rw [hn] at hx
  rcases List.mem_cons.mp hx with rfl | hx
  · rcases isNameStart_cases hc with hc | rfl | rfl
    · simp only [isNamePart, Text.isAlphanumeric, hc, Bool.true_or]
    · rfl
    · rfl
  · exact hrest x hx

/-- A name with a blank on either side. -/
theorem toList_between (name : String) :
    (" " ++ name ++ " ").toList = ' ' :: (name.toList ++ [' ']) := by
  rw [String.toList_append, String.toList_append]
  rfl

namespace Lexeme

theorem ofCode_blank (hc : isBlank c = true) (rest : List Char) :
    ofCode (c :: rest) = ofCode rest := by
  rw [ofCode, if_pos hc]
  · rintro comment rfl
    cases hc
  · rintro comment rfl
    cases hc

theorem ofCode_space (rest : List Char) : ofCode (' ' :: rest) = ofCode rest :=
  ofCode_blank rfl rest

theorem ofCode_name (hc : isNameStart c = true) : ofCode (c :: rest) =
    (ofCode (rest.dropWhile isNamePart)).map
      (.word (String.ofList (c :: rest.takeWhile isNamePart)) :: ·) := by
  have hslash : c ≠ '/' := ne_of_isNameStart hc rfl
  have hquote : ¬(c = '"' ∨ c = '\'') := by
    rintro (h | h)
    · exact ne_of_isNameStart hc rfl h
    · exact ne_of_isNameStart hc rfl h
  have hdecimal : ¬Decimal.startsDecimal (c :: rest) = true := by
    have hdot : (c == '.') = false := beq_eq_false_iff_ne.mpr (ne_of_isNameStart hc rfl)
    rw [Decimal.startsDecimal, isAsciiDigit_of_isNameStart hc, hdot]
    exact Bool.false_ne_true
  rw [ofCode, isBlank_of_isNameStart hc, if_neg Bool.false_ne_true, dif_neg hdecimal,
    if_neg hquote, if_pos hc]
  · intro comment h
    exact absurd h hslash
  · intro comment h
    exact absurd h hslash

/-- A name is a word, up to a character that cannot be part of it. -/
theorem ofCode_word (h : IsName name) (hr : rest.head?.any isNamePart = false) :
    ofCode (name.toList ++ rest) = (ofCode rest).map (.word name :: ·) := by
  obtain ⟨c, cs, hn, hc, hcs⟩ := h
  have hd : rest.dropWhile isNamePart = rest := by
    cases rest with
    | nil => rfl
    | cons d rest => exact List.dropWhile_cons_of_neg (Bool.eq_false_iff.mp hr)
  have ht : rest.takeWhile isNamePart = [] := by
    cases rest with
    | nil => rfl
    | cons d rest => exact List.takeWhile_cons_of_neg (Bool.eq_false_iff.mp hr)
  rw [hn, List.cons_append, ofCode_name hc, List.dropWhile_append_of_pos hcs, hd,
    List.takeWhile_append_of_pos hcs, ht, List.append_nil, ← hn, String.ofList_toList]

def beginsComment : List Char → Bool
  | c :: d :: _ => c == '/' && (d == '/' || d == '*')
  | _ => false

theorem beginsComment_of_ne (hc : c ≠ '/') (rest : List Char) :
    beginsComment (c :: rest) = false := by
  cases rest with
  | nil => rfl
  | cons d rest => rw [beginsComment, beq_eq_false_iff_ne.mpr hc, Bool.false_and]

/-- A mark that begins no comment, number, text or longer mark. -/
theorem ofCode_punct
    (hc : isBlank c = false ∧ ¬(c = '"' ∨ c = '\'') ∧ isNameStart c = false)
    (hs : beginsComment (c :: s) = false) (hd : Decimal.startsDecimal (c :: s) = false)
    (hm : mark? (c :: s) = some (p, rest)) :
    ofCode (c :: s) = (ofCode rest).map (.mark p :: ·) := by
  obtain ⟨hb, hq, hn⟩ := hc
  rw [ofCode, hb, if_neg Bool.false_ne_true, dif_neg (Bool.eq_false_iff.mp hd), if_neg hq, hn,
    if_neg Bool.false_ne_true]
  · split
    · rename_i h
      cases hm.symm.trans h
    · rename_i h
      cases hm.symm.trans h
      rfl
  · rintro comment rfl rfl
    cases hs
  · rintro comment rfl rfl
    cases hs

theorem ofCode_mark (hc : c ∈ ['(', ')', '\x7b', '\x7d', ';', ','])
    (hm : mark? (c :: rest) = some (p, rest)) :
    ofCode (c :: rest) = (ofCode rest).map (.mark p :: ·) := by
  have h : (isBlank c = false ∧ ¬(c = '"' ∨ c = '\'') ∧ isNameStart c = false) ∧
      c ≠ '/' ∧ isAsciiDigit c = false ∧ (c == '.') = false := by
    simp only [List.mem_cons, List.not_mem_nil, or_false] at hc
    rcases hc with rfl | rfl | rfl | rfl | rfl | rfl <;> decide
  refine ofCode_punct h.1 (beginsComment_of_ne h.2.1 rest) ?_ hm
  rw [Decimal.startsDecimal, h.2.2.1, h.2.2.2]
  rfl

/-- A dot that begins no number. -/
theorem ofCode_dot (hd : Decimal.startsDecimal ('.' :: rest) = false) :
    ofCode ('.' :: rest) = (ofCode rest).map (.mark .dot :: ·) := by
  have hc : isBlank '.' = false ∧ ¬('.' = '"' ∨ '.' = '\'') ∧ isNameStart '.' = false := by
    decide
  exact ofCode_punct hc (beginsComment_of_ne (by decide) rest) hd rfl

/-- The code of an output tag that has only a name in it. -/
theorem ofCode_between (h : IsName name) :
    ofCode (" " ++ name ++ " ").toList = .ok [.word name] := by
  rw [toList_between, ofCode_space, ofCode_word h rfl, ofCode_space, ofCode]
  rfl

end Lexeme

/-- A variable is an operand where nothing goes on with it. -/
theorem Derives.variable (hn : isReserved name = false) (hd : Items.after? .dot s = none)
    (hb : Items.after? .openBracket s = none) (hp : Items.after? .openParen s = none)
    (hs : stepHead? s = none) : Derives c .unary (.word name line :: s) (.ident name) s :=
  .noUnary (unaryHead?_of_opensOperand (opensOperand_of_not_reserved hn))
    (stepHead?_of_opensOperand (opensOperand_of_not_reserved hn))
    (.noStep (.chain (.ident (atom_of_not_reserved hn)) (.chainEnd hd hb hp)) fun _ _ => hs)

/-- Code that is one expression to its end is read as it. -/
theorem parseExpression_of_derives (hl : lexemes code line = .ok items)
    (hd : Derives ⟨line, false, false⟩ .assignment items e []) :
    parseExpression code line = .ok e := by
  obtain ⟨hlt, ha⟩ := accepts_of_derives hd
  have hne : items.isEmpty = false := List.isEmpty_eq_false_iff.mpr (List.ne_nil_of_length_pos hlt)
  rw [parseExpression, hl]
  simp only [bind, Except.bind, hne, Bool.false_eq_true, if_false, ha, List.isEmpty_nil, if_true]
  rfl

/-- The code of a tag with only the name of a variable in it is that variable. -/
theorem parseExpression_name (h : IsName name) (hn : isReserved name = false) :
    parseExpression (" " ++ name ++ " ") line = .ok (.ident name) := by
  have hl : lexemes (" " ++ name ++ " ") line = .ok [.word name line] := by
    rw [lexemes, tokenize, Lexeme.ofCode_between h]
    rfl
  have hunary : Derives ⟨line, false, false⟩ .unary [.word name line] (.ident name) [] :=
    .variable hn rfl rfl rfl rfl
  exact parseExpression_of_derives hl
    (.unassigned rfl (.noChoice (.binary hunary (.noOperator nofun)) rfl))

end Script

end Stencil

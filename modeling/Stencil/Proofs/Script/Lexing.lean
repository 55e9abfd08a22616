import Stencil.Proofs.Script.Name
import Stencil.Proofs.Segment.Concat

/-!
Reading code as lexemes, one step at a time, and what becomes of a step when the code goes on.
`Takes` says what is taken at one place, `Reads` goes on with it to the end of the code. A step ends
in front of a character that divides lexemes, whatever follows it (`Takes.append`), unless it is a
comment that runs to the end of its line; and characters that divide and open nothing can be left
off again (`Takes.of_append`).
-/

namespace Stencil

open Stencil.Text (isBlank after? cut? isAsciiDigit)

set_option autoImplicit true

namespace Text

theorem takeWhile_append_cons {p : α → Bool} (hd : p d = false) (s t : List α) :
    (s ++ d :: t).takeWhile p = s.takeWhile p := by
  induction s with
  | nil => exact List.takeWhile_cons_of_neg (Bool.eq_false_iff.mp hd)
  | cons c s ih => rw [List.cons_append, List.takeWhile_cons, List.takeWhile_cons, ih]

theorem dropWhile_append_cons {p : α → Bool} (hd : p d = false) (s t : List α) :
    (s ++ d :: t).dropWhile p = s.dropWhile p ++ d :: t := by
  induction s with
  | nil => exact List.dropWhile_cons_of_neg (Bool.eq_false_iff.mp hd)
  | cons c s ih =>
    rw [List.cons_append, List.dropWhile_cons, List.dropWhile_cons, ih]
    split <;> rfl

theorem ne_of_eq_false {p : α → Bool} (hx : p x = true) (hy : p y = false) : x ≠ y := by
  rintro rfl
  rw [hx] at hy
  cases hy

theorem not_mem_of_all {p : α → Bool} {w : List α} (hw : ∀ c ∈ w, p c = true) (hx : p x = false) :
    x ∉ w :=
  fun h => ne_of_eq_false (hw x h) hx rfl

/-- A needle without a `d` does not reach over one. -/
theorem after?_append_cons {needle : List Char} (hd : d ∉ needle) (s t : List Char) :
    after? needle (s ++ d :: t) = (after? needle s).map (· ++ d :: t) := by
  induction needle generalizing s with
  | nil => rfl
  | cons a needle ih =>
    have hda := List.ne_of_not_mem_cons hd
    cases s with
    | nil => exact if_neg (Ne.symm hda)
    | cons b s =>
      rw [List.cons_append, after?, after?]
      split
      · exact ih (List.not_mem_of_not_mem_cons hd) s
      · rfl

/-- Where an element stands that is not in the second of two lists, it stands in the first. -/
theorem append_eq_of_not_mem {s w : List α} (h : s ++ w = a ++ x :: b) (hx : x ∉ w) :
    ∃ r, s = a ++ x :: r ∧ b = r ++ w := by
  obtain ⟨u, -, rfl⟩ | ⟨u, rfl, hu⟩ := List.append_eq_append_iff.mp h
  · exact absurd (List.mem_append_right u List.mem_cons_self) hx
  · cases u with
    | nil =>
      obtain rfl : x :: b = w := hu
      exact absurd List.mem_cons_self hx
    | cons y r =>
      obtain ⟨rfl, rfl⟩ := List.cons.inj hu
      exact ⟨r, rfl, rfl⟩

end Text

namespace Decimal

theorem signed_append (hd : d ≠ '+' ∧ d ≠ '-') (s t : List Char) :
    signed (s ++ d :: t) = ((signed s).1, (signed s).2 ++ d :: t) := by
  fun_cases signed s with
  | case1 s => rfl
  | case2 s => rfl
  | case3 s hplus hminus =>
    cases s with
    | nil =>
      rw [List.nil_append, signed]
      · rintro s ⟨⟩
        exact hd.1 rfl
      · rintro s ⟨⟩
        exact hd.2 rfl
    | cons c s =>
      rw [List.cons_append, signed]
      · rintro r ⟨⟩
        exact hplus s rfl
      · rintro r ⟨⟩
        exact hminus s rfl

theorem exponentPart?_append (hd : isAsciiDigit d = false) (hsign : d ≠ '+' ∧ d ≠ '-')
    (hmark : d ≠ 'e' ∧ d ≠ 'E') (s t : List Char) :
    exponentPart? (s ++ d :: t) = (exponentPart? s).map fun p => (p.1, p.2 ++ d :: t) := by
  cases s with
  | nil => exact if_neg (not_or.mpr hmark)
  | cons c s =>
    rw [List.cons_append, exponentPart?, exponentPart?]
    split
    · simp only [signed_append hsign, Text.takeWhile_append_cons hd, Text.dropWhile_append_cons hd]
      split <;> rfl
    · rfl

/-- A decimal of which the digits are read and the exponent is not. -/
def Parts.upTo (whole fraction s : List Char) : Parts :=
  match exponentPart? s with
  | some (e, rest) => ⟨whole, fraction, e, rest⟩
  | none => ⟨whole, fraction, 0, s⟩

theorem parts_of_point (h : s.dropWhile isAsciiDigit = '.' :: r) : parts s =
    .upTo (s.takeWhile isAsciiDigit) (r.takeWhile isAsciiDigit) (r.dropWhile isAsciiDigit) := by
  unfold parts
  rw [h]
  rfl

theorem parts_of_no_point (h : ∀ r, s.dropWhile isAsciiDigit ≠ '.' :: r) : parts s =
    .upTo (s.takeWhile isAsciiDigit) [] (s.dropWhile isAsciiDigit) := by
  unfold parts
  split
  rename_i heq
  split at heq
  · rename_i r hr
    exact absurd hr (h r)
  · cases heq
    rfl

theorem Parts.upTo_append (hd : isAsciiDigit d = false) (hsign : d ≠ '+' ∧ d ≠ '-')
    (hmark : d ≠ 'e' ∧ d ≠ 'E') (whole fraction s t : List Char) :
    upTo whole fraction (s ++ d :: t) =
      { upTo whole fraction s with rest := (upTo whole fraction s).rest ++ d :: t } := by
  rw [upTo, upTo, exponentPart?_append hd hsign hmark]
  cases exponentPart? s with
  | none => rfl
  | some p => rfl

/-- A decimal ends in front of a character that cannot be part of one. -/
theorem parts_append (hd : isAsciiDigit d = false) (hsign : d ≠ '+' ∧ d ≠ '-')
    (hmark : d ≠ 'e' ∧ d ≠ 'E') (hpoint : d ≠ '.') (s t : List Char) :
    parts (s ++ d :: t) = { parts s with rest := (parts s).rest ++ d :: t } := by
  have htake := Text.takeWhile_append_cons hd
  have hdrop := Text.dropWhile_append_cons hd
  by_cases hp : ∃ r, s.dropWhile isAsciiDigit = '.' :: r
  · obtain ⟨r, hr⟩ := hp
    have hr' : (s ++ d :: t).dropWhile isAsciiDigit = '.' :: (r ++ d :: t) := by
      rw [hdrop, hr]
      rfl
    rw [parts_of_point hr', parts_of_point hr, htake, htake, hdrop,
      Parts.upTo_append hd hsign hmark]
  · rw [not_exists] at hp
    have hp' (r : List Char) : (s ++ d :: t).dropWhile isAsciiDigit ≠ '.' :: r := by
      rw [hdrop]
      intro h
      cases hs : s.dropWhile isAsciiDigit with
      | nil =>
        rw [hs] at h
        exact hpoint (List.cons.inj h).1
      | cons c rest =>
        rw [hs] at h
        obtain rfl := (List.cons.inj h).1
        exact hp rest hs
    rw [parts_of_no_point hp', parts_of_no_point hp, htake, hdrop,
      Parts.upTo_append hd hsign hmark]

theorem startsDecimal_append (hd : isAsciiDigit d = false) (hs : s ≠ []) (t : List Char) :
    startsDecimal (s ++ d :: t) = startsDecimal s := by
  obtain ⟨c, s, rfl⟩ := List.exists_cons_of_ne_nil hs
  cases s with
  | nil => simp [startsDecimal, hd]
  | cons e s => rfl

end Decimal

namespace Script.Lexeme

/-- What is taken at one place of code: the lexemes of it, at most one, and the rest. -/
inductive Takes : List Char → List Lexeme → List Char → Prop
  | blank : isBlank c = true → Takes (c :: s) [] s
  | lineComment : Takes ('/' :: '/' :: s) [] (s.dropWhile (· ≠ '\n'))
  | comment : cut? ['*', '/'] s = some (before, rest) → Takes ('/' :: '*' :: s) [] rest
  | number : Decimal.startsDecimal s = true →
      Takes s [.number (Decimal.parts s).value] (Decimal.parts s).rest
  | text : c = '"' ∨ c = '\'' → quotedText c s = .ok (cs, rest) →
      Takes (c :: s) [.text (String.ofList cs)] rest
  | word : isNameStart c = true →
      Takes (c :: s) [.word (String.ofList (c :: s.takeWhile isNamePart))] (s.dropWhile isNamePart)
  | mark : beginsComment s = false → Decimal.startsDecimal s = false →
      mark? s = some (p, rest) → Takes s [.mark p] rest

/-- The lexemes of code, step by step to its end. -/
inductive Reads : List Char → List Lexeme → Prop
  | nil : Reads [] []
  | step : Takes s l rest → Reads rest ls → Reads s (l ++ ls)

theorem Takes.ne_nil (h : Takes s ls rest) : s ≠ [] := by
  rintro rfl
  cases h with
  | number h => cases h
  | mark _ _ h => cases h

/-- No mark looks like the beginning of another lexeme. -/
theorem opens_of_mark? (h : mark? s = some (p, rest)) : ∃ c cs, s = c :: cs ∧
    isBlank c = false ∧ ¬(c = '"' ∨ c = '\'') ∧ isNameStart c = false := by
  have hp : ∃ c cs, p.text.toList = c :: cs ∧
      isBlank c = false ∧ ¬(c = '"' ∨ c = '\'') ∧ isNameStart c = false := by
    cases p <;> exact ⟨_, _, rfl, by decide⟩
  obtain ⟨c, cs, ht, hc⟩ := hp
  refine ⟨c, cs ++ rest, ?_, hc⟩
  rw [eq_of_mark? h, ht]
  rfl

theorem opens_of_startsDecimal (h : Decimal.startsDecimal (c :: s) = true) :
    isBlank c = false ∧ c ≠ '/' := by
  rcases Bool.or_eq_true_iff.mp h with h | h
  · refine ⟨Text.isBlank_of_isAlphanumeric (Text.isAlphanumeric_of_isAsciiDigit h), ?_⟩
    rintro rfl
    cases h
  · obtain rfl : c = '.' := beq_iff_eq.mp (Bool.and_eq_true_iff.mp h).1
    decide

theorem ofCode_lineComment (s : List Char) :
    ofCode ('/' :: '/' :: s) = ofCode (s.dropWhile (· ≠ '\n')) := by
  rw [ofCode]
  rfl

theorem ofCode_comment (h : cut? ['*', '/'] s = some (before, rest)) :
    ofCode ('/' :: '*' :: s) = ofCode rest := by
  rw [ofCode, if_neg (by decide)]
  split
  · rename_i hn
    cases hn.symm.trans h
  · rename_i hs
    cases hs.symm.trans h
    rfl

theorem ofCode_number (h : Decimal.startsDecimal s = true) : ofCode s =
    (ofCode (Decimal.parts s).rest).map (.number (Decimal.parts s).value :: ·) := by
  cases s with
  | nil => cases h
  | cons c s =>
    obtain ⟨hb, hslash⟩ := opens_of_startsDecimal h
    rw [ofCode, hb, if_neg Bool.false_ne_true, dif_pos h]
    · intro comment hc
      exact absurd hc hslash
    · intro comment hc
      exact absurd hc hslash

theorem ofCode_text (hc : c = '"' ∨ c = '\'') (h : quotedText c s = .ok (cs, rest)) :
    ofCode (c :: s) = (ofCode rest).map (.text (String.ofList cs) :: ·) := by
  have hq : isBlank c = false ∧ c ≠ '/' ∧ isAsciiDigit c = false ∧ (c == '.') = false := by
    rcases hc with rfl | rfl <;> decide
  have hd : ¬Decimal.startsDecimal (c :: s) = true := by
    rw [Decimal.startsDecimal, hq.2.2.1, hq.2.2.2]
    exact Bool.false_ne_true
  rw [ofCode, hq.1, if_neg Bool.false_ne_true, dif_neg hd, if_pos hc]
  · split
    · rename_i he
      cases he.symm.trans h
    · rename_i he
      cases he.symm.trans h
      rfl
  · intro comment he
    exact absurd he hq.2.1
  · intro comment he
    exact absurd he hq.2.1

theorem map_nil_append (r : Except LexFault (List Lexeme)) : r.map ([] ++ ·) = r := by
  cases r <;> rfl

theorem ofCode_of_takes (h : Takes s ls rest) : ofCode s = (ofCode rest).map (ls ++ ·) := by
  cases h with
  | blank hc => rw [ofCode_blank hc, map_nil_append]
  | lineComment => rw [ofCode_lineComment, map_nil_append]
  | comment h => rw [ofCode_comment h, map_nil_append]
  | number h => exact ofCode_number h
  | text hc h => exact ofCode_text hc h
  | word hc => exact ofCode_name hc
  | mark hb hd hm =>
    obtain ⟨c, cs, rfl, hc⟩ := opens_of_mark? hm
    exact ofCode_punct hc hb hd hm

theorem ofCode_of_reads (h : Reads s ls) : ofCode s = .ok ls := by
  induction h with
  | nil => rw [ofCode]
  | step ht _ ih =>
    rw [ofCode_of_takes ht, ih]
    rfl

theorem reads_of_ofCode (h : ofCode s = .ok ls) : Reads s ls := by
  fun_induction ofCode s generalizing ls with
  | case1 =>
    cases h
    exact .nil
  | case2 c rest hb ih => exact .step (.blank hb) (ih h)
  | case3 comment hb ih => exact .step .lineComment (ih h)
  | case4 => cases h
  | case5 comment before rest hcut hb ih => exact .step (.comment hcut) (ih h)
  | case6 c rest hl hm hd hb ih =>
    obtain ⟨ls, hr, rfl⟩ := map_eq_ok h
    exact .step (.number hd) (ih hr)
  | case7 => cases h
  | case8 c rest hl hm hd hq cs after ht hb ih =>
    obtain ⟨ls, hr, rfl⟩ := map_eq_ok h
    exact .step (.text hq ht) (ih hr)
  | case9 c rest hl hm hd hq hn hb ih =>
    obtain ⟨ls, hr, rfl⟩ := map_eq_ok h
    exact .step (.word hn) (ih hr)
  | case10 => cases h
  | case11 c rest hl hm hd hq hn p after hp hb ih =>
    obtain ⟨ls, hr, rfl⟩ := map_eq_ok h
    have hs : beginsComment (c :: rest) = false := by
      cases rest with
      | nil => rfl
      | cons e rest =>
        rw [beginsComment, ← Bool.not_eq_true, Bool.and_eq_true, Bool.or_eq_true, beq_iff_eq,
          beq_iff_eq, beq_iff_eq]
        rintro ⟨hc, rfl | rfl⟩
        · exact hl rest hc rfl
        · exact hm rest hc rfl
    exact .step (.mark hs (Bool.eq_false_iff.mpr hd) hp) (ih hr)

theorem quotedText_quote (quote : Char) (s : List Char) :
    quotedText quote (quote :: s) = .ok ([], s) := by
  rw [quotedText.eq_def]
  exact if_pos rfl

theorem quotedText_char (hq : c ≠ quote) (hn : c ≠ '\n') (hb : c ≠ '\\') (s : List Char) :
    quotedText quote (c :: s) = (quotedText quote s).map fun r => (c :: r.1, r.2) := by
  rw [quotedText.eq_def]
  dsimp only
  rw [if_neg hq, if_neg hn, if_neg hb]

theorem quotedText_escape (hq : '\\' ≠ quote) (he : e ≠ 'u') (s : List Char) :
    quotedText quote ('\\' :: e :: s) =
      (quotedText quote s).map fun r => (escaped e ++ r.1, r.2) := by
  rw [quotedText.eq_def]
  dsimp only
  rw [if_neg hq, if_neg (by decide), if_pos rfl, if_neg he]

theorem quotedText_hex (hq : '\\' ≠ quote) (hu : charOfHex? (s.take 4) = some u) :
    quotedText quote ('\\' :: 'u' :: s) =
      (quotedText quote (s.drop 4)).map fun r => (u :: r.1, r.2) := by
  rw [quotedText.eq_def]
  dsimp only
  rw [if_neg hq, if_neg (by decide), if_pos rfl, if_pos rfl, hu]

/-- What is read between the quotes of a text does not depend on what follows it. -/
theorem quotedText_local (h : quotedText quote s = .ok (cs, rest)) :
    ∃ inside, s = inside ++ quote :: rest ∧
      ∀ t, quotedText quote (inside ++ quote :: t) = .ok (cs, t) := by
  fun_induction quotedText quote s generalizing cs rest with
  | case1 => cases h
  | case2 s =>
    cases h
    exact ⟨[], rfl, quotedText_quote quote⟩
  | case3 => cases h
  | case4 => cases h
  | case5 => cases h
  | case6 s u hu hq hn ih =>
    obtain ⟨⟨cs, rest⟩, hr, he⟩ := map_eq_ok h
    cases he
    obtain ⟨inside, hs, hlocal⟩ := ih hr
    have hlong : 4 ≤ s.length := by
      have := congrArg List.length hs
      rw [List.length_append, List.length_drop, List.length_cons] at this
      omega
    refine ⟨'\\' :: 'u' :: (s.take 4 ++ inside), ?_, fun t => ?_⟩
    · rw [List.cons_append, List.cons_append, List.append_assoc, ← hs, List.take_append_drop]
    · have htake : (s.take 4).length = 4 := List.length_take_of_le hlong
      have hu' : charOfHex? ((s.take 4 ++ (inside ++ quote :: t)).take 4) = some u := by
        rw [List.take_left' htake, hu]
      rw [List.cons_append, List.cons_append, List.append_assoc, quotedText_hex hq hu',
        List.drop_left' htake, hlocal]
      rfl
  | case7 e s hu hq hn ih =>
    obtain ⟨⟨cs, rest⟩, hr, he⟩ := map_eq_ok h
    cases he
    obtain ⟨inside, rfl, hlocal⟩ := ih hr
    refine ⟨'\\' :: e :: inside, rfl, fun t => ?_⟩
    rw [List.cons_append, List.cons_append, quotedText_escape hq hu, hlocal]
    rfl
  | case8 c s hq hn hb ih =>
    obtain ⟨⟨cs, rest⟩, hr, he⟩ := map_eq_ok h
    cases he
    obtain ⟨inside, rfl, hlocal⟩ := ih hr
    refine ⟨c :: inside, rfl, fun t => ?_⟩
    rw [List.cons_append, quotedText_char hq hn hb, hlocal]
    rfl

/-- The marks that go on with a number, with a mark or with the beginning of a comment. -/
def joining : List Char := ['.', '+', '-', '=', '&', '|', '/', '*']

/-- A character at which a lexeme ends, whatever follows it. -/
def divides (c : Char) : Bool := !isNamePart c && !joining.contains c

theorem mem_joining (p : Punct) : ∀ c ∈ p.text.toList.tail, c ∈ joining := by
  have h : p.text.toList.tail.all joining.contains = true := by cases p <;> rfl
  intro c hc
  exact List.contains_iff_mem.mp (List.all_eq_true.mp h c hc)

theorem divides_iff : divides d = true ↔ isNamePart d = false ∧ d ∉ joining := by
  rw [divides, Bool.and_eq_true, Bool.not_eq_true', Bool.not_eq_true', List.contains_eq_mem,
    decide_eq_false_iff_not]

theorem isAsciiDigit_of_divides (hd : divides d = true) : isAsciiDigit d = false := by
  rw [← Bool.not_eq_true]
  intro h
  have hn := (divides_iff.mp hd).1
  rw [isNamePart, Text.isAlphanumeric_of_isAsciiDigit h] at hn
  cases hn

theorem isBlank_of_isNamePart (h : isNamePart c = true) : isBlank c = false := by
  simp only [isNamePart, Bool.or_eq_true, beq_iff_eq, or_assoc] at h
  rcases h with h | rfl | rfl
  · exact Text.isBlank_of_isAlphanumeric h
  · rfl
  · rfl

theorem divides_of_isBlank (hd : isBlank d = true) : divides d = true := by
  rw [divides_iff, ← Bool.not_eq_true]
  constructor
  · intro h
    rw [isBlank_of_isNamePart h] at hd
    cases hd
  · intro h
    have hj : joining.all (!isBlank ·) = true := rfl
    have hb := List.all_eq_true.mp hj d h
    rw [hd] at hb
    cases hb

theorem beginsComment_append (hd : divides d = true) (hs : s ≠ []) (t : List Char) :
    beginsComment (s ++ d :: t) = beginsComment s := by
  obtain ⟨c, s, rfl⟩ := List.exists_cons_of_ne_nil hs
  cases s with
  | nil =>
    have hslash : d ≠ '/' := Text.ne_of_eq_false hd rfl
    have hstar : d ≠ '*' := Text.ne_of_eq_false hd rfl
    rw [List.cons_append, List.nil_append, beginsComment, beq_eq_false_iff_ne.mpr hslash,
      beq_eq_false_iff_ne.mpr hstar, Bool.or_false, Bool.and_false]
    rfl
  | cons e s => rfl

/-- The longest mark ends in front of a character that divides. -/
theorem mark?_append (hd : divides d = true) (hs : s ≠ []) (t : List Char) :
    mark? (s ++ d :: t) = (mark? s).map fun q => (q.1, q.2 ++ d :: t) := by
  have hp (p : Punct) : after? p.text.toList (s ++ d :: t) =
      (after? p.text.toList s).map (· ++ d :: t) := by
    obtain ⟨a, needle, hn⟩ := List.exists_cons_of_ne_nil p.text_ne_nil
    have hd' : d ∉ needle := by
      intro h
      refine (divides_iff.mp hd).2 (mem_joining p d ?_)
      rw [hn]
      exact h
    obtain ⟨c, s, rfl⟩ := List.exists_cons_of_ne_nil hs
    rw [hn, List.cons_append, after?, after?]
    split
    · exact Text.after?_append_cons hd' s t
    · rfl
  rw [mark?, mark?, List.map_findSome?]
  congr
  funext p
  rw [hp, Function.comp_apply, Option.map_map, Option.map_map]
  rfl

theorem parts_append (hd : divides d = true) (s t : List Char) : Decimal.parts (s ++ d :: t) =
    { Decimal.parts s with rest := (Decimal.parts s).rest ++ d :: t } :=
  Decimal.parts_append (isAsciiDigit_of_divides hd)
    ⟨Text.ne_of_eq_false hd rfl, Text.ne_of_eq_false hd rfl⟩
    ⟨Text.ne_of_eq_false hd rfl, Text.ne_of_eq_false hd rfl⟩ (Text.ne_of_eq_false hd rfl) s t

/-- The code is a comment that has no end but that of its line. -/
def IsOpenComment (s : List Char) : Prop := ∃ comment, s = '/' :: '/' :: comment ∧ '\n' ∉ comment

theorem Takes.not_isOpenComment (h : Takes s (l :: ls) rest) : ¬IsOpenComment s := by
  rintro ⟨comment, rfl, -⟩
  cases h with
  | number h => cases h
  | text h => rcases h with h | h <;> cases h
  | word h => cases h
  | mark h => cases h

theorem dropWhile_append (hs : '\n' ∈ s) (t : List Char) :
    (s ++ t).dropWhile (· ≠ '\n') = s.dropWhile (· ≠ '\n') ++ t := by
  induction s with
  | nil => cases hs
  | cons c s ih =>
    rw [List.cons_append, List.dropWhile_cons, List.dropWhile_cons]
    split
    · rename_i hc
      obtain rfl | hs := List.mem_cons.mp hs
      · cases hc
      · exact ih hs
    · rfl

/-- What is taken in front of a character that divides is what is taken at the end of the code. -/
theorem Takes.append (h : Takes s ls rest) (hd : divides d = true)
    (hc : d = '\n' ∨ ¬IsOpenComment s) (t : List Char) :
    Takes (s ++ d :: t) ls (rest ++ d :: t) := by
  have hne := h.ne_nil
  cases h with
  | blank hb => exact .blank hb
  | @lineComment s =>
    have hr : (s ++ d :: t).dropWhile (· ≠ '\n') = s.dropWhile (· ≠ '\n') ++ d :: t := by
      rcases hc with rfl | hc
      · exact Text.dropWhile_append_cons rfl s t
      · refine dropWhile_append (not_not.mp fun hn => hc ⟨s, rfl, hn⟩) _
    rw [← hr]
    exact .lineComment
  | comment hcut => exact .comment (Text.cut?_append_of_cut? hcut _)
  | number hdec =>
    have h := Takes.number
      ((Decimal.startsDecimal_append (isAsciiDigit_of_divides hd) hne t).trans hdec)
    rw [parts_append hd] at h
    exact h
  | text hq ht =>
    obtain ⟨inside, rfl, hlocal⟩ := quotedText_local ht
    have h := Takes.text hq (hlocal (rest ++ d :: t))
    rwa [List.cons_append, List.append_assoc]
  | @word c s hn =>
    have h := Takes.word (s := s ++ d :: t) hn
    rwa [Text.takeWhile_append_cons (divides_iff.mp hd).1,
      Text.dropWhile_append_cons (divides_iff.mp hd).1] at h
  | mark hb hdec hm =>
    refine .mark ((beginsComment_append hd hne t).trans hb)
      ((Decimal.startsDecimal_append (isAsciiDigit_of_divides hd) hne t).trans hdec) ?_
    rw [mark?_append hd hne, hm]
    rfl

/-- The code ends within a comment that has no end but that of its line. -/
inductive EndsInComment : List Char → Prop
  | here : IsOpenComment s → EndsInComment s
  | later : Takes s ls rest → EndsInComment rest → EndsInComment s

/-- What is read in front of a character that divides is what is read at the end of the code. -/
theorem ofCode_append (h : ofCode s = .ok ls) (hd : divides d = true)
    (hc : d = '\n' ∨ ¬EndsInComment s) (t : List Char) :
    ofCode (s ++ d :: t) = (ofCode (d :: t)).map (ls ++ ·) := by
  induction reads_of_ofCode h with
  | nil => exact (map_nil_append _).symm
  | @step s l rest ls ht hr ih =>
    have ht' := ht.append hd (hc.imp_right (mt .here)) t
    rw [ofCode_of_takes ht', ih (ofCode_of_reads hr) (hc.imp_right (mt (.later ht)))]
    cases ofCode (d :: t) with
    | error fault => rfl
    | ok more => exact congrArg Except.ok (List.append_assoc l ls more).symm

/-- Behind the comment nothing is read before the next line. -/
theorem ofCode_of_isOpenComment (h : IsOpenComment s) (t : List Char) :
    ofCode (s ++ t) = ofCode (t.dropWhile (· ≠ '\n')) := by
  obtain ⟨comment, rfl, hn⟩ := h
  rw [List.cons_append, List.cons_append, ofCode_lineComment]
  refine congrArg ofCode (List.dropWhile_append_of_pos fun c hc => decide_eq_true ?_)
  rintro rfl
  exact hn hc

/-- Code ends in such a comment just if the comment takes a closing parenthesis behind it. -/
theorem endsInComment_iff (h : ofCode s = .ok ls) :
    EndsInComment s ↔ ofCode (s ++ [')']) = .ok ls := by
  constructor
  · intro hc
    rw [← h]
    clear h
    have hopen {s : List Char} (hs : IsOpenComment s) : ofCode (s ++ [')']) = ofCode s := by
      have hnil := ofCode_of_isOpenComment hs []
      rw [List.append_nil] at hnil
      rw [hnil]
      exact ofCode_of_isOpenComment hs [')']
    induction hc with
    | here hs => exact hopen hs
    | @later s l rest ht _ ih =>
      by_cases hs : IsOpenComment s
      · exact hopen hs
      · rw [ofCode_of_takes (ht.append rfl (.inr hs) []), ofCode_of_takes ht, ih]
  · intro hp
    by_contra hc
    rw [ofCode_append h rfl (.inr hc), ofCode_mark (by decide) rfl, ofCode] at hp
    have hlength := congrArg List.length (Except.ok.inj hp)
    rw [List.length_append] at hlength
    exact Nat.succ_ne_self _ hlength

theorem ofCode_blanks (hw : ∀ c ∈ w, isBlank c = true) (t : List Char) :
    ofCode (w ++ t) = ofCode t := by
  induction w with
  | nil => rfl
  | cons c w ih =>
    obtain ⟨hc, hw⟩ := List.forall_mem_cons.mp hw
    rw [List.cons_append, ofCode_blank hc, ih hw]

/-- A character that divides lexemes and begins no text. -/
def separates (c : Char) : Bool := divides c && c != '"' && c != '\''

theorem divides_of_separates (h : separates c = true) : divides c = true :=
  (Bool.and_eq_true_iff.mp (Bool.and_eq_true_iff.mp h).1).1

theorem separates_of_isBlank (h : isBlank c = true) : separates c = true := by
  have hdouble : c ≠ '"' := Text.ne_of_eq_false h rfl
  have hsingle : c ≠ '\'' := Text.ne_of_eq_false h rfl
  rw [separates, divides_of_isBlank h, bne_iff_ne.mpr hdouble, bne_iff_ne.mpr hsingle]
  rfl

/-- What is taken in front of characters that divide is taken without them, unless it is a comment
that they end. -/
theorem Takes.of_append (h : Takes (s ++ w) ls rest) (hw : ∀ c ∈ w, separates c = true)
    (hs : s ≠ []) (hc : ¬IsOpenComment s) : ∃ r, rest = r ++ w ∧ Takes s ls r := by
  cases w with
  | nil => exact ⟨rest, (List.append_nil rest).symm, by rwa [List.append_nil] at h⟩
  | cons d t =>
    have hd : divides d = true := divides_of_separates (hw d List.mem_cons_self)
    obtain ⟨c, s, rfl⟩ := List.exists_cons_of_ne_nil hs
    rw [List.cons_append] at h
    generalize hx : s ++ d :: t = x at h
    cases h with
    | blank hb => exact ⟨s, hx.symm, .blank hb⟩
    | @lineComment x =>
      cases s with
      | nil => exact absurd (List.cons.inj hx).1 (Text.ne_of_eq_false hd rfl)
      | cons e s =>
        rw [List.cons_append] at hx
        obtain ⟨rfl, rfl⟩ := List.cons.inj hx
        rw [dropWhile_append (not_not.mp fun hn => hc ⟨s, rfl, hn⟩)]
        exact ⟨_, rfl, .lineComment⟩
    | @comment x before rest hcut =>
      cases s with
      | nil => exact absurd (List.cons.inj hx).1 (Text.ne_of_eq_false hd rfl)
      | cons e s =>
        rw [List.cons_append] at hx
        obtain ⟨rfl, rfl⟩ := List.cons.inj hx
        have he : s ++ d :: t = (before ++ ['*']) ++ '/' :: rest := by
          rw [Text.eq_of_cut? hcut, List.append_assoc, List.append_assoc]
          rfl
        obtain ⟨r, rfl, rfl⟩ := Text.append_eq_of_not_mem he (Text.not_mem_of_all hw rfl)
        have hcut' : cut? ['*', '/'] (before ++ ['*'] ++ '/' :: r) = some (before, r) := by
          rw [← (Text.endsFirst_of_cut? hcut).cut? r, List.append_assoc, List.append_assoc]
          rfl
        exact ⟨r, rfl, .comment hcut'⟩
    | number hdec =>
      subst hx
      rw [← List.cons_append, Decimal.startsDecimal_append (isAsciiDigit_of_divides hd) hs] at hdec
      rw [← List.cons_append, parts_append hd]
      exact ⟨_, rfl, .number hdec⟩
    | text hq ht =>
      obtain ⟨inside, hs', hlocal⟩ := quotedText_local ht
      have hquote : separates c = false := by rcases hq with rfl | rfl <;> rfl
      obtain ⟨r, rfl, rfl⟩ :=
        Text.append_eq_of_not_mem (hx.trans hs') (Text.not_mem_of_all hw hquote)
      exact ⟨r, rfl, .text hq (hlocal r)⟩
    | word hn =>
      subst hx
      rw [Text.takeWhile_append_cons (divides_iff.mp hd).1,
        Text.dropWhile_append_cons (divides_iff.mp hd).1]
      exact ⟨_, rfl, .word hn⟩
    | mark hb hdec hm =>
      subst hx
      rw [← List.cons_append] at hb hdec hm
      rw [beginsComment_append hd hs] at hb
      rw [Decimal.startsDecimal_append (isAsciiDigit_of_divides hd) hs] at hdec
      rw [mark?_append hd hs] at hm
      obtain ⟨⟨p, r⟩, hp, he⟩ := Option.map_eq_some_iff.mp hm
      cases he
      exact ⟨r, rfl, .mark hb hdec hp⟩

/-- The lexemes of code with characters behind it that divide are those of the one and then those of
the other. -/
theorem Reads.split (h : Reads (s ++ w) ls) (hw : ∀ c ∈ w, separates c = true)
    (hc : ¬EndsInComment s) : ∃ ls₁ ls₂, ls = ls₁ ++ ls₂ ∧ Reads s ls₁ ∧ Reads w ls₂ := by
  generalize hx : s ++ w = x at h
  induction h generalizing s with
  | nil =>
    obtain ⟨rfl, rfl⟩ := List.append_eq_nil_iff.mp hx
    exact ⟨[], [], rfl, .nil, .nil⟩
  | @step x l rest ls ht hr ih =>
    subst hx
    by_cases hs : s = []
    · subst hs
      exact ⟨[], l ++ ls, rfl, .nil, .step ht hr⟩
    · obtain ⟨r, rfl, ht'⟩ := ht.of_append hw hs (mt .here hc)
      obtain ⟨ls₁, ls₂, rfl, hs, hw⟩ := ih (mt (.later ht') hc) rfl
      exact ⟨l ++ ls₁, ls₂, (List.append_assoc l ls₁ ls₂).symm, .step ht' hs, hw⟩

theorem ofCode_of_blank (hw : ∀ c ∈ w, isBlank c = true) : ofCode w = .ok [] := by
  rw [← List.append_nil w, ofCode_blanks hw, ofCode]

/-- White space at the end of code makes no lexemes, also if it ends a comment. -/
theorem Reads.of_blanks (h : Reads (s ++ w) ls) (hw : ∀ c ∈ w, isBlank c = true) : Reads s ls := by
  generalize hx : s ++ w = x at h
  induction h generalizing s with
  | nil =>
    obtain ⟨rfl, -⟩ := List.append_eq_nil_iff.mp hx
    exact .nil
  | @step x l rest ls ht hr ih =>
    subst hx
    have hall := ofCode_of_reads (.step ht hr)
    by_cases hs : s = []
    · subst hs
      rw [← Except.ok.inj ((ofCode_of_blank hw).symm.trans hall)]
      exact .nil
    · by_cases hc : IsOpenComment s
      · have hrest := ofCode_of_isOpenComment hc w
        rw [hall, ofCode_of_blank fun c hc => hw c ((List.dropWhile_suffix _).subset hc)] at hrest
        have hnil := ofCode_of_isOpenComment hc []
        rw [List.append_nil, List.dropWhile_nil, ofCode, ← hrest] at hnil
        exact reads_of_ofCode hnil
      · obtain ⟨r, rfl, ht'⟩ := ht.of_append (fun c hc => separates_of_isBlank (hw c hc)) hs hc
        exact .step ht' (ih rfl)

end Script.Lexeme
end Stencil

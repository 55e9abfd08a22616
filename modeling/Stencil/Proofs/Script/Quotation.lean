import Stencil.Proofs.Script.Lexing

/-!
Quoted texts as a grammar. Between its quotes a text is made of pieces: plain characters, characters
behind a backslash, and characters by the four hexadecimal digits of their codes. The main statement
is that just what has this form is read, as what its pieces stand for (`quotedText_eq_ok_iff`). The
reader also takes a plus for the first of the digits; a text in which it would come to that is
`Signed`.
-/

namespace Stencil

set_option autoImplicit true

namespace Text

/-- The character is the hexadecimal digit of the value, in either case. -/
def HexDigit (n : Nat) (c : Char) : Prop :=
  "0123456789abcdef".toList[n]? = some c ∨ "0123456789ABCDEF".toList[n]? = some c

instance : Decidable (HexDigit n c) := inferInstanceAs (Decidable (_ ∨ _))

theorem hexDigit?_of_hexDigit (h : HexDigit n c) : hexDigit? c = some n := by
  have hread {digits : List Char} (hd : digits.map hexDigit? = (List.range 16).map some)
      (hn : digits[n]? = some c) : hexDigit? c = some n := by
    have hc : (digits.map hexDigit?)[n]? = some (hexDigit? c) := by
      rw [List.getElem?_map, hn]
      rfl
    rw [hd, List.getElem?_map] at hc
    obtain ⟨m, hm, hc⟩ := Option.map_eq_some_iff.mp hc
    obtain ⟨_, rfl⟩ := List.getElem?_eq_some_iff.mp hm
    rw [← hc, List.getElem_range]
  rcases h with h | h
  · exact hread rfl h
  · exact hread rfl h

theorem hexDigit_of_hexDigit? (h : hexDigit? c = some n) : HexDigit n c := by
  have hascii : c.toNat < 103 := by
    simp only [hexDigit?, isAsciiDigit, Bool.and_eq_true, decide_eq_true_eq, Char.le_def,
      UInt32.le_iff_toNat_le] at h
    change c.val.toNat < 103
    split at h
    · rename_i hc
      exact Nat.lt_of_le_of_lt hc.2 (by decide)
    · split at h
      · rename_i hc
        exact Nat.lt_of_le_of_lt hc.2 (by decide)
      · split at h
        · rename_i hc
          exact Nat.lt_of_le_of_lt hc.2 (by decide)
        · cases h
  have hall : ∀ k < 103, ∀ n ∈ hexDigit? (Char.ofNat k), HexDigit n (Char.ofNat k) := by decide
  have hc := hall c.toNat hascii n
  rw [Char.ofNat_toNat] at hc
  exact hc h

theorem hexDigit?_eq_some_iff : hexDigit? c = some n ↔ HexDigit n c :=
  ⟨hexDigit_of_hexDigit?, hexDigit?_of_hexDigit⟩

/-- Digits and the number that they denote, the last digit counting least. -/
theorem hexValue?_four : hexValue? [w, x, y, z] = some n ↔
    ∃ a b c d, HexDigit a w ∧ HexDigit b x ∧ HexDigit c y ∧ HexDigit d z ∧
      16 * (16 * (16 * a + b) + c) + d = n := by
  simp [hexValue?, Option.bind_eq_some_iff, hexDigit?_eq_some_iff]

theorem hexValue?_three : hexValue? [x, y, z] = some n ↔
    ∃ a b c, HexDigit a x ∧ HexDigit b y ∧ HexDigit c z ∧ 16 * (16 * a + b) + c = n := by
  simp [hexValue?, Option.bind_eq_some_iff, hexDigit?_eq_some_iff]

end Text

namespace Script.Lexeme

open Text (HexDigit)

/-- What a character behind a backslash stands for. -/
inductive Stands : Char → List Char → Prop
  | newline : Stands 'n' ['\n']
  | tab : Stands 't' ['\t']
  | carriageReturn : Stands 'r' ['\r']
  | zero : Stands '0' ['\x00']
  /-- The line goes on behind its end. -/
  | continued : Stands '\n' []
  | self : c ∉ ['n', 't', 'r', '0', '\n', 'u'] → Stands c [c]

/-- A piece of a quoted text and what it stands for. -/
inductive Piece (quote : Char) : List Char → List Char → Prop
  | plain : c ≠ quote → c ≠ '\n' → c ≠ '\\' → Piece quote [c] [c]
  | escape : Stands e cs → Piece quote ['\\', e] cs
  | code : HexDigit a w → HexDigit b x → HexDigit c y → HexDigit d z →
      16 * (16 * (16 * a + b) + c) + d = n → n.isValidChar →
      Piece quote ['\\', 'u', w, x, y, z] [Char.ofNat n]

/-- Pieces one after the other. -/
inductive Contents (quote : Char) : List Char → List Char → Prop
  | nil : Contents quote [] []
  | cons : Piece quote piece cs → Contents quote s ds → Contents quote (piece ++ s) (cs ++ ds)

/-- Some pieces are followed by a code that has a plus in the place of its first digit. -/
def Signed (quote : Char) (s : List Char) : Prop :=
  ∃ before cs a b c x y z rest, Contents quote before cs ∧ HexDigit a x ∧ HexDigit b y ∧
    HexDigit c z ∧ s = before ++ '\\' :: 'u' :: '+' :: x :: y :: z :: rest

theorem Stands.ne_u (h : Stands e cs) : e ≠ 'u' := by
  rintro rfl
  cases h with
  | self h => exact h (by decide)

theorem Stands.escaped (h : Stands e cs) : Lexeme.escaped e = cs := by
  cases h with
  | self h =>
    simp only [List.mem_cons, List.not_mem_nil, or_false, not_or] at h
    obtain ⟨hn, ht, hr, hz, hl, -⟩ := h
    rw [Lexeme.escaped, if_neg hn, if_neg ht, if_neg hr, if_neg hz, if_neg hl]
  | _ => rfl

theorem stands_escaped (h : e ≠ 'u') : Stands e (escaped e) := by
  by_cases hm : e ∈ ['n', 't', 'r', '0', '\n', 'u']
  · simp only [List.mem_cons, List.not_mem_nil, or_false] at hm
    rcases hm with rfl | rfl | rfl | rfl | rfl | rfl
    · exact .newline
    · exact .tab
    · exact .carriageReturn
    · exact .zero
    · exact .continued
    · exact absurd rfl h
  · rw [(Stands.self hm).escaped]
    exact .self hm

theorem ne_plus_of_hexDigit (h : HexDigit n c) : c ≠ '+' := by
  rintro rfl
  cases Text.hexDigit?_of_hexDigit h

theorem charOfHex?_of_ne (hw : w ≠ '+') (digits : List Char) : charOfHex? (w :: digits) =
    (Text.hexValue? (w :: digits)).bind fun n =>
      if n.isValidChar then some (Char.ofNat n) else none := by
  unfold charOfHex?
  split
  · rename_i h
    exact absurd (List.cons.inj h).1 hw
  · rfl

theorem charOfHex?_code (hw : HexDigit a w) (hx : HexDigit b x) (hy : HexDigit c y)
    (hz : HexDigit d z) (hn : 16 * (16 * (16 * a + b) + c) + d = n) (hv : n.isValidChar) :
    charOfHex? [w, x, y, z] = some (Char.ofNat n) := by
  rw [charOfHex?_of_ne (ne_plus_of_hexDigit hw),
    Text.hexValue?_four.mpr ⟨a, b, c, d, hw, hx, hy, hz, hn⟩]
  exact if_pos hv

/-- Four characters are taken for a code if they are digits, or three digits behind a plus. -/
theorem charOfHex?_cases (h : charOfHex? [w, x, y, z] = some u) :
    (∃ n a b c d, HexDigit a w ∧ HexDigit b x ∧ HexDigit c y ∧ HexDigit d z ∧
      16 * (16 * (16 * a + b) + c) + d = n ∧ n.isValidChar ∧ Char.ofNat n = u) ∨
      w = '+' ∧ ∃ a b c, HexDigit a x ∧ HexDigit b y ∧ HexDigit c z := by
  by_cases hw : w = '+'
  · subst hw
    obtain ⟨n, hn, -⟩ := Option.bind_eq_some_iff.mp h
    obtain ⟨a, b, c, hx, hy, hz, -⟩ := Text.hexValue?_three.mp hn
    exact .inr ⟨rfl, a, b, c, hx, hy, hz⟩
  · rw [charOfHex?_of_ne hw] at h
    obtain ⟨n, hn, hu⟩ := Option.bind_eq_some_iff.mp h
    obtain ⟨a, b, c, d, hw, hx, hy, hz, hn⟩ := Text.hexValue?_four.mp hn
    split at hu
    · rename_i hv
      exact .inl ⟨n, a, b, c, d, hw, hx, hy, hz, hn, hv, Option.some.inj hu⟩
    · cases hu

theorem Piece.quotedText_append (h : Piece quote piece cs) (hq : '\\' ≠ quote) (s : List Char) :
    quotedText quote (piece ++ s) = (quotedText quote s).map fun r => (cs ++ r.1, r.2) := by
  cases h with
  | plain hc hn hb => exact quotedText_char hc hn hb s
  | escape he =>
    rw [← he.escaped]
    exact quotedText_escape hq he.ne_u s
  | code hw hx hy hz hn hv =>
    refine quotedText_hex hq (s := _ :: _ :: _ :: _ :: s) ?_
    exact charOfHex?_code hw hx hy hz hn hv

/-- What is made of pieces is read up to the quote behind it. -/
theorem Contents.quotedText_append (h : Contents quote s cs) (hq : '\\' ≠ quote)
    (rest : List Char) : quotedText quote (s ++ quote :: rest) = .ok (cs, rest) := by
  induction h with
  | nil => exact quotedText_quote quote rest
  | cons hp _ ih =>
    rw [List.append_assoc, hp.quotedText_append hq, ih]
    rfl

theorem Signed.cons (hp : Piece quote piece cs) (h : Signed quote s) :
    Signed quote (piece ++ s) := by
  obtain ⟨before, ds, a, b, c, x, y, z, rest, hb, hx, hy, hz, rfl⟩ := h
  exact ⟨piece ++ before, cs ++ ds, a, b, c, x, y, z, rest, .cons hp hb, hx, hy, hz,
    (List.append_assoc piece before _).symm⟩

/-- There are four characters where the reader goes on behind them. -/
theorem exists_of_quotedText_drop (h : quotedText quote (s.drop 4) = .ok r) :
    ∃ w x y z t, s = w :: x :: y :: z :: t := by
  match s with
  | w :: x :: y :: z :: t => exact ⟨w, x, y, z, t, rfl⟩
  | [] | [_] | [_, _] | [_, _, _] => simp [quotedText] at h

/-- What is read is made of pieces, if the reader comes to no code with a plus. -/
theorem contents_of_quotedText (hs : ¬Signed quote s) (h : quotedText quote s = .ok (cs, rest)) :
    ∃ text, Contents quote text cs ∧ s = text ++ quote :: rest := by
  fun_induction quotedText quote s generalizing cs rest with
  | case1 => cases h
  | case2 s =>
    cases h
    exact ⟨[], .nil, rfl⟩
  | case3 => cases h
  | case4 => cases h
  | case5 => cases h
  | case6 s u hu hq hn ih =>
    obtain ⟨⟨cs, rest⟩, hr, he⟩ := map_eq_ok h
    cases he
    obtain ⟨w, x, y, z, t, rfl⟩ := exists_of_quotedText_drop hr
    rcases charOfHex?_cases hu with ⟨n, a, b, c, d, hw, hx, hy, hz, hn, hv, rfl⟩ |
      ⟨rfl, a, b, c, hx, hy, hz⟩
    · have hp : Piece quote ['\\', 'u', w, x, y, z] [Char.ofNat n] :=
        .code hw hx hy hz hn hv
      obtain ⟨text, ht, hs'⟩ := ih (fun h => hs (h.cons hp)) hr
      exact ⟨_, .cons hp ht, congrArg ([_, _, _, _, _, _] ++ ·) hs'⟩
    · exact absurd ⟨[], [], a, b, c, x, y, z, t, .nil, hx, hy, hz, rfl⟩ hs
  | case7 e s hu hq hn ih =>
    obtain ⟨⟨cs, rest⟩, hr, he⟩ := map_eq_ok h
    cases he
    have hp : Piece quote ['\\', e] (escaped e) := .escape (stands_escaped hu)
    obtain ⟨text, ht, rfl⟩ := ih (fun h => hs (h.cons hp)) hr
    exact ⟨_, .cons hp ht, rfl⟩
  | case8 c s hq hn hb ih =>
    obtain ⟨⟨cs, rest⟩, hr, he⟩ := map_eq_ok h
    cases he
    have hp : Piece quote [c] [c] := .plain hq hn hb
    obtain ⟨text, ht, rfl⟩ := ih (fun h => hs (h.cons hp)) hr
    exact ⟨_, .cons hp ht, rfl⟩

/-- Just the texts of the grammar are read, as what their pieces stand for and up to the quote
behind these, unless the reader comes to a code with a plus in it. -/
theorem quotedText_eq_ok_iff (hq : quote ≠ '\\') (hs : ¬Signed quote s) :
    quotedText quote s = .ok (cs, rest) ↔
      ∃ text, Contents quote text cs ∧ s = text ++ quote :: rest := by
  constructor
  · exact contents_of_quotedText hs
  · rintro ⟨text, ht, rfl⟩
    exact ht.quotedText_append hq.symm rest

theorem infix_of_signed (h : Signed quote s) : ['\\', 'u', '+'] <:+: s := by
  obtain ⟨before, cs, a, b, c, x, y, z, rest, -, -, -, -, rfl⟩ := h
  exact ⟨before, x :: y :: z :: rest, List.append_assoc before _ _⟩

/-- A text with every kind of piece, and code behind it. -/
theorem quotedText_eq_ok_iff_pieces :
    ¬Signed '\'' "a\\n\\'\\\n\\u00E9\"' + x".toList ∧
      quotedText '\'' "a\\n\\'\\\n\\u00E9\"' + x".toList =
        .ok (['a', '\n', '\'', 'é', '"'], " + x".toList) := by
  have hs : ¬Signed '\'' "a\\n\\'\\\n\\u00E9\"' + x".toList :=
    mt infix_of_signed (by decide)
  have hplain {c : Char} (h : c ≠ '\'' ∧ c ≠ '\n' ∧ c ≠ '\\') : Piece '\'' [c] [c] :=
    .plain h.1 h.2.1 h.2.2
  have hcode : Piece '\'' ['\\', 'u', '0', '0', 'E', '9'] ['é'] :=
    .code (a := 0) (b := 0) (c := 14) (d := 9) (n := 233) (by decide) (by decide) (by decide)
      (by decide) rfl (by decide)
  have hc : Contents '\'' "a\\n\\'\\\n\\u00E9\"".toList ['a', '\n', '\'', 'é', '"'] :=
    .cons (hplain (by decide)) (.cons (.escape .newline) (.cons (.escape (.self (by decide)))
      (.cons (.escape .continued) (.cons hcode (.cons (hplain (by decide)) .nil)))))
  exact ⟨hs, (quotedText_eq_ok_iff (by decide) hs).mpr ⟨_, hc, rfl⟩⟩

/-- A code with a plus is read as the character of its three digits, and is no piece. -/
theorem quotedText_of_signed :
    quotedText '"' "\\u+041\"".toList = .ok (['A'], []) ∧
      ¬∃ text cs rest, Contents '"' text cs ∧ "\\u+041\"".toList = text ++ '"' :: rest := by
  refine ⟨?_, ?_⟩
  · have hu : charOfHex? ['+', '0', '4', '1'] = some 'A' := rfl
    refine (quotedText_hex (by decide) hu (s := ['+', '0', '4', '1', '"'])).trans ?_
    exact congrArg _ (quotedText_quote '"' [])
  · rintro ⟨text, cs, rest, ht, he⟩
    cases ht with
    | nil => cases he
    | cons hp _ =>
      cases hp with
      | plain _ _ hb => exact hb (List.cons.inj he).1.symm
      | escape hs => exact hs.ne_u (List.cons.inj (List.cons.inj he).2).1.symm
      | code hw =>
        exact ne_plus_of_hexDigit hw (List.cons.inj (List.cons.inj (List.cons.inj he).2).2).1.symm

end Script.Lexeme

end Stencil

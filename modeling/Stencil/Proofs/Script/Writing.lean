import Stencil.Proofs.Script.Lexing

/-!
Writing tokens as code. A text may be written between either of two quotes, the other lexemes are
written as they are. With a space after each of them the tokens are read back (`tokenize_writings`).
-/

namespace Stencil.Script

set_option autoImplicit true

inductive Quote where
  | single | double

namespace Quote

def char : Quote → Char
  | single => '\''
  | double => '"'

/-- A character of a text between quotes. -/
def escape (q : Quote) (c : Char) : List Char :=
  if c = '\\' then ['\\', '\\']
  else if c = q.char then ['\\', q.char]
  else if c = '\n' then ['\\', 'n']
  else [c]

/-- A text between quotes. -/
def around (q : Quote) (s : List Char) : List Char := q.char :: (s.flatMap q.escape ++ [q.char])

theorem char_cases (q : Quote) : q.char = '"' ∨ q.char = '\'' := by
  cases q with
  | single => exact .inr rfl
  | double => exact .inl rfl

theorem char_facts (q : Quote) :
    '\\' ≠ q.char ∧ q.char ≠ 'u' ∧ Lexeme.escaped q.char = [q.char] := by
  cases q <;> decide

end Quote

namespace Lexeme

/-- A lexeme that is no number, and how it is written. -/
inductive Writing where
  | word (name : String) (isName : IsName name)
  | mark (p : Punct)
  | text (q : Quote) (s : String)

namespace Writing

def lexeme : Writing → Lexeme
  | word name _ => .word name
  | mark p => .mark p
  | text _ s => .text s

def code : Writing → List Char
  | word name _ => name.toList
  | mark p => p.text.toList
  | text q s => q.around s.toList

end Writing

/-- One character of a text is read back. -/
theorem quotedText_escape_append (q : Quote) (c : Char) (s : List Char) :
    quotedText q.char (q.escape c ++ s) = (quotedText q.char s).map fun r => (c :: r.1, r.2) := by
  obtain ⟨hslash, hu, hq⟩ := q.char_facts
  unfold Quote.escape
  split
  · rename_i h
    subst h
    exact quotedText_escape hslash (by decide) s
  · split
    · rename_i h
      rw [h]
      refine (quotedText_escape hslash hu s).trans ?_
      rw [hq]
      rfl
    · split
      · rename_i h
        subst h
        exact quotedText_escape hslash (by decide) s
      · exact quotedText_char ‹_› ‹_› ‹_› s

theorem quotedText_around (q : Quote) (s t : List Char) :
    quotedText q.char (s.flatMap q.escape ++ q.char :: t) = .ok (s, t) := by
  induction s with
  | nil => exact quotedText_quote q.char t
  | cons c s ih =>
    rw [List.flatMap_cons, List.append_assoc, quotedText_escape_append, ih]
    rfl

/-- The code of a lexeme is taken for it at the end of the code. -/
theorem Writing.takes (x : Writing) : Takes x.code [x.lexeme] [] := by
  cases x with
  | word name h =>
    obtain ⟨c, cs, hn, hc, hcs⟩ := h
    have h := Takes.word (s := cs) hc
    rwa [List.takeWhile_eq_self_iff.mpr hcs, List.dropWhile_eq_nil_iff.mpr hcs, ← hn,
      String.ofList_toList] at h
  | mark p =>
    have h : beginsComment p.text.toList = false ∧ Decimal.startsDecimal p.text.toList = false ∧
        mark? p.text.toList = some (p, []) := by
      cases p <;> exact ⟨rfl, rfl, rfl⟩
    exact .mark h.1 h.2.1 h.2.2
  | text q s =>
    have h := Takes.text q.char_cases (quotedText_around q s.toList [])
    rwa [String.ofList_toList] at h

/-- With a space after it, the code of a lexeme is taken for it whatever follows. -/
theorem Writing.ofCode_append (x : Writing) (t : List Char) :
    ofCode (x.code ++ ' ' :: t) = (ofCode t).map (x.lexeme :: ·) := by
  have h := x.takes.append (d := ' ') rfl (.inr x.takes.not_isOpenComment) t
  rw [ofCode_of_takes h, List.nil_append, ofCode_space]
  rfl

theorem ofCode_writings (xs : List Writing) :
    ofCode (xs.flatMap fun x => x.code ++ [' ']) = .ok (xs.map Writing.lexeme) := by
  induction xs with
  | nil =>
    rw [List.flatMap_nil, ofCode]
    rfl
  | cons x xs ih =>
    rw [List.flatMap_cons, List.append_assoc, List.singleton_append, x.ofCode_append, ih]
    rfl

end Lexeme

/-- Tokens that are written with a space after each of them are read back. -/
theorem tokenize_writings (xs : List Lexeme.Writing) (line : Nat) :
    tokenize (String.ofList (xs.flatMap fun x => x.code ++ [' '])) line =
      .ok (xs.map fun x => ⟨x.lexeme, line⟩) := by
  rw [tokenize, String.toList_ofList, Lexeme.ofCode_writings]
  exact congrArg Except.ok List.map_map

end Stencil.Script

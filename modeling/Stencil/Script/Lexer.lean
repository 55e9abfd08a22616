import Stencil.Script.Token
import Stencil.Decimal.Reading
import Stencil.Text.Hex
import Stencil.Text.Search
import Stencil.Text.Read

/-!
Reading code as tokens. At each place the first of these is taken: white space, a comment, a number,
a quoted text, a word, the longest mark.
-/

namespace Stencil.Script

open Stencil.Text (after? cut? length_of_cut? after?_eq_some_iff length_dropWhile_le)

/-- Why code cannot be read as tokens. -/
inductive LexFault where
  | unclosedComment
  | unclosedText
  | newlineInText
  /-- The characters after `\u` are not the digits of a character. -/
  | badEscape (digits : String)
  | stray (c : Char)

namespace Lexeme

/-- What a backslash before a character means, other than `u`. -/
def escaped (c : Char) : List Char :=
  if c = 'n' then ['\n']
  else if c = 't' then ['\t']
  else if c = 'r' then ['\r']
  else if c = '0' then ['\x00']
  else if c = '\n' then []
  else [c]

/-- The character of up to four hexadecimal digits, the first of which may give way to a plus. -/
def charOfHex? (digits : List Char) : Option Char :=
  let digits :=
    match digits with
    | '+' :: digits => digits
    | digits => digits
  if digits.isEmpty then none
  else (Text.hexValue? digits).bind fun n => if n.isValidChar then some (Char.ofNat n) else none

/-- The contents of a quoted text whose opening quote has been read, and the rest after it. -/
def quotedText (quote : Char) : List Char → Except LexFault (List Char × List Char)
  | [] => .error .unclosedText
  | c :: rest =>
    if c = quote then .ok ([], rest)
    else if c = '\n' then .error .newlineInText
    else if c = '\\' then
      match rest with
      | [] => .error .unclosedText
      | e :: rest =>
        if e = 'u' then
          match charOfHex? (rest.take 4) with
          | none => .error (.badEscape (String.ofList (rest.take 4)))
          | some u => (quotedText quote (rest.drop 4)).map fun r => (u :: r.1, r.2)
        else (quotedText quote rest).map fun r => (escaped e ++ r.1, r.2)
    else (quotedText quote rest).map fun r => (c :: r.1, r.2)
termination_by s => s.length

theorem length_of_quotedText {quote : Char} {s cs rest : List Char}
    (h : quotedText quote s = .ok (cs, rest)) : rest.length < s.length := by
  fun_induction quotedText quote s generalizing cs rest <;>
    simp_all only [reduceCtorEq, Except.ok.injEq, Prod.mk.injEq, List.length_cons, Except.map]
  all_goals grind [List.length_drop]

/-- The mark at the head of the code, the longest one that fits. -/
def mark? (s : List Char) : Option (Punct × List Char) :=
  Punct.all.findSome? fun p => (after? p.text.toList s).map fun rest => (p, rest)

theorem eq_of_mark? {s rest : List Char} {p : Punct} (h : mark? s = some (p, rest)) :
    s = p.text.toList ++ rest := by
  obtain ⟨q, -, hq⟩ := List.exists_of_findSome?_eq_some h
  obtain ⟨r, hr, heq⟩ := Option.map_eq_some_iff.mp hq
  obtain ⟨rfl, rfl⟩ := Prod.mk.inj heq
  exact after?_eq_some_iff.mp hr

theorem length_of_mark? {s rest : List Char} {p : Punct} (h : mark? s = some (p, rest)) :
    rest.length < s.length := by
  have := List.length_pos_iff.mpr p.text_ne_nil
  rw [eq_of_mark? h, List.length_append]
  omega

/-- The lexemes of code. -/
def ofCode : List Char → Except LexFault (List Lexeme)
  | [] => .ok []
  | c :: rest =>
    if Text.isBlank c then ofCode rest
    else
      match c, rest with
      | '/', '/' :: comment => ofCode (comment.dropWhile (· ≠ '\n'))
      | '/', '*' :: comment =>
        match _hcut : cut? ['*', '/'] comment with
        | none => .error .unclosedComment
        | some (_, after) => ofCode after
      | c, rest =>
        if _hnum : Decimal.startsDecimal (c :: rest) then
          (ofCode (Decimal.parts (c :: rest)).rest).map
            (.number (Decimal.parts (c :: rest)).value :: ·)
        else if c = '"' ∨ c = '\'' then
          match _htext : quotedText c rest with
          | .error fault => .error fault
          | .ok (cs, after) => (ofCode after).map (.text (String.ofList cs) :: ·)
        else if isNameStart c then
          (ofCode (rest.dropWhile isNamePart)).map
            (.word (String.ofList (c :: rest.takeWhile isNamePart)) :: ·)
        else
          match _hmark : mark? (c :: rest) with
          | none => .error (.stray c)
          | some (p, after) => (ofCode after).map (.mark p :: ·)
termination_by s => s.length
decreasing_by
  · simp
  · have := length_dropWhile_le (fun x => decide (x ≠ '\n')) comment
    simp only [List.length_cons]
    omega
  · have := length_of_cut? _hcut
    simp only [List.length_cons]
    omega
  · exact Decimal.length_parts_rest_lt _hnum
  · have := length_of_quotedText _htext
    simp only [List.length_cons]
    omega
  · have := length_dropWhile_le isNamePart rest
    simp only [List.length_cons]
    omega
  · exact length_of_mark? _hmark

end Lexeme

/-- The tokens of code in a tag that opens on `line`. -/
def tokenize (code : String) (line : Nat) : Except LexFault (List Token) :=
  (Lexeme.ofCode code.toList).map fun lexemes => lexemes.map fun l => ⟨l, line⟩

end Stencil.Script

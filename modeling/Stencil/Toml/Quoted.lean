import Stencil.Text.Hex
import Stencil.Text.Read

/-!
Quoted texts of a configuration file: on one line or on several, with escapes or literal.
-/

namespace Stencil.Toml

open Stencil.Text (Read hexValue? length_dropWhile_le)

def isSpace (c : Char) : Bool := c == ' ' || c == '\t'

/-- Controls that stand in no text: all but the tab. -/
def isControl (c : Char) : Bool := (c.toNat < 32 && c != '\t') || c.toNat == 127

/-- What a backslash before a character means, other than a code. -/
def escaped? (c : Char) : Option Char :=
  match c with
  | 'b' => some '\x08'
  | 't' => some '\t'
  | 'n' => some '\n'
  | 'f' => some '\x0c'
  | 'r' => some '\r'
  | '"' => some '"'
  | '\\' => some '\\'
  | _ => none

/-- The character of exactly `count` hexadecimal digits. -/
def code? (count : Nat) (s : List Char) : Option Char :=
  let digits := s.take count
  if digits.length = count then
    (hexValue? digits).bind fun n => if n.isValidChar then some (Char.ofNat n) else none
  else none

/-- A line break at the head. -/
def afterBreak? : List Char → Option (List Char)
  | '\n' :: rest => some rest
  | '\r' :: '\n' :: rest => some rest
  | _ => none

theorem length_of_afterBreak? {s rest : List Char} (h : afterBreak? s = some rest) :
    rest.length < s.length := by
  unfold afterBreak? at h
  split at h <;> cases h <;> simp only [List.length_cons] <;> omega

/-- The rest after white space and line breaks. -/
def skipBreaks (s : List Char) : List Char :=
  match _hbreak : afterBreak? s with
  | some rest => skipBreaks rest
  | none =>
    match s with
    | [] => []
    | c :: rest => if isSpace c then skipBreaks rest else c :: rest
termination_by s.length
decreasing_by
  · exact length_of_afterBreak? _hbreak
  · exact Nat.lt_succ_self _

theorem length_skipBreaks (s : List Char) : (skipBreaks s).length ≤ s.length := by
  fun_induction skipBreaks s with
  | case1 s rest h ih => exact Nat.le_trans ih (Nat.le_of_lt (length_of_afterBreak? h))
  | case2 => exact Nat.le_refl _
  | case3 c rest _ _ ih => exact Nat.le_succ_of_le ih
  | case4 => exact Nat.le_refl _

/-- A text up to its closing quote. -/
def oneLine (quote : Char) (escapes : Bool) : List Char → Option (List Char × List Char)
  | [] => none
  | c :: rest =>
    if c = quote then some ([], rest)
    else if isControl c then none
    else if c = '\\' && escapes then
      match rest with
      | [] => none
      | e :: rest =>
        if e = 'u' || e = 'U' then
          let count := if e = 'u' then 4 else 8
          (code? count rest).bind fun u =>
            (oneLine quote escapes (rest.drop count)).map fun r => (u :: r.1, r.2)
        else
          (escaped? e).bind fun u => (oneLine quote escapes rest).map fun r => (u :: r.1, r.2)
    else (oneLine quote escapes rest).map fun r => (c :: r.1, r.2)
termination_by s => s.length

/-- A text of several lines up to its three closing quotes, before which two more may stand. -/
def manyLines (quote : Char) (escapes : Bool) (s : List Char) : Option (List Char × List Char) :=
  match hbreak : afterBreak? s with
  | some rest => (manyLines quote escapes rest).map fun r => ('\n' :: r.1, r.2)
  | none =>
    match s with
    | [] => none
    | c :: rest =>
      if c = quote then
        let count := (rest.takeWhile (· == quote)).length + 1
        if count < 3 then
          (manyLines quote escapes (rest.drop (count - 1))).map fun r =>
            (List.replicate count quote ++ r.1, r.2)
        else some (List.replicate (min (count - 3) 2) quote, (c :: rest).drop (min count 5))
      else if isControl c then none
      else if c = '\\' && escapes then
        match hline : afterBreak? (rest.dropWhile isSpace) with
        | some next => manyLines quote escapes (skipBreaks next)
        | none =>
          match rest with
          | [] => none
          | e :: rest =>
            if e = 'u' || e = 'U' then
              let count := if e = 'u' then 4 else 8
              (code? count rest).bind fun u =>
                (manyLines quote escapes (rest.drop count)).map fun r => (u :: r.1, r.2)
            else
              (escaped? e).bind fun u =>
                (manyLines quote escapes rest).map fun r => (u :: r.1, r.2)
      else (manyLines quote escapes rest).map fun r => (c :: r.1, r.2)
termination_by s.length
decreasing_by
  · exact length_of_afterBreak? hbreak
  · simp only [List.length_cons, List.length_drop]
    omega
  · have := length_of_afterBreak? hline
    have := length_dropWhile_le isSpace rest
    have := length_skipBreaks next
    simp only [List.length_cons]
    omega
  · simp only [List.length_cons, List.length_drop]
    omega
  · simp only [List.length_cons]
    omega
  · exact Nat.lt_succ_self _

/-- A quoted text at the head, whatever its form. -/
def quoted? (s : List Char) : Option (Read Char String s.length) := do
  let quote ← s.head?
  let escapes := quote == '"'
  let opened := s.takeWhile (· == quote)
  let (cs, rest) ←
    if 3 ≤ opened.length then
      let inside := s.drop 3
      manyLines quote escapes ((afterBreak? inside).getD inside)
    else oneLine quote escapes (s.drop 1)
  Read.of? s.length (String.ofList cs) rest

/-- A quoted text of one line at the head. -/
def quotedKey? (s : List Char) : Option (Read Char String s.length) := do
  let quote ← s.head?
  let (cs, rest) ← oneLine quote (quote == '"') (s.drop 1)
  Read.of? s.length (String.ofList cs) rest

end Stencil.Toml

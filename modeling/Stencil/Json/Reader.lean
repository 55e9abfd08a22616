import Stencil.Value
import Stencil.Text.Read
import Stencil.Text.Hex

/-!
Reading JSON text. Arrays and objects may nest 127 deep. Of repeated names in an object the last one
counts; `fields?` gives the fields of a text as they are written.
-/

namespace Stencil.Json

open Stencil.Text (Read isAsciiDigit hexValue? length_dropWhile_le)

def isSpace (c : Char) : Bool := c == ' ' || c == '\t' || c == '\n' || c == '\r'

def skipSpace (s : List Char) : List Char := s.dropWhile isSpace

theorem length_skipSpace (s : List Char) : (skipSpace s).length ≤ s.length :=
  length_dropWhile_le ..

/-- One element of a quoted text: a character, or one half of a pair of 16-bit units. -/
inductive Unit16 where
  | char (c : Char)
  | high (n : Nat)
  | low (n : Nat)

def unit (n : Nat) : Unit16 :=
  if 0xD800 ≤ n && n ≤ 0xDBFF then .high (n - 0xD800)
  else if 0xDC00 ≤ n && n ≤ 0xDFFF then .low (n - 0xDC00)
  else .char (Char.ofNat n)

/-- What a backslash before the character stands for. -/
def escaped? (c : Char) : Option Char :=
  match c with
  | '"' => some '"'
  | '\\' => some '\\'
  | '/' => some '/'
  | 'b' => some '\x08'
  | 'f' => some '\x0c'
  | 'n' => some '\n'
  | 'r' => some '\r'
  | 't' => some '\t'
  | _ => none

/-- The elements up to the closing quote, and the rest after it. -/
def units? : List Char → Option (List Unit16 × List Char)
  | [] => none
  | c :: rest =>
    if c = '"' then some ([], rest)
    else if c = '\\' then
      match rest with
      | [] => none
      | e :: rest =>
        if e = 'u' then
          match rest with
          | a :: b :: c :: d :: rest => do
            let n ← hexValue? [a, b, c, d]
            let (more, rest) ← units? rest
            pure (unit n :: more, rest)
          | _ => none
        else do
          let c ← escaped? e
          let (more, rest) ← units? rest
          pure (.char c :: more, rest)
    else if c.toNat < 32 then none
    else do
      let (more, rest) ← units? rest
      pure (.char c :: more, rest)

theorem length_of_units? {s rest : List Char} {us : List Unit16}
    (h : units? s = some (us, rest)) : rest.length < s.length := by
  fun_induction units? s generalizing us rest <;>
    simp_all only [Option.some.injEq, Prod.mk.injEq, reduceCtorEq, List.length_cons,
      Option.bind_eq_bind, Option.bind_eq_some_iff, Option.pure_def, Prod.exists] <;> grind

/-- The characters; halves stand in pairs only. -/
def joined? : List Unit16 → Option (List Char)
  | [] => some []
  | .char c :: rest => (joined? rest).map (c :: ·)
  | .high m :: .low n :: rest =>
    (joined? rest).map (Char.ofNat (0x10000 + m * 0x400 + n) :: ·)
  | _ => none

/-- A quoted text whose opening quote has been read. -/
def string? (s : List Char) : Option (Read Char String s.length) :=
  match h : units? s with
  | none => none
  | some (us, rest) => (joined? us).map fun cs => ⟨String.ofList cs, rest, length_of_units? h⟩

/-- A whole number is kept exactly if it fits 64 bits; minus zero does not. -/
def wholeNumber? (negative : Bool) (n : Nat) : Option Int :=
  if negative then (if n ≠ 0 ∧ n ≤ Nat.pow 2 63 then some (-n) else none)
  else if n < Nat.pow 2 64 then some n
  else none

/-- An unsigned number at the head: no zero before other whole digits, and a digit on both sides of
the point. A number too large for a float is refused. -/
def unsigned? (negative : Bool) (s : List Char) : Option (Read Char Number s.length) :=
  if h : Decimal.startsDecimal s ∧ s.head? ≠ some '.' then
    let p := Decimal.parts s
    let afterWhole := s.dropWhile isAsciiDigit
    let hasPoint := afterWhole.head? == some '.'
    if p.whole.head? = some '0' ∧ 1 < p.whole.length ∨ hasPoint ∧ p.fraction.isEmpty then none
    else
      let x := if negative then -p.value else p.value
      let isWhole := !hasPoint && (Decimal.exponentPart? afterWhole).isNone
      let whole := if isWhole then wholeNumber? negative (Decimal.digitsValue p.whole) else none
      if x.isFinite then
        some ⟨whole.elim (.float x) .int, p.rest, Decimal.length_parts_rest_lt h.1⟩
      else none
  else none

def number? (s : List Char) : Option (Read Char Number s.length) :=
  match s with
  | '-' :: digits => (unsigned? true digits).map fun r => r.weaken (Nat.le_succ _)
  | s => unsigned? false s

theorem length_of_ending {ending : String} {s rest : List Char}
    (h : Text.after? ending.toList s = some rest) : rest.length < s.length + 1 := by
  rw [Text.after?_eq_some_iff.mp h, List.length_append]
  omega

/-- A word whose first character has been read. -/
def word? (ending : String) (v : Value) (s : List Char) :
    Option (Read Char Value (s.length + 1)) :=
  match h : Text.after? ending.toList s with
  | some rest => some ⟨v, rest, length_of_ending h⟩
  | none => none

mutual

/-- A value at the head, which may open `depth` arrays and objects inside each other. -/
def value? (depth : Nat) (s : List Char) : Option (Read Char Value s.length) :=
  match h : skipSpace s with
  | [] => none
  | c :: rest =>
    have hlt : rest.length < s.length := by
      have := length_skipSpace s
      rw [h, List.length_cons] at this
      omega
    if c = '"' then (string? rest).map fun r => (r.map .string).weaken (Nat.le_of_lt hlt)
    else if c = '[' then
      match depth with
      | 0 => none
      | depth + 1 =>
        match hafter : skipSpace rest with
        | ']' :: after =>
          some ⟨.array [], after, by
            have := length_skipSpace rest
            rw [hafter, List.length_cons] at this
            omega⟩
        | _ => (items? depth rest).map fun r => (r.map .array).weaken (Nat.le_of_lt hlt)
    else if c = '{' then
      match depth with
      | 0 => none
      | depth + 1 =>
        (object? depth rest).map fun r =>
          (r.map fun fields => .object (Entries.ofList fields)).weaken (Nat.le_of_lt hlt)
    else
      let plain : Option (Read Char Value (c :: rest).length) :=
        if c = 't' then word? "rue" (.bool true) rest
        else if c = 'f' then word? "alse" (.bool false) rest
        else if c = 'n' then word? "ull" .null rest
        else (number? (c :: rest)).map (Read.map .number)
      plain.map fun r => r.weaken (h ▸ length_skipSpace s)
termination_by (s.length, 0)

/-- The elements of an array up to its closing bracket; there is at least one. -/
def items? (depth : Nat) (s : List Char) : Option (Read Char (List Value) s.length) := do
  let first ← value? depth s
  match h : skipSpace first.rest with
  | c :: rest =>
    have hlt : rest.length < s.length := by
      have := length_skipSpace first.rest
      have := first.shorter
      rw [h, List.length_cons] at *
      omega
    if c = ',' then
      let more ← items? depth rest
      pure ((more.map (first.value :: ·)).weaken (Nat.le_of_lt hlt))
    else if c = ']' then pure ⟨[first.value], rest, hlt⟩
    else none
  | [] => none
termination_by (s.length, 1)

/-- The fields of an object whose brace has been read. -/
def object? (depth : Nat) (s : List Char) : Option (Read Char (List (String × Value)) s.length) :=
  match h : skipSpace s with
  | '}' :: rest =>
    some ⟨[], rest, by
      have := length_skipSpace s
      rw [h, List.length_cons] at this
      omega⟩
  | _ => fields? depth s
termination_by (s.length, 2)

/-- The fields of an object up to its closing brace; there is at least one. -/
def fields? (depth : Nat) (s : List Char) : Option (Read Char (List (String × Value)) s.length) :=
  match h : skipSpace s with
  | '"' :: quote =>
    have hquote : quote.length < s.length := by
      have := length_skipSpace s
      rw [h, List.length_cons] at this
      omega
    do
    let name ← string? quote
    match hcolon : skipSpace name.rest with
    | ':' :: rest =>
      have hrest : rest.length < s.length := by
        have := length_skipSpace name.rest
        have := name.shorter
        rw [hcolon, List.length_cons] at *
        omega
      let first ← value? depth rest
      match hnext : skipSpace first.rest with
      | c :: more =>
        have hmore : more.length < s.length := by
          have := length_skipSpace first.rest
          have := first.shorter
          rw [hnext, List.length_cons] at *
          omega
        if c = ',' then
          let fields ← fields? depth more
          pure ((fields.map ((name.value, first.value) :: ·)).weaken (Nat.le_of_lt hmore))
        else if c = '}' then pure ⟨[(name.value, first.value)], more, hmore⟩
        else none
      | [] => none
    | _ => none
  | _ => none
termination_by (s.length, 1)

end

/-- How deep arrays and objects may nest. -/
def maxDepth : Nat := 127

/-- The value that a whole text denotes. -/
def ofText? (text : String) : Option Value := do
  let r ← value? maxDepth text.toList
  if (skipSpace r.rest).isEmpty then pure r.value else none

/-- The fields of a text that is one object, in their order and with repetitions. -/
def fieldsOfText? (text : String) : Option (List (String × Value)) :=
  match skipSpace text.toList with
  | '{' :: rest => do
    let r ← object? (maxDepth - 1) rest
    if (skipSpace r.rest).isEmpty then pure r.value else none
  | _ => none

end Stencil.Json

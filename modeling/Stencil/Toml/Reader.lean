import Stencil.Toml.Quoted
import Stencil.Toml.Scalar
import Stencil.Toml.Table

/-!
Reading configuration files: keys, values, and the document as a sequence of lines that open tables
or give keys values.
-/

namespace Stencil.Toml

open Stencil.Text (Read length_dropWhile_le)

def skipSpace (s : List Char) : List Char := s.dropWhile isSpace

theorem length_skipSpace (s : List Char) : (skipSpace s).length ≤ s.length :=
  length_dropWhile_le ..

def isBreak (c : Char) : Bool := c == '\n' || c == '\r'

/-- The rest after a comment, up to the end of its line. -/
def afterComment? (s : List Char) : Option (List Char) :=
  let comment := s.takeWhile fun c => c ≠ '\n'
  let comment := if comment.getLast? = some '\r' then comment.dropLast else comment
  if comment.any isControl then none else some (s.drop comment.length)

/-- The end of a line or of the text, with a comment before it. -/
def lineEnd? (s : List Char) : Option (List Char) := do
  let s ←
    match skipSpace s with
    | '#' :: comment => afterComment? comment
    | s => some s
  match afterBreak? s with
  | some rest => some rest
  | none => if s.isEmpty then some [] else none

theorem length_of_afterComment? {s rest : List Char} (h : afterComment? s = some rest) :
    rest.length ≤ s.length := by
  have hdrop (n : Nat) : (s.drop n).length ≤ s.length := by simp
  simp only [afterComment?] at h
  split at h <;> split at h <;> cases h <;> exact hdrop _

/-- The line break after a comment. -/
def commentBreak? (s : List Char) : Option (List Char) := (afterComment? s).bind afterBreak?

theorem length_of_commentBreak? {s rest : List Char} (h : commentBreak? s = some rest) :
    rest.length < s.length := by
  obtain ⟨t, ht, hrest⟩ := Option.bind_eq_some_iff.mp h
  exact Nat.lt_of_lt_of_le (length_of_afterBreak? hrest) (length_of_afterComment? ht)

/-- The rest after white space, line breaks and comments between the elements of an array. -/
def skipLines (s : List Char) : List Char :=
  match _h : skipBreaks s with
  | '#' :: rest =>
    match _hcomment : commentBreak? rest with
    | some next => skipLines next
    | none => '#' :: rest
  | s => s
termination_by s.length
decreasing_by
  have := length_of_commentBreak? _hcomment
  have := length_skipBreaks s
  rw [_h, List.length_cons] at this
  omega

theorem length_skipLines (s : List Char) : (skipLines s).length ≤ s.length := by
  have hbreaks (s : List Char) := length_skipBreaks s
  fun_induction skipLines s with
  | case1 s rest h next hcomment ih =>
    have := length_of_commentBreak? hcomment
    have := hbreaks s
    rw [h, List.length_cons] at this
    omega
  | case2 s rest h _ => exact h ▸ hbreaks s
  | case3 s => exact hbreaks s

def isBareChar (c : Char) : Bool :=
  Text.isAsciiLetter c || Text.isAsciiDigit c || c == '_' || c == '-'

def simpleKey? (s : List Char) : Option (Read Char String s.length) :=
  if s.head? = some '"' ∨ s.head? = some '\'' then quotedKey? s
  else
    let word := s.takeWhile isBareChar
    if word.isEmpty then none else Read.of? s.length (String.ofList word) (s.drop word.length)

/-- One or more parts of a key with dots between them. -/
def parts? (s : List Char) : Option (Read Char (List String) s.length) := do
  let ⟨first, rest, _⟩ ← simpleKey? s
  match _h : skipSpace rest with
  | '.' :: more =>
    have hmore : (skipSpace more).length < s.length := by
      have := length_skipSpace rest
      have := length_skipSpace more
      rw [_h, List.length_cons] at *
      omega
    let keys ← parts? (skipSpace more)
    pure ((keys.map (first :: ·)).weaken (Nat.le_of_lt hmore))
  | _ => Read.of? s.length [first] rest
termination_by s.length

/-- How deep arrays and inline tables may nest, and how many parts a key may have. -/
def maxDepth : Nat := 79

/-- A key at the head. -/
def key? (s : List Char) : Option (Read Char (List String) s.length) :=
  (parts? s).filter fun r => r.value.length ≤ maxDepth

/-- A field of an inline table. -/
structure Field where
  key : List String
  value : Value

/-- An inline table of fields, unless a key stands twice. -/
def inlineTable? (fields : List Field) : Option Value :=
  (fields.foldlM (fun entries f => assign true .headed entries f.key f.value) []).map fun entries =>
    .object (fieldsOf entries)

mutual

/-- A value at the head, in which arrays and inline tables may nest to the given depth. -/
def value? (depth : Nat) (s : List Char) : Option (Read Char Value s.length) :=
  match s, depth with
  | '"' :: rest, _ => (quoted? ('"' :: rest)).map (Read.map .string)
  | '\'' :: rest, _ => (quoted? ('\'' :: rest)).map (Read.map .string)
  | '[' :: _, 0 => none
  | '[' :: rest, depth + 1 =>
    (items? depth rest).map fun r => (r.map .array).weaken (Nat.le_succ _)
  | '{' :: _, 0 => none
  | '{' :: rest, depth + 1 =>
    match skipSpace rest with
    | '}' :: after => Read.of? _ (.object []) after
    | _ => do
      let r ← fields? depth rest
      let v ← inlineTable? r.value
      pure ((r.map fun _ => v).weaken (Nat.le_succ _))
  | s, _ => (scalar? s).bind fun r => Read.of? s.length r.1 r.2
termination_by 2 * s.length

/-- The elements of an array up to its closing bracket; a comma may stand before it. -/
def items? (depth : Nat) (s : List Char) : Option (Read Char (List Value) s.length) :=
  match h : skipLines s with
  | [] => none
  | c :: rest =>
    have hlength : rest.length + 1 ≤ s.length := by
      have := length_skipLines s
      rw [h, List.length_cons] at this
      exact this
    if c = ']' then Read.of? s.length [] rest
    else do
      let ⟨first, afterFirst, hfirst⟩ ← value? depth (c :: rest)
      match hnext : skipLines afterFirst with
      | ',' :: more =>
        have hmore : more.length < s.length := by
          have := length_skipLines afterFirst
          rw [hnext, List.length_cons] at this
          simp only [List.length_cons] at hfirst
          omega
        let items ← items? depth more
        pure ((items.map (first :: ·)).weaken (Nat.le_of_lt hmore))
      | ']' :: after => Read.of? s.length [first] after
      | _ => none
termination_by 2 * s.length + 1
decreasing_by
  · simp only [List.length_cons]
    omega
  · omega

/-- The fields of an inline table up to its closing brace; there is at least one. -/
def fields? (depth : Nat) (s : List Char) : Option (Read Char (List Field) s.length) := do
  let ⟨key, afterKey, hkey⟩ ← (key? (skipSpace s)).map fun r => r.weaken (length_skipSpace s)
  match hequals : skipSpace afterKey with
  | '=' :: text =>
    have htext : (skipSpace text).length < s.length := by
      have := length_skipSpace afterKey
      have := length_skipSpace text
      rw [hequals, List.length_cons] at *
      omega
    let ⟨v, afterValue, hvalue⟩ ← value? depth (skipSpace text)
    match hnext : skipSpace afterValue with
    | ',' :: more =>
      have hmore : more.length < s.length := by
        have := length_skipSpace afterValue
        rw [hnext, List.length_cons] at this
        omega
      let fields ← fields? depth more
      pure ((fields.map (⟨key, v⟩ :: ·)).weaken (Nat.le_of_lt hmore))
    | '}' :: after => Read.of? s.length [⟨key, v⟩] after
    | _ => none
  | _ => none
termination_by 2 * s.length + 1
decreasing_by all_goals omega

end

/-- What has been read: all tables, and the path of the open one. -/
structure Document where
  root : Nodes
  current : List String

namespace Document

/-- Opens a table under a header. -/
def header (change : String → Nodes → Option Nodes) (d : Document) (path : List String) :
    Option Document :=
  match path.getLast? with
  | none => none
  | some key => (changeAt (change key) path.dropLast d.root).map fun root => ⟨root, path⟩

/-- Gives a key of the open table a value. -/
def define (d : Document) (key : List String) (v : Value) : Option Document :=
  (changeAt (fun entries => assign true .headed entries key v) d.current d.root).map fun root =>
    { d with root := root }

/-- One line that is not blank: a header, or a key with its value. -/
def line? (d : Document) (s : List Char) : Option (Document × List Char) :=
  match s with
  | '[' :: '[' :: rest => do
    let key ← key? (skipSpace rest)
    match skipSpace key.rest with
    | ']' :: ']' :: rest => do
      let d ← d.header addTable key.value
      let rest ← lineEnd? rest
      pure (d, rest)
    | _ => none
  | '[' :: rest => do
    let key ← key? (skipSpace rest)
    match skipSpace key.rest with
    | ']' :: rest => do
      let d ← d.header openTable key.value
      let rest ← lineEnd? rest
      pure (d, rest)
    | _ => none
  | s => do
    let key ← key? s
    match skipSpace key.rest with
    | '=' :: text => do
      let v ← value? maxDepth (skipSpace text)
      let d ← d.define key.value v.value
      let rest ← lineEnd? v.rest
      pure (d, rest)
    | _ => none

/-- The document that results from the rest of a text. -/
def extend? (d : Document) (s : List Char) : Option Document :=
  match _h : skipSpace s with
  | [] => some d
  | c :: rest =>
    match if isBreak c || c == '#' then (lineEnd? (c :: rest)).map fun r => (d, r)
        else d.line? (c :: rest) with
    | none => none
    | some (d, after) => if after.length < s.length then extend? d after else none
termination_by s.length

end Document

/-- The object that a text denotes. -/
def ofText? (text : String) : Option Value :=
  let s :=
    match text.toList with
    | '\uFEFF' :: s => s
    | s => s
  (Document.extend? ⟨[], []⟩ s).map fun d => .object (fieldsOf d.root)

end Stencil.Toml

import Stencil.Segment
import Stencil.Segment.Delimiters
import Stencil.Segment.Pipeline
import Stencil.Text.Read

/-!
Scanning a template in three steps: the source is split into tags and the characters between them,
which does not depend on how white space is treated; the characters pass through the white-space
rule one by one; and runs of characters become literals.
-/

namespace Stencil

open Stencil.Text (after? cut? isBlank length_of_cut? after?_eq_some_iff length_dropWhile_le)

inductive Tag.Kind where
  | code
  | escaped
  | raw
deriving DecidableEq

/-- A tag without its delimiters and marks, with the line on which it opens. -/
structure Tag where
  kind : Tag.Kind
  body : List Char
  line : Nat

/-- A tag, or a character of the text between tags. -/
inductive Piece where
  | char (c : Char)
  | tag (t : Tag)

namespace Tag

/-- The kind of a tag is shown by a mark after its opening delimiter. -/
def marked : List Char → Kind × List Char
  | '=' :: rest => (.escaped, rest)
  | '-' :: rest => (.raw, rest)
  | rest => (.code, rest)

/-- A minus at the end of a tag takes away the line break that follows the tag. -/
def trimsNewline (body : List Char) : Bool := body.getLast? == some '-'

def withoutMark (body : List Char) : List Char :=
  if trimsNewline body then body.dropLast else body

/-- The rest of a source that begins with a line break, after it. -/
def afterNewline? : List Char → Option (List Char)
  | '\n' :: rest => some rest
  | '\r' :: '\n' :: rest => some rest
  | _ => none

def segment (t : Tag) : Segment :=
  let emitted :=
    match t.body.dropWhile isBlank with
    | ':' :: pipeline => Pipeline.code pipeline
    | _ => t.body
  match t.kind with
  | .code => .statement (String.ofList t.body) t.line
  | .escaped => .emit (String.ofList emitted) true t.line
  | .raw => .emit (String.ofList emitted) false t.line

end Tag

theorem Tag.length_marked (s : List Char) : (Tag.marked s).2.length ≤ s.length := by
  unfold Tag.marked
  split <;> simp

theorem Tag.length_afterNewline? {s rest : List Char} (h : Tag.afterNewline? s = some rest) :
    rest.length ≤ s.length := by
  unfold Tag.afterNewline? at h
  split at h <;> cases h <;> simp only [List.length_cons] <;> omega

def newlines (s : List Char) : Nat := s.count '\n'

namespace Piece

/-- The pieces of a source whose first character stands on `line`; or the line of a tag that is not
closed. -/
def ofSource (d : Delimiters) (line : Nat) (s : List Char) : Except Nat (List Piece) :=
  match hopen : after? d.opener s with
  | some inside =>
    have hinside : inside.length < s.length := by
      have := d.length_opener_pos
      rw [after?_eq_some_iff.mp hopen, List.length_append]
      omega
    match hclose : cut? d.closer (Tag.marked inside).2 with
    | none => .error line
    | some (written, rest) =>
      have hrest : rest.length < s.length := by
        have := length_of_cut? hclose
        have := Tag.length_marked inside
        omega
      let body := Tag.withoutMark written
      let after := line + newlines body
      let tag := Piece.tag ⟨(Tag.marked inside).1, body, line⟩
      match hbreak : if Tag.trimsNewline written then Tag.afterNewline? rest else none with
      | some next =>
        have hnext : next.length < s.length := by
          split at hbreak
          · have := Tag.length_afterNewline? hbreak
            omega
          · cases hbreak
        (ofSource d (after + 1) next).map (tag :: ·)
      | none => (ofSource d after rest).map (tag :: ·)
  | none =>
    match s with
    | [] => .ok []
    | c :: rest => (ofSource d (if c = '\n' then line + 1 else line) rest).map (.char c :: ·)
termination_by s.length

end Piece

/-- What the white-space rule remembers: whether the last character kept was white space, and
whether the last one seen other than line breaks and tabs was a closing angle bracket. -/
structure Spacing where
  blank : Bool
  angle : Bool

namespace Spacing

/-- What becomes of one character, and what is remembered. If space is eaten, tabs and carriage
returns vanish, a line break becomes a space except after a closing angle bracket, and a space
vanishes after white space. Otherwise only a carriage return changes: into a space. -/
def step (eatspace : Bool) (w : Spacing) (c : Char) : Option Char × Spacing :=
  if c = '\r' then
    if eatspace then (none, w) else (some ' ', { w with blank := true })
  else if c = '\t' then
    if eatspace then (none, w) else (some '\t', { w with blank := true })
  else if c = '\n' then
    if !eatspace then (some '\n', w)
    else if w.angle then (none, w)
    else (some ' ', { w with blank := true })
  else if c = ' ' then
    if eatspace && w.blank then (none, { w with angle := false }) else (some ' ', ⟨true, false⟩)
  else (some c, ⟨false, c == '>'⟩)

/-- The pieces that are left. -/
def kept (eatspace : Bool) (w : Spacing) : List Piece → List Piece
  | [] => []
  | .tag t :: rest => .tag t :: kept eatspace w rest
  | .char c :: rest =>
    match step eatspace w c with
    | (some c, w) => .char c :: kept eatspace w rest
    | (none, w) => kept eatspace w rest

end Spacing

namespace Segment

/-- The literal of the characters gathered so far, last one first, in front of other segments. -/
def flush (pending : List Char) (rest : List Segment) : List Segment :=
  if pending.isEmpty then rest else .literal (String.ofList pending.reverse) :: rest

/-- Gathers characters between tags into literals. -/
def gather (pending : List Char) : List Piece → List Segment
  | [] => flush pending []
  | .char c :: rest => gather (c :: pending) rest
  | .tag t :: rest => flush pending (t.segment :: gather [] rest)

/-- The segments of a source; or the line of a tag that is not closed. -/
def scan (d : Delimiters) (eatspace : Bool) (source : String) : Except Nat (List Segment) :=
  (Piece.ofSource d 1 source.toList).map fun pieces =>
    gather [] (Spacing.kept eatspace ⟨false, false⟩ pieces)

end Segment

end Stencil

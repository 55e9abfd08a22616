import Stencil.Log
import Stencil.Text.Letter
import Stencil.Text.Search

/-!
Directives: which entries of the log are shown. A directive is a level, or a target with or without a
level; a target may be narrowed down to a span or to entries with a detail of a name, in brackets. Only
the program itself works on entries, outside of every span, so that no directive for a span shows any.
-/

namespace Stencil.Log

/-- A detail that an entry must have; its value may be prescribed too. -/
structure Requirement where
  name : String
  hasValue : Bool
deriving DecidableEq, Repr

/-- The entries whose source begins with `target` are shown up to a rank. -/
structure Directive where
  target : String
  span : Option String
  required : Option Requirement
  rank : Nat
deriving DecidableEq, Repr

inductive Directive.Fault where
  | malformed
  | unknownLevel
deriving DecidableEq, Repr

def Directive.Fault.message : Directive.Fault → String
  | malformed => "invalid filter directive"
  | unknownLevel =>
    "error parsing level filter: expected one of \"off\", \"error\", \"warn\", \"info\", " ++
      "\"debug\", \"trace\", or a number 0-5"

/-- The names of the ranks, in any case. -/
def rankNames : List (String × Nat) :=
  [("off", 0), ("error", 1), ("warn", 2), ("info", 3), ("debug", 4), ("trace", 5)]

/-- A rank as a number, which may have a plus and zeros in front. -/
def rankNumber? (s : List Char) : Option Nat :=
  let digits := if s.head? = some '+' then s.tail else s
  if digits.isEmpty || !digits.all Text.isAsciiDigit then none
  else
    match digits.dropWhile (· == '0') with
    | [] => some 0
    | [d] => if d ≤ '5' then some (d.toNat - '0'.toNat) else none
    | _ => none

def rank? (s : List Char) : Option Nat :=
  (rankNumber? s).or (rankNames.lookup (String.ofList (s.map Char.toLower)))

namespace Directive

/-- Entries of every level are shown. -/
def all (target : String) (span : Option String) (required : Option Requirement) : Directive :=
  ⟨target, span, required, Level.trace.rank⟩

/-- The directive with the level that a text names; a text without any characters names none. -/
def upTo (d : Directive) (s : List Char) : Except Fault Directive :=
  if s.isEmpty then .ok d
  else
    match rank? s with
    | some rank => .ok { d with rank := rank }
    | none => .error .unknownLevel

/-- A level for all sources, or a target. -/
def ofWord (s : List Char) : Directive :=
  match rank? s with
  | some rank => ⟨"", none, none, rank⟩
  | none => all (String.ofList s) none none

/-- What a detail has to be, as it stands between braces. -/
def requirement (s : List Char) : Requirement :=
  ⟨String.ofList (s.takeWhile (· ≠ '=')), s.contains '='⟩

/-! The readers look at `seen`, the text without white space at its ends, and cut the parts they find
from the text itself at the same places. -/

/-- The level after a closing bracket. -/
def afterBracket (d : Directive) (s seen : List Char) : Except Fault Directive :=
  match seen with
  | [] => .ok d
  | '=' :: _ => d.upTo (s.drop 1)
  | _ => .error .malformed

/-- What follows an opening bracket after a target. -/
def ofBracket (target : String) (s seen : List Char) : Except Fault Directive :=
  let size := (seen.takeWhile fun c => c ≠ ']' && c ≠ '{').length
  let span := String.ofList (s.take size)
  let s := s.drop (size + 1)
  match seen.drop size with
  | ']' :: seen => afterBracket (all target (some span) none) s seen
  | '{' :: seen =>
    let inside := (seen.takeWhile (· ≠ '}')).length
    match seen.drop inside with
    | '}' :: ']' :: seen =>
      if inside = 0 then .error .malformed
      else
        afterBracket
          (all target (if size = 0 then none else some span) (some (requirement (s.take inside))))
          (s.drop (inside + 2)) seen
    | _ => .error .malformed
  | _ => .error .malformed

/-- A character that a target or a level may begin with. -/
def mayBegin (c : Char) : Bool := Text.isAlphanumeric c || c == '-' || c == ':' || c == '_'

/-- The directive that a text denotes. -/
def ofText (text : String) : Except Fault Directive :=
  let s := text.toList
  let seen := Text.trimBoth Text.isBlank s
  match seen with
  | [] => .error .malformed
  | '[' :: seen => ofBracket "" (s.drop 1) seen
  | c :: _ =>
    if !mayBegin c then .error .malformed
    else
      let size := (seen.takeWhile fun c => c ≠ '=' && c ≠ '[').length
      let target := String.ofList (s.take size)
      match seen.drop size with
      | [] => .ok (ofWord s)
      | '=' :: _ => (all target none none).upTo (s.drop (size + 1))
      | _ :: seen => ofBracket target (s.drop (size + 1)) seen

/-- The directive can show an entry: it is for no span, and prescribes no value. -/
def isOpen (d : Directive) : Bool := d.span.isNone && !d.required.any Requirement.hasValue

/-- The directive is for an entry. The message counts as a detail. -/
def appliesTo (d : Directive) (e : Entry) : Bool :=
  d.isOpen && e.source.startsWith d.target &&
    d.required.all fun r => r.name = "message" || e.details.any fun detail => detail.1 = r.name

/-- The other directive is for fewer entries: its target is longer, or it requires a detail, or one
with a later name. -/
def isWider (a b : Directive) : Bool :=
  a.target.length < b.target.length ||
    (a.target.length = b.target.length &&
      match a.required, b.required with
      | none, some _ => true
      | some r, some q => r.name < q.name
      | _, none => false)

end Directive

end Stencil.Log

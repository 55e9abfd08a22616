import Mathlib
import Stencil.Proofs.Script.Tracked

/-!
Reading by position always gets on. A mover that tracks its reader ends, on faulty items too, and where
it succeeds the cursor is further on, still within the items and as deep in loops and functions as
before: a reader leaves fewer items than it was given.
-/

namespace Stencil.Script

set_option autoImplicit true

/-- What a reader gives, put behind what was read before, and the items that it leaves. -/
def Parsed.outcome (f : α → β) (r : Parsed α n) : Except SyntaxError (β × List Item) :=
  r.map fun v => (f v.value, v.rest)

namespace Cursor

variable {p : Cursor}

/-- A mover ends with an answer, which is the given outcome. If it succeeds, the cursor has gone on, but
not beyond the items, and is otherwise as it was, so in the loops and functions around it. -/
structure Progresses (p : Cursor) (a : Answer (α × Cursor))
    (r : Except SyntaxError (α × List Item)) : Prop where
  ends : ∃ answer, a = some answer ∧ answer.map (fun v => (v.1, v.2.rest)) = r
  moves : a = some (.ok (v, q)) → p.pos < q.pos ∧ q.pos ≤ p.items.length
  keeps : a = some (.ok (v, q)) →
    q.items = p.items ∧ q.loopDepth = p.loopDepth ∧ q.functionDepth = p.functionDepth

theorem lt_of_rest_lt (h : (p.moved i).rest.length < p.rest.length) : p.pos < i := by
  rw [rest, rest, List.length_drop, List.length_drop] at h
  change p.items.length - i < _ at h
  omega

theorem progresses_of_error {a : Answer (α × Cursor)} (h : a = some (.error e)) :
    p.Progresses a (.error e) where
  ends := ⟨_, h, rfl⟩
  moves h' := by cases h.symm.trans h'
  keeps h' := by cases h.symm.trans h'

/-- A reader leaves fewer items than it was given, so that the cursor has gone on. -/
theorem Tracks.progresses {f : α → β} {r : Parsed α n} (h : Tracks p f a r)
    (hn : n ≤ p.rest.length) : p.Progresses a (r.outcome f) := by
  cases h with
  | error => exact progresses_of_error rfl
  | @ok i v w _ h₁ hi hl hw =>
    have hlt := lt_of_rest_lt (Nat.lt_of_lt_of_le h₁ hn)
    refine ⟨⟨_, rfl, ?_⟩, fun h => ?_, fun h => ?_⟩
    · rw [← hw]
      rfl
    · cases h
      exact ⟨hlt, hl⟩
    · cases h
      exact ⟨rfl, rfl, rfl⟩

theorem progresses_arguments (p : Cursor) :
    p.Progresses p.arguments ((Items.mark p.last .openParen p.rest).bind fun r =>
      (Script.expressions p.context .closeParen r.rest).outcome id) := by
  have hm := tracks_expect .openParen p
  unfold Items.mark at hm ⊢
  cases ho : Items.after? .openParen p.rest with
  | none =>
    rw [ho] at hm
    generalize ha : p.expect .openParen = a at hm
    cases hm
    exact progresses_of_error (by rw [arguments, Answer.bind_of_error ha])
  | some r =>
    have h := tracks_arguments (tracksBelow _ 0) (Nat.le_refl _) ho
    exact h.progresses (Nat.le_of_lt r.shorter)

/-- At the end of the items the word of a function is missing, and then so is all else. -/
theorem function_of_nil (hs : p.rest = []) :
    p.function = some (.error ⟨p.last, .expected (.mark .openParen) .ending⟩) := by
  have hq : (p.advance 1).rest = [] :=
    List.drop_eq_nil_of_le (Nat.le_succ_of_le (List.drop_eq_nil_iff.mp hs))
  have hn : (p.advance 1).functionName = some (.ok ((), p.advance 1)) := by
    rw [functionName, look_eq, hq]
    rfl
  have hm := tracks_expect .openParen (p.advance 1)
  rw [hq] at hm
  rw [function, functionBody, Answer.bind_of_ok hn]
  generalize he : (p.advance 1).expect .openParen = a at hm
  cases hm
  exact Answer.bind_of_error he

theorem progresses_function (p : Cursor) :
    p.Progresses p.function ((Script.functionBody p.context p.rest.tail).outcome id) := by
  cases hs : p.rest with
  | nil =>
    rw [List.tail_nil, Script.functionBody]
    exact progresses_of_error (function_of_nil hs)
  | cons item s =>
    have hf := tracks_function (tracksBelow _ 0) hs
    exact hf.progresses (by rw [hs]; exact Nat.le_succ _)

end Cursor

/-- The mover of a rule, with nothing read before. -/
def Rule.move (p : Cursor) : Rule α → Answer (α × Cursor)
  | statement => p.statement
  | expressionStatement line => p.expressionStatement line
  | afterKeyword w k line => p.keywordStatement w k line
  | condition => p.condition
  | alternative => p.alternative
  | returned => p.returned
  | block => p.block []
  | loopStart line => p.loopStart line
  | optional closer => p.optional closer
  | declarations => p.declarations []
  | initial => p.initial
  | assignment => p.assignment
  | conditional => p.conditional
  | binary level => p.binary level
  | binaryFrom level left => p.binaryFrom level left
  | unary => p.unary
  | suffixed => p.suffixed
  | chain => p.chain
  | chainFrom target => p.chainFrom target
  | expressions closer => p.expressions closer []
  | objectFields => p.objectFields []
  | fieldValue name => p.fieldValue name
  | params => p.params []
  | functionBody => p.functionBody
  | primary => p.primary

namespace Cursor

theorem move_ends (r : Rule α) (p : Cursor) (hp : p.pos ≤ p.items.length) :
    ∃ answer, r.move p = some answer := by
  have h := tracked r p hp
  cases r with
  | block => exact Tracks.ends (h [])
  | declarations => exact Tracks.ends (h [])
  | expressions => exact Tracks.ends (h [])
  | objectFields => exact Tracks.ends (h [])
  | params => exact Tracks.ends (h [])
  | binaryFrom => exact Tracks.ends (h _ (Nat.lt_succ_self _))
  | chainFrom => exact Tracks.ends (h _ (Nat.lt_succ_self _))
  | _ => exact Tracks.ends h

/-- Reading always gets on and stays within the items. From every cursor in or behind the last of its
items, each mover ends, in the outcome of its reader; where it succeeds, the cursor is further on, at
most behind the last item, and as deep in loops and functions as before. So the movers, which call one
another without a measure, all end, and each loop does whatever it has read before. A template is read
to its end, or to its first fault, as its reader reads it. -/
theorem progress (p : Cursor) (hp : p.pos ≤ p.items.length) :
    (p.Progresses p.statement ((Script.statement p.context p.rest).outcome id) ∧
      p.Progresses p.expression ((Script.assignment p.context p.rest).outcome id) ∧
      p.Progresses p.assignment ((Script.assignment p.context p.rest).outcome id) ∧
      (∀ level, p.Progresses (p.binary level)
        ((Script.binary p.context level p.rest).outcome id)) ∧
      p.Progresses p.unary ((Script.unary p.context p.rest).outcome id) ∧
      p.Progresses p.suffixed ((Script.suffixed p.context p.rest).outcome id) ∧
      p.Progresses p.primary ((Script.primary p.context p.rest).outcome id) ∧
      p.Progresses p.arguments ((Items.mark p.last .openParen p.rest).bind fun r =>
        (Script.expressions p.context .closeParen r.rest).outcome id) ∧
      (∀ body, p.Progresses (p.block body)
        ((Script.block p.context p.rest).outcome (body ++ ·))) ∧
      p.Progresses p.function ((Script.functionBody p.context p.rest.tail).outcome id)) ∧
    ((∀ (α : Type) (r : Rule α), ∃ answer, r.move p = some answer) ∧
      (∀ closer es, p.Progresses (p.expressions closer es)
        ((Script.expressions p.context closer p.rest).outcome (es ++ ·))) ∧
      (∀ fields, p.Progresses (p.objectFields fields)
        ((Script.objectFields p.context p.rest).outcome (fields ++ ·))) ∧
      (∀ names, p.Progresses (p.params names)
        ((Items.params p.last p.rest).outcome (names ++ ·))) ∧
      (∀ decls, p.Progresses (p.declarations decls)
        ((Script.declarations p.context p.rest).outcome (decls ++ ·))) ∧
      ∀ stmts, ∃ answer, p.program stmts = some answer) ∧
    (start p.last p.items).program [] =
      some ((statements p.last p.items).map fun stmts =>
        (stmts, (start p.last p.items).moved p.items.length)) := by
  refine ⟨⟨?_, ?_, ?_, ?_, ?_, ?_, ?_, progresses_arguments p, ?_, progresses_function p⟩,
    ⟨fun _ r => move_ends r p hp, ?_, ?_, ?_, ?_, ?_⟩, ?_⟩
  · exact Tracks.progresses (tracked .statement p hp) (Nat.le_refl _)
  · rw [expression_eq_assignment]
    exact Tracks.progresses (tracked .assignment p hp) (Nat.le_refl _)
  · exact Tracks.progresses (tracked .assignment p hp) (Nat.le_refl _)
  · exact fun level => Tracks.progresses (tracked (.binary level) p hp) (Nat.le_refl _)
  · exact Tracks.progresses (tracked .unary p hp) (Nat.le_refl _)
  · exact Tracks.progresses (tracked .suffixed p hp) (Nat.le_refl _)
  · exact Tracks.progresses (tracked .primary p hp) (Nat.le_refl _)
  · exact fun body => Tracks.progresses (tracked .block p hp body) (Nat.le_refl _)
  · exact fun closer es =>
      Tracks.progresses (tracked (.expressions closer) p hp es) (Nat.le_refl _)
  · exact fun fields => Tracks.progresses (tracked .objectFields p hp fields) (Nat.le_refl _)
  · exact fun names => Tracks.progresses (tracked .params p hp names) (Nat.le_refl _)
  · exact fun decls => Tracks.progresses (tracked .declarations p hp decls) (Nat.le_refl _)
  · exact fun stmts => (answer_program stmts p hp).imp fun _ h => h.1
  · obtain ⟨answer, ha, hs⟩ := answer_program [] (start p.last p.items) (Nat.zero_le _)
    rw [ha, hs rfl rfl]
    rfl

/-- The items of the body of a function that is read inside a loop. -/
def loopItems : List Item :=
  [.mark .openBrace 1, .word "for" 1, .mark .openParen 1, .word "const" 1, .word "x" 1,
    .word "of" 1, .word "xs" 1, .mark .closeParen 1, .mark .openBrace 1, .word "break" 1,
    .mark .semicolon 1, .mark .closeBrace 1, .mark .closeBrace 1]

/-- A cursor before the second of them, with a loop and two functions around it. -/
def atLoop : Cursor := ⟨loopItems, 1, 1, 1, 2⟩

theorem progress_loop :
    atLoop.pos ≤ atLoop.items.length ∧
      ∃ q, atLoop.statement =
          some (.ok (.forOf "x" (.ident "xs") (.block [.breakLoop]) 1, q)) ∧
        1 < q.pos ∧ q.pos ≤ 13 ∧ q.rest = [.mark .closeBrace 1] ∧
        q.loopDepth = 1 ∧ q.functionDepth = 2 := by
  have hp : atLoop.pos ≤ atLoop.items.length := by decide
  have h := (progress atLoop hp).1.1
  have ho : (Script.statement atLoop.context atLoop.rest).outcome id =
      .ok (.forOf "x" (.ident "xs") (.block [.breakLoop]) 1, [.mark .closeBrace 1]) := by cbv
  obtain ⟨answer, ha, hr⟩ := h.ends
  rw [ho] at hr
  obtain ⟨⟨stmt, q⟩, rfl, hv⟩ := map_eq_ok hr
  obtain ⟨rfl, hq⟩ := Prod.mk.inj hv
  exact ⟨hp, q, ha, (h.moves ha).1, (h.moves ha).2, hq, (h.keeps ha).2⟩

end Cursor

end Stencil.Script

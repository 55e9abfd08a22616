import Stencil.Proofs.Script.Name
import Stencil.Proofs.Script.Simulation

/-!
Jumps end what they stand in: `break` and `continue` stand in loops, `return` in functions, and no
run of a template ends with a jump. So what follows a statement is left out only by a `return` in a
function, or by a jump within a loop.
-/

namespace Stencil.Script

set_option autoImplicit true

mutual

/-- Jumps stand in what they leave. Functions in expressions have jumps of their own. -/
def Stmt.Placed (inLoop inFunction : Bool) : Stmt → Prop
  | .branch _ yes no _ => yes.Placed inLoop inFunction ∧ Stmt.OptionPlaced inLoop inFunction no
  | .forOf _ _ body _ => body.Placed true inFunction
  | .forIn _ _ body _ => body.Placed true inFunction
  | .loop first _ _ body _ =>
    Stmt.OptionPlaced inLoop inFunction first ∧ body.Placed true inFunction
  | .whileDo _ body _ => body.Placed true inFunction
  | .block body => Stmt.AllPlaced inLoop inFunction body
  | .breakLoop => inLoop = true
  | .continueLoop => inLoop = true
  | .giveBack _ => inFunction = true
  | _ => True

def Stmt.AllPlaced (inLoop inFunction : Bool) : List Stmt → Prop
  | [] => True
  | stmt :: rest => stmt.Placed inLoop inFunction ∧ Stmt.AllPlaced inLoop inFunction rest

def Stmt.OptionPlaced (inLoop inFunction : Bool) : Option Stmt → Prop
  | none => True
  | some stmt => stmt.Placed inLoop inFunction

end

mutual

theorem placed_of_wellFormed : (stmt : Stmt) → stmt.WellFormed inLoop inFunction →
    stmt.Placed inLoop inFunction
  | .branch _ yes no _, h =>
    ⟨placed_of_wellFormed yes h.2.1, optionPlaced_of_wellFormed no h.2.2.1⟩
  | .forOf _ _ body _, h => placed_of_wellFormed body h.2.2
  | .forIn _ _ body _, h => placed_of_wellFormed body h.2.2
  | .loop none _ _ body _, h => ⟨trivial, placed_of_wellFormed body h.2.2.2⟩
  | .loop (some (.expr _ _)) _ _ body _, h => ⟨trivial, placed_of_wellFormed body h.2.2.2⟩
  | .loop (some (.declare _ _ _)) _ _ body _, h => ⟨trivial, placed_of_wellFormed body h.2.2.2⟩
  | .whileDo _ body _, h => placed_of_wellFormed body h.2
  | .block body, h => allPlaced_of_wellFormed body h
  | .breakLoop, h => h
  | .continueLoop, h => h
  | .giveBack _, h => h.1
  | .text _, _ => trivial
  | .output _ _ _, _ => trivial
  | .expr _ _, _ => trivial
  | .declare _ _ _, _ => trivial
  | .empty, _ => trivial

theorem allPlaced_of_wellFormed : (body : List Stmt) →
    Stmt.AllWellFormed inLoop inFunction body → Stmt.AllPlaced inLoop inFunction body
  | [], _ => trivial
  | stmt :: rest, h => ⟨placed_of_wellFormed stmt h.1, allPlaced_of_wellFormed rest h.2⟩

theorem optionPlaced_of_wellFormed : (no : Option Stmt) →
    Stmt.OptionWellFormed inLoop inFunction no → Stmt.OptionPlaced inLoop inFunction no
  | none, _ => trivial
  | some stmt, h => placed_of_wellFormed stmt h

end

/-- A flow that statements may end with in loops or outside, in functions or outside. -/
def Flow.Allowed (inLoop inFunction : Bool) : Flow → Prop
  | normal => True
  | breakLoop => inLoop = true
  | continueLoop => inLoop = true
  | giveBack _ => inFunction = true

/-- What a computation gives has a property, if it gives anything. -/
structure Exec.Gives (P : α → Prop) (x : Exec α) : Prop where
  of_eq_ok : x s = .ok a t → P a

namespace Exec.Gives

variable {P : α → Prop} {Q : β → Prop}

theorem pure (h : P a) : Gives P (Pure.pure a : Exec α) where
  of_eq_ok hb := by
    cases hb
    exact h

theorem throw (h : Halt) : Gives P (MonadExcept.throw h : Exec α) where
  of_eq_ok ha := by cases ha

theorem bind {x : Exec α} {f : α → Exec β} (hx : Gives P x) (hf : ∀ a, P a → Gives Q (f a)) :
    Gives Q (x >>= f) where
  of_eq_ok hb := by
    obtain ⟨a, u, ha, hb⟩ := exists_of_bind_eq_ok hb
    exact (hf a (hx.of_eq_ok ha)).of_eq_ok hb

/-- Only the last step counts. -/
theorem last {x : Exec α} {f : α → Exec β} (hf : ∀ a, Gives Q (f a)) : Gives Q (x >>= f) := by
  have hx : Gives (fun _ => True) x := ⟨fun _ => trivial⟩
  exact hx.bind fun a _ => hf a

theorem mono {Q : α → Prop} {x : Exec α} (hx : Gives P x) (h : ∀ a, P a → Q a) : Gives Q x where
  of_eq_ok ha := h _ (hx.of_eq_ok ha)

theorem inBlock {x : Exec α} (hx : Gives P x) : Gives P (Exec.inBlock x) where
  of_eq_ok {s a t} ha := by
    unfold Exec.inBlock at ha
    cases hr : x s.enter with
    | ok b u =>
      rw [hr] at ha
      cases ha
      exact hx.of_eq_ok hr
    | error e u =>
      rw [hr] at ha
      cases ha

/-- A loop ends as one of its rounds says, or normally. -/
theorem each {P : Flow → Prop} (hp : P .normal) {round : Value → Exec (Option Flow)}
    (hr : ∀ v, Gives (∀ flow ∈ ·, P flow) (round v)) (values : List Value) :
    Gives P (Exec.each round values) := by
  induction values with
  | nil => exact .pure hp
  | cons v rest ih =>
    apply (hr v).bind
    intro ending he
    cases ending with
    | none => exact ih
    | some flow => exact .pure (he flow rfl)

theorem rounds {P : Flow → Prop} {round : Exec (Option Flow)}
    (hr : Gives (∀ flow ∈ ·, P flow) round) (limit : Nat) : Gives P (Exec.rounds round limit) := by
  induction limit with
  | zero => exact .throw _
  | succ limit ih =>
    apply hr.bind
    intro ending he
    cases ending with
    | none => exact ih
    | some flow => exact .pure (he flow rfl)

end Exec.Gives

/-- If a round with this flow is the last one, the loop ends with a flow of the given kind. -/
def Flow.Closes (P : Flow → Prop) (flow : Flow) : Prop := ∀ ending ∈ flow.ofRound, P ending

/-- A loop catches the jumps that concern it. -/
theorem Flow.Allowed.closes {flow : Flow} (h : flow.Allowed true inFunction) :
    flow.Closes (Flow.Allowed inLoop inFunction) := by
  intro ending he
  cases flow with
  | breakLoop =>
    cases he
    trivial
  | giveBack v =>
    cases he
    exact h
  | _ => cases he

section loops

variable {P : Flow → Prop} {scope : Scope} {limit : Nat} {body : Stmt} (hn : P .normal)
  (hb : Exec.Gives (Flow.Closes P) (exec scope limit body))

include hn hb

theorem gives_forOf (name : String) (items : Expr) (line : Nat) :
    Exec.Gives P (exec scope limit (.forOf name items body line)) := by
  rw [exec]
  apply Exec.Gives.last
  intro _
  apply Exec.Gives.last
  intro v
  split
  · exact .throw _
  · apply Exec.Gives.each hn
    intro v
    apply Exec.Gives.inBlock
    apply Exec.Gives.last
    intro _
    apply hb.bind
    intro flow hf
    exact .pure hf

theorem gives_forIn (name : String) (target : Expr) (line : Nat) :
    Exec.Gives P (exec scope limit (.forIn name target body line)) := by
  rw [exec]
  apply Exec.Gives.last
  intro _
  apply Exec.Gives.last
  intro v
  apply Exec.Gives.each hn
  intro key
  apply Exec.Gives.inBlock
  apply Exec.Gives.last
  intro _
  apply hb.bind
  intro flow hf
  exact .pure hf

theorem gives_loop (first : Option Stmt) (test update : Option Expr) (line : Nat) :
    Exec.Gives P (exec scope limit (.loop first test update body line)) := by
  rw [exec]
  apply Exec.Gives.inBlock
  apply Exec.Gives.last
  intro _
  -- The end of a round, a round, and all rounds are common to the optional parts of the head.
  extract_lets next round rest
  have hround : ∀ go, Exec.Gives (∀ flow ∈ ·, P flow) (round go) := by
    intro go
    dsimp only [round]
    split
    · apply hb.inBlock.bind
      intro flow hf
      split
      · rename_i ending he
        apply Exec.Gives.pure
        intro ending' h'
        cases h'
        exact hf ending he
      · apply Exec.Gives.last
        intro _
        cases update with
        | none => exact .pure fun ending h' => absurd h' (Option.not_mem_none ending)
        | some update =>
          exact .last fun _ => .pure fun ending h' => absurd h' (Option.not_mem_none ending)
    · apply Exec.Gives.pure
      intro ending h'
      cases h'
      exact hn
  have hrest : ∀ u, Exec.Gives P (rest u) := by
    intro _
    apply Exec.Gives.rounds
    apply Exec.Gives.last
    intro _
    cases test with
    | none => exact hround true
    | some test => exact .last fun _ => hround _
  cases first with
  | none => exact hrest ()
  | some first => exact .last hrest

theorem gives_whileDo (test : Expr) (line : Nat) :
    Exec.Gives P (exec scope limit (.whileDo test body line)) := by
  rw [exec]
  apply Exec.Gives.rounds
  apply Exec.Gives.last
  intro _
  apply Exec.Gives.last
  intro v
  split
  · apply hb.inBlock.bind
    intro flow hf
    exact .pure hf
  · apply Exec.Gives.pure
    intro ending he
    cases he
    exact hn

end loops

mutual

theorem exec_gives (scope : Scope) (limit : Nat) : (stmt : Stmt) →
    stmt.Placed inLoop inFunction →
    Exec.Gives (Flow.Allowed inLoop inFunction) (exec scope limit stmt)
  | .text s, _ => by
    rw [exec]
    exact .last fun _ => .pure trivial
  | .output e escape line, _ => by
    rw [exec]
    exact .last fun _ => .last fun _ => .last fun _ => .pure trivial
  | .expr e line, _ => by
    rw [exec]
    exact .last fun _ => .last fun _ => .pure trivial
  | .declare kind decls line, _ => by
    rw [exec]
    exact .last fun _ => .last fun _ => .pure trivial
  | .branch test yes no line, h => by
    rw [exec.eq_def]
    dsimp only
    apply Exec.Gives.last
    intro _
    apply Exec.Gives.last
    intro v
    split
    · exact exec_gives scope limit yes h.1
    · cases no with
      | some no => exact exec_gives scope limit no h.2
      | none => exact .pure trivial
  | .forOf name items body line, h =>
    gives_forOf trivial ((exec_gives scope limit body h).mono fun _ => .closes) name items line
  | .forIn name target body line, h =>
    gives_forIn trivial ((exec_gives scope limit body h).mono fun _ => .closes) name target line
  | .loop first test update body line, h =>
    gives_loop trivial ((exec_gives scope limit body h.2).mono fun _ => .closes) first test update
      line
  | .whileDo test body line, h =>
    gives_whileDo trivial ((exec_gives scope limit body h).mono fun _ => .closes) test line
  | .block body, h => by
    rw [exec]
    exact .inBlock (run_gives scope limit body h)
  | .breakLoop, h => .pure h
  | .continueLoop, h => .pure h
  | .giveBack (some e), h => by
    rw [exec]
    exact .last fun _ => .pure h
  | .giveBack none, h => .pure h
  | .empty, _ => .pure trivial

theorem run_gives (scope : Scope) (limit : Nat) : (body : List Stmt) →
    Stmt.AllPlaced inLoop inFunction body →
    Exec.Gives (Flow.Allowed inLoop inFunction) (run scope limit body)
  | [], _ => .pure trivial
  | stmt :: rest, h => by
    rw [run]
    apply (exec_gives scope limit stmt h.1).bind
    intro flow hf
    split
    · exact run_gives scope limit rest h.2
    · exact .pure hf

end

/-- The statements after some are run if those end normally; if not, they are left out. -/
theorem run_append (scope : Scope) (limit : Nat) (before after : List Stmt) :
    run scope limit (before ++ after) = (do
      match ← run scope limit before with
      | .normal => run scope limit after
      | flow => pure flow) := by
  induction before with
  | nil => rfl
  | cons stmt rest ih =>
    rw [List.cons_append, run, run, bind_assoc]
    apply bind_congr
    intro flow
    cases flow with
    | normal => exact ih
    | _ => rfl

/-- Statements end in one of the given ways, and where they end normally after a part of them, the
others are run. -/
def EndsBy (ends : Flow → Prop) (body : List Stmt) : Prop :=
  ∀ scope limit s flow t, run scope limit body s = .ok flow t →
    ends flow ∧ ∀ before after, body = before ++ after →
      (∃ u, run scope limit before s = .ok .normal u ∧ run scope limit after u = .ok flow t) ∨
        flow ≠ .normal ∧ run scope limit before s = .ok flow t

theorem endsBy_of_placed {ends : Flow → Prop} {body : List Stmt}
    (hb : Stmt.AllPlaced inLoop inFunction body)
    (he : ∀ flow : Flow, flow.Allowed inLoop inFunction → ends flow) : EndsBy ends body := by
  intro scope limit s flow t hr
  refine ⟨he flow ((run_gives scope limit body hb).of_eq_ok hr), ?_⟩
  rintro before after rfl
  rw [run_append] at hr
  obtain ⟨first, u, hf, hr⟩ := exists_of_bind_eq_ok hr
  cases first with
  | normal => exact .inl ⟨u, hf, hr⟩
  | _ =>
    cases hr
    exact .inr ⟨nofun, hf⟩

/-- Functions return, or come to the end of their body. -/
def Flow.Returns (flow : Flow) : Prop := flow = .normal ∨ ∃ v, flow = .giveBack v

theorem Flow.Allowed.eq_normal {flow : Flow} (h : flow.Allowed false false) : flow = .normal := by
  cases flow with
  | normal => rfl
  | _ => cases h

theorem Flow.Allowed.returns {flow : Flow} (h : flow.Allowed false true) : flow.Returns := by
  cases flow with
  | normal => exact .inl rfl
  | giveBack v => exact .inr ⟨v, rfl⟩
  | _ => cases h

/-- A check of the functions in expressions. -/
def Checks.functions (P : List Stmt → Prop) : Checks where
  expr e := ∀ params body, e = .function params body → P body
  stmt _ := True

/-- The bodies of functions are well formed outside loops. -/
theorem Checks.functions_follow {P : List Stmt → Prop}
    (h : ∀ body, Stmt.AllWellFormed false true body → P body) : (Checks.functions P).Follow where
  ident _ _ _ he := nomatch he
  expr e hw params body he := by
    subst he
    exact h body hw.2
  stmt _ _ _ _ := trivial

/-- Jumps do not escape: in the statements of a template they stand in what they leave, a run of
them ends normally and leaves nothing out, and the functions in them end normally or return. -/
theorem jumps_confined (h : build segments = .ok program) :
    Stmt.AllPlaced false false program ∧
      Stmt.AllEvery (.functions (Stmt.AllPlaced false true)) program ∧
      EndsBy (· = .normal) program ∧
      Stmt.AllEvery (.functions (EndsBy Flow.Returns)) program := by
  have hp : Stmt.AllPlaced false false program :=
    allPlaced_of_wellFormed program (wellFormed_of_build h).1
  refine ⟨hp, ?_, ?_, ?_⟩
  · apply every_of_build _ h
    apply Checks.functions_follow
    exact allPlaced_of_wellFormed
  · apply endsBy_of_placed hp
    intro flow hf
    exact hf.eq_normal
  · apply every_of_build _ h
    apply Checks.functions_follow
    intro body hb
    apply endsBy_of_placed (allPlaced_of_wellFormed body hb)
    intro flow hf
    exact hf.returns

/-- A loop with a way out, and a function that returns. -/
def jumpSegments : List Segment :=
  [.statement "while(x)break f(function()\x7breturn\x7d)" 1]

def jumpProgram : List Stmt :=
  [.whileDo (.ident "x") .breakLoop 1, .expr (.call "f" [.function [] [.giveBack none]]) 1]

theorem ofCode_jumps : Lexeme.ofCode "while(x)break f(function()\x7breturn\x7d)".toList =
    .ok [.word "while", .mark .openParen, .word "x", .mark .closeParen, .word "break",
      .word "f", .mark .openParen, .word "function", .mark .openParen, .mark .closeParen,
      .mark .openBrace, .word "return", .mark .closeBrace, .mark .closeParen] := by
  change Lexeme.ofCode ("while".toList ++ '(' :: ("x".toList ++ ')' :: ("break".toList ++ ' ' ::
    ("f".toList ++ '(' :: ("function".toList ++ '(' :: ')' :: '\x7b' :: ("return".toList ++
      ['\x7d', ')'])))))) = _
  rw [Lexeme.ofCode_word (by decide) rfl, Lexeme.ofCode_mark (by decide) rfl,
    Lexeme.ofCode_word (by decide) rfl, Lexeme.ofCode_mark (by decide) rfl,
    Lexeme.ofCode_word (by decide) rfl, Lexeme.ofCode_space,
    Lexeme.ofCode_word (by decide) rfl, Lexeme.ofCode_mark (by decide) rfl,
    Lexeme.ofCode_word (by decide) rfl, Lexeme.ofCode_mark (by decide) rfl,
    Lexeme.ofCode_mark (by decide) rfl, Lexeme.ofCode_mark (by decide) rfl,
    Lexeme.ofCode_word (by decide) rfl, Lexeme.ofCode_mark (by decide) rfl,
    Lexeme.ofCode_mark (by decide) rfl, Lexeme.ofCode]
  rfl

theorem jumps_confined_loop_function :
    build jumpSegments = .ok jumpProgram ∧
      Stmt.AllPlaced false false jumpProgram ∧
      Stmt.AllEvery (.functions (Stmt.AllPlaced false true)) jumpProgram ∧
      EndsBy (· = .normal) jumpProgram ∧
      Stmt.AllEvery (.functions (EndsBy Flow.Returns)) jumpProgram := by
  have h : build jumpSegments = .ok jumpProgram := by
    rw [build, jumpSegments, Items.ofSegments, Items.ofSegment, lexemes, tokenize, ofCode_jumps]
    cbv
  exact ⟨h, jumps_confined h⟩

end Stencil.Script

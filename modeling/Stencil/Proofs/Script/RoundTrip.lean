import Stencil.Proofs.Script.Completeness
import Stencil.Proofs.Script.Operand

/-!
Reading undoes writing: a program that has been read is read again from its canonical form. What is
read is well formed, the canonical form of what is well formed follows the grammar, and the readers
accept what follows the grammar.
-/

namespace Stencil.Script

set_option autoImplicit true

theorem derives_writtenParams (line : Nat) (h : ∀ name ∈ names, isReserved name = false) :
    Derives c .params (writtenParams line names rest) names rest := by
  induction names with
  | nil => exact .noParams
  | cons name more ih =>
    obtain ⟨hn, hm⟩ := List.forall_mem_cons.mp h
    cases more with
    | nil => exact .lastParam hn
    | cons next more => exact .params hn (ih hm)

/-- No statement before it goes on with these items, and no block ends before them. -/
structure OpensStatement (s : List Item) : Prop where
  no_else : elseHead? s = none
  no_brace : Items.after? .closeBrace s = none

/-- A statement after its first word. -/
theorem derives_keyword (hw : keyword? w = some k) (h : Derives c (.afterKeyword w k line) s stmt
      (Items.skip .semicolon (.mark .semicolon l :: rest)).rest) :
    Derives c .statement (.word w line :: s) stmt rest := by
  rw [Items.skip_mark] at h
  exact .keyword hw h

theorem Operand.condition (h : Operand line w e) :
    Derives c .condition (.mark .openParen line :: w (.mark .closeParen line :: s)) e s :=
  .condition (h.assignment rfl)

theorem loopHead?_each (hn : isReserved name = false) (line : Nat) (s : List Item)
    (elements : Bool) :
    ∃ h, loopHead? (.word name line :: .word (if elements then "of" else "in") line :: s) =
      some ⟨(name, elements), s, h⟩ := by
  refine ⟨by simp only [List.length_cons]; omega, ?_⟩
  rw [loopHead?, declHead?_of_opensOperand (opensOperand_of_not_reserved hn), eachHead?, hn]
  cases elements <;> rfl

theorem keyword?_declKind (kind : DeclKind) : keyword? kind.word = some (.declare kind) := by
  cases kind <;> rfl

theorem declKind?_word (kind : DeclKind) : declKind? kind.word = some kind := by
  cases kind <;> rfl

variable (sp : Spelling)

theorem eachHead?_writtenDecls (line : Nat) (decls : List (String × Option Expr)) :
    eachHead? (Expr.writtenDecls sp line decls rest) = none := by
  cases decls with
  | nil => rfl
  | cons decl more =>
    obtain ⟨name, value⟩ := decl
    cases more <;> cases value <;> rfl

theorem loopHead?_writtenDecls (kind : DeclKind) (line : Nat)
    (decls : List (String × Option Expr)) :
    loopHead? (.word kind.word line :: Expr.writtenDecls sp line decls rest) = none := by
  rw [loopHead?, declHead?_cons (declKind?_word kind)]
  dsimp only
  rw [eachHead?_writtenDecls]
  rfl

mutual

theorem operand_written (line : Nat) :
    (e : Expr) → e.WellFormed → Operand line (e.written sp line) e
  | .value _, h => .literal sp h
  | .ident _, h => .ident h
  | .self, _ => .self
  | .array items, h => .array fun _ _ => derives_writtenAll line rfl (by decide) items h
  | .object fields, h => .object fun _ _ => derives_writtenFields line fields h
  | .member target key, h =>
    .member (operand_written line target h.1) (operand_written line key h.2)
  | .filter name args, h =>
    .callProperty (.ident rfl) (fun _ _ => derives_writtenAll line rfl (by decide) args h) name
  | .call name args, h =>
    .callProperty (.ident rfl) (fun _ _ => derives_writtenAll line rfl (by decide) args h) name
  | .method target name args, h => by
    have hm := Operand.callProperty (operand_written line target h.2.1)
      (fun _ _ => derives_writtenAll line rfl (by decide) args h.2.2) name
    rw [h.1] at hm
    exact hm
  | .unary op operand, h => .unaryOp (operand_written line operand h) op
  | .binary op left right, h =>
    .binaryOp (operand_written line left h.1) (operand_written line right h.2) (.binary op)
  | .logical onTrue left right, h =>
    .binaryOp (operand_written line left h.1) (operand_written line right h.2) (.logical onTrue)
  | .conditional test yes no, h =>
    .conditional (operand_written line test h.1) (operand_written line yes h.2.1)
      (operand_written line no h.2.2)
  | .assign _ _ value, h => .assign h.1 h.2.1 (operand_written line value h.2.2)
  | .update _ up true, h => .updateBefore h up
  | .update _ up false, h => .updateAfter h up
  | .function params body, h =>
    .function (fun _ _ => derives_writtenParams line h.1)
      fun c _ => derives_writtenBlock line c.function body h.2

theorem derives_writtenAll (line : Nat) (hc : closer.closes = true) (hm : closer ≠ .comma) :
    (es : List Expr) → Expr.AllWellFormed es →
      Derives c (.expressions closer) (Expr.writtenAll sp line closer es rest) es rest
  | [], _ => .noExpressions
  | [e], h => by
    have he := operand_written line e h.1
    exact .lastExpression hm (he.after?_eq_none (closer.ne_openParen_of_closes hc))
      (he.assignment hc)
  | e :: next :: more, h => by
    have he := operand_written line e h.1
    exact .expressions (he.after?_eq_none (closer.ne_openParen_of_closes hc)) (he.assignment rfl)
      (derives_writtenAll line hc hm (next :: more) h.2)

theorem derives_writtenFields (line : Nat) :
    (fields : List (String × Expr)) → Expr.FieldsWellFormed fields →
      Derives c .objectFields (Expr.writtenFields sp line fields rest) fields rest
  | [], _ => .noFields
  | [(_, e)], h =>
    .lastField rfl (Operand.fieldValue (h.1.imp_right (operand_written line e)) rfl nofun)
  | (_, e) :: next :: more, h =>
    .fields rfl (Operand.fieldValue (h.1.imp_right (operand_written line e)) rfl nofun)
      (derives_writtenFields line (next :: more) h.2)

theorem derives_writtenInitial (line : Nat) (hp : p.closes = true) :
    (value : Option Expr) → Expr.OptionWellFormed value →
      Derives c .initial (Expr.writtenInitial sp line value (.mark p l :: rest)) value
        (.mark p l :: rest)
  | none, _ => .noInitial (Items.after?_mark_of_ne (by rintro rfl; cases hp))
  | some e, h => (operand_written line e h).initial hp

theorem derives_writtenDecls (line : Nat) :
    (decls : List (String × Option Expr)) → decls ≠ [] → Expr.DeclsWellFormed decls →
      Derives c .declarations (Expr.writtenDecls sp line decls rest) decls
        (.mark .semicolon line :: rest)
  | [], hne, _ => absurd rfl hne
  | [(_, value)], _, h =>
    .lastDeclared h.1 (derives_writtenInitial line rfl value h.2.1) rfl
  | (_, value) :: next :: more, _, h =>
    .declared h.1 (derives_writtenInitial line rfl value h.2.1)
      (derives_writtenDecls line (next :: more) nofun h.2.2)

theorem derives_writtenOption (line : Nat) (hc : closer.closes = true) :
    (value : Option Expr) → Expr.OptionWellFormed value →
      Derives c (.optional closer) (Expr.writtenOption sp line closer value rest) value rest
  | none, _ => .omitted
  | some e, h => (operand_written line e h).given hc

theorem derives_writtenReturn (line : Nat) :
    (value : Option Expr) → Expr.OptionWellFormed value →
      Derives c .returned (Expr.writtenOption sp line .semicolon value rest) value
        (.mark .semicolon line :: rest)
  | none, _ => .nothingReturned rfl
  | some e, h => (operand_written line e h).returned

theorem derives_writtenStart (line : Nat) :
    (first : Option Stmt) → Stmt.StartWellFormed line first →
      loopHead? (Stmt.writtenStart sp line first rest) = none ∧
        Derives c (.loopStart line) (Stmt.writtenStart sp line first rest) first rest
  | none, _ => ⟨rfl, .noStart⟩
  | some (.expr e l), h => by
    obtain ⟨rfl, he⟩ := h
    have ho := operand_written l e he
    exact ⟨ho.loopHead?_eq_none .semicolon, .expressionStart (ho.after?_eq_none nofun)
      ho.declHead?_eq_none (ho.assignment rfl)⟩
  | some (.declare kind decls l), h => by
    obtain ⟨rfl, hne, hd⟩ := h
    exact ⟨loopHead?_writtenDecls sp kind l decls,
      .declareStart (declKind?_word kind) (derives_writtenDecls l decls hne hd)⟩

/-- A statement is read from its canonical form, where no `else` follows to which it would
belong. -/
theorem derives_written (line : Nat) (c : Context) (rest : List Item) :
    (stmt : Stmt) → stmt.WellFormed c.inLoop c.inFunction →
      (stmt.endsOpen = true → elseHead? rest = none) →
      Derives c .statement (stmt.written sp line rest) stmt rest
  | .text _, _, _ => .text
  | .output _ _ _, _, _ => .output
  | .expr e l, h, _ => (operand_written l e h).statement
  | .declare kind decls l, h, _ =>
    derives_keyword (keyword?_declKind kind) (.declare (derives_writtenDecls l decls h.1 h.2))
  | .branch test yes none l, h, ho =>
    .keyword rfl (.branch (operand_written l test h.1).condition
      (derives_written l c rest yes h.2.1 fun _ => ho rfl) (.noAlternative (ho rfl)))
  | .branch test yes (some no) l, h, ho => by
    have hy := derives_written l c (.word "else" l :: no.written sp l rest) yes h.2.1 fun he => by
      rw [h.2.2.2 rfl] at he
      cases he
    exact .keyword rfl (.branch (operand_written l test h.1).condition hy
      (.otherwise (derives_written l c rest no h.2.2.1 ho)))
  | .forOf name items body l, h, ho => by
    obtain ⟨_, hl⟩ := loopHead?_each h.1 l
      (items.written sp l (.mark .closeParen l :: body.written sp l rest)) true
    exact .keyword rfl (.forOf hl rfl ((operand_written l items h.2.1).assignment rfl)
      (derives_written l c.looping rest body h.2.2 ho))
  | .forIn name target body l, h, ho => by
    obtain ⟨_, hl⟩ := loopHead?_each h.1 l
      (target.written sp l (.mark .closeParen l :: body.written sp l rest)) false
    exact .keyword rfl (.forIn hl rfl ((operand_written l target h.2.1).assignment rfl)
      (derives_written l c.looping rest body h.2.2 ho))
  | .loop first test update body l, h, ho => by
    obtain ⟨hl, hs⟩ := derives_writtenStart l first h.1
    exact .keyword rfl (.loop hl hs (derives_writtenOption l rfl test h.2.1)
      (derives_writtenOption l rfl update h.2.2.1)
      (derives_written l c.looping rest body h.2.2.2 ho))
  | .whileDo test body l, h, ho =>
    .keyword rfl (.whileDo (operand_written l test h.1).condition
      (derives_written l c.looping rest body h.2 ho))
  | .block body, h, _ => .braces (derives_writtenBlock line c body h)
  | .breakLoop, h, _ => derives_keyword rfl (.breakLoop h)
  | .continueLoop, h, _ => derives_keyword rfl (.continueLoop h)
  | .giveBack value, h, _ =>
    derives_keyword rfl (.giveBack h.1 (derives_writtenReturn line value h.2))
  | .empty, _, _ => .empty

theorem opens_written (line : Nat) :
    (stmt : Stmt) → stmt.WellFormed a b → OpensStatement (stmt.written sp line rest)
  | .expr e l, h => by
    obtain ⟨lexeme, s, hw, hl⟩ := (operand_written l e h).head (.mark .semicolon l :: rest)
    rw [Stmt.written, hw]
    exact ⟨elseHead?_of_opensOperand hl, after?_of_opensOperand hl nofun⟩
  | .declare kind _ _, _ => by cases kind <;> exact ⟨rfl, rfl⟩
  | .text _, _ => ⟨rfl, rfl⟩
  | .output _ _ _, _ => ⟨rfl, rfl⟩
  | .branch _ _ _ _, _ => ⟨rfl, rfl⟩
  | .forOf _ _ _ _, _ => ⟨rfl, rfl⟩
  | .forIn _ _ _ _, _ => ⟨rfl, rfl⟩
  | .loop _ _ _ _ _, _ => ⟨rfl, rfl⟩
  | .whileDo _ _ _, _ => ⟨rfl, rfl⟩
  | .block _, _ => ⟨rfl, rfl⟩
  | .breakLoop, _ => ⟨rfl, rfl⟩
  | .continueLoop, _ => ⟨rfl, rfl⟩
  | .giveBack _, _ => ⟨rfl, rfl⟩
  | .empty, _ => ⟨rfl, rfl⟩

theorem derives_writtenBlock (line : Nat) (c : Context) :
    (body : List Stmt) → Stmt.AllWellFormed c.inLoop c.inFunction body →
      Derives c .block (Stmt.writtenAll sp line body (.mark .closeBrace line :: rest)) body rest
  | [], _ => .blockEnd
  | [stmt], h =>
    .blockMore (opens_written line stmt h.1).no_brace
      (derives_written line c _ stmt h.1 fun _ => rfl) .blockEnd
  | stmt :: next :: more, h =>
    .blockMore (opens_written line stmt h.1).no_brace
      (derives_written line c _ stmt h.1 fun _ => (opens_written line next h.2.1).no_else)
      (derives_writtenBlock line c (next :: more) h.2)

end

theorem derivesAll_written (line last : Nat) (h : Stmt.AllWellFormed false false program) :
    DerivesAll last (Stmt.writtenAll sp line program []) program := by
  induction program with
  | nil => exact .nil
  | cons stmt more ih =>
    obtain ⟨hs, hm⟩ := h
    have hr : elseHead? (Stmt.writtenAll sp line more []) = none := by
      cases more with
      | nil => rfl
      | cons next more => exact (opens_written sp line next hm.1).no_else
    exact .cons (opens_written sp line stmt hs).no_brace
      (derives_written sp line _ _ stmt hs fun _ => hr) (ih hm)

/-- Reading undoes writing: what is read from some items is read again from its canonical form, with
the same lines. -/
theorem statements_writtenAll (line last' : Nat) (h : statements last items = .ok program) :
    statements last' (Stmt.writtenAll sp line program []) = .ok program := by
  have hw := (derivesAll_of_statements h).wellFormed
  exact statements_of_derivesAll (derivesAll_written sp line last' hw)

/-- A branch without semicolons, where the code after `else` stands on the next line. -/
def branchItems : List Item :=
  [.word "if" 1, .mark .openParen 1, .word "a" 1, .mark .closeParen 1,
    .word "f" 1, .mark .openParen 1, .mark .openBrace 1, .word "b" 1, .mark .closeBrace 1,
    .mark .closeParen 1, .word "else" 1, .word "while" 2, .mark .openParen 2, .word "c" 2,
    .mark .closeParen 2, .word "c" 2, .mark .set 2, .word "c" 2, .mark .dot 2, .word "d" 2]

def branchProgram : List Stmt :=
  [.branch (.ident "a") (.expr (.call "f" [.object [("b", .ident "b")]]) 1)
    (some (.whileDo (.ident "c")
      (.expr (.assign "c" none (.member (.ident "c") (.value (.string "d")))) 2) 2)) 1]

theorem statements_writtenAll_branch :
    statements 2 branchItems = .ok branchProgram ∧
      statements 1 (Stmt.writtenAll default 1 branchProgram []) = .ok branchProgram := by
  have h : statements 2 branchItems = .ok branchProgram := by cbv
  exact ⟨h, statements_writtenAll default 1 1 h⟩

end Stencil.Script

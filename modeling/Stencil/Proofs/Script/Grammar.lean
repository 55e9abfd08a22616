import Stencil.Proofs.Script.Items

/-!
The grammar of template code. `Derives c r s v rest` says that in the context `c` the rule `r` takes
items from the front of `s`, gives `v` for them and leaves `rest`. Where two rules could go on, the
grammar says by the items ahead which one does, so that it is deterministic.
-/

namespace Stencil.Script

open Stencil.Text (Read)

set_option autoImplicit true

/-- The rules of the grammar, by what they give. -/
inductive Rule : Type → Type where
  | statement : Rule Stmt
  | expressionStatement (line : Nat) : Rule Stmt
  | afterKeyword (w : String) (keyword : Keyword) (line : Nat) : Rule Stmt
  | condition : Rule Expr
  | alternative : Rule (Option Stmt)
  | returned : Rule (Option Expr)
  | block : Rule (List Stmt)
  | loopStart (line : Nat) : Rule (Option Stmt)
  | optional (closer : Punct) : Rule (Option Expr)
  | declarations : Rule (List (String × Option Expr))
  | initial : Rule (Option Expr)
  | assignment : Rule Expr
  | conditional : Rule Expr
  | binary (level : Nat) : Rule Expr
  | binaryFrom (level : Nat) (left : Expr) : Rule Expr
  | unary : Rule Expr
  | suffixed : Rule Expr
  | chain : Rule Expr
  | chainFrom (target : Expr) : Rule Expr
  | expressions (closer : Punct) : Rule (List Expr)
  | objectFields : Rule (List (String × Expr))
  | fieldValue (name : String) : Rule Expr
  | params : Rule (List String)
  | functionBody : Rule Expr
  | primary : Rule Expr

inductive Derives : {α : Type} → Context → Rule α → List Item → α → List Item → Prop where
  -- statements
  | text : Derives c .statement (.text t line :: s) (.text t) s
  | output : Derives c .statement (.output e escape line :: s) (.output e escape line) s
  | braces : Derives c .block s body s₁ →
      Derives c .statement (.mark .openBrace line :: s) (.block body) s₁
  | empty : Derives c .statement (.mark .semicolon line :: s) .empty s
  | keyword : keyword? w = some k → Derives c (.afterKeyword w k line) s stmt s₁ →
      Derives c .statement (.word w line :: s) stmt s₁
  | expression : l.beginsExpression = true →
      Derives c (.expressionStatement line) (.lexeme l line :: s) stmt s₁ →
      Derives c .statement (.lexeme l line :: s) stmt s₁
  | expressionStatement : Derives c .assignment s e s₁ →
      Derives c (.expressionStatement line) s (.expr e line) (Items.skip .semicolon s₁).rest
  -- statements after their first word
  | branch : Derives c .condition s test s₁ → Derives c .statement s₁ yes s₂ →
      Derives c .alternative s₂ no s₃ →
      Derives c (.afterKeyword w .branch line) s (.branch test yes no line) s₃
  | forOf : loopHead? s = some r → r.value = (name, true) →
      Derives c .assignment r.rest items (.mark .closeParen l₂ :: s₁) →
      Derives c.looping .statement s₁ body s₂ →
      Derives c (.afterKeyword w .loop line) (.mark .openParen l₁ :: s)
        (.forOf name items body line) s₂
  | forIn : loopHead? s = some r → r.value = (name, false) →
      Derives c .assignment r.rest target (.mark .closeParen l₂ :: s₁) →
      Derives c.looping .statement s₁ body s₂ →
      Derives c (.afterKeyword w .loop line) (.mark .openParen l₁ :: s)
        (.forIn name target body line) s₂
  | loop : loopHead? s = none → Derives c (.loopStart line) s first s₁ →
      Derives c (.optional .semicolon) s₁ test s₂ →
      Derives c (.optional .closeParen) s₂ update s₃ →
      Derives c.looping .statement s₃ body s₄ →
      Derives c (.afterKeyword w .loop line) (.mark .openParen l :: s)
        (.loop first test update body line) s₄
  | whileDo : Derives c .condition s test s₁ → Derives c.looping .statement s₁ body s₂ →
      Derives c (.afterKeyword w .whileDo line) s (.whileDo test body line) s₂
  | declare : Derives c .declarations s decls s₁ →
      Derives c (.afterKeyword w (.declare kind) line) s (.declare kind decls line)
        (Items.skip .semicolon s₁).rest
  | breakLoop : c.inLoop = true →
      Derives c (.afterKeyword w .breakLoop line) s .breakLoop (Items.skip .semicolon s).rest
  | continueLoop : c.inLoop = true →
      Derives c (.afterKeyword w .continueLoop line) s .continueLoop (Items.skip .semicolon s).rest
  | giveBack : c.inFunction = true → Derives c .returned s value s₁ →
      Derives c (.afterKeyword w .giveBack line) s (.giveBack value) (Items.skip .semicolon s₁).rest
  | condition : Derives c .assignment s e (.mark .closeParen l₂ :: s₁) →
      Derives c .condition (.mark .openParen l₁ :: s) e s₁
  | otherwise : Derives c .statement s stmt s₁ →
      Derives c .alternative (.word "else" l :: s) (some stmt) s₁
  | noAlternative : elseHead? s = none → Derives c .alternative s none s
  | returned : endsReturn s = false → Derives c .assignment s e s₁ →
      Derives c .returned s (some e) s₁
  | nothingReturned : endsReturn s = true → Derives c .returned s none s
  | blockEnd : Derives c .block (.mark .closeBrace l :: s) [] s
  | blockMore : Items.after? .closeBrace s = none → Derives c .statement s first s₁ →
      Derives c .block s₁ more s₂ → Derives c .block s (first :: more) s₂
  -- the head of a counting loop
  | noStart : Derives c (.loopStart line) (.mark .semicolon l :: s) none s
  | declareStart : declKind? w = some kind →
      Derives c .declarations s decls (.mark .semicolon l₂ :: s₁) →
      Derives c (.loopStart line) (.word w l₁ :: s) (some (.declare kind decls line)) s₁
  | expressionStart : Items.after? .semicolon s = none → declHead? s = none →
      Derives c .assignment s e (.mark .semicolon l :: s₁) →
      Derives c (.loopStart line) s (some (.expr e line)) s₁
  | omitted : Derives c (.optional closer) (.mark closer l :: s) none s
  | given : Items.after? closer s = none → Derives c .assignment s e (.mark closer l :: s₁) →
      Derives c (.optional closer) s (some e) s₁
  -- declarations
  | lastDeclared : isReserved name = false → Derives c .initial s value s₁ →
      Items.after? .comma s₁ = none →
      Derives c .declarations (.word name l :: s) [(name, value)] s₁
  | declared : isReserved name = false → Derives c .initial s value (.mark .comma l₂ :: s₁) →
      Derives c .declarations s₁ more s₂ →
      Derives c .declarations (.word name l₁ :: s) ((name, value) :: more) s₂
  | initial : Derives c .assignment s e s₁ → Derives c .initial (.mark .set l :: s) (some e) s₁
  | noInitial : Items.after? .set s = none → Derives c .initial s none s
  -- expressions, from the loosest binding to the tightest
  | assign : isReserved name = false → p.assignment? = some op → Derives c .assignment s e s₁ →
      Derives c .assignment (.word name l₁ :: .mark p l₂ :: s) (.assign name op e) s₁
  | unassigned : assignHead? s = none → Derives c .conditional s e s₁ →
      Derives c .assignment s e s₁
  | choice : Derives c (.binary 0) s test (.mark .question l₁ :: s₁) →
      Derives c .assignment s₁ yes (.mark .colon l₂ :: s₂) → Derives c .assignment s₂ no s₃ →
      Derives c .conditional s (.conditional test yes no) s₃
  | noChoice : Derives c (.binary 0) s e s₁ → Items.after? .question s₁ = none →
      Derives c .conditional s e s₁
  | binary : Derives c .unary s left s₁ → Derives c (.binaryFrom level left) s₁ e s₂ →
      Derives c (.binary level) s e s₂
  | operator {op : Operator} : ¬op.level < level → Derives c (.binary (op.level + 1)) s right s₁ →
      Derives c (.binaryFrom level (op.apply left right)) s₁ e s₂ →
      Derives c (.binaryFrom level left) (.mark op.mark l :: s) e s₂
  | noOperator : (∀ r, operatorHead? s = some r → r.value.level < level) →
      Derives c (.binaryFrom level left) s left s
  | unary : Derives c .unary s e s₁ →
      Derives c .unary (.lexeme op.lexeme l :: s) (.unary op e) s₁
  | stepBefore : isReserved name = false →
      Derives c .unary (.mark (stepMark up) l₁ :: .word name l₂ :: s) (.update name up true) s
  | noUnary : unaryHead? s = none → stepHead? s = none → Derives c .suffixed s e s₁ →
      Derives c .unary s e s₁
  | stepAfter : Derives c .chain s (.ident name) (.mark (stepMark up) l :: s₁) →
      Derives c .suffixed s (.update name up false) s₁
  | noStep : Derives c .chain s e s₁ → (∀ name, e = .ident name → stepHead? s₁ = none) →
      Derives c .suffixed s e s₁
  | chain : Derives c .primary s target s₁ → Derives c (.chainFrom target) s₁ e s₂ →
      Derives c .chain s e s₂
  | callProperty : Derives c (.expressions .closeParen) s args s₁ →
      Derives c (.chainFrom (callOf target name args)) s₁ e s₂ →
      Derives c (.chainFrom target)
        (.mark .dot l₁ :: .word name l₂ :: .mark .openParen l₃ :: s) e s₂
  | property : Items.after? .openParen s = none →
      Derives c (.chainFrom (.member target (.value (.string name)))) s e s₁ →
      Derives c (.chainFrom target) (.mark .dot l₁ :: .word name l₂ :: s) e s₁
  | index : Derives c .assignment s key (.mark .closeBracket l₂ :: s₁) →
      Derives c (.chainFrom (.member target key)) s₁ e s₂ →
      Derives c (.chainFrom target) (.mark .openBracket l₁ :: s) e s₂
  | call : Derives c (.expressions .closeParen) s args s₁ →
      Derives c (.chainFrom (.call name args)) s₁ e s₂ →
      Derives c (.chainFrom (.ident name)) (.mark .openParen l :: s) e s₂
  | chainEnd : Items.after? .dot s = none → Items.after? .openBracket s = none →
      Items.after? .openParen s = none → Derives c (.chainFrom e) s e s
  -- lists of expressions, fields and parameters
  | noExpressions : Derives c (.expressions closer) (.mark closer l :: s) [] s
  | lastExpression : closer ≠ .comma → Items.after? closer s = none →
      Derives c .assignment s e (.mark closer l :: s₁) →
      Derives c (.expressions closer) s [e] s₁
  | expressions : Items.after? closer s = none → Derives c .assignment s e (.mark .comma l :: s₁) →
      Derives c (.expressions closer) s₁ more s₂ →
      Derives c (.expressions closer) s (e :: more) s₂
  | noFields : Derives c .objectFields (.mark .closeBrace l :: s) [] s
  | lastField : key.fieldName? = some name →
      Derives c (.fieldValue name) s e (.mark .closeBrace l₂ :: s₁) →
      Derives c .objectFields (.lexeme key l₁ :: s) [(name, e)] s₁
  | fields : key.fieldName? = some name →
      Derives c (.fieldValue name) s e (.mark .comma l₂ :: s₁) →
      Derives c .objectFields s₁ more s₂ →
      Derives c .objectFields (.lexeme key l₁ :: s) ((name, e) :: more) s₂
  | fieldValue : Derives c .assignment s e s₁ →
      Derives c (.fieldValue name) (.mark .colon l :: s) e s₁
  | shorthand : Items.after? .colon s = none → Derives c (.fieldValue name) s (.ident name) s
  | noParams : Derives c .params (.mark .closeParen l :: s) [] s
  | lastParam : isReserved name = false →
      Derives c .params (.word name l₁ :: .mark .closeParen l₂ :: s) [name] s
  | params : isReserved name = false → Derives c .params s more s₁ →
      Derives c .params (.word name l₁ :: .mark .comma l₂ :: s) (name :: more) s₁
  | functionBody : Derives c .params s params (.mark .openBrace l₂ :: s₁) →
      Derives c.function .block s₁ body s₂ →
      Derives c .functionBody (.mark .openParen l₁ :: s) (.function params body) s₂
  | namedFunction : isReserved name = false →
      Derives c .params s params (.mark .openBrace l₃ :: s₁) →
      Derives c.function .block s₁ body s₂ →
      Derives c .functionBody (.word name l₁ :: .mark .openParen l₂ :: s) (.function params body) s₂
  -- what expressions are made of
  | number : Derives c .primary (.lexeme (.number x) l :: s) (.value (.ofFloat x)) s
  | string : Derives c .primary (.lexeme (.text t) l :: s) (.value (.string t)) s
  | constant : atom w = .value v → Derives c .primary (.word w l :: s) (.value v) s
  | self : atom w = .self → Derives c .primary (.word w l :: s) .self s
  | ident : atom w = .variable → Derives c .primary (.word w l :: s) (.ident w) s
  | function : atom w = .function → Derives c .functionBody s e s₁ →
      Derives c .primary (.word w l :: s) e s₁
  | parens : Derives c .assignment s e (.mark .closeParen l₂ :: s₁) →
      Derives c .primary (.mark .openParen l₁ :: s) e s₁
  | array : Derives c (.expressions .closeBracket) s items s₁ →
      Derives c .primary (.mark .openBracket l :: s) (.array items) s₁
  | object : Derives c .objectFields s fields s₁ →
      Derives c .primary (.mark .openBrace l :: s) (.object fields) s₁

/-- Statements up to the end. -/
inductive DerivesAll (last : Nat) : List Item → List Stmt → Prop where
  | nil : DerivesAll last [] []
  | cons : Items.after? .closeBrace s = none →
      Derives ⟨last, false, false⟩ .statement s stmt s₁ → DerivesAll last s₁ more →
      DerivesAll last s (stmt :: more)

end Stencil.Script

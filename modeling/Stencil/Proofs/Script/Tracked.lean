import Stencil.Proofs.Script.Soundness
import Stencil.Proofs.Script.Tracking

/-!
Each mover of the cursor tracks its reader: one lemma for each rule, and then an induction on what is
ahead and, for the calls that move nothing before, on the rank of the rule.
-/

namespace Stencil.Script

set_option autoImplicit true

/-- The mover of a rule keeps to its reader; one with what was read before puts the reader's value
behind that. -/
abbrev Rule.Tracked (p : Cursor) : Rule α → Prop
  | statement => p.Tracks id p.statement (Script.statement p.context p.rest)
  | expressionStatement line =>
    p.Tracks id (p.expressionStatement line) (Script.expressionStatement p.context line p.rest)
  | afterKeyword w k line =>
    p.Tracks id (p.keywordStatement w k line) (Script.keywordStatement p.context w k line p.rest)
  | condition => p.Tracks id p.condition (Script.condition p.context p.rest)
  | alternative => p.Tracks id p.alternative (Script.alternative p.context p.rest)
  | returned => p.Tracks id p.returned (Script.returned p.context p.rest)
  | block => ∀ body, p.Tracks (body ++ ·) (p.block body) (Script.block p.context p.rest)
  | loopStart line => p.Tracks id (p.loopStart line) (Script.loopStart p.context line p.rest)
  | optional closer => p.Tracks id (p.optional closer) (Script.optional p.context closer p.rest)
  | declarations => ∀ decls, p.Tracks (decls ++ ·) (p.declarations decls)
      (Script.declarations p.context p.rest)
  | initial => p.Tracks id p.initial (Script.initial p.context p.rest)
  | assignment => p.Tracks id p.assignment (Script.assignment p.context p.rest)
  | conditional => p.Tracks id p.conditional (Script.conditional p.context p.rest)
  | binary level => p.Tracks id (p.binary level) (Script.binary p.context level p.rest)
  | binaryFrom level left => ∀ n h, p.Tracks id (p.binaryFrom level left)
      (Script.binaryFrom (n := n) p.context level ⟨left, p.rest, h⟩)
  | unary => p.Tracks id p.unary (Script.unary p.context p.rest)
  | suffixed => p.Tracks id p.suffixed (Script.suffixed p.context p.rest)
  | chain => p.Tracks id p.chain (Script.chain p.context p.rest)
  | chainFrom target => ∀ n h, p.Tracks id (p.chainFrom target)
      (Script.chainFrom (n := n) p.context ⟨target, p.rest, h⟩)
  | expressions closer => ∀ es, p.Tracks (es ++ ·) (p.expressions closer es)
      (Script.expressions p.context closer p.rest)
  | objectFields => ∀ fields, p.Tracks (fields ++ ·) (p.objectFields fields)
      (Script.objectFields p.context p.rest)
  | fieldValue name => p.Tracks id (p.fieldValue name) (Script.fieldValue p.context name p.rest)
  | params => ∀ names, p.Tracks (names ++ ·) (p.params names) (Items.params p.last p.rest)
  | functionBody => p.Tracks id p.functionBody (Script.functionBody p.context p.rest)
  | primary => p.Tracks id p.primary (Script.primary p.context p.rest)

namespace Cursor

variable {p : Cursor}

/-- The movers keep to their readers on fewer than `n` items, and those of rank below `k` do on `n`
items. -/
def TracksBelow (n k : Nat) : Prop :=
  ∀ {α : Type} (r : Rule α) {p : Cursor}, p.pos ≤ p.items.length →
    p.rest.length < n ∨ p.rest.length = n ∧ r.rank < k → r.Tracked p

theorem TracksBelow.less (ih : TracksBelow n k) (r : Rule α) (hl : i ≤ p.items.length)
    (h : (p.moved i).rest.length < n) : r.Tracked (p.moved i) :=
  ih r hl (.inl h)

theorem TracksBelow.here (ih : TracksBelow p.rest.length k) (r : Rule α)
    (hp : p.pos ≤ p.items.length) (h : r.rank < k) : r.Tracked p :=
  ih r hp (.inr ⟨rfl, h⟩)

theorem expression_eq_assignment : expression = assignment := by
  funext p
  rw [expression]

theorem tracks_statement (ih : TracksBelow p.rest.length 10) (hp : p.pos ≤ p.items.length) :
    Tracks p id p.statement (Script.statement p.context p.rest) := by
  cases hs : p.rest with
  | nil =>
    have hu := tracks_unexpected (n := 0) (α := Stmt) id p
    rw [hs] at hu
    rw [statement, peek_eq, hs, Script.statement]
    exact hu
  | cons item s =>
    rw [statement, peek_eq, hs]
    obtain ⟨hl, rfl, hlt⟩ := of_rest_eq_cons hs
    cases item with
    | text t line =>
      rw [Script.statement]
      exact .ok (Nat.le_succ _) hl rfl
    | output e escape line =>
      rw [Script.statement]
      exact .ok (Nat.le_succ _) hl rfl
    | lexeme l line =>
      dsimp only [List.getElem?_cons_zero]
      -- the mover goes by the lexeme, the equations of the reader by what it begins
      by_cases hb : l.beginsExpression = true
      · rw [statement_of_beginsExpression hb, ← hs]
        have he := ih.here (.expressionStatement line) hp (Nat.lt_succ_self 9)
        split
        · cases hb
        · cases hb
        · rename_i w
          rw [show keyword? w = none from Option.isNone_iff_eq_none.mp hb]
          exact he
        · exact he
      · rcases l.eq_of_not_beginsExpression hb with ⟨w, k, rfl, hk⟩ | rfl | rfl
        · rw [statement_of_keyword hk]
          dsimp only
          rw [hk]
          dsimp only
          refine Tracks.advance ?_
          exact Tracks.mapped (ih.less (.afterKeyword w k line) hl hlt)
            (fun _ _ _ => ⟨_, rfl⟩) fun _ => rfl
        · rw [Script.statement]
          refine Tracks.advance ?_
          exact Tracks.bind (ih.less .block hl hlt []) fun _ _ _ hl => .here hl rfl
        · rw [Script.statement]
          exact .ok (Nat.le_succ _) hl rfl

theorem TracksBelow.looping (ih : TracksBelow n k) (hl : i ≤ p.items.length)
    (h : (p.moved i).rest.length < n) :
    Tracks (p.moved i) id (p.moved i).loopBody
      (Script.statement p.context.looping (p.moved i).rest) := by
  have hs : Rule.Tracked ((p.moved i).inside (p.loopDepth + 1) p.functionDepth) .statement :=
    ih .statement hl (.inl h)
  rw [loopBody]
  exact Tracks.inside (p := p.moved i) hs fun _ _ => rfl

theorem tracks_keywordStatement (ih : TracksBelow p.rest.length 12) (hp : p.pos ≤ p.items.length)
    (w : String) (k : Keyword) (line : Nat) :
    Tracks p id (p.keywordStatement w k line)
      (Script.keywordStatement p.context w k line p.rest) := by
  cases k with
  | branch =>
    rw [keywordStatement, Script.keywordStatement]
    refine (ih.here .condition hp (by decide)).bind fun test i h₁ hl => ?_
    refine Tracks.bind (ih.less .statement hl h₁) fun yes j h₂ hl => ?_
    exact Tracks.bind (ih.less .alternative hl (by omega)) fun no _ _ hl => .here hl rfl
  | otherwise =>
    rw [keywordStatement, Script.keywordStatement]
    exact .error
  | loop =>
    rw [keywordStatement, Script.keywordStatement, expression_eq_assignment]
    refine (tracks_expect .openParen p).bind fun _ i h₁ hl => ?_
    dsimp only
    cases finds_loopHead (p.moved i) with
    | @some j head h₂ hi hl hx ho =>
      obtain ⟨name, elements⟩ := head
      rw [hx, ho]
      refine Tracks.back ?_ hi
      refine Tracks.bind (ih.less .assignment hl (by omega)) fun target k h₃ hl => ?_
      refine (tracks_expect .closeParen _).bind fun _ m h₄ hl => ?_
      refine Tracks.bind (ih.looping hl (by omega)) fun body _ _ hl => ?_
      exact .here hl rfl
    | none hx ho =>
      rw [hx, ho]
      refine Tracks.bind (ih.less (.loopStart line) hl h₁) fun first j h₂ hl => ?_
      dsimp only
      refine Tracks.bind (ih.less (.optional .semicolon) hl (by omega)) fun test k h₃ hl => ?_
      dsimp only
      refine Tracks.bind (ih.less (.optional .closeParen) hl (by omega)) fun update m h₄ hl => ?_
      exact Tracks.bind (ih.looping hl (by omega)) fun body _ _ hl => .here hl rfl
  | whileDo =>
    rw [keywordStatement, Script.keywordStatement]
    refine (ih.here .condition hp (by decide)).bind fun test i h₁ hl => ?_
    exact Tracks.bind (ih.looping hl h₁) fun body _ _ hl => .here hl rfl
  | declare kind =>
    rw [keywordStatement, Script.keywordStatement]
    refine Tracks.bind (ih.here .declarations hp (by decide) []) fun decls i h₁ hl => ?_
    exact tracks_skip .semicolon hl _
  | breakLoop =>
    rw [keywordStatement, Script.keywordStatement]
    exact tracks_within (tracks_skip .semicolon hp _)
  | continueLoop =>
    rw [keywordStatement, Script.keywordStatement]
    exact tracks_within (tracks_skip .semicolon hp _)
  | giveBack =>
    rw [keywordStatement, Script.keywordStatement]
    refine tracks_within ?_
    refine (ih.here .returned hp (by decide)).bind fun value i h₁ hl => ?_
    exact tracks_skip .semicolon hl _

theorem tracks_expressionStatement (ih : TracksBelow p.rest.length 9)
    (hp : p.pos ≤ p.items.length) (line : Nat) :
    Tracks p id (p.expressionStatement line)
      (Script.expressionStatement p.context line p.rest) := by
  rw [expressionStatement, Script.expressionStatement, expression_eq_assignment]
  refine (ih.here .assignment hp (by decide)).bind fun e i h₁ hl => ?_
  exact tracks_skip .semicolon hl _

theorem tracks_condition (ih : TracksBelow p.rest.length 0) :
    Tracks p id p.condition (Script.condition p.context p.rest) := by
  rw [condition, Script.condition, expression_eq_assignment]
  refine (tracks_expect .openParen p).bind fun _ i h₁ hl => ?_
  refine Tracks.bind (ih.less .assignment hl h₁) fun e j h₂ hl => ?_
  exact (tracks_expect .closeParen _).bind fun _ _ _ hl => .here hl rfl

theorem tracks_alternative (ih : TracksBelow p.rest.length 0) (hp : p.pos ≤ p.items.length) :
    Tracks p id p.alternative (Script.alternative p.context p.rest) := by
  rw [alternative, Script.alternative, elseHead?_eq_head?]
  cases finds_accept Lexeme.else? p with
  | none hx ho =>
    rw [hx, ho]
    exact .here hp rfl
  | @some i _ h₁ hi hl hx ho =>
    rw [hx, ho]
    refine Tracks.back ?_ hi
    exact Tracks.bind (ih.less .statement hl h₁) fun _ _ _ hl => .here hl rfl

theorem tracks_returned (ih : TracksBelow p.rest.length 9) (hp : p.pos ≤ p.items.length) :
    Tracks p id p.returned (Script.returned p.context p.rest) := by
  rw [returned, Script.returned, expression_eq_assignment]
  split
  · exact .here hp rfl
  · exact (ih.here .assignment hp (by decide)).bind fun _ _ _ hl => .here hl rfl

theorem tracks_block (ih : TracksBelow p.rest.length 11) (hp : p.pos ≤ p.items.length)
    (body : List Stmt) :
    Tracks p (body ++ ·) (p.block body) (Script.block p.context p.rest) := by
  rw [block, Script.block]
  cases finds_eat .closeBrace p with
  | some hi hl hx ho =>
    rw [hx, ho]
    exact .ok hi hl (List.append_nil body)
  | none hx ho =>
    rw [hx, ho, ended_eq]
    dsimp only
    split
    · exact .error
    · refine (ih.here .statement hp (by decide)).bind fun first i h₁ hl => ?_
      exact Tracks.mapped (ih.less .block hl h₁ (body ++ [first])) (fun _ _ _ => ⟨_, rfl⟩)
        (List.append_cons body first)

theorem tracks_loopStart (ih : TracksBelow p.rest.length 9) (hp : p.pos ≤ p.items.length)
    (line : Nat) :
    Tracks p id (p.loopStart line) (Script.loopStart p.context line p.rest) := by
  rw [loopStart, Script.loopStart, expression_eq_assignment]
  cases finds_eat .semicolon p with
  | some hi hl hx ho =>
    rw [hx, ho]
    exact .ok hi hl rfl
  | none hx ho =>
    rw [hx, ho, declHead?_eq_head?]
    cases finds_accept Lexeme.declKind? p with
    | @some i kind h₁ hi hl hx ho =>
      rw [hx, ho]
      refine Tracks.back ?_ hi
      refine Tracks.bind (ih.less .declarations hl h₁ []) fun decls j h₂ hl => ?_
      exact (tracks_expect .semicolon _).bind fun _ _ _ hl => .here hl rfl
    | none hx ho =>
      rw [hx, ho]
      refine (ih.here .assignment hp (by decide)).bind fun e i h₁ hl => ?_
      exact (tracks_expect .semicolon _).bind fun _ _ _ hl => .here hl rfl

theorem tracks_optional (ih : TracksBelow p.rest.length 9) (hp : p.pos ≤ p.items.length)
    (closer : Punct) :
    Tracks p id (p.optional closer) (Script.optional p.context closer p.rest) := by
  rw [Cursor.optional, Script.optional, expression_eq_assignment]
  cases finds_eat closer p with
  | some hi hl hx ho =>
    rw [hx, ho]
    exact .ok hi hl rfl
  | none hx ho =>
    rw [hx, ho]
    refine (ih.here .assignment hp (by decide)).bind fun e i h₁ hl => ?_
    exact (tracks_expect closer _).bind fun _ _ _ hl => .here hl rfl

theorem tracks_declarations (ih : TracksBelow p.rest.length 0)
    (decls : List (String × Option Expr)) :
    Tracks p (decls ++ ·) (p.declarations decls) (Script.declarations p.context p.rest) := by
  rw [declarations, Script.declarations]
  refine (tracks_name p).bind fun name i h₁ hl => ?_
  refine Tracks.bind (ih.less .initial hl h₁) fun value j h₂ hl => ?_
  dsimp only
  cases finds_eat .comma ((p.moved i).moved j) with
  | @some k _ h₃ hi hl hx ho =>
    rw [hx, ho]
    refine Tracks.back ?_ hi
    exact Tracks.mapped (ih.less .declarations hl (by omega) (decls ++ [(name, value)]))
      (fun _ _ _ => ⟨_, rfl⟩) (List.append_cons decls (name, value))
  | none hx ho =>
    rw [hx, ho]
    exact .here hl rfl

theorem tracks_initial (ih : TracksBelow p.rest.length 0) (hp : p.pos ≤ p.items.length) :
    Tracks p id p.initial (Script.initial p.context p.rest) := by
  rw [initial, Script.initial]
  cases finds_eat .set p with
  | none hx ho =>
    rw [hx, ho]
    exact .here hp rfl
  | @some i _ h₁ hi hl hx ho =>
    rw [hx, ho]
    refine Tracks.back ?_ hi
    exact Tracks.bind (ih.less .assignment hl h₁) fun _ _ _ hl => .here hl rfl

theorem tracks_conditional (ih : TracksBelow p.rest.length 7) (hp : p.pos ≤ p.items.length) :
    Tracks p id p.conditional (Script.conditional p.context p.rest) := by
  rw [conditional, Script.conditional]
  refine (ih.here (.binary 0) hp (by decide)).bind fun test i h₁ hl => ?_
  dsimp only
  cases finds_eat .question (p.moved i) with
  | none hx ho =>
    rw [hx, ho]
    exact .here hl rfl
  | @some j _ h₂ hi hl hx ho =>
    rw [hx, ho]
    refine Tracks.back ?_ hi
    refine Tracks.bind (ih.less .assignment hl (by omega)) fun yes j h₃ hl => ?_
    refine (tracks_expect .colon _).bind fun _ k h₄ hl => ?_
    exact Tracks.bind (ih.less .assignment hl (by omega)) fun no _ _ hl => .here hl rfl

theorem tracks_binary (ih : TracksBelow p.rest.length 6) (hp : p.pos ≤ p.items.length)
    (level : Nat) :
    Tracks p id (p.binary level) (Script.binary p.context level p.rest) := by
  rw [binary, Script.binary]
  refine (ih.here .unary hp (by decide)).bind fun left i h₁ hl => ?_
  exact ih.less (.binaryFrom level left) hl h₁ _ _

theorem tracks_binaryFrom (ih : TracksBelow p.rest.length 7) (hp : p.pos ≤ p.items.length)
    (level : Nat) (left : Expr) (h : p.rest.length < n) :
    Tracks p id (p.binaryFrom level left)
      (Script.binaryFrom p.context level ⟨left, p.rest, h⟩) := by
  rw [binaryFrom, Script.binaryFrom, operatorHead?_eq_head?, look_eq]
  dsimp only
  cases ho : Items.head? Lexeme.operator? p.rest with
  | none => exact .here hp rfl
  | some r =>
    obtain ⟨op, s, h₁⟩ := r
    obtain ⟨l, line, hs, -⟩ := Items.eq_of_head? ho
    obtain ⟨hl, rfl, -⟩ := of_rest_eq_cons hs
    change Tracks p id (if op.level < level then _ else _) (if op.level < level then _ else _)
    split
    · exact .here hp rfl
    · refine Tracks.advance ?_
      refine Tracks.bind (ih.less (.binary (op.level + 1)) hl h₁) fun right j h₂ hl => ?_
      exact ih.less (.binaryFrom level (op.apply left right)) hl (by omega) _ _

theorem tracks_unary (ih : TracksBelow p.rest.length 5) (hp : p.pos ≤ p.items.length) :
    Tracks p id p.unary (Script.unary p.context p.rest) := by
  rw [unary, Script.unary, unaryHead?_eq_head?]
  cases finds_accept Lexeme.unary? p with
  | @some i op h₁ hi hl hx ho =>
    rw [hx, ho]
    refine Tracks.back ?_ hi
    exact Tracks.bind (ih.less .unary hl h₁) fun _ _ _ hl => .here hl rfl
  | none hx ho =>
    rw [hx, ho, stepHead?_eq_head?]
    cases finds_accept Lexeme.step? p with
    | some hi hl hx ho =>
      rw [hx, ho]
      refine Tracks.back ?_ hi
      exact (tracks_name _).bind fun _ _ _ hl => .here hl rfl
    | none hx ho =>
      rw [hx, ho]
      exact ih.here .suffixed hp (by decide)

theorem tracks_suffixed (ih : TracksBelow p.rest.length 4) (hp : p.pos ≤ p.items.length) :
    Tracks p id p.suffixed (Script.suffixed p.context p.rest) := by
  rw [suffixed, Script.suffixed]
  refine (ih.here .chain hp (by decide)).bind fun e i h₁ hl => ?_
  dsimp only
  cases e with
  | ident name =>
    rw [stepHead?_eq_head?]
    cases finds_accept Lexeme.step? (p.moved i) with
    | some hi hl hx ho =>
      rw [hx, ho]
      exact .ok hi hl rfl
    | none hx ho =>
      rw [hx, ho]
      exact .here hl rfl
  | _ => exact .here hl rfl

theorem tracks_chain (ih : TracksBelow p.rest.length 3) (hp : p.pos ≤ p.items.length) :
    Tracks p id p.chain (Script.chain p.context p.rest) := by
  rw [chain, Script.chain]
  refine (ih.here .primary hp (by decide)).bind fun first i h₁ hl => ?_
  exact ih.less (.chainFrom first) hl h₁ _ _

/-- The test ahead leaves the cursor in front of the parenthesis, where the reader is behind it. -/
theorem tracks_arguments (ih : TracksBelow n k) (hn : p.rest.length ≤ n)
    (ho : Items.after? .openParen p.rest = some ⟨u, s, h⟩) :
    Tracks p id p.arguments (Script.expressions p.context .closeParen s) := by
  have hm := tracks_expect .openParen p
  rw [Items.mark, ho] at hm
  generalize ha : p.expect .openParen = a at hm
  cases hm with
  | ok hi hl =>
    rw [arguments, Answer.bind_of_ok ha]
    exact Tracks.back (ih.less (.expressions .closeParen) hl (Nat.lt_of_lt_of_le h hn) []) hi

theorem tracks_chainFrom (ih : TracksBelow p.rest.length 2) (hp : p.pos ≤ p.items.length)
    (target : Expr) (h : p.rest.length < n) :
    Tracks p id (p.chainFrom target) (Script.chainFrom p.context ⟨target, p.rest, h⟩) := by
  -- the other equations of the mover split on the target, which matters in the last branch only
  rw [chainFrom.eq_def, Script.chainFrom, expression_eq_assignment]
  dsimp only
  cases finds_eat .dot p with
  | @some i _ h₁ hi hl hx ho =>
    rw [hx, ho]
    refine Tracks.back ?_ hi
    refine (tracks_propertyName _).bind fun name j h₂ hl => ?_
    dsimp only
    rw [ahead_eq]
    cases ho : Items.after? .openParen ((p.moved i).moved j).rest with
    | none =>
      exact ih.less (.chainFrom (.member target (.value (.string name)))) hl (by omega) _ _
    | some r =>
      obtain ⟨_, s, h₃⟩ := r
      refine Tracks.bind (tracks_arguments ih (by omega) ho) fun args k h₄ hl => ?_
      exact ih.less (.chainFrom (callOf target name args)) hl (by omega) _ _
  | none hx ho =>
    rw [hx, ho]
    cases finds_eat .openBracket p with
    | @some i _ h₁ hi hl hx ho =>
      rw [hx, ho]
      refine Tracks.back ?_ hi
      refine Tracks.bind (ih.less .assignment hl h₁) fun key j h₂ hl => ?_
      refine (tracks_expect .closeBracket _).bind fun _ k h₃ hl => ?_
      exact ih.less (.chainFrom (.member target key)) hl (by omega) _ _
    | none hx ho =>
      rw [hx, ho]
      dsimp only
      rw [ahead_eq]
      cases ho : Items.after? .openParen p.rest with
      | none => exact .here hp rfl
      | some r =>
        obtain ⟨_, s, h₁⟩ := r
        cases target with
        | ident name =>
          refine Tracks.bind (tracks_arguments ih (Nat.le_refl _) ho) fun args i h₂ hl => ?_
          exact ih.less (.chainFrom (.call name args)) hl (by omega) _ _
        | _ => exact .error

theorem tracks_assignment (ih : TracksBelow p.rest.length 8) (hp : p.pos ≤ p.items.length) :
    Tracks p id p.assignment (Script.assignment p.context p.rest) := by
  rw [assignment, Script.assignment]
  cases finds_assignHead p with
  | none hx ho =>
    rw [hx, ho]
    exact ih.here .conditional hp (by decide)
  | @some i _ h₁ hi hl hx ho =>
    rw [hx, ho]
    refine Tracks.back ?_ hi
    exact Tracks.bind (ih.less .assignment hl h₁) fun _ _ _ hl => .here hl rfl

theorem tracks_expressions (ih : TracksBelow p.rest.length 9) (hp : p.pos ≤ p.items.length)
    (closer : Punct) (es : List Expr) :
    Tracks p (es ++ ·) (p.expressions closer es) (Script.expressions p.context closer p.rest) := by
  rw [expressions, Script.expressions]
  cases finds_eat closer p with
  | some hi hl hx ho =>
    rw [hx, ho]
    exact .ok hi hl (List.append_nil es)
  | none hx ho =>
    rw [hx, ho]
    refine (ih.here .assignment hp (by decide)).bind fun e i h₁ hl => ?_
    dsimp only
    cases finds_eat .comma (p.moved i) with
    | @some j _ h₂ hi hl hx ho =>
      rw [hx, ho]
      refine Tracks.back ?_ hi
      exact Tracks.mapped (ih.less (.expressions closer) hl (by omega) (es ++ [e]))
        (fun _ _ _ => ⟨_, rfl⟩) (List.append_cons es e)
    | none hx ho =>
      rw [hx, ho]
      exact (tracks_expect closer _).bind fun _ _ _ hl => .here hl rfl

theorem tracks_objectFields (ih : TracksBelow p.rest.length 0) (fields : List (String × Expr)) :
    Tracks p (fields ++ ·) (p.objectFields fields) (Script.objectFields p.context p.rest) := by
  rw [objectFields, Script.objectFields]
  cases finds_eat .closeBrace p with
  | some hi hl hx ho =>
    rw [hx, ho]
    exact .ok hi hl (List.append_nil fields)
  | none hx ho =>
    rw [hx, ho]
    refine (tracks_fieldName p).bind fun name i h₁ hl => ?_
    refine Tracks.bind (ih.less (.fieldValue name) hl h₁) fun value j h₂ hl => ?_
    dsimp only
    cases finds_eat .comma ((p.moved i).moved j) with
    | @some k _ h₃ hi hl hx ho =>
      rw [hx, ho]
      refine Tracks.back ?_ hi
      exact Tracks.mapped (ih.less .objectFields hl (by omega) (fields ++ [(name, value)]))
        (fun _ _ _ => ⟨_, rfl⟩) (List.append_cons fields (name, value))
    | none hx ho =>
      rw [hx, ho]
      exact (tracks_expect .closeBrace _).bind fun _ _ _ hl => .here hl rfl

theorem tracks_fieldValue (ih : TracksBelow p.rest.length 0) (hp : p.pos ≤ p.items.length)
    (name : String) :
    Tracks p id (p.fieldValue name) (Script.fieldValue p.context name p.rest) := by
  rw [fieldValue, Script.fieldValue]
  cases finds_eat .colon p with
  | none hx ho =>
    rw [hx, ho]
    exact .here hp rfl
  | @some i _ h₁ hi hl hx ho =>
    rw [hx, ho]
    refine Tracks.back ?_ hi
    exact (ih.less .assignment hl h₁).mapped (fun _ _ _ => ⟨_, rfl⟩) fun _ => rfl

theorem TracksBelow.enclosed (ih : TracksBelow n k) (hl : i ≤ p.items.length)
    (h : (p.moved i).rest.length < n) :
    Tracks (p.moved i) id (p.moved i).functionBlock
      (Script.block p.context.function (p.moved i).rest) := by
  have hs : Rule.Tracked ((p.moved i).inside 0 (p.functionDepth + 1)) .block :=
    ih .block hl (.inl h)
  rw [functionBlock]
  exact Tracks.inside (p := p.moved i) (hs []) fun _ _ => rfl

theorem tracks_functionBody (ih : TracksBelow p.rest.length 0) (hp : p.pos ≤ p.items.length) :
    Tracks p id p.functionBody (Script.functionBody p.context p.rest) := by
  rw [functionBody, Script.functionBody]
  refine (tracks_functionName hp).bind fun _ i h₁ hl => ?_
  dsimp only
  refine (tracks_expect .openParen _).bind fun _ j h₂ hl => ?_
  dsimp only
  refine Tracks.bind (tracks_params [] _) fun params k h₃ hl => ?_
  dsimp only
  refine (tracks_expect .openBrace _).bind fun _ m h₄ hl => ?_
  dsimp only
  exact Tracks.bind (ih.enclosed hl (by omega)) fun body _ _ hl => .here hl rfl

theorem tracks_function (ih : TracksBelow p.rest.length k) (hs : p.rest = item :: s) :
    Tracks p id p.function (Script.functionBody p.context s) := by
  obtain ⟨hl, rfl, hlt⟩ := of_rest_eq_cons hs
  rw [function]
  exact Tracks.advance (ih.less .functionBody hl hlt)

theorem tracks_primary (ih : TracksBelow p.rest.length 0) :
    Tracks p id p.primary (Script.primary p.context p.rest) := by
  have hu := tracks_unexpected (n := p.rest.length) (α := Expr) id p
  rw [primary, peek_eq, Script.primary.eq_def]
  cases hs : p.rest with
  | nil =>
    rw [hs] at hu
    exact hu
  | cons item s =>
    rw [hs] at hu
    cases item with
    | text => exact hu
    | output => exact hu
    | lexeme l line =>
      dsimp only [List.getElem?_cons_zero]
      obtain ⟨hl, rfl, hlt⟩ := of_rest_eq_cons hs
      cases l with
      | number x => exact .ok (Nat.le_succ _) hl rfl
      | text t => exact .ok (Nat.le_succ _) hl rfl
      | word w =>
        dsimp only
        cases hw : atom w with
        | value v => exact .ok (Nat.le_succ _) hl rfl
        | self => exact .ok (Nat.le_succ _) hl rfl
        | function => exact (tracks_function ih hs).mapped (fun _ _ _ => ⟨_, rfl⟩) fun _ => rfl
        | refused => exact hu
        | _ => exact .ok (Nat.le_succ _) hl rfl
      | mark m =>
        cases m with
        | openParen =>
          dsimp only
          rw [expression_eq_assignment]
          refine Tracks.advance ?_
          refine Tracks.bind (ih.less .assignment hl hlt) fun e i h₁ hl => ?_
          exact (tracks_expect .closeParen _).bind fun _ _ _ hl => .here hl rfl
        | openBracket =>
          dsimp only
          refine Tracks.advance ?_
          exact Tracks.bind (ih.less (.expressions .closeBracket) hl hlt [])
            fun _ _ _ hl => .here hl rfl
        | openBrace =>
          dsimp only
          refine Tracks.advance ?_
          exact Tracks.bind (ih.less .objectFields hl hlt []) fun _ _ _ hl => .here hl rfl
        | _ => exact hu

/-- Every mover keeps to its reader: it calls others on fewer items, or on the same items those of
lower rank. -/
theorem tracked (r : Rule α) (p : Cursor) (hp : p.pos ≤ p.items.length) : r.Tracked p := by
  have ih : TracksBelow p.rest.length r.rank := by
    intro β r' p' hp' hlt
    exact tracked r' p' hp'
  cases r with
  | statement => exact tracks_statement ih hp
  | expressionStatement line => exact tracks_expressionStatement ih hp line
  | afterKeyword w k line => exact tracks_keywordStatement ih hp w k line
  | condition => exact tracks_condition ih
  | alternative => exact tracks_alternative ih hp
  | returned => exact tracks_returned ih hp
  | block => exact tracks_block ih hp
  | loopStart line => exact tracks_loopStart ih hp line
  | optional closer => exact tracks_optional ih hp closer
  | declarations => exact tracks_declarations ih
  | initial => exact tracks_initial ih hp
  | assignment => exact tracks_assignment ih hp
  | conditional => exact tracks_conditional ih hp
  | binary level => exact tracks_binary ih hp level
  | binaryFrom level left => exact fun _ => tracks_binaryFrom ih hp level left
  | unary => exact tracks_unary ih hp
  | suffixed => exact tracks_suffixed ih hp
  | chain => exact tracks_chain ih hp
  | chainFrom target => exact fun _ => tracks_chainFrom ih hp target
  | expressions closer => exact tracks_expressions ih hp closer
  | objectFields => exact tracks_objectFields ih
  | fieldValue name => exact tracks_fieldValue ih hp name
  | params => exact fun names => tracks_params names p
  | functionBody => exact tracks_functionBody ih hp
  | primary => exact tracks_primary ih
termination_by (p.rest.length, r.rank)
decreasing_by
  rcases hlt with hlt | ⟨he, hlt⟩
  · exact Prod.Lex.left _ _ hlt
  · rw [he]
    exact Prod.Lex.right _ hlt

theorem tracksBelow (n k : Nat) : TracksBelow n k := fun r p hp _ => tracked r p hp

theorem context_of_outside (hl : p.loopDepth = 0) (hf : p.functionDepth = 0) :
    p.context = ⟨p.last, false, false⟩ := by
  rw [context, hl, hf]
  rfl

/-- The statements of a template end, and outside of loops and functions they are those that the
reader gives. -/
theorem answer_program (stmts : List Stmt) (p : Cursor) (hp : p.pos ≤ p.items.length) :
    ∃ answer, p.program stmts = some answer ∧
      (p.loopDepth = 0 → p.functionDepth = 0 → answer =
        (statements p.last p.rest).map fun more => (stmts ++ more, p.moved p.items.length)) := by
  rw [program, ended_eq, statements]
  split
  · rename_i he
    refine ⟨_, rfl, fun _ _ => ?_⟩
    have hpos : p.pos = p.items.length :=
      Nat.le_antisymm hp (List.drop_eq_nil_iff.mp (List.isEmpty_iff.mp he))
    change Except.ok (stmts, p) = Except.ok (stmts ++ [], p.moved p.items.length)
    rw [List.append_nil, ← hpos]
    rfl
  · rw [ahead_eq]
    split
    · exact ⟨_, rfl, fun _ _ => rfl⟩
    · have h : Tracks p id p.statement (Script.statement p.context p.rest) :=
        tracked .statement p hp
      generalize ha : p.statement = a at h
      generalize hr : Script.statement p.context p.rest = r at h
      cases h with
      | error =>
        refine ⟨_, rfl, fun hl hf => ?_⟩
        rw [← context_of_outside hl hf, hr]
        rfl
      | @ok i stmt _ _ h₁ hi hl hw =>
        obtain ⟨answer, he, hs⟩ := answer_program (stmts ++ [stmt]) (p.moved i) hl
        cases hw
        refine ⟨answer, he, fun hd hf => ?_⟩
        rw [← context_of_outside hd hf, hr, hs hd hf]
        change _ = (statements p.last (p.moved i).rest >>= _).map _
        change (statements p.last (p.moved i).rest).map _ = _
        cases statements p.last (p.moved i).rest with
        | error e => rfl
        | ok more =>
          change Except.ok (stmts ++ [stmt] ++ more, _) = Except.ok (stmts ++ stmt :: more, _)
          rw [List.append_cons stmts stmt more]
          rfl
termination_by p.rest.length
decreasing_by exact h₁

end Cursor

end Stencil.Script

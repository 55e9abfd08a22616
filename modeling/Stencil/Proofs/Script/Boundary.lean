import Stencil.Proofs.Script.Completeness

/-!
Where code ends. A rule stops at an item that it cannot take; which lexemes it would have taken there
can be read off what it gives and the items that it took.
-/

namespace Stencil.Script

open Stencil.Text (Read)

set_option autoImplicit true

/-- The last item is the mark. -/
def EndsWith (p : Punct) (u : List Item) : Prop := ∃ l, u.getLast? = some (.mark p l)

/-- A variable by itself, in any number of parentheses. -/
inductive Parenthesised (x : String) : List Item → Prop where
  | word : Parenthesised x [.word x l]
  | parens : Parenthesised x u →
      Parenthesised x (.mark .openParen l₁ :: (u ++ [.mark .closeParen l₂]))

/-- The operand that is read last. -/
def Expr.lastOperand : Expr → Expr
  | unary _ operand => operand.lastOperand
  | binary _ _ right => right.lastOperand
  | logical _ _ right => right.lastOperand
  | conditional _ _ no => no.lastOperand
  | assign _ _ right => right.lastOperand
  | e => e

def Expr.IsUpdate (e : Expr) : Prop := ∃ name up before, e = .update name up before

/-- The expression, read from the items `u`, would go on with the lexeme: with an operator, with a
call or a key of its last operand, or with a change by one of the variable that stands last. -/
def Expr.GoesOn (e : Expr) (u : List Item) : Lexeme → Prop
  | .mark .plus => True
  | .mark .minus => True
  | .mark .openParen => EndsWith .closeParen u ∨ ¬e.lastOperand.IsUpdate
  | .mark .openBracket => EndsWith .closeParen u ∨ ¬e.lastOperand.IsUpdate
  | .mark .increment => ∃ x v, e.lastOperand = .ident x ∧ v <:+ u ∧ Parenthesised x v
  | .mark .decrement => ∃ x v, e.lastOperand = .ident x ∧ v <:+ u ∧ Parenthesised x v
  | _ => False

/-- The statement that is read last. -/
def Stmt.final : Stmt → Stmt
  | branch _ _ (some no) _ => no.final
  | branch _ yes none _ => yes.final
  | forOf _ _ body _ => body.final
  | forIn _ _ body _ => body.final
  | loop _ _ _ body _ => body.final
  | whileDo _ body _ => body.final
  | stmt => stmt

/-- The names of a declaration would go on with the lexeme. -/
def declsGoOn (decls : List (String × Option Expr)) (u : List Item) (l : Lexeme) : Prop :=
  ∃ name e, decls.getLast? = some (name, some e) ∧ e.GoesOn u l

/-- The statement, read from the items `u`, would go on with the lexeme if it had no semicolon. -/
def Stmt.RunsOn (stmt : Stmt) (u : List Item) (l : Lexeme) : Prop :=
  match stmt.final with
  | expr e _ => l = .mark .semicolon ∨ e.GoesOn u l
  | declare _ decls _ => l = .mark .semicolon ∨ declsGoOn decls u l
  | breakLoop => l = .mark .semicolon
  | continueLoop => l = .mark .semicolon
  | giveBack none => l ≠ .mark .closeBrace
  | giveBack (some e) => l = .mark .semicolon ∨ e.GoesOn u l
  | _ => False

/-- The statement, read from the items `u`, would go on with the lexeme. -/
def Stmt.GoesOn (stmt : Stmt) (u : List Item) (l : Lexeme) : Prop :=
  ¬EndsWith .semicolon u ∧ stmt.RunsOn u l

/-- What the rule gives for the items `u` would go on with the lexeme, one that may stand at the
beginning of a statement. -/
def Rule.GoesOn : Rule α → α → List Item → Lexeme → Prop
  | statement, stmt, u, l => stmt.GoesOn u l
  | expressionStatement _, stmt, u, l => stmt.GoesOn u l
  | afterKeyword _ _ _, stmt, u, l => stmt.GoesOn u l
  | alternative, some no, u, l => no.GoesOn u l
  | returned, none, _, l => l ≠ .mark .closeBrace ∧ l ≠ .mark .semicolon
  | returned, some e, u, l => e.GoesOn u l
  | declarations, decls, u, l => declsGoOn decls u l
  | initial, some e, u, l => e.GoesOn u l
  | assignment, e, u, l => e.GoesOn u l
  | conditional, e, u, l => e.GoesOn u l
  | binary _, e, u, l => e.GoesOn u l
  | binaryFrom _ _, e, u, l => e.GoesOn u l
  | unary, e, u, l => e.GoesOn u l
  | suffixed, e, u, l => e.GoesOn u l
  | chain, _, _, l => l = .mark .openParen ∨ l = .mark .openBracket
  | chainFrom _, _, _, l => l = .mark .openParen ∨ l = .mark .openBracket
  | fieldValue _, e, u, l => e.GoesOn u l
  | _, _, _, _ => False

/-- The marks that may begin a statement or end a block. -/
def openers : List Punct :=
  [.semicolon, .openParen, .openBracket, .openBrace, .closeBrace, .bang, .plus, .minus, .increment,
    .decrement]

/-- The head of some items may begin a statement or end a block. -/
def Found.Opens : Found → Prop
  | .lexeme (.word w) => w ≠ "else"
  | .lexeme (.mark p) => p ∈ openers
  | _ => True

/-- A rule that stops in front of `rest` and would go on with the lexemes in `P` stops in front of
`t` too. -/
def Quiet (P : Lexeme → Prop) (rest t : List Item) : Prop :=
  Items.found t = Items.found rest ∨
    (Items.found t).Opens ∧ ∀ l, Items.found t = .lexeme l → ¬P l


theorem EndsWith.append (h : EndsWith p u) (s : List Item) : EndsWith p (s ++ u) := by
  obtain ⟨l, hl⟩ := h
  exact ⟨l, by rw [List.getLast?_append, hl, Option.some_or]⟩

theorem endsWith_append (s : List Item) (h : u ≠ []) : EndsWith p (s ++ u) ↔ EndsWith p u := by
  unfold EndsWith
  rw [List.getLast?_append, List.getLast?_eq_some_getLast h, Option.some_or]

theorem endsWith_concat (p : Punct) (l : Nat) (u : List Item) : EndsWith p (u ++ [.mark p l]) :=
  ⟨l, List.getLast?_concat⟩

theorem EndsWith.ne_nil (h : EndsWith p u) : u ≠ [] := by
  rintro rfl
  obtain ⟨l, hl⟩ := h
  cases hl

theorem EndsWith.unique (h : EndsWith p u) (h' : EndsWith q u) : p = q := by
  obtain ⟨l, hl⟩ := h
  obtain ⟨l', hl'⟩ := h'
  rw [hl] at hl'
  cases hl'
  rfl

namespace Items

theorem found_append (h : u ≠ []) (s t : List Item) : found (u ++ s) = found (u ++ t) := by
  cases u with
  | nil => exact absurd rfl h
  | cons item u => rfl

theorem eq_cons_of_found (h : found s = .lexeme l) : ∃ line rest, s = .lexeme l line :: rest := by
  match s with
  | .lexeme l' line :: rest =>
    cases h
    exact ⟨line, rest, rfl⟩

theorem after?_eq_none_iff : after? p s = none ↔ found s ≠ .lexeme (.mark p) := by
  constructor
  · intro h hf
    obtain ⟨line, rest, rfl⟩ := eq_cons_of_found hf
    rw [after?_mark] at h
    cases h
  · intro h
    cases ha : after? p s with
    | none => rfl
    | some r =>
      obtain ⟨line, hs⟩ := eq_of_after? ha
      exact absurd (congrArg found hs) h

end Items

theorem elseHead?_eq_none_iff : elseHead? s = none ↔ Items.found s ≠ .lexeme (.word "else") := by
  constructor
  · intro h hf
    obtain ⟨line, rest, rfl⟩ := Items.eq_cons_of_found hf
    cases h
  · intro h
    cases he : elseHead? s with
    | none => rfl
    | some r =>
      obtain ⟨line, hs⟩ := eq_of_elseHead? he
      exact absurd (congrArg Items.found hs) h

theorem declHead?_eq_none_iff :
    declHead? s = none ↔ ∀ w, Items.found s = .lexeme (.word w) → declKind? w = none := by
  constructor
  · intro h w hf
    obtain ⟨line, rest, rfl⟩ := Items.eq_cons_of_found hf
    exact Option.map_eq_none_iff.mp h
  · intro h
    cases hd : declHead? s with
    | none => rfl
    | some r =>
      obtain ⟨w, line, hs, hk⟩ := eq_of_declHead? hd
      rw [h w (hs ▸ rfl)] at hk
      cases hk

theorem stepHead?_eq_none_iff :
    stepHead? s = none ↔ ∀ up, Items.found s ≠ .lexeme (.mark (stepMark up)) := by
  constructor
  · intro h up hf
    obtain ⟨line, rest, rfl⟩ := Items.eq_cons_of_found hf
    rw [stepHead?_cons] at h
    cases h
  · intro h
    cases hs : stepHead? s with
    | none => rfl
    | some r =>
      obtain ⟨line, he⟩ := eq_of_stepHead? hs
      exact absurd (congrArg Items.found he) (h r.value)

theorem unaryHead?_eq_none_iff :
    unaryHead? s = none ↔ ∀ op : UnaryOp, Items.found s ≠ .lexeme op.lexeme := by
  constructor
  · intro h op hf
    obtain ⟨line, rest, rfl⟩ := Items.eq_cons_of_found hf
    rw [unaryHead?_cons] at h
    cases h
  · intro h
    cases hu : unaryHead? s with
    | none => rfl
    | some r =>
      obtain ⟨line, hs⟩ := eq_of_unaryHead? hu
      exact absurd (congrArg Items.found hs) (h r.value)

theorem operatorHead?_of_found (h : Items.found s = .lexeme (.mark op.mark)) :
    ∃ r, operatorHead? s = some r ∧ r.value = op := by
  obtain ⟨line, rest, rfl⟩ := Items.eq_cons_of_found h
  exact ⟨_, operatorHead?_cons op line rest, rfl⟩

theorem found_of_operatorHead? (h : operatorHead? s = some r) :
    Items.found s = .lexeme (.mark r.value.mark) := by
  obtain ⟨line, hs⟩ := eq_of_operatorHead? h
  exact congrArg Items.found hs

theorem endsReturn_eq_false_iff :
    endsReturn s = false ↔ ∃ l, Items.found s = .lexeme l ∧ l ≠ .mark .semicolon ∧
      l ≠ .mark .closeBrace := by
  unfold endsReturn
  split
  · exact ⟨nofun, nofun⟩
  · exact ⟨nofun, nofun⟩
  · exact ⟨nofun, nofun⟩
  · refine ⟨nofun, ?_⟩
    rintro ⟨l, hl, hs, -⟩
    cases hl
    exact absurd rfl hs
  · refine ⟨nofun, ?_⟩
    rintro ⟨l, hl, -, hb⟩
    cases hl
    exact absurd rfl hb
  · rename_i hn ht ho hs hb
    refine ⟨fun _ => ?_, fun _ => rfl⟩
    match s with
    | [] => exact absurd rfl hn
    | .text _ _ :: _ => exact absurd rfl (ht _ _ _)
    | .output _ _ _ :: _ => exact absurd rfl (ho _ _ _ _)
    | .lexeme l line :: rest =>
      refine ⟨l, rfl, ?_, ?_⟩
      · rintro rfl
        exact hs _ _ rfl
      · rintro rfl
        exact hb _ _ rfl

theorem endsReturn_congr (h : Items.found s = Items.found t) : endsReturn s = endsReturn t := by
  cases ht : endsReturn t with
  | false =>
    rw [endsReturn_eq_false_iff] at ht ⊢
    rwa [h]
  | true =>
    rw [← Bool.not_eq_false, endsReturn_eq_false_iff] at ht ⊢
    rwa [h]

namespace Quiet

theorem same (h : Items.found t = Items.found rest) : Quiet P rest t := .inl h

theorem mono (h : Quiet Q rest t) (hp : ∀ l, P l → Q l) : Quiet P rest t :=
  h.imp_right fun ⟨ho, hq⟩ => ⟨ho, fun l hl => hq l hl ∘ hp l⟩

/-- What comes behind is the concern of a rule if nothing is left. -/
theorem right (h : rest = [] → Quiet P [] t) : Quiet P rest (rest ++ t) := by
  cases rest with
  | nil => exact h rfl
  | cons item rest => exact same rfl

theorem found_ne (h : Quiet P rest t) (hr : Items.found rest ≠ .lexeme l)
    (hp : (Found.lexeme l).Opens → P l) : Items.found t ≠ .lexeme l := by
  rcases h with h | ⟨ho, h⟩
  · rwa [h]
  · intro ht
    exact h l ht (hp (ht ▸ ho))

theorem after? (h : Quiet P rest t) (ha : Items.after? p rest = none)
    (hp : (Found.lexeme (.mark p)).Opens → P (.mark p)) : Items.after? p t = none :=
  Items.after?_eq_none_iff.mpr (h.found_ne (Items.after?_eq_none_iff.mp ha) hp)

theorem after?_of_not_opener (h : Quiet P rest t) (ha : Items.after? p rest = none)
    (hp : p ∉ openers) : Items.after? p t = none :=
  h.after? ha fun ho => absurd ho hp

theorem elseHead? (h : Quiet P rest t) (he : Script.elseHead? rest = none) :
    Script.elseHead? t = none :=
  elseHead?_eq_none_iff.mpr (h.found_ne (elseHead?_eq_none_iff.mp he) fun ho => absurd rfl ho)

theorem stepHead? (h : Quiet P rest t) (hs : Script.stepHead? rest = none)
    (hp : ∀ up, P (.mark (stepMark up))) : Script.stepHead? t = none :=
  stepHead?_eq_none_iff.mpr fun up =>
    h.found_ne (stepHead?_eq_none_iff.mp hs up) fun _ => hp up

end Quiet

/-- A semicolon that is there is taken; otherwise none is. -/
theorem Items.skip_split (s : List Item) :
    ∃ w, s = w ++ (skip .semicolon s).rest ∧ (w = [] ∨ ∃ line, w = [.mark .semicolon line]) ∧
      ∀ P t, P (.mark .semicolon) → (w = [] → Quiet P (skip .semicolon s).rest t) →
        (skip .semicolon (w ++ t)).rest = t ∧ Quiet P s (w ++ t) := by
  cases h : after? .semicolon s with
  | some r =>
    obtain ⟨_, rest, hlt⟩ := r
    obtain ⟨line, rfl⟩ := eq_of_after? h
    rw [skip_mark]
    exact ⟨[.mark .semicolon line], rfl, .inr ⟨line, rfl⟩,
      fun P t _ _ => ⟨skip_mark _ _ _, .same rfl⟩⟩
  | none =>
    have hs : (skip .semicolon s).rest = s := by
      unfold skip
      rw [h]
    rw [hs]
    refine ⟨[], rfl, .inl rfl, fun P t hp hq => ?_⟩
    have ht : after? .semicolon t = none := (hq rfl).after? h fun _ => hp
    refine ⟨?_, hq rfl⟩
    rw [List.nil_append]
    unfold skip
    rw [ht]


/-- The items `u` of an expression. -/
structure Expr.Ends (e : Expr) (u : List Item) : Prop where
  ne_nil : u ≠ []
  unended : ¬EndsWith .semicolon u
  ident : ∀ x, e = .ident x → Parenthesised x u

theorem Expr.Ends.prepend (h : Expr.Ends e u) (s : List Item) (he : ∀ x, e' ≠ .ident x) :
    Expr.Ends e' (s ++ u) where
  ne_nil := List.append_ne_nil_of_right_ne_nil s h.ne_nil
  unended := by
    rw [endsWith_append s h.ne_nil]
    exact h.unended
  ident x hx := absurd hx (he x)

theorem Expr.Ends.mark (h : EndsWith p u) (hp : p ≠ .semicolon) (he : ∀ x, e ≠ .ident x) :
    Expr.Ends e u where
  ne_nil := h.ne_nil
  unended hs := hp (h.unique hs)
  ident x hx := absurd hx (he x)

/-- What the items `u` that a rule takes end with. -/
def Rule.Ends : Rule α → α → List Item → Prop
  | statement, _, u => u ≠ []
  | expressionStatement _, _, u => u ≠ []
  | condition, _, u => EndsWith .closeParen u
  | alternative, no, u => no = none ∧ u = [] ∨ u ≠ []
  | returned, _, u => ¬EndsWith .semicolon u
  | block, _, u => EndsWith .closeBrace u
  | loopStart _, _, u => EndsWith .semicolon u
  | optional closer, _, u => EndsWith closer u
  | declarations, _, u => u ≠ [] ∧ ¬EndsWith .semicolon u
  | initial, _, u => ¬EndsWith .semicolon u
  | assignment, e, u => e.Ends u
  | conditional, e, u => e.Ends u
  | binary _, e, u => e.Ends u
  | binaryFrom _ left, e, u => e = left ∧ u = [] ∨ e.Ends u ∧ ∀ x, e ≠ .ident x
  | unary, e, u => e.Ends u
  | suffixed, e, u => e.Ends u
  | chain, e, u => e.Ends u ∧ (EndsWith .closeParen u ∨ ¬e.lastOperand.IsUpdate)
  | chainFrom target, e, u =>
    e = target ∧ u = [] ∨ e.Ends u ∧ (∀ x, e ≠ .ident x) ∧ ¬e.lastOperand.IsUpdate
  | expressions closer, _, u => EndsWith closer u
  | objectFields, _, u => EndsWith .closeBrace u
  | functionBody, e, u => EndsWith .closeBrace u ∧ ∃ params body, e = .function params body
  | primary, e, u => e.Ends u ∧ (EndsWith .closeParen u ∨ ¬e.lastOperand.IsUpdate)
  | _, _, _ => True

theorem not_endsWith_lexeme (h : ∀ p, l ≠ .mark p) : ¬EndsWith p [.lexeme l line] := by
  rintro ⟨_, hl⟩
  cases hl
  exact h p rfl

theorem not_endsWith_cons_word (h : ¬EndsWith p u) : ¬EndsWith p (.word w line :: u) := by
  cases u with
  | nil => exact not_endsWith_lexeme nofun
  | cons item u =>
    intro he
    exact h ((endsWith_append [_] (List.cons_ne_nil item u)).mp he)

theorem Expr.Ends.lexeme (h : ∀ p, l ≠ .mark p) (he : ∀ x, e ≠ .ident x) :
    Expr.Ends e [.lexeme l line] where
  ne_nil := List.cons_ne_nil _ _
  unended := not_endsWith_lexeme h
  ident x hx := absurd hx (he x)

theorem Expr.Ends.word (he : ∀ x, e ≠ .ident x) : Expr.Ends e [.word w line] :=
  .lexeme nofun he

theorem Operator.apply_ne_ident (op : Operator) (left right : Expr) (x : String) :
    op.apply left right ≠ .ident x := by
  cases op <;> nofun

theorem callOf_ne_ident (target : Expr) (name : String) (args : List Expr) (x : String) :
    callOf target name args ≠ .ident x := by
  intro h
  unfold callOf at h
  split at h
  · split at h
    · cases h
    · split at h <;> cases h
  · cases h

theorem not_isUpdate_callOf (target : Expr) (name : String) (args : List Expr) :
    ¬(callOf target name args).lastOperand.IsUpdate := by
  rintro ⟨x, up, before, h⟩
  unfold callOf at h
  split at h
  · split at h
    · cases h
    · split at h <;> cases h
  · cases h

theorem taken_cons (item : Item) (h : s = u ++ rest) : item :: s = (item :: u) ++ rest :=
  congrArg (item :: ·) h

theorem taken_append {s s₁ rest u u₁ : List Item} (h : s = u ++ s₁) (h₁ : s₁ = u₁ ++ rest) :
    s = (u ++ u₁) ++ rest := by
  rw [h, h₁, List.append_assoc]

theorem taken_nil {s s₁ rest u : List Item} (h : s = u ++ s₁) (h₁ : s₁ = [] ++ rest) :
    s = u ++ rest :=
  h.trans (congrArg (u ++ ·) h₁)

theorem taken_concat {item : Item} (h : s = u ++ item :: rest) : s = (u ++ [item]) ++ rest :=
  h.trans (List.append_cons u item rest)

theorem Derives.ends (h : Derives c r s v rest) : ∃ u, s = u ++ rest ∧ r.Ends v u := by
  induction h with
  | text => exact ⟨[_], rfl, List.cons_ne_nil _ _⟩
  | output => exact ⟨[_], rfl, List.cons_ne_nil _ _⟩
  | braces _ ih =>
    obtain ⟨u, hs, -⟩ := ih
    exact ⟨_, taken_cons _ hs, List.cons_ne_nil _ _⟩
  | empty => exact ⟨[_], rfl, List.cons_ne_nil _ _⟩
  | keyword _ _ ih =>
    obtain ⟨u, hs, -⟩ := ih
    exact ⟨_, taken_cons _ hs, List.cons_ne_nil _ _⟩
  | expression _ _ ih => exact ih
  | @expressionStatement _ _ _ s₁ _ _ ih =>
    obtain ⟨u, hs, hu⟩ := ih
    obtain ⟨w, hw, -⟩ := Items.skip_split s₁
    exact ⟨_, taken_append hs hw, List.append_ne_nil_of_left_ne_nil hu.ne_nil w⟩
  | branch _ _ _ iht ihy ihn =>
    obtain ⟨u, hs, -⟩ := iht
    obtain ⟨u₁, hs₁, -⟩ := ihy
    obtain ⟨u₂, hs₂, -⟩ := ihn
    exact ⟨_, taken_append hs (taken_append hs₁ hs₂), trivial⟩
  | forOf hl _ _ _ ihi ihb =>
    obtain ⟨words, hw, -⟩ := eq_of_loopHead? hl
    obtain ⟨u, hs, -⟩ := ihi
    obtain ⟨u₁, hs₁, -⟩ := ihb
    exact ⟨_, taken_cons _ (taken_append hw (taken_append hs (taken_cons _ hs₁))), trivial⟩
  | forIn hl _ _ _ iht ihb =>
    obtain ⟨words, hw, -⟩ := eq_of_loopHead? hl
    obtain ⟨u, hs, -⟩ := iht
    obtain ⟨u₁, hs₁, -⟩ := ihb
    exact ⟨_, taken_cons _ (taken_append hw (taken_append hs (taken_cons _ hs₁))), trivial⟩
  | loop _ _ _ _ _ ihf iht ihu ihb =>
    obtain ⟨u, hs, -⟩ := ihf
    obtain ⟨u₁, hs₁, -⟩ := iht
    obtain ⟨u₂, hs₂, -⟩ := ihu
    obtain ⟨u₃, hs₃, -⟩ := ihb
    exact ⟨_, taken_cons _ (taken_append hs (taken_append hs₁ (taken_append hs₂ hs₃))), trivial⟩
  | whileDo _ _ iht ihb =>
    obtain ⟨u, hs, -⟩ := iht
    obtain ⟨u₁, hs₁, -⟩ := ihb
    exact ⟨_, taken_append hs hs₁, trivial⟩
  | @declare _ _ _ s₁ _ _ _ _ ih =>
    obtain ⟨u, hs, -⟩ := ih
    obtain ⟨w, hw, -⟩ := Items.skip_split s₁
    exact ⟨_, taken_append hs hw, trivial⟩
  | @breakLoop _ _ _ s _ =>
    obtain ⟨w, hw, -⟩ := Items.skip_split s
    exact ⟨w, hw, trivial⟩
  | @continueLoop _ _ _ s _ =>
    obtain ⟨w, hw, -⟩ := Items.skip_split s
    exact ⟨w, hw, trivial⟩
  | @giveBack _ _ _ s₁ _ _ _ _ ih =>
    obtain ⟨u, hs, -⟩ := ih
    obtain ⟨w, hw, -⟩ := Items.skip_split s₁
    exact ⟨_, taken_append hs hw, trivial⟩
  | condition _ ih =>
    obtain ⟨u, hs, -⟩ := ih
    exact ⟨_, taken_cons _ (taken_concat hs), endsWith_concat .closeParen _ (_ :: u)⟩
  | otherwise _ ih =>
    obtain ⟨u, hs, -⟩ := ih
    exact ⟨_, taken_cons _ hs, .inr (List.cons_ne_nil _ _)⟩
  | noAlternative => exact ⟨[], rfl, .inl ⟨rfl, rfl⟩⟩
  | returned _ _ ih =>
    obtain ⟨u, hs, hu⟩ := ih
    exact ⟨u, hs, hu.unended⟩
  | nothingReturned => exact ⟨[], rfl, fun h => h.ne_nil rfl⟩
  | blockEnd => exact ⟨[_], rfl, endsWith_concat _ _ []⟩
  | blockMore _ _ _ ihf ihm =>
    obtain ⟨u, hs, -⟩ := ihf
    obtain ⟨u₁, hs₁, hu₁⟩ := ihm
    exact ⟨_, taken_append hs hs₁, hu₁.append u⟩
  | noStart => exact ⟨[_], rfl, endsWith_concat _ _ []⟩
  | declareStart _ _ ih =>
    obtain ⟨u, hs, -⟩ := ih
    exact ⟨_, taken_cons _ (taken_concat hs), endsWith_concat _ _ (_ :: u)⟩
  | expressionStart _ _ _ ih =>
    obtain ⟨u, hs, -⟩ := ih
    exact ⟨_, taken_concat hs, endsWith_concat _ _ u⟩
  | omitted => exact ⟨[_], rfl, endsWith_concat _ _ []⟩
  | given _ _ ih =>
    obtain ⟨u, hs, -⟩ := ih
    exact ⟨_, taken_concat hs, endsWith_concat _ _ u⟩
  | lastDeclared _ _ _ ih =>
    obtain ⟨u, hs, hu⟩ := ih
    exact ⟨_, taken_cons _ hs, List.cons_ne_nil _ _, not_endsWith_cons_word hu⟩
  | declared _ _ _ ihv ihm =>
    obtain ⟨u, hs, -⟩ := ihv
    obtain ⟨u₁, hs₁, hne, hu₁⟩ := ihm
    refine ⟨_, taken_cons _ (taken_append (taken_concat hs) hs₁), List.cons_ne_nil _ _, fun h => ?_⟩
    exact hu₁ ((endsWith_append (_ :: (u ++ [_])) hne).mp h)
  | initial _ ih =>
    obtain ⟨u, hs, hu⟩ := ih
    exact ⟨_, taken_cons _ hs, fun h => hu.unended ((endsWith_append [_] hu.ne_nil).mp h)⟩
  | noInitial => exact ⟨[], rfl, fun h => h.ne_nil rfl⟩
  | assign _ _ _ ih =>
    obtain ⟨u, hs, hu⟩ := ih
    exact ⟨_, taken_cons _ (taken_cons _ hs), hu.prepend [_, _] nofun⟩
  | unassigned _ _ ih => exact ih
  | choice _ _ _ iht ihy ihn =>
    obtain ⟨u, hs, -⟩ := iht
    obtain ⟨u₁, hs₁, -⟩ := ihy
    obtain ⟨u₂, hs₂, hu₂⟩ := ihn
    exact ⟨_, taken_append (taken_append (taken_concat hs) (taken_concat hs₁)) hs₂,
      hu₂.prepend _ nofun⟩
  | noChoice _ _ ih => exact ih
  | binary _ _ ihl ihr =>
    obtain ⟨u, hs, hu⟩ := ihl
    obtain ⟨u₁, hs₁, ⟨rfl, rfl⟩ | ⟨hu₁, he⟩⟩ := ihr
    · exact ⟨u, taken_nil hs hs₁, hu⟩
    · exact ⟨_, taken_append hs hs₁, hu₁.prepend u he⟩
  | operator _ _ _ ihr ihm =>
    obtain ⟨u, hs, hu⟩ := ihr
    obtain ⟨u₁, hs₁, ⟨rfl, rfl⟩ | ⟨hu₁, he⟩⟩ := ihm
    · exact ⟨_, taken_cons _ (taken_nil hs hs₁), .inr
        ⟨hu.prepend [_] (Operator.apply_ne_ident _ _ _), Operator.apply_ne_ident _ _ _⟩⟩
    · exact ⟨_, taken_cons _ (taken_append hs hs₁), .inr ⟨hu₁.prepend (_ :: u) he, he⟩⟩
  | noOperator => exact ⟨[], rfl, .inl ⟨rfl, rfl⟩⟩
  | unary _ ih =>
    obtain ⟨u, hs, hu⟩ := ih
    exact ⟨_, taken_cons _ hs, hu.prepend [_] nofun⟩
  | stepBefore => exact ⟨[_, _], rfl, (Expr.Ends.word (e := .self) nofun).prepend [_] nofun⟩
  | noUnary _ _ _ ih => exact ih
  | @stepAfter _ _ _ up _ _ _ ih =>
    obtain ⟨u, hs, -⟩ := ih
    exact ⟨_, taken_concat hs, .mark (endsWith_concat _ _ u) (by cases up <;> decide) nofun⟩
  | noStep _ _ ih =>
    obtain ⟨u, hs, hu, -⟩ := ih
    exact ⟨u, hs, hu⟩
  | chain _ _ ihp ihm =>
    obtain ⟨u, hs, hu⟩ := ihp
    obtain ⟨u₁, hs₁, ⟨rfl, rfl⟩ | ⟨hu₁, he, hl⟩⟩ := ihm
    · exact ⟨u, taken_nil hs hs₁, hu⟩
    · exact ⟨_, taken_append hs hs₁, hu₁.prepend u he, .inr hl⟩
  | callProperty _ _ iha ihm =>
    obtain ⟨u, hs, hu⟩ := iha
    obtain ⟨u₁, hs₁, ⟨rfl, rfl⟩ | ⟨hu₁, he, hl⟩⟩ := ihm
    · exact ⟨_, taken_cons _ (taken_cons _ (taken_cons _ (taken_nil hs hs₁))),
        .inr ⟨.mark (hu.append [_, _, _]) nofun (callOf_ne_ident _ _ _), callOf_ne_ident _ _ _,
          not_isUpdate_callOf _ _ _⟩⟩
    · exact ⟨_, taken_cons _ (taken_cons _ (taken_cons _ (taken_append hs hs₁))),
        .inr ⟨hu₁.prepend (_ :: _ :: _ :: u) he, he, hl⟩⟩
  | property _ _ ih =>
    obtain ⟨u, hs, ⟨rfl, rfl⟩ | ⟨hu, he, hl⟩⟩ := ih
    · exact ⟨_, taken_cons _ (taken_cons _ hs),
        .inr ⟨(Expr.Ends.word (e := .self) nofun).prepend [_] nofun, nofun, nofun⟩⟩
    · exact ⟨_, taken_cons _ (taken_cons _ hs), .inr ⟨hu.prepend [_, _] he, he, hl⟩⟩
  | index _ _ ihk ihm =>
    obtain ⟨u, hs, -⟩ := ihk
    obtain ⟨u₁, hs₁, ⟨rfl, rfl⟩ | ⟨hu₁, he, hl⟩⟩ := ihm
    · exact ⟨_, taken_cons _ (taken_nil (taken_concat hs) hs₁),
        .inr ⟨.mark (endsWith_concat _ _ (_ :: u)) nofun nofun, nofun, nofun⟩⟩
    · exact ⟨_, taken_cons _ (taken_append (taken_concat hs) hs₁),
        .inr ⟨hu₁.prepend (_ :: (u ++ [_])) he, he, hl⟩⟩
  | call _ _ iha ihm =>
    obtain ⟨u, hs, hu⟩ := iha
    obtain ⟨u₁, hs₁, ⟨rfl, rfl⟩ | ⟨hu₁, he, hl⟩⟩ := ihm
    · exact ⟨_, taken_cons _ (taken_nil hs hs₁),
        .inr ⟨.mark (hu.append [_]) nofun nofun, nofun, nofun⟩⟩
    · exact ⟨_, taken_cons _ (taken_append hs hs₁), .inr ⟨hu₁.prepend (_ :: u) he, he, hl⟩⟩
  | chainEnd => exact ⟨[], rfl, .inl ⟨rfl, rfl⟩⟩
  | noExpressions => exact ⟨[_], rfl, endsWith_concat _ _ []⟩
  | lastExpression _ _ _ ih =>
    obtain ⟨u, hs, -⟩ := ih
    exact ⟨_, taken_concat hs, endsWith_concat _ _ u⟩
  | expressions _ _ _ ihf ihm =>
    obtain ⟨u, hs, -⟩ := ihf
    obtain ⟨u₁, hs₁, hu₁⟩ := ihm
    exact ⟨_, taken_append (taken_concat hs) hs₁, hu₁.append _⟩
  | noFields => exact ⟨[_], rfl, endsWith_concat _ _ []⟩
  | lastField _ _ ih =>
    obtain ⟨u, hs, -⟩ := ih
    exact ⟨_, taken_cons _ (taken_concat hs), endsWith_concat _ _ (_ :: u)⟩
  | fields _ _ _ ihv ihm =>
    obtain ⟨u, hs, -⟩ := ihv
    obtain ⟨u₁, hs₁, hu₁⟩ := ihm
    exact ⟨_, taken_cons _ (taken_append (taken_concat hs) hs₁), hu₁.append (_ :: (u ++ [_]))⟩
  | fieldValue _ ih =>
    obtain ⟨u, hs, -⟩ := ih
    exact ⟨_, taken_cons _ hs, trivial⟩
  | shorthand => exact ⟨[], rfl, trivial⟩
  | noParams => exact ⟨[_], rfl, trivial⟩
  | lastParam => exact ⟨[_, _], rfl, trivial⟩
  | params _ _ ih =>
    obtain ⟨u, hs, -⟩ := ih
    exact ⟨_, taken_cons _ (taken_cons _ hs), trivial⟩
  | functionBody _ _ ihp ihb =>
    obtain ⟨u, hs, -⟩ := ihp
    obtain ⟨u₁, hs₁, hu₁⟩ := ihb
    exact ⟨_, taken_cons _ (taken_append (taken_concat hs) hs₁), hu₁.append (_ :: (u ++ [_])), _, _,
      rfl⟩
  | namedFunction _ _ _ ihp ihb =>
    obtain ⟨u, hs, -⟩ := ihp
    obtain ⟨u₁, hs₁, hu₁⟩ := ihb
    exact ⟨_, taken_cons _ (taken_cons _ (taken_append (taken_concat hs) hs₁)),
      hu₁.append (_ :: _ :: (u ++ [_])), _, _, rfl⟩
  | number => exact ⟨[_], rfl, .lexeme nofun nofun, .inr nofun⟩
  | string => exact ⟨[_], rfl, .lexeme nofun nofun, .inr nofun⟩
  | constant => exact ⟨[_], rfl, .lexeme nofun nofun, .inr nofun⟩
  | self => exact ⟨[_], rfl, .lexeme nofun nofun, .inr nofun⟩
  | ident => 
    exact ⟨[_], rfl, ⟨List.cons_ne_nil _ _, not_endsWith_lexeme nofun, fun x hx => by
      cases hx
      exact .word⟩, .inr nofun⟩
  | function _ _ ih =>
    obtain ⟨u, hs, hu, params, body, rfl⟩ := ih
    exact ⟨_, taken_cons _ hs, .mark (hu.append [_]) nofun nofun, .inr nofun⟩
  | @parens _ _ _ l₂ _ l₁ _ ih =>
    obtain ⟨u, hs, hu⟩ := ih
    have hp := endsWith_concat .closeParen l₂ (.mark .openParen l₁ :: u)
    exact ⟨_, taken_cons _ (taken_concat hs), ⟨List.cons_ne_nil _ _, (fun h => nomatch h.unique hp),
      fun x hx => .parens (hu.ident x hx)⟩, .inl hp⟩
  | array _ ih =>
    obtain ⟨u, hs, hu⟩ := ih
    exact ⟨_, taken_cons _ hs, .mark (hu.append [_]) nofun nofun, .inr nofun⟩
  | object _ ih =>
    obtain ⟨u, hs, hu⟩ := ih
    exact ⟨_, taken_cons _ hs, .mark (hu.append [_]) nofun nofun, .inr nofun⟩

/-- What a rule begins with. -/
def Rule.Begins : Rule α → Found → Prop
  | statement, head => head.Opens
  | expressionStatement _, head => head.Opens
  | afterKeyword _ k _, _ => k ≠ .otherwise
  | block, head => head.Opens
  | assignment, head => head.Opens
  | conditional, head => head.Opens
  | binary _, head => head.Opens
  | unary, head => head.Opens
  | suffixed, head => head.Opens
  | chain, head => head.Opens
  | primary, head => head.Opens
  | _, _ => True

theorem opens_of_atom (h : atom w ≠ .refused) : (Found.lexeme (.word w)).Opens := by
  rintro rfl
  exact h rfl

theorem opens_mark (h : p ∈ openers) : (Found.lexeme (.mark p)).Opens := h

theorem opens_of_not_reserved (h : isReserved w = false) : (Found.lexeme (.word w)).Opens := by
  rintro rfl
  revert h
  decide

theorem Derives.begins (h : Derives c r s v rest) : r.Begins (Items.found s) := by
  induction h with
  | text => trivial
  | output => trivial
  | braces => exact opens_mark (by decide)
  | empty => exact opens_mark (by decide)
  | keyword hk _ ih =>
    rintro rfl
    cases hk
    exact ih rfl
  | expression _ _ ih => exact ih
  | expressionStatement _ ih => exact ih
  | blockEnd => exact opens_mark (by decide)
  | blockMore _ _ _ ih => exact ih
  | unassigned _ _ ih => exact ih
  | noChoice _ _ ih => exact ih
  | choice _ _ _ ih => exact ih
  | binary _ _ ih => exact ih
  | assign hn => exact opens_of_not_reserved hn
  | @unary _ _ _ _ _ op =>
    cases op with
    | kind => exact (by decide : "typeof" ≠ "else")
    | _ => exact opens_mark (by decide)
  | @stepBefore _ _ up =>
    cases up <;> exact opens_mark (by decide)
  | noUnary _ _ _ ih => exact ih
  | stepAfter _ ih => exact ih
  | noStep _ _ ih => exact ih
  | chain _ _ ih => exact ih
  | number => trivial
  | string => trivial
  | constant ha => exact opens_of_atom (ha ▸ nofun)
  | self ha => exact opens_of_atom (ha ▸ nofun)
  | ident ha => exact opens_of_atom (ha ▸ nofun)
  | function ha => exact opens_of_atom (ha ▸ nofun)
  | parens => exact opens_mark (by decide)
  | array => exact opens_mark (by decide)
  | object => exact opens_mark (by decide)
  | branch => nofun
  | forOf => nofun
  | forIn => nofun
  | loop => nofun
  | whileDo => nofun
  | declare => nofun
  | breakLoop => nofun
  | continueLoop => nofun
  | giveBack => nofun
  | _ => trivial

/-- A statement begins with what may begin one. -/
theorem Derives.opens (h : Derives c .statement s stmt rest) : (Items.found s).Opens := h.begins

theorem Expr.GoesOn.of_suffix (h : Expr.GoesOn e u l) (hu : u <:+ u')
    (he : Expr.lastOperand e' = e.lastOperand) : e'.GoesOn u' l := by
  obtain ⟨s, rfl⟩ := hu
  unfold GoesOn at h ⊢
  rw [he]
  split at h
  · trivial
  · trivial
  · exact h.imp_left (·.append s)
  · exact h.imp_left (·.append s)
  · obtain ⟨x, v, hx, hv, hp⟩ := h
    exact ⟨x, v, hx, hv.trans (List.suffix_append s u), hp⟩
  · obtain ⟨x, v, hx, hv, hp⟩ := h
    exact ⟨x, v, hx, hv.trans (List.suffix_append s u), hp⟩
  · exact h.elim

theorem Stmt.RunsOn.of_suffix (h : Stmt.RunsOn stmt u l) (hu : u <:+ u')
    (hf : Stmt.final stmt' = stmt.final) : stmt'.RunsOn u' l := by
  unfold RunsOn at h ⊢
  rw [hf]
  split at h
  · exact h.imp_right (·.of_suffix hu rfl)
  · obtain h | ⟨name, e, hd, he⟩ := h
    · exact .inl h
    · exact .inr ⟨name, e, hd, he.of_suffix hu rfl⟩
  · exact h
  · exact h
  · exact h
  · exact h.imp_right (·.of_suffix hu rfl)
  · exact h

theorem Stmt.GoesOn.of_suffix (h : Stmt.GoesOn stmt u l) (hne : u ≠ []) (hu : u <:+ u')
    (hf : Stmt.final stmt' = stmt.final) : stmt'.GoesOn u' l := by
  refine ⟨fun he => h.1 ?_, h.2.of_suffix hu hf⟩
  obtain ⟨s, rfl⟩ := hu
  exact (endsWith_append s hne).mp he

end Stencil.Script

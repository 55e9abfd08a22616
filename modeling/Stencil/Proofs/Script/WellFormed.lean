import Stencil.Proofs.Script.Grammar

/-!
The trees that can be read. Jumps stand in what they leave, an `else` belongs to the nearest `if`, a
counting loop and what it does first have one line, and names are no keywords.
-/

namespace Stencil.Script

set_option autoImplicit true

/-- A value that a single token gives. -/
inductive Literal : Value → Prop where
  | null : Literal .null
  | bool : Literal (.bool b)
  | string : Literal (.string s)
  | number : Value.ofFloat x = .number n → Literal (.number n)

/-- An `else` after the statement would belong to it. -/
def Stmt.endsOpen : Stmt → Bool
  | branch _ _ none _ => true
  | branch _ _ (some no) _ => no.endsOpen
  | forOf _ _ body _ => body.endsOpen
  | forIn _ _ body _ => body.endsOpen
  | loop _ _ _ body _ => body.endsOpen
  | whileDo _ body _ => body.endsOpen
  | _ => false

mutual

def Expr.WellFormed : Expr → Prop
  | .value v => Literal v
  | .ident name => isReserved name = false
  | .self => True
  | .array items => Expr.AllWellFormed items
  | .object fields => Expr.FieldsWellFormed fields
  | .member target key => target.WellFormed ∧ key.WellFormed
  | .filter _ args => Expr.AllWellFormed args
  | .call _ args => Expr.AllWellFormed args
  | .method target name args =>
    callOf target name args = .method target name args ∧ target.WellFormed ∧
      Expr.AllWellFormed args
  | .unary _ operand => operand.WellFormed
  | .binary _ left right => left.WellFormed ∧ right.WellFormed
  | .logical _ left right => left.WellFormed ∧ right.WellFormed
  | .conditional test yes no => test.WellFormed ∧ yes.WellFormed ∧ no.WellFormed
  | .assign name op value =>
    isReserved name = false ∧ (∃ p : Punct, p.assignment? = some op) ∧ value.WellFormed
  | .update name _ _ => isReserved name = false
  | .function params body =>
    (∀ name ∈ params, isReserved name = false) ∧ Stmt.AllWellFormed false true body

def Expr.AllWellFormed : List Expr → Prop
  | [] => True
  | e :: es => e.WellFormed ∧ Expr.AllWellFormed es

def Expr.OptionWellFormed : Option Expr → Prop
  | none => True
  | some e => e.WellFormed

/-- A field without a value of its own has that of the variable of its name, which may then be any
name. -/
def Expr.FieldsWellFormed : List (String × Expr) → Prop
  | [] => True
  | (name, e) :: fields => (e = .ident name ∨ e.WellFormed) ∧ Expr.FieldsWellFormed fields

def Expr.DeclsWellFormed : List (String × Option Expr) → Prop
  | [] => True
  | (name, value) :: decls =>
    isReserved name = false ∧ Expr.OptionWellFormed value ∧ Expr.DeclsWellFormed decls

def Stmt.WellFormed (inLoop inFunction : Bool) : Stmt → Prop
  | .text _ => True
  | .output _ _ _ => True
  | .expr e _ => e.WellFormed
  | .declare _ decls _ => decls ≠ [] ∧ Expr.DeclsWellFormed decls
  | .branch test yes no _ =>
    test.WellFormed ∧ yes.WellFormed inLoop inFunction ∧
      Stmt.OptionWellFormed inLoop inFunction no ∧ (no.isSome = true → yes.endsOpen = false)
  | .forOf name items body _ =>
    isReserved name = false ∧ items.WellFormed ∧ body.WellFormed true inFunction
  | .forIn name target body _ =>
    isReserved name = false ∧ target.WellFormed ∧ body.WellFormed true inFunction
  | .loop first test update body line =>
    Stmt.StartWellFormed line first ∧ Expr.OptionWellFormed test ∧
      Expr.OptionWellFormed update ∧ body.WellFormed true inFunction
  | .whileDo test body _ => test.WellFormed ∧ body.WellFormed true inFunction
  | .block body => Stmt.AllWellFormed inLoop inFunction body
  | .breakLoop => inLoop = true
  | .continueLoop => inLoop = true
  | .giveBack value => inFunction = true ∧ Expr.OptionWellFormed value
  | .empty => True

def Stmt.AllWellFormed (inLoop inFunction : Bool) : List Stmt → Prop
  | [] => True
  | stmt :: rest =>
    stmt.WellFormed inLoop inFunction ∧ Stmt.AllWellFormed inLoop inFunction rest

def Stmt.OptionWellFormed (inLoop inFunction : Bool) : Option Stmt → Prop
  | none => True
  | some stmt => stmt.WellFormed inLoop inFunction

/-- What a counting loop does first, with the line of the loop. -/
def Stmt.StartWellFormed (line : Nat) : Option Stmt → Prop
  | none => True
  | some (.expr e l) => l = line ∧ e.WellFormed
  | some (.declare _ decls l) => l = line ∧ decls ≠ [] ∧ Expr.DeclsWellFormed decls
  | some _ => False

end

/-- What a rule gives is well formed. -/
def Rule.Gives (c : Context) : Rule α → α → Prop
  | statement, stmt => stmt.WellFormed c.inLoop c.inFunction
  | expressionStatement _, stmt => stmt.WellFormed c.inLoop c.inFunction
  | afterKeyword _ _ _, stmt => stmt.WellFormed c.inLoop c.inFunction
  | condition, e => e.WellFormed
  | alternative, no => Stmt.OptionWellFormed c.inLoop c.inFunction no
  | returned, value => Expr.OptionWellFormed value
  | block, body => Stmt.AllWellFormed c.inLoop c.inFunction body
  | loopStart line, first => Stmt.StartWellFormed line first
  | optional _, value => Expr.OptionWellFormed value
  | declarations, decls => decls ≠ [] ∧ Expr.DeclsWellFormed decls
  | initial, value => Expr.OptionWellFormed value
  | assignment, e => e.WellFormed
  | conditional, e => e.WellFormed
  | binary _, e => e.WellFormed
  | binaryFrom _ _, e => e.WellFormed
  | unary, e => e.WellFormed
  | suffixed, e => e.WellFormed
  | chain, e => e.WellFormed
  | chainFrom _, e => e.WellFormed
  | expressions _, es => Expr.AllWellFormed es
  | objectFields, fields => Expr.FieldsWellFormed fields
  | fieldValue name, e => e = .ident name ∨ e.WellFormed
  | params, names => ∀ name ∈ names, isReserved name = false
  | functionBody, e => e.WellFormed
  | primary, e => e.WellFormed

/-- What a rule has from the left is well formed. -/
def Rule.Carries : Rule α → Prop
  | binaryFrom _ left => left.WellFormed
  | chainFrom target => target.WellFormed
  | _ => True

/-- An `else` after what a rule gives would belong to it. -/
def Rule.endsOpen : Rule α → α → Bool
  | statement, stmt => stmt.endsOpen
  | expressionStatement _, stmt => stmt.endsOpen
  | afterKeyword _ _ _, stmt => stmt.endsOpen
  | alternative, no => no.all Stmt.endsOpen
  | _, _ => false

theorem Stmt.endsOpen_branch (test : Expr) (yes : Stmt) (no : Option Stmt) (line : Nat) :
    (branch test yes no line).endsOpen = no.all endsOpen := by
  cases no <;> rfl

/-- No `else` is left after a statement to which it would belong. -/
theorem Derives.no_else (h : Derives c r s v rest) (hv : r.endsOpen v = true) :
    elseHead? rest = none := by
  induction h with
  | keyword _ _ ih => exact ih hv
  | expression _ _ ih => exact ih hv
  | branch _ _ _ _ _ ihn => exact ihn ((Stmt.endsOpen_branch _ _ _ _).symm.trans hv)
  | forOf _ _ _ _ _ ihb => exact ihb hv
  | forIn _ _ _ _ _ ihb => exact ihb hv
  | loop _ _ _ _ _ _ _ _ ihb => exact ihb hv
  | whileDo _ _ _ ihb => exact ihb hv
  | otherwise _ ih => exact ih hv
  | noAlternative he => exact he
  | _ => cases hv

/-- The rule takes an `else`. -/
def Rule.takesElse : Rule α → α → Bool
  | alternative, no => no.isSome
  | _, _ => false

theorem Derives.else_ahead (h : Derives c r s v rest) (hv : r.takesElse v = true) :
    elseHead? s ≠ none := by
  induction h with
  | otherwise =>
    intro he
    cases he
  | _ => cases hv

theorem literal_ofFloat (x : Float) : Literal (.ofFloat x) := by
  cases h : Value.ofFloat x with
  | null => exact .null
  | number n => exact .number h
  | _ =>
    unfold Value.ofFloat at h
    split at h
    · cases h
    · split at h <;> cases h

theorem literal_of_atom (h : atom w = .value v) : Literal v := by
  unfold atom at h
  repeat' split at h
  all_goals cases h
  all_goals constructor

theorem not_reserved_of_atom (h : atom w = .variable) : isReserved w = false := by
  unfold atom at h
  repeat' split at h
  all_goals cases h
  rename_i hw
  exact Bool.eq_false_iff.mpr hw

theorem callOf_cases (target : Expr) (name : String) (args : List Expr) :
    callOf target name args = .filter name args ∨ callOf target name args = .call name args ∨
      callOf target name args = .method target name args := by
  unfold callOf
  split
  · split
    · exact .inl rfl
    · split
      · exact .inr (.inl rfl)
      · exact .inr (.inr rfl)
  · exact .inr (.inr rfl)

theorem wellFormed_callOf (ht : target.WellFormed) (ha : Expr.AllWellFormed args) :
    (callOf target name args).WellFormed := by
  rcases callOf_cases target name args with hc | hc | hc
  · rw [hc]
    exact ha
  · rw [hc]
    exact ha
  · rw [hc]
    exact ⟨hc, ht, ha⟩

theorem wellFormed_apply {op : Operator} (hl : left.WellFormed) (hr : right.WellFormed) :
    (op.apply left right).WellFormed := by
  cases op <;> exact ⟨hl, hr⟩

/-- What a rule gives is well formed, if what it has from the left is. -/
theorem Derives.wellFormed (h : Derives c r s v rest) (hc : r.Carries) : r.Gives c v := by
  induction h with
  -- statements
  | text => trivial
  | output => trivial
  | braces _ ih => exact ih trivial
  | empty => trivial
  | keyword _ _ ih => exact ih trivial
  | expression _ _ ih => exact ih trivial
  | expressionStatement _ ih => exact ih trivial
  | branch _ hy hn iht ihy ihn =>
    refine ⟨iht trivial, ihy trivial, ihn trivial, fun hs => ?_⟩
    rw [← Bool.not_eq_true]
    intro ho
    exact hn.else_ahead hs (hy.no_else ho)
  | forOf hl hr _ _ ihi ihb =>
    obtain ⟨_, _, hn⟩ := eq_of_loopHead? hl
    rw [hr] at hn
    exact ⟨hn, ihi trivial, ihb trivial⟩
  | forIn hl hr _ _ iht ihb =>
    obtain ⟨_, _, hn⟩ := eq_of_loopHead? hl
    rw [hr] at hn
    exact ⟨hn, iht trivial, ihb trivial⟩
  | loop _ _ _ _ _ ihf iht ihu ihb =>
    exact ⟨ihf trivial, iht trivial, ihu trivial, ihb trivial⟩
  | whileDo _ _ iht ihb => exact ⟨iht trivial, ihb trivial⟩
  | declare _ ih => exact ih trivial
  | breakLoop h => exact h
  | continueLoop h => exact h
  | giveBack h _ ih => exact ⟨h, ih trivial⟩
  | condition _ ih => exact ih trivial
  | otherwise _ ih => exact ih trivial
  | noAlternative => trivial
  | returned _ _ ih => exact ih trivial
  | nothingReturned => trivial
  | blockEnd => trivial
  | blockMore _ _ _ ihf ihm => exact ⟨ihf trivial, ihm trivial⟩
  -- the head of a counting loop
  | noStart => trivial
  | declareStart _ _ ih => exact ⟨rfl, ih trivial⟩
  | expressionStart _ _ _ ih => exact ⟨rfl, ih trivial⟩
  | omitted => trivial
  | given _ _ ih => exact ih trivial
  -- declarations
  | lastDeclared hn _ _ ih => exact ⟨List.cons_ne_nil _ _, hn, ih trivial, trivial⟩
  | declared hn _ _ ihv ihm =>
    exact ⟨List.cons_ne_nil _ _, hn, ihv trivial, (ihm trivial).2⟩
  | initial _ ih => exact ih trivial
  | noInitial => trivial
  -- expressions
  | assign hn hp _ ih => exact ⟨hn, ⟨_, hp⟩, ih trivial⟩
  | unassigned _ _ ih => exact ih trivial
  | choice _ _ _ iht ihy ihn => exact ⟨iht trivial, ihy trivial, ihn trivial⟩
  | noChoice _ _ ih => exact ih trivial
  | binary _ _ ihl ihe => exact ihe (ihl trivial)
  | operator _ _ _ ihr ihe => exact ihe (wellFormed_apply hc (ihr trivial))
  | noOperator => exact hc
  | unary _ ih => exact ih trivial
  | stepBefore hn => exact hn
  | noUnary _ _ _ ih => exact ih trivial
  | stepAfter _ ih => exact ih trivial
  | noStep _ _ ih => exact ih trivial
  | chain _ _ iht ihe => exact ihe (iht trivial)
  | callProperty _ _ iha ihe => exact ihe (wellFormed_callOf hc (iha trivial))
  | property _ _ ih => exact ih ⟨hc, .string⟩
  | index _ _ ihk ihe => exact ihe ⟨hc, ihk trivial⟩
  | call _ _ iha ihe => exact ihe (iha trivial)
  | chainEnd => exact hc
  -- lists
  | noExpressions => trivial
  | lastExpression _ _ _ ih => exact ⟨ih trivial, trivial⟩
  | expressions _ _ _ ihe ihm => exact ⟨ihe trivial, ihm trivial⟩
  | noFields => trivial
  | lastField _ _ ih => exact ⟨ih trivial, trivial⟩
  | fields _ _ _ ihe ihm => exact ⟨ihe trivial, ihm trivial⟩
  | fieldValue _ ih => exact .inr (ih trivial)
  | shorthand => exact .inl rfl
  | noParams => nofun
  | lastParam hn => exact List.forall_mem_cons.mpr ⟨hn, nofun⟩
  | params hn _ ih => exact List.forall_mem_cons.mpr ⟨hn, ih trivial⟩
  | functionBody _ _ ihp ihb => exact ⟨ihp trivial, ihb trivial⟩
  | namedFunction _ _ _ ihp ihb => exact ⟨ihp trivial, ihb trivial⟩
  -- what expressions are made of
  | number => exact literal_ofFloat _
  | string => exact .string
  | constant hw => exact literal_of_atom hw
  | self => trivial
  | ident hw => exact not_reserved_of_atom hw
  | function _ _ ih => exact ih trivial
  | parens _ ih => exact ih trivial
  | array _ ih => exact ih trivial
  | object _ ih => exact ih trivial

theorem DerivesAll.wellFormed (h : DerivesAll last s program) :
    Stmt.AllWellFormed false false program := by
  induction h with
  | nil => trivial
  | cons _ hs _ ih => exact ⟨hs.wellFormed trivial, ih⟩

end Stencil.Script

import Mathlib.Data.List.Permutation
import Stencil.Script.Program
import Stencil.Proofs.Script.Soundness

/-!
The texts and the output tags of a template stand in its statements in the order in which they are
written. The invariant of every rule: the leaves of what it takes are those of what it gives.
-/

namespace Stencil

open Stencil.Text (Read)

set_option autoImplicit true

namespace Script

/-- What a template shows: a text, or the value of an output tag. -/
inductive Leaf where
  | text (s : String)
  | output (value : Expr) (escape : Bool) (line : Nat)

mutual

/-- The leaves in an expression, in the order in which they are written. They stand in the bodies of
its functions. -/
def Expr.leaves : Expr → List Leaf
  | .value _ => []
  | .ident _ => []
  | .self => []
  | .array items => Expr.leavesAll items
  | .object fields => Expr.fieldLeaves fields
  | .member target key => target.leaves ++ key.leaves
  | .filter _ args => Expr.leavesAll args
  | .call _ args => Expr.leavesAll args
  | .method target _ args => target.leaves ++ Expr.leavesAll args
  | .unary _ operand => operand.leaves
  | .binary _ left right => left.leaves ++ right.leaves
  | .logical _ left right => left.leaves ++ right.leaves
  | .conditional test yes no => test.leaves ++ yes.leaves ++ no.leaves
  | .assign _ _ value => value.leaves
  | .update _ _ _ => []
  | .function _ body => Stmt.leavesAll body

def Expr.leavesAll : List Expr → List Leaf
  | [] => []
  | e :: es => e.leaves ++ Expr.leavesAll es

def Expr.optionLeaves : Option Expr → List Leaf
  | none => []
  | some e => e.leaves

def Expr.fieldLeaves : List (String × Expr) → List Leaf
  | [] => []
  | (_, e) :: fields => e.leaves ++ Expr.fieldLeaves fields

def Expr.declLeaves : List (String × Option Expr) → List Leaf
  | [] => []
  | (_, value) :: decls => Expr.optionLeaves value ++ Expr.declLeaves decls

def Stmt.leaves : Stmt → List Leaf
  | .text s => [.text s]
  | .output value escape line => .output value escape line :: value.leaves
  | .expr e _ => e.leaves
  | .declare _ decls _ => Expr.declLeaves decls
  | .branch test yes no _ => test.leaves ++ yes.leaves ++ Stmt.optionLeaves no
  | .forOf _ items body _ => items.leaves ++ body.leaves
  | .forIn _ target body _ => target.leaves ++ body.leaves
  | .loop first test update body _ =>
    Stmt.optionLeaves first ++ Expr.optionLeaves test ++ Expr.optionLeaves update ++ body.leaves
  | .whileDo test body _ => test.leaves ++ body.leaves
  | .block body => Stmt.leavesAll body
  | .breakLoop => []
  | .continueLoop => []
  | .giveBack value => Expr.optionLeaves value
  | .empty => []

def Stmt.leavesAll : List Stmt → List Leaf
  | [] => []
  | stmt :: rest => stmt.leaves ++ Stmt.leavesAll rest

def Stmt.optionLeaves : Option Stmt → List Leaf
  | none => []
  | some stmt => stmt.leaves

end

/-- The leaves in items that are not yet read. -/
def Items.leaves : List Item → List Leaf
  | [] => []
  | .lexeme _ _ :: s => leaves s
  | .text t _ :: s => .text t :: leaves s
  | .output e escape line :: s => .output e escape line :: (e.leaves ++ leaves s)

/-- The leaves in what a rule gives. -/
def Rule.leaves : Rule α → α → List Leaf
  | statement, stmt => stmt.leaves
  | expressionStatement _, stmt => stmt.leaves
  | afterKeyword _ _ _, stmt => stmt.leaves
  | condition, e => e.leaves
  | alternative, no => Stmt.optionLeaves no
  | returned, value => Expr.optionLeaves value
  | block, body => Stmt.leavesAll body
  | loopStart _, first => Stmt.optionLeaves first
  | optional _, value => Expr.optionLeaves value
  | declarations, decls => Expr.declLeaves decls
  | initial, value => Expr.optionLeaves value
  | assignment, e => e.leaves
  | conditional, e => e.leaves
  | binary _, e => e.leaves
  | binaryFrom _ _, e => e.leaves
  | unary, e => e.leaves
  | suffixed, e => e.leaves
  | chain, e => e.leaves
  | chainFrom _, e => e.leaves
  | expressions _, es => Expr.leavesAll es
  | objectFields, fields => Expr.fieldLeaves fields
  | fieldValue _, e => e.leaves
  | params, _ => []
  | functionBody, e => e.leaves
  | primary, e => e.leaves

/-- The leaves that a rule has from what stands to the left. -/
def Rule.carried : Rule α → List Leaf
  | binaryFrom _ left => left.leaves
  | chainFrom target => target.leaves
  | _ => []

theorem Items.leaves_append (s t : List Item) : leaves (s ++ t) = leaves s ++ leaves t := by
  induction s with
  | nil => rfl
  | cons item s ih =>
    cases item with
    | lexeme => exact ih
    | text t line => exact congrArg (.text t :: ·) ih
    | output e escape line =>
      change _ :: (e.leaves ++ leaves (s ++ t)) = _ :: (e.leaves ++ leaves s ++ leaves t)
      rw [ih, List.append_assoc]

theorem Items.leaves_ofToken (tokens : List Token) : leaves (tokens.map .ofToken) = [] := by
  induction tokens with
  | nil => rfl
  | cons token tokens ih => exact ih

theorem Items.leaves_skip (p : Punct) (s : List Item) : leaves (skip p s).rest = leaves s := by
  unfold skip
  split
  · rename_i r hr
    obtain ⟨_, s₁, h₁⟩ := r
    obtain ⟨line, rfl⟩ := eq_of_after? hr
    rfl
  · rfl

theorem Items.leaves_words (words : List (String × Nat)) (s : List Item) :
    leaves (words.map (fun p => .word p.1 p.2) ++ s) = leaves s := by
  induction words with
  | nil => rfl
  | cons word words ih => exact ih

theorem Items.leaves_of_loopHead? (h : loopHead? s = some r) : leaves s = leaves r.rest := by
  obtain ⟨words, hs, -⟩ := eq_of_loopHead? h
  exact (congrArg leaves hs).trans (leaves_words words r.rest)

theorem leaves_callOf (target : Expr) (name : String) (args : List Expr) :
    (callOf target name args).leaves = target.leaves ++ Expr.leavesAll args := by
  unfold callOf
  split
  · split
    · rfl
    · split <;> rfl
  · rfl

theorem leaves_apply (op : Operator) (left right : Expr) :
    (op.apply left right).leaves = left.leaves ++ right.leaves := by
  cases op <;> rfl

/-- What is read first and what is read after it. -/
theorem append_eq_of_eq {a b c d e : List α} (h₁ : a = b ++ c) (h₂ : c = d ++ e) :
    a = b ++ d ++ e := by
  rw [h₁, h₂, List.append_assoc]

/-- What is read after something that stands to the left, where the two make one tree. -/
theorem append_eq_of_carried {a b l s s₁ t : List α} (h₁ : s = b ++ s₁) (hl : l = a ++ b)
    (h₂ : l ++ s₁ = t) : a ++ s = t := by
  rw [h₁, ← List.append_assoc, ← hl, h₂]

/-- A rule takes the leaves that it gives, in their order. -/
theorem Derives.leaves (h : Derives c r s v rest) :
    r.carried ++ Items.leaves s = r.leaves v ++ Items.leaves rest := by
  induction h with
  -- statements
  | text => rfl
  | output => rfl
  | braces _ ih => exact ih
  | empty => rfl
  | keyword _ _ ih => exact ih
  | expression _ _ ih => exact ih
  | expressionStatement _ ih =>
    rw [Items.leaves_skip]
    exact ih
  | branch _ _ _ iht ihy ihn => exact append_eq_of_eq (append_eq_of_eq iht ihy) ihn
  | forOf hs _ _ _ ihi ihb =>
    exact (Items.leaves_of_loopHead? hs).trans (append_eq_of_eq ihi ihb)
  | forIn hs _ _ _ iht ihb =>
    exact (Items.leaves_of_loopHead? hs).trans (append_eq_of_eq iht ihb)
  | loop _ _ _ _ _ ihf iht ihu ihb =>
    exact append_eq_of_eq (append_eq_of_eq (append_eq_of_eq ihf iht) ihu) ihb
  | whileDo _ _ iht ihb => exact append_eq_of_eq iht ihb
  | declare _ ih =>
    rw [Items.leaves_skip]
    exact ih
  | breakLoop =>
    rw [Items.leaves_skip]
    rfl
  | continueLoop =>
    rw [Items.leaves_skip]
    rfl
  | giveBack _ _ ih =>
    rw [Items.leaves_skip]
    exact ih
  | condition _ ih => exact ih
  | otherwise _ ih => exact ih
  | noAlternative => rfl
  | returned _ _ ih => exact ih
  | nothingReturned => rfl
  | blockEnd => rfl
  | blockMore _ _ _ ihf ihm => exact append_eq_of_eq ihf ihm
  -- the head of a counting loop
  | noStart => rfl
  | declareStart _ _ ih => exact ih
  | expressionStart _ _ _ ih => exact ih
  | omitted => rfl
  | given _ _ ih => exact ih
  -- declarations
  | lastDeclared _ _ _ ih => exact append_eq_of_eq ih rfl
  | declared _ _ _ ihv ihm => exact append_eq_of_eq ihv ihm
  | initial _ ih => exact ih
  | noInitial => rfl
  -- expressions
  | assign _ _ _ ih => exact ih
  | unassigned _ _ ih => exact ih
  | choice _ _ _ iht ihy ihn => exact append_eq_of_eq (append_eq_of_eq iht ihy) ihn
  | noChoice _ _ ih => exact ih
  | binary _ _ ihl ihe => exact ihl.trans ihe
  | operator _ _ _ ihr ihe => exact append_eq_of_carried ihr (leaves_apply _ _ _) ihe
  | noOperator => rfl
  | unary _ ih => exact ih
  | stepBefore => rfl
  | noUnary _ _ _ ih => exact ih
  | stepAfter _ ih => exact ih
  | noStep _ _ ih => exact ih
  | chain _ _ iht ihe => exact iht.trans ihe
  | callProperty _ _ iha ihe => exact append_eq_of_carried iha (leaves_callOf _ _ _) ihe
  | property _ _ ih => exact append_eq_of_carried (b := []) rfl rfl ih
  | index _ _ ihk ihe => exact append_eq_of_carried ihk rfl ihe
  | call _ _ iha ihe => exact append_eq_of_carried iha rfl ihe
  | chainEnd => rfl
  -- lists
  | noExpressions => rfl
  | lastExpression _ _ _ ih => exact append_eq_of_eq ih rfl
  | expressions _ _ _ ihe ihm => exact append_eq_of_eq ihe ihm
  | noFields => rfl
  | lastField _ _ ih => exact append_eq_of_eq ih rfl
  | fields _ _ _ ihe ihm => exact append_eq_of_eq ihe ihm
  | fieldValue _ ih => exact ih
  | shorthand => rfl
  | noParams => rfl
  | lastParam => rfl
  | params _ _ ih => exact ih
  | functionBody _ _ ihp ihb => exact ihp.trans ihb
  | namedFunction _ _ _ ihp ihb => exact ihp.trans ihb
  -- what expressions are made of
  | number => rfl
  | string => rfl
  | constant => rfl
  | self => rfl
  | ident => rfl
  | function _ _ ih => exact ih
  | parens _ ih => exact ih
  | array _ ih => exact ih
  | object _ ih => exact ih

/-- The leaf that a segment stands for, if it shows something. -/
def leaf? : Segment → Option (Except SyntaxError Leaf)
  | .literal t => some (.ok (.text t))
  | .emit code escape line => some ((parseExpression code line).map (.output · escape line))
  | .statement _ _ => none

theorem DerivesAll.leaves (h : DerivesAll last s program) :
    Items.leaves s = Stmt.leavesAll program := by
  induction h with
  | nil => rfl
  | cons _ hs _ ih =>
    have hl := hs.leaves
    rw [ih] at hl
    exact hl

theorem leaves_of_lexemes (h : lexemes code line = .ok items) : Items.leaves items = [] := by
  unfold lexemes at h
  split at h
  · cases h
    exact Items.leaves_ofToken _
  · cases h

/-- The code of an output tag is one expression, or there are no lexemes in it. -/
theorem derives_of_parseExpression (h : parseExpression code line = .ok e) :
    lexemes code line = .ok [] ∧ e = .value .null ∨ ∃ items, lexemes code line = .ok items ∧
      Derives ⟨line, false, false⟩ .assignment items e [] := by
  obtain ⟨items, hi, h⟩ := bind_eq_ok h
  dsimp only at h
  split at h
  · rename_i hs
    rw [List.isEmpty_iff.mp hs] at hi
    exact .inl ⟨hi, (Except.ok.inj h).symm⟩
  · obtain ⟨⟨e', rest, hlt⟩, ha, h⟩ := bind_eq_ok h
    dsimp only at h
    split at h
    · rename_i hr
      cases h
      obtain rfl := List.isEmpty_iff.mp hr
      exact .inr ⟨items, hi, derives_of_reads .assignment ⟨_, ha⟩⟩
    · cases h

/-- The expression of an output tag comes from its own code, where nothing else is shown. -/
theorem leaves_of_parseExpression (h : parseExpression code line = .ok e) : e.leaves = [] := by
  rcases derives_of_parseExpression h with ⟨-, rfl⟩ | ⟨items, hi, hd⟩
  · rfl
  · have he : Items.leaves items = e.leaves ++ Items.leaves [] := hd.leaves
    rw [leaves_of_lexemes hi] at he
    exact (List.append_eq_nil_iff.mp he.symm).1

theorem leaves_of_ofSegment {segment : Segment} (h : Items.ofSegment last segment = .ok items) :
    (Items.leaves items).map .ok = (leaf? segment).toList := by
  cases segment with
  | literal t =>
    cases h
    rfl
  | emit code escape line =>
    obtain ⟨e, he, rfl⟩ := map_eq_ok h
    rw [leaf?, he, Items.leaves, leaves_of_parseExpression he]
    rfl
  | statement code line =>
    rw [leaves_of_lexemes h]
    rfl

theorem leaves_of_ofSegments (h : Items.ofSegments last segments = .ok items) :
    (Items.leaves items).map .ok = segments.filterMap leaf? := by
  induction segments generalizing last items with
  | nil =>
    cases h
    rfl
  | cons segment rest ih =>
    obtain ⟨first, hf, h⟩ := bind_eq_ok h
    obtain ⟨more, hm, h⟩ := bind_eq_ok h
    cases h
    rw [Items.leaves_append, List.map_append, leaves_of_ofSegment hf, ih hm]
    cases hl : leaf? segment with
    | none =>
      rw [List.filterMap_cons_none hl]
      rfl
    | some leaf =>
      rw [List.filterMap_cons_some hl]
      rfl

/-- Reading neither loses nor repeats nor moves what a template shows: the leaves of its statements
are those of its segments, in the same order. -/
theorem leaves_of_build (h : build segments = .ok program) :
    (Stmt.leavesAll program).map .ok = segments.filterMap leaf? := by
  obtain ⟨items, hi, h⟩ := bind_eq_ok h
  rw [← (derivesAll_of_statements h).leaves]
  exact leaves_of_ofSegments hi

/-- A function that begins in one tag and ends in another. -/
def callbackSegments : List Segment :=
  [.statement "f(function()\x7b" 1, .literal "-\n", .emit "x" true 2, .statement "\x7d)" 2]

def callbackProgram : List Stmt :=
  [.expr (.call "f" [.function [] [.text "-\n", .output (.ident "x") true 2]]) 1]

theorem leaves_of_build_callback :
    build callbackSegments = .ok callbackProgram ∧
      (Stmt.leavesAll callbackProgram).map .ok = callbackSegments.filterMap leaf? := by
  have h : build callbackSegments = .ok callbackProgram := by cbv
  exact ⟨h, leaves_of_build h⟩

end Script

end Stencil

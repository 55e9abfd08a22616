import Stencil.Proofs.Script.Soundness
import Stencil.Script.Program

/-!
Lines, texts and output tags of a tree come from the items that it is read from, and so do the lines
of errors. The main statement is `ends_build`: whatever limits the segments of a template keep, its
statements keep them too, and so does the line of the error if they are refused.
-/

namespace Stencil

namespace Script

open Text (Read)

set_option autoImplicit true

/-- The lines, the texts and the kinds of output tags that are allowed. -/
structure Limits where
  line : Nat → Prop
  text : String → Prop
  output : Bool → Prop

mutual

/-- What stands in the expression is allowed. -/
def Expr.Within (k : Limits) : Expr → Prop
  | .value _ => True
  | .ident _ => True
  | .self => True
  | .array items => Expr.AllWithin k items
  | .object fields => Expr.FieldsWithin k fields
  | .member target key => target.Within k ∧ key.Within k
  | .filter _ args => Expr.AllWithin k args
  | .call _ args => Expr.AllWithin k args
  | .method target _ args => target.Within k ∧ Expr.AllWithin k args
  | .unary _ operand => operand.Within k
  | .binary _ left right => left.Within k ∧ right.Within k
  | .logical _ left right => left.Within k ∧ right.Within k
  | .conditional test yes no => test.Within k ∧ yes.Within k ∧ no.Within k
  | .assign _ _ value => value.Within k
  | .update _ _ _ => True
  | .function _ body => Stmt.AllWithin k body

def Expr.AllWithin (k : Limits) : List Expr → Prop
  | [] => True
  | e :: es => e.Within k ∧ Expr.AllWithin k es

def Expr.OptionWithin (k : Limits) : Option Expr → Prop
  | none => True
  | some e => e.Within k

def Expr.FieldsWithin (k : Limits) : List (String × Expr) → Prop
  | [] => True
  | (_, e) :: fields => e.Within k ∧ Expr.FieldsWithin k fields

def Expr.DeclsWithin (k : Limits) : List (String × Option Expr) → Prop
  | [] => True
  | (_, value) :: decls => Expr.OptionWithin k value ∧ Expr.DeclsWithin k decls

def Stmt.Within (k : Limits) : Stmt → Prop
  | .text s => k.text s
  | .output e escape line => k.output escape ∧ k.line line ∧ e.Within k
  | .expr e line => k.line line ∧ e.Within k
  | .declare _ decls line => k.line line ∧ Expr.DeclsWithin k decls
  | .branch test yes no line =>
    k.line line ∧ test.Within k ∧ yes.Within k ∧ Stmt.OptionWithin k no
  | .forOf _ items body line => k.line line ∧ items.Within k ∧ body.Within k
  | .forIn _ target body line => k.line line ∧ target.Within k ∧ body.Within k
  | .loop first test update body line =>
    k.line line ∧ Stmt.OptionWithin k first ∧ Expr.OptionWithin k test ∧
      Expr.OptionWithin k update ∧ body.Within k
  | .whileDo test body line => k.line line ∧ test.Within k ∧ body.Within k
  | .block body => Stmt.AllWithin k body
  | .breakLoop => True
  | .continueLoop => True
  | .giveBack value => Expr.OptionWithin k value
  | .empty => True

def Stmt.AllWithin (k : Limits) : List Stmt → Prop
  | [] => True
  | stmt :: rest => stmt.Within k ∧ Stmt.AllWithin k rest

def Stmt.OptionWithin (k : Limits) : Option Stmt → Prop
  | none => True
  | some stmt => stmt.Within k

end

def Item.Within (k : Limits) : Item → Prop
  | lexeme _ line => k.line line
  | text s line => k.text s ∧ k.line line
  | output e escape line => k.output escape ∧ k.line line ∧ e.Within k

theorem Item.Within.line {item : Item} (h : item.Within k) : k.line item.line := by
  cases item with
  | lexeme => exact h
  | text => exact h.2
  | output => exact h.2.1

/-- A value with a property, or an error at an allowed line. -/
def Ends (k : Limits) (T : α → Prop) : Except SyntaxError α → Prop
  | .ok v => T v
  | .error e => k.line e.line

theorem Ends.bind {x : Except SyntaxError α} {f : α → Except SyntaxError β} (hx : Ends k T x)
    (hf : ∀ v, T v → Ends k U (f v)) : Ends k U (x >>= f) := by
  cases x with
  | error e => exact hx
  | ok v => exact hf v hx

theorem Ends.map {x : Except SyntaxError α} {f : α → β} (hx : Ends k T x)
    (hf : ∀ v, T v → U (f v)) : Ends k U (x.map f) := by
  cases x with
  | error e => exact hx
  | ok v => exact hf v hx

namespace Items

def Within (k : Limits) (s : List Item) : Prop := ∀ item ∈ s, item.Within k

theorem Within.head (h : Within k (item :: s)) : item.Within k := h item List.mem_cons_self

theorem Within.tail (h : Within k (item :: s)) : Within k s :=
  fun i hi => h i (List.mem_cons_of_mem item hi)

theorem Within.append (hs : Within k s) (ht : Within k t) : Within k (s ++ t) :=
  List.forall_mem_append.mpr ⟨hs, ht⟩

theorem Within.of_append (h : Within k (s ++ t)) : Within k t := (List.forall_mem_append.mp h).2

/-- The line at which items stand is allowed if theirs and that of their end are. -/
theorem Within.line (h : Within k s) (hl : k.line last) : k.line (Items.line last s) := by
  cases s with
  | nil => exact hl
  | cons item s => exact h.head.line

theorem Within.lastLine (h : Within k s) (hl : k.line last) : k.line (Items.lastLine last s) := by
  unfold Items.lastLine
  cases hg : s.getLast? with
  | none => exact hl
  | some item => exact (h item (List.mem_of_getLast? hg)).line

end Items

/-- A reader takes items up to a rest that keeps the limits, for a value with a property; or it
fails at an allowed line. -/
abbrev Reads (k : Limits) (T : α → Prop) (x : Parsed α n) : Prop :=
  Ends k (fun r => T r.value ∧ Items.Within k r.rest) x

theorem Reads.bind {x : Parsed α n} {f : Read Item α n → Except SyntaxError β} (hx : Reads k T x)
    (hf : ∀ v s (h : s.length < n), T v → Items.Within k s → Ends k U (f ⟨v, s, h⟩)) :
    Ends k U (x >>= f) :=
  Ends.bind hx fun ⟨v, s, h⟩ hr => hf v s h hr.1 hr.2

section heads

variable {k : Limits} {s : List Item} (hs : Items.Within k s)

include hs

theorem within_of_after? (h : Items.after? p s = some r) : Items.Within k r.rest := by
  obtain ⟨_, rest, hlt⟩ := r
  obtain ⟨l, rfl⟩ := Items.eq_of_after? h
  exact hs.tail

theorem within_skip (p : Punct) : Items.Within k (Items.skip p s).rest := by
  unfold Items.skip
  split
  · rename_i r ha
    exact within_of_after? hs ha
  · exact hs

theorem within_of_declHead? (h : declHead? s = some r) : Items.Within k r.rest := by
  obtain ⟨kind, rest, hlt⟩ := r
  obtain ⟨w, l, rfl, _⟩ := eq_of_declHead? h
  exact hs.tail

theorem within_of_loopHead? (h : loopHead? s = some r) : Items.Within k r.rest := by
  obtain ⟨words, he, _⟩ := eq_of_loopHead? h
  rw [he] at hs
  exact hs.of_append

theorem within_of_elseHead? (h : elseHead? s = some r) : Items.Within k r.rest := by
  obtain ⟨_, rest, hlt⟩ := r
  obtain ⟨l, rfl⟩ := eq_of_elseHead? h
  exact hs.tail

theorem within_of_assignHead? (h : assignHead? s = some r) : Items.Within k r.rest := by
  obtain ⟨⟨name, op⟩, rest, hlt⟩ := r
  obtain ⟨l₁, p, l₂, rfl, _⟩ := eq_of_assignHead? h
  exact hs.tail.tail

theorem within_of_operatorHead? (h : operatorHead? s = some r) : Items.Within k r.rest := by
  obtain ⟨op, rest, hlt⟩ := r
  obtain ⟨l, rfl⟩ := eq_of_operatorHead? h
  exact hs.tail

theorem within_of_unaryHead? (h : unaryHead? s = some r) : Items.Within k r.rest := by
  obtain ⟨op, rest, hlt⟩ := r
  obtain ⟨l, rfl⟩ := eq_of_unaryHead? h
  exact hs.tail

theorem within_of_stepHead? (h : stepHead? s = some r) : Items.Within k r.rest := by
  obtain ⟨up, rest, hlt⟩ := r
  obtain ⟨l, rfl⟩ := eq_of_stepHead? h
  exact hs.tail

variable {last : Nat} (hl : k.line last)

include hl

theorem ends_fail {α : Type} {T : α → Prop} (fault : Fault) :
    Ends k T (Items.fail last s fault) := hs.line hl

theorem reads_mark (p : Punct) : Reads k (fun _ => True) (Items.mark last p s) := by
  unfold Items.mark
  split
  · rename_i r ha
    exact ⟨trivial, within_of_after? hs ha⟩
  · exact ends_fail hs hl _

theorem reads_name : Reads k (fun _ => True) (Items.name last s) := by
  unfold Items.name
  split
  · split
    · exact ends_fail hs hl _
    · exact ⟨trivial, hs.tail⟩
  · exact ends_fail hs hl _

theorem reads_propertyName : Reads k (fun _ => True) (Items.propertyName last s) := by
  unfold Items.propertyName
  split
  · exact ⟨trivial, hs.tail⟩
  · exact ends_fail hs hl _

theorem reads_fieldName : Reads k (fun _ => True) (Items.fieldName last s) := by
  unfold Items.fieldName
  split
  · exact ⟨trivial, hs.tail⟩
  · exact ⟨trivial, hs.tail⟩
  · exact ⟨trivial, hs.tail⟩
  · exact ends_fail hs hl _

theorem reads_functionName : Reads k (fun _ => True) (functionName last s) := by
  unfold functionName
  split
  · exact (reads_name hs hl).map fun r h => h
  · exact ⟨trivial, hs⟩

end heads

theorem reads_params (s : List Item) (hs : Items.Within k s) (hl : k.line last) :
    Reads k (fun _ => True) (Items.params last s) := by
  rw [Items.params]
  split
  · rename_i r ha
    exact ⟨trivial, within_of_after? hs ha⟩
  · refine (reads_name hs hl).bind fun first s₁ h₁ _ hs₁ => ?_
    dsimp only
    split
    · rename_i s₂ h₂ ha
      refine (reads_params s₂ (within_of_after? hs₁ ha) hl).bind fun more s₃ h₃ _ hs₃ => ?_
      exact ⟨trivial, hs₃⟩
    · refine (reads_mark hs₁ hl .closeParen).bind fun _ s₂ h₂ _ hs₂ => ?_
      exact ⟨trivial, hs₂⟩
termination_by s.length

theorem within_callOf (ht : target.Within k) (ha : Expr.AllWithin k args) (name : String) :
    (callOf target name args).Within k := by
  unfold callOf
  split
  · split
    · exact ha
    · split
      · exact ha
      · exact ⟨ht, ha⟩
  · exact ⟨ht, ha⟩

theorem within_apply {left right : Expr} (op : Operator) (hl : left.Within k)
    (hr : right.Within k) : (op.apply left right).Within k := by
  cases op <;> exact ⟨hl, hr⟩

mutual

theorem reads_statement (c : Context) : (s : List Item) → Items.Within k s → k.line c.last →
    Reads k (Stmt.Within k) (statement c s)
  | [], _, hl => by
    rw [statement]
    exact hl
  | .text t line :: rest, hs, _ => by
    rw [statement]
    exact ⟨hs.head.1, hs.tail⟩
  | .output e escape line :: rest, hs, _ => by
    rw [statement]
    exact ⟨hs.head, hs.tail⟩
  | .lexeme l line :: rest, hs, hl => by
    by_cases hb : l.beginsExpression = true
    · rw [statement_of_beginsExpression hb]
      exact reads_expressionStatement c line _ hs hs.head hl
    · rcases l.eq_of_not_beginsExpression hb with ⟨w, keyword, rfl, hk⟩ | rfl | rfl
      · rw [statement_of_keyword hk]
        refine (reads_keywordStatement c w keyword line rest hs.tail hs.head hl).bind
          fun stmt s₁ h₁ h hs₁ => ?_
        exact ⟨h, hs₁⟩
      · rw [statement]
        refine (reads_block c rest hs.tail hl).bind fun body s₁ h₁ h hs₁ => ?_
        exact ⟨h, hs₁⟩
      · rw [statement]
        exact ⟨trivial, hs.tail⟩
termination_by s => 16 * s.length + 10
decreasing_by all_goals simp only [List.length_cons] at *; omega

theorem reads_expressionStatement (c : Context) (line : Nat) (s : List Item)
    (hs : Items.Within k s) (hline : k.line line) (hl : k.line c.last) :
    Reads k (Stmt.Within k) (expressionStatement c line s) := by
  rw [expressionStatement]
  refine (reads_assignment c s hs hl).bind fun e s₁ h₁ he hs₁ => ?_
  exact ⟨⟨hline, he⟩, within_skip hs₁ .semicolon⟩
termination_by 16 * s.length + 9
decreasing_by all_goals omega

theorem reads_keywordStatement (c : Context) (w : String) (keyword : Keyword) (line : Nat)
    (s : List Item) (hs : Items.Within k s) (hline : k.line line) (hl : k.line c.last) :
    Reads k (Stmt.Within k) (keywordStatement c w keyword line s) := by
  cases keyword with
  | branch =>
    rw [keywordStatement]
    refine (reads_condition c s hs hl).bind fun test s₁ h₁ ht hs₁ => ?_
    refine (reads_statement c s₁ hs₁ hl).bind fun yes s₂ h₂ hy hs₂ => ?_
    refine (reads_alternative c s₂ hs₂ hl).bind fun no s₃ h₃ hn hs₃ => ?_
    exact ⟨⟨hline, ht, hy, hn⟩, hs₃⟩
  | otherwise =>
    rw [keywordStatement]
    exact hline
  | loop =>
    rw [keywordStatement]
    refine (reads_mark hs hl .openParen).bind fun _ s₁ h₁ _ hs₁ => ?_
    dsimp only
    split
    · rename_i name elements s₂ h₂ hh
      refine (reads_assignment c s₂ (within_of_loopHead? hs₁ hh) hl).bind
        fun target s₃ h₃ ht hs₃ => ?_
      refine (reads_mark hs₃ hl .closeParen).bind fun _ s₄ h₄ _ hs₄ => ?_
      refine (reads_statement c.looping s₄ hs₄ hl).bind fun body s₅ h₅ hb hs₅ => ?_
      refine ⟨?_, hs₅⟩
      cases elements <;> exact ⟨hline, ht, hb⟩
    · refine (reads_loopStart c line s₁ hs₁ hline hl).bind fun first s₂ h₂ hf hs₂ => ?_
      refine (reads_optional c .semicolon s₂ hs₂ hl).bind fun test s₃ h₃ ht hs₃ => ?_
      refine (reads_optional c .closeParen s₃ hs₃ hl).bind fun update s₄ h₄ hu hs₄ => ?_
      refine (reads_statement c.looping s₄ hs₄ hl).bind fun body s₅ h₅ hb hs₅ => ?_
      exact ⟨⟨hline, hf, ht, hu, hb⟩, hs₅⟩
  | whileDo =>
    rw [keywordStatement]
    refine (reads_condition c s hs hl).bind fun test s₁ h₁ ht hs₁ => ?_
    refine (reads_statement c.looping s₁ hs₁ hl).bind fun body s₂ h₂ hb hs₂ => ?_
    exact ⟨⟨hline, ht, hb⟩, hs₂⟩
  | declare kind =>
    rw [keywordStatement]
    refine (reads_declarations c s hs hl).bind fun decls s₁ h₁ hd hs₁ => ?_
    exact ⟨⟨hline, hd⟩, within_skip hs₁ .semicolon⟩
  | breakLoop =>
    rw [keywordStatement]
    split
    · exact ⟨trivial, within_skip hs .semicolon⟩
    · exact hline
  | continueLoop =>
    rw [keywordStatement]
    split
    · exact ⟨trivial, within_skip hs .semicolon⟩
    · exact hline
  | giveBack =>
    rw [keywordStatement]
    split
    · refine (reads_returned c s hs hl).bind fun value s₁ h₁ hv hs₁ => ?_
      exact ⟨hv, within_skip hs₁ .semicolon⟩
    · exact hline
termination_by 16 * s.length + 12
decreasing_by all_goals omega

theorem reads_condition (c : Context) (s : List Item) (hs : Items.Within k s)
    (hl : k.line c.last) : Reads k (Expr.Within k) (condition c s) := by
  rw [condition]
  refine (reads_mark hs hl .openParen).bind fun _ s₁ h₁ _ hs₁ => ?_
  refine (reads_assignment c s₁ hs₁ hl).bind fun e s₂ h₂ he hs₂ => ?_
  refine (reads_mark hs₂ hl .closeParen).bind fun _ s₃ h₃ _ hs₃ => ?_
  exact ⟨he, hs₃⟩
termination_by 16 * s.length
decreasing_by all_goals omega

theorem reads_alternative (c : Context) (s : List Item) (hs : Items.Within k s)
    (hl : k.line c.last) : Reads k (Stmt.OptionWithin k) (alternative c s) := by
  rw [alternative]
  split
  · rename_i s₁ h₁ he
    refine (reads_statement c s₁ (within_of_elseHead? hs he) hl).bind fun stmt s₂ h₂ h hs₂ => ?_
    exact ⟨h, hs₂⟩
  · exact ⟨trivial, hs⟩
termination_by 16 * s.length
decreasing_by all_goals omega

theorem reads_returned (c : Context) (s : List Item) (hs : Items.Within k s)
    (hl : k.line c.last) : Reads k (Expr.OptionWithin k) (returned c s) := by
  rw [returned]
  split
  · exact ⟨trivial, hs⟩
  · refine (reads_assignment c s hs hl).bind fun e s₁ h₁ h hs₁ => ?_
    exact ⟨h, hs₁⟩
termination_by 16 * s.length + 9
decreasing_by all_goals omega

theorem reads_block (c : Context) (s : List Item) (hs : Items.Within k s) (hl : k.line c.last) :
    Reads k (Stmt.AllWithin k) (block c s) := by
  rw [block]
  split
  · rename_i r ha
    exact ⟨trivial, within_of_after? hs ha⟩
  · split
    · exact ends_fail hs hl _
    · refine (reads_statement c s hs hl).bind fun first s₁ h₁ hf hs₁ => ?_
      refine (reads_block c s₁ hs₁ hl).bind fun more s₂ h₂ hm hs₂ => ?_
      exact ⟨⟨hf, hm⟩, hs₂⟩
termination_by 16 * s.length + 11
decreasing_by all_goals omega

theorem reads_loopStart (c : Context) (line : Nat) (s : List Item) (hs : Items.Within k s)
    (hline : k.line line) (hl : k.line c.last) :
    Reads k (Stmt.OptionWithin k) (loopStart c line s) := by
  rw [loopStart]
  split
  · rename_i r ha
    exact ⟨trivial, within_of_after? hs ha⟩
  · split
    · rename_i kind s₁ h₁ hd
      refine (reads_declarations c s₁ (within_of_declHead? hs hd) hl).bind
        fun decls s₂ h₂ hds hs₂ => ?_
      refine (reads_mark hs₂ hl .semicolon).bind fun _ s₃ h₃ _ hs₃ => ?_
      exact ⟨⟨hline, hds⟩, hs₃⟩
    · refine (reads_assignment c s hs hl).bind fun e s₁ h₁ he hs₁ => ?_
      refine (reads_mark hs₁ hl .semicolon).bind fun _ s₂ h₂ _ hs₂ => ?_
      exact ⟨⟨hline, he⟩, hs₂⟩
termination_by 16 * s.length + 9
decreasing_by all_goals omega

theorem reads_optional (c : Context) (closer : Punct) (s : List Item) (hs : Items.Within k s)
    (hl : k.line c.last) : Reads k (Expr.OptionWithin k) (Script.optional c closer s) := by
  rw [Script.optional]
  split
  · rename_i r ha
    exact ⟨trivial, within_of_after? hs ha⟩
  · refine (reads_assignment c s hs hl).bind fun e s₁ h₁ he hs₁ => ?_
    refine (reads_mark hs₁ hl closer).bind fun _ s₂ h₂ _ hs₂ => ?_
    exact ⟨he, hs₂⟩
termination_by 16 * s.length + 9
decreasing_by all_goals omega

theorem reads_declarations (c : Context) (s : List Item) (hs : Items.Within k s)
    (hl : k.line c.last) : Reads k (Expr.DeclsWithin k) (declarations c s) := by
  rw [declarations]
  refine (reads_name hs hl).bind fun name s₁ h₁ _ hs₁ => ?_
  refine (reads_initial c s₁ hs₁ hl).bind fun value s₂ h₂ hv hs₂ => ?_
  dsimp only
  split
  · rename_i s₃ h₃ ha
    refine (reads_declarations c s₃ (within_of_after? hs₂ ha) hl).bind fun more s₄ h₄ hm hs₄ => ?_
    exact ⟨⟨hv, hm⟩, hs₄⟩
  · exact ⟨⟨hv, trivial⟩, hs₂⟩
termination_by 16 * s.length
decreasing_by all_goals omega

theorem reads_initial (c : Context) (s : List Item) (hs : Items.Within k s)
    (hl : k.line c.last) : Reads k (Expr.OptionWithin k) (initial c s) := by
  rw [initial]
  split
  · rename_i s₁ h₁ ha
    refine (reads_assignment c s₁ (within_of_after? hs ha) hl).bind fun e s₂ h₂ h hs₂ => ?_
    exact ⟨h, hs₂⟩
  · exact ⟨trivial, hs⟩
termination_by 16 * s.length
decreasing_by all_goals omega

theorem reads_assignment (c : Context) (s : List Item) (hs : Items.Within k s)
    (hl : k.line c.last) : Reads k (Expr.Within k) (assignment c s) := by
  rw [assignment]
  split
  · rename_i name op s₁ h₁ ha
    refine (reads_assignment c s₁ (within_of_assignHead? hs ha) hl).bind fun e s₂ h₂ h hs₂ => ?_
    exact ⟨h, hs₂⟩
  · exact reads_conditional c s hs hl
termination_by 16 * s.length + 8
decreasing_by all_goals omega

theorem reads_conditional (c : Context) (s : List Item) (hs : Items.Within k s)
    (hl : k.line c.last) : Reads k (Expr.Within k) (conditional c s) := by
  rw [conditional]
  refine (reads_binary c 0 s hs hl).bind fun test s₁ h₁ ht hs₁ => ?_
  dsimp only
  split
  · rename_i s₂ h₂ ha
    refine (reads_assignment c s₂ (within_of_after? hs₁ ha) hl).bind fun yes s₃ h₃ hy hs₃ => ?_
    refine (reads_mark hs₃ hl .colon).bind fun _ s₄ h₄ _ hs₄ => ?_
    refine (reads_assignment c s₄ hs₄ hl).bind fun no s₅ h₅ hn hs₅ => ?_
    exact ⟨⟨ht, hy, hn⟩, hs₅⟩
  · exact ⟨ht, hs₁⟩
termination_by 16 * s.length + 7
decreasing_by all_goals omega

theorem reads_binary (c : Context) (level : Nat) (s : List Item) (hs : Items.Within k s)
    (hl : k.line c.last) : Reads k (Expr.Within k) (binary c level s) := by
  rw [binary]
  refine (reads_unary c s hs hl).bind fun left s₁ h₁ he hs₁ => ?_
  exact reads_binaryFrom c level ⟨left, s₁, h₁⟩ he hs₁ hl
termination_by 16 * s.length + 6
decreasing_by all_goals omega

theorem reads_binaryFrom {n : Nat} (c : Context) (level : Nat) (left : Read Item Expr n)
    (he : left.value.Within k) (hs : Items.Within k left.rest) (hl : k.line c.last) :
    Reads k (Expr.Within k) (binaryFrom c level left) := by
  rw [binaryFrom]
  split
  · rename_i op s₁ h₁ ho
    split
    · exact ⟨he, hs⟩
    · refine (reads_binary c (op.level + 1) s₁ (within_of_operatorHead? hs ho) hl).bind
        fun right s₂ h₂ hr hs₂ => ?_
      exact reads_binaryFrom c level _ (within_apply op he hr) hs₂ hl
  · exact ⟨he, hs⟩
termination_by 16 * left.rest.length + 7
decreasing_by all_goals omega

theorem reads_unary (c : Context) (s : List Item) (hs : Items.Within k s) (hl : k.line c.last) :
    Reads k (Expr.Within k) (unary c s) := by
  rw [unary]
  split
  · rename_i op s₁ h₁ hu
    refine (reads_unary c s₁ (within_of_unaryHead? hs hu) hl).bind fun e s₂ h₂ h hs₂ => ?_
    exact ⟨h, hs₂⟩
  · split
    · rename_i up s₁ h₁ hst
      refine (reads_name (within_of_stepHead? hs hst) hl).bind fun name s₂ h₂ _ hs₂ => ?_
      exact ⟨trivial, hs₂⟩
    · exact reads_suffixed c s hs hl
termination_by 16 * s.length + 5
decreasing_by all_goals omega

theorem reads_suffixed (c : Context) (s : List Item) (hs : Items.Within k s)
    (hl : k.line c.last) : Reads k (Expr.Within k) (suffixed c s) := by
  rw [suffixed]
  refine (reads_chain c s hs hl).bind fun e s₁ h₁ he hs₁ => ?_
  dsimp only
  split
  · rename_i name up s₂ h₂ hst
    exact ⟨trivial, within_of_stepHead? hs₁ hst⟩
  · exact ⟨he, hs₁⟩
termination_by 16 * s.length + 4
decreasing_by all_goals omega

theorem reads_chain (c : Context) (s : List Item) (hs : Items.Within k s) (hl : k.line c.last) :
    Reads k (Expr.Within k) (chain c s) := by
  rw [chain]
  refine (reads_primary c s hs hl).bind fun first s₁ h₁ hf hs₁ => ?_
  exact reads_chainFrom c ⟨first, s₁, h₁⟩ hf hs₁ hl
termination_by 16 * s.length + 3
decreasing_by all_goals omega

theorem reads_chainFrom {n : Nat} (c : Context) (target : Read Item Expr n)
    (ht : target.value.Within k) (hs : Items.Within k target.rest) (hl : k.line c.last) :
    Reads k (Expr.Within k) (chainFrom c target) := by
  rw [chainFrom]
  split
  · rename_i s₁ h₁ ha
    have hs₁ : Items.Within k s₁ := within_of_after? hs ha
    refine (reads_propertyName hs₁ hl).bind fun name s₂ h₂ _ hs₂ => ?_
    dsimp only
    split
    · rename_i s₃ h₃ ha₂
      refine (reads_expressions c .closeParen s₃ (within_of_after? hs₂ ha₂) hl).bind
        fun args s₄ h₄ hx hs₄ => ?_
      exact reads_chainFrom c _ (within_callOf ht hx name) hs₄ hl
    · exact reads_chainFrom c _ ⟨ht, trivial⟩ hs₂ hl
  · split
    · rename_i s₁ h₁ ha
      refine (reads_assignment c s₁ (within_of_after? hs ha) hl).bind fun key s₂ h₂ hk hs₂ => ?_
      refine (reads_mark hs₂ hl .closeBracket).bind fun _ s₃ h₃ _ hs₃ => ?_
      exact reads_chainFrom c _ ⟨ht, hk⟩ hs₃ hl
    · split
      · rename_i s₁ h₁ ha
        split
        · refine (reads_expressions c .closeParen s₁ (within_of_after? hs ha) hl).bind
            fun args s₂ h₂ hx hs₂ => ?_
          exact reads_chainFrom c _ hx hs₂ hl
        · exact ends_fail hs hl _
      · exact ⟨ht, hs⟩
termination_by 16 * target.rest.length + 2
decreasing_by all_goals omega

theorem reads_expressions (c : Context) (closer : Punct) (s : List Item) (hs : Items.Within k s)
    (hl : k.line c.last) : Reads k (Expr.AllWithin k) (expressions c closer s) := by
  rw [expressions]
  split
  · rename_i r ha
    exact ⟨trivial, within_of_after? hs ha⟩
  · refine (reads_assignment c s hs hl).bind fun first s₁ h₁ hf hs₁ => ?_
    dsimp only
    split
    · rename_i s₂ h₂ ha
      refine (reads_expressions c closer s₂ (within_of_after? hs₁ ha) hl).bind
        fun more s₃ h₃ hm hs₃ => ?_
      exact ⟨⟨hf, hm⟩, hs₃⟩
    · refine (reads_mark hs₁ hl closer).bind fun _ s₂ h₂ _ hs₂ => ?_
      exact ⟨⟨hf, trivial⟩, hs₂⟩
termination_by 16 * s.length + 9
decreasing_by all_goals omega

theorem reads_objectFields (c : Context) (s : List Item) (hs : Items.Within k s)
    (hl : k.line c.last) : Reads k (Expr.FieldsWithin k) (objectFields c s) := by
  rw [objectFields]
  split
  · rename_i r ha
    exact ⟨trivial, within_of_after? hs ha⟩
  · refine (reads_fieldName hs hl).bind fun name s₁ h₁ _ hs₁ => ?_
    refine (reads_fieldValue c name s₁ hs₁ hl).bind fun value s₂ h₂ hv hs₂ => ?_
    dsimp only
    split
    · rename_i s₃ h₃ ha
      refine (reads_objectFields c s₃ (within_of_after? hs₂ ha) hl).bind fun more s₄ h₄ hm hs₄ => ?_
      exact ⟨⟨hv, hm⟩, hs₄⟩
    · refine (reads_mark hs₂ hl .closeBrace).bind fun _ s₃ h₃ _ hs₃ => ?_
      exact ⟨⟨hv, trivial⟩, hs₃⟩
termination_by 16 * s.length
decreasing_by all_goals omega

theorem reads_fieldValue (c : Context) (name : String) (s : List Item) (hs : Items.Within k s)
    (hl : k.line c.last) : Reads k (Expr.Within k) (fieldValue c name s) := by
  rw [fieldValue]
  split
  · rename_i s₁ h₁ ha
    refine (reads_assignment c s₁ (within_of_after? hs ha) hl).bind fun e s₂ h₂ h hs₂ => ?_
    exact ⟨h, hs₂⟩
  · exact ⟨trivial, hs⟩
termination_by 16 * s.length
decreasing_by all_goals omega

theorem reads_functionBody (c : Context) (s : List Item) (hs : Items.Within k s)
    (hl : k.line c.last) : Reads k (Expr.Within k) (functionBody c s) := by
  rw [functionBody]
  refine (reads_functionName hs hl).bind fun _ s₁ h₁ _ hs₁ => ?_
  refine (reads_mark hs₁ hl .openParen).bind fun _ s₂ h₂ _ hs₂ => ?_
  refine (reads_params s₂ hs₂ hl).bind fun params s₃ h₃ _ hs₃ => ?_
  refine (reads_mark hs₃ hl .openBrace).bind fun _ s₄ h₄ _ hs₄ => ?_
  refine (reads_block c.function s₄ hs₄ hl).bind fun body s₅ h₅ h hs₅ => ?_
  exact ⟨h, hs₅⟩
termination_by 16 * s.length
decreasing_by all_goals omega

theorem reads_primary (c : Context) (s : List Item) (hs : Items.Within k s)
    (hl : k.line c.last) : Reads k (Expr.Within k) (primary c s) := by
  -- The equation keeps the length of the sequence in sight when its first item is looked at.
  obtain ⟨items, hi⟩ : ∃ items, s = items := ⟨s, rfl⟩
  rw [hi] at hs ⊢
  rw [primary.eq_def]
  split
  · exact ⟨trivial, hs.tail⟩
  · exact ⟨trivial, hs.tail⟩
  · rename_i w line rest
    split
    · exact ⟨trivial, hs.tail⟩
    · exact ⟨trivial, hs.tail⟩
    · exact ⟨trivial, hs.tail⟩
    · refine (reads_functionBody c rest hs.tail hl).bind fun e s₁ h₁ h hs₁ => ?_
      exact ⟨h, hs₁⟩
    · exact ends_fail hs hl _
  · rename_i line rest
    refine (reads_assignment c rest hs.tail hl).bind fun e s₁ h₁ he hs₁ => ?_
    refine (reads_mark hs₁ hl .closeParen).bind fun _ s₂ h₂ _ hs₂ => ?_
    exact ⟨he, hs₂⟩
  · rename_i line rest
    refine (reads_expressions c .closeBracket rest hs.tail hl).bind fun items s₁ h₁ h hs₁ => ?_
    exact ⟨h, hs₁⟩
  · rename_i line rest
    refine (reads_objectFields c rest hs.tail hl).bind fun fields s₁ h₁ h hs₁ => ?_
    exact ⟨h, hs₁⟩
  · exact ends_fail hs hl _
termination_by 16 * s.length
decreasing_by all_goals simp only [hi, List.length_cons]; omega

end

theorem ends_statements (last : Nat) (s : List Item) (hs : Items.Within k s) (hl : k.line last) :
    Ends k (Stmt.AllWithin k) (statements last s) := by
  rw [statements]
  split
  · exact trivial
  · split
    · exact ends_fail hs hl _
    · refine (reads_statement ⟨last, false, false⟩ s hs hl).bind fun first s₁ h₁ hf hs₁ => ?_
      refine (ends_statements last s₁ hs₁ hl).bind fun more hm => ?_
      exact ⟨hf, hm⟩
termination_by s.length

end Script

/-- What a segment adds to the tree and to the errors is allowed. -/
def Segment.Within (k : Script.Limits) : Segment → Prop
  | .literal t => k.text t
  | .emit _ escape line => k.output escape ∧ k.line line
  | .statement _ line => k.line line

namespace Script

theorem ends_lexemes (code : String) (hl : k.line line) :
    Ends k (Items.Within k) (lexemes code line) := by
  unfold lexemes tokenize
  cases Lexeme.ofCode code.toList with
  | error fault => exact hl
  | ok read =>
    intro item hi
    obtain ⟨token, ht, rfl⟩ := List.mem_map.mp hi
    obtain ⟨l, -, rfl⟩ := List.mem_map.mp ht
    exact hl

theorem ends_parseExpression (code : String) (hl : k.line line) :
    Ends k (Expr.Within k) (parseExpression code line) := by
  unfold parseExpression
  refine (ends_lexemes code hl).bind fun items hi => ?_
  split
  · exact trivial
  · refine (reads_assignment ⟨line, false, false⟩ items hi hl).bind fun e rest h he hr => ?_
    dsimp only
    split
    · exact he
    · exact ends_fail hr hl _

theorem ends_ofSegment {segment : Segment} (hs : segment.Within k) (hl : k.line last) :
    Ends k (Items.Within k) (Items.ofSegment last segment) := by
  cases segment with
  | literal t =>
    intro item hi
    obtain rfl := List.mem_singleton.mp hi
    exact ⟨hs, hl⟩
  | emit code escape line =>
    refine (ends_parseExpression code hs.2).map fun e he item hi => ?_
    obtain rfl := List.mem_singleton.mp hi
    exact ⟨hs.1, hs.2, he⟩
  | statement code line => exact ends_lexemes code hs

theorem ends_ofSegments {segments : List Segment} (hs : ∀ segment ∈ segments, segment.Within k)
    (hl : k.line last) : Ends k (Items.Within k) (Items.ofSegments last segments) := by
  induction segments generalizing last with
  | nil => exact fun item hi => absurd hi List.not_mem_nil
  | cons segment rest ih =>
    obtain ⟨hsegment, hrest⟩ := List.forall_mem_cons.mp hs
    rw [Items.ofSegments]
    refine (ends_ofSegment hsegment hl).bind fun items hi => ?_
    refine (ih hrest (hi.lastLine hl)).bind fun more hm => ?_
    exact hi.append hm

/-- The statements of a template keep the limits that its segments keep; if they are refused, the
line of the error does. -/
theorem ends_build {segments : List Segment} (hs : ∀ segment ∈ segments, segment.Within k)
    (hl : k.line 1) : Ends k (Stmt.AllWithin k) (build segments) :=
  (ends_ofSegments hs hl).bind fun _ hi => ends_statements _ _ hi (hi.lastLine hl)

end Script

end Stencil

import Stencil.Proofs.Script.Heads
import Stencil.Proofs.Script.Thin

/-!
Texts that go from between the lexemes of a template. They matter where the body of a statement is
read and where a statement ends (`Items.Thinnable`). Elsewhere what a rule begins with is still there
(`Derives.fronts`), and no statement goes on behind them (`Thins.quiet_gap`).
-/

namespace Stencil.Script

open List (suffix_append suffix_refl)

set_option autoImplicit true

/-- The statements that another one governs. -/
def Stmt.bodies : Stmt → List Stmt
  | branch _ yes no _ => yes :: no.toList
  | forOf _ _ body _ => [body]
  | forIn _ _ body _ => [body]
  | loop _ _ _ body _ => [body]
  | whileDo _ body _ => [body]
  | _ => []

/-- Where a statement may begin: at the front, behind what stands in front of a body, and behind
another statement. -/
inductive Items.Starts (whole : List Item) : List Item → Prop where
  | front : Starts whole whole
  | brace : .mark .openBrace n :: s <:+ whole → Starts whole s
  | head : .mark .closeParen n :: s <:+ whole → Starts whole s
  | otherwise : .word "else" n :: s <:+ whole → Starts whole s
  | next : Starts whole s → Derives c .statement s stmt rest → Starts whole rest

theorem EndsWith.suffix (hu : EndsWith p u) (hs : s = u ++ s₁) : ∃ n, .mark p n :: s₁ <:+ s := by
  obtain ⟨n, hl⟩ := hu
  obtain ⟨v, rfl⟩ := List.getLast?_eq_some_iff.mp hl
  rw [List.append_assoc] at hs
  exact ⟨n, v, hs.symm⟩

theorem Items.Starts.behind (hs : s = u ++ s₁) (hu : EndsWith .closeParen u) (hw : s <:+ whole) :
    Starts whole s₁ := by
  obtain ⟨n, hn⟩ := hu.suffix hs
  exact .head (hn.trans hw)

/-- The texts that go matter to no statement that is read in the items: none of them is by itself
the body of one, and where one ends in front of them it would not go on behind them. -/
structure Items.Thinnable (g : String → Option String) (whole : List Item) : Prop where
  bodies : Starts whole s → Derives c .statement s stmt rest →
    ∀ body ∈ stmt.bodies, body.gone g = false
  apart : Starts whole (u ++ (gap ++ .lexeme l n :: rest)) → gap ≠ [] → Items.thin g gap = [] →
    Derives c .statement (u ++ (gap ++ .lexeme l n :: rest)) stmt (gap ++ .lexeme l n :: rest) →
    ¬stmt.GoesOn u l

theorem Items.thinnable_of_total (hg : Total g) (whole : List Item) : Thinnable g whole where
  bodies _ _ body _ := body.gone_of_total hg
  apart _ hne hgap := by
    obtain ⟨item, _, rfl⟩ := List.exists_cons_of_ne_nil hne
    obtain ⟨left, hi⟩ := item.exists_thin hg
    rw [Items.thin, List.filterMap_cons_some hi] at hgap
    cases hgap

/-- The rest of some items of which texts may go. -/
structure Items.ThinnableFrom (g : String → Option String) (whole s : List Item) : Prop
    extends Thinnable g whole where
  suffix : s <:+ whole

namespace Items.ThinnableFrom

theorem of_taken (h : ThinnableFrom g whole s) (hs : s = u ++ s₁) : ThinnableFrom g whole s₁ where
  toThinnable := h.toThinnable
  suffix := (suffix_append u s₁).trans (hs ▸ h.suffix)

theorem tail (h : ThinnableFrom g whole (item :: s)) : ThinnableFrom g whole s :=
  h.of_taken (u := [item]) rfl

end Items.ThinnableFrom

/-- Something is left of the first of the items. -/
def LeftAhead (g : String → Option String) (s : List Item) : Prop :=
  ∃ item s' left, s = item :: s' ∧ item.thin g = some left

theorem leftAhead_lexeme (g : String → Option String) (l : Lexeme) (line : Nat) (s : List Item) :
    LeftAhead g (.lexeme l line :: s) :=
  ⟨_, s, _, rfl, rfl⟩

/-- What a rule begins with if it takes anything. -/
abbrev Rule.Fronts (g : String → Option String) : Rule α → α → List Item → List Item → Prop
  | statement, stmt, s, _ => stmt.gone g = false → LeftAhead g s
  | alternative, no, s, rest => (∀ stmt ∈ no, stmt.gone g = false) → s = rest ∨ LeftAhead g s
  | optional _, _, s, _ => LeftAhead g s
  | assignment, _, s, _ => LeftAhead g s
  | conditional, _, s, _ => LeftAhead g s
  | binary _, _, s, _ => LeftAhead g s
  | binaryFrom _ _, _, s, rest => s = rest ∨ LeftAhead g s
  | unary, _, s, _ => LeftAhead g s
  | suffixed, _, s, _ => LeftAhead g s
  | chain, _, s, _ => LeftAhead g s
  | chainFrom _, _, s, rest => s = rest ∨ LeftAhead g s
  | primary, _, s, _ => LeftAhead g s
  | _, _, _, _ => True

theorem Derives.fronts (h : Derives c r s v rest) (g : String → Option String) :
    r.Fronts g v s rest := by
  induction h with
  | @text c t line s =>
    intro hg
    cases ht : g t with
    | none =>
      rw [Stmt.gone, ht] at hg
      cases hg
    | some left => exact ⟨_, s, .text left line, rfl, by rw [Item.thin, ht]; rfl⟩
  | output => exact fun _ => ⟨_, _, _, rfl, rfl⟩
  | braces => exact fun _ => leftAhead_lexeme ..
  | empty => exact fun _ => leftAhead_lexeme ..
  | keyword => exact fun _ => leftAhead_lexeme ..
  | expression => exact fun _ => leftAhead_lexeme ..
  | otherwise => exact fun _ => .inr (leftAhead_lexeme ..)
  | noAlternative => exact fun _ => .inl rfl
  | omitted => exact leftAhead_lexeme ..
  | given _ _ ih => exact ih
  | assign => exact leftAhead_lexeme ..
  | unassigned _ _ ih => exact ih
  | choice _ _ _ ih => exact ih
  | noChoice _ _ ih => exact ih
  | binary _ _ ih => exact ih
  | operator => exact .inr (leftAhead_lexeme ..)
  | noOperator => exact .inl rfl
  | unary => exact leftAhead_lexeme ..
  | stepBefore => exact leftAhead_lexeme ..
  | noUnary _ _ _ ih => exact ih
  | stepAfter _ ih => exact ih
  | noStep _ _ ih => exact ih
  | chain _ _ ih => exact ih
  | callProperty => exact .inr (leftAhead_lexeme ..)
  | property => exact .inr (leftAhead_lexeme ..)
  | index => exact .inr (leftAhead_lexeme ..)
  | call => exact .inr (leftAhead_lexeme ..)
  | chainEnd => exact .inl rfl
  | number => exact leftAhead_lexeme ..
  | string => exact leftAhead_lexeme ..
  | constant => exact leftAhead_lexeme ..
  | self => exact leftAhead_lexeme ..
  | ident => exact leftAhead_lexeme ..
  | function => exact leftAhead_lexeme ..
  | parens => exact leftAhead_lexeme ..
  | array => exact leftAhead_lexeme ..
  | object => exact leftAhead_lexeme ..
  | _ => trivial

namespace Thins

variable {g g' : String → Option String} {u u' : List Item}

theorem found_append (h : Thins g g' u u') (hne : u ≠ []) (hl : LeftAhead g (u ++ rest))
    (t : List Item) : Items.found (u' ++ t) = Items.found (u ++ rest) := by
  obtain ⟨item, s', left, hs, hi⟩ := hl
  cases u with
  | nil => exact absurd rfl hne
  | cons item u =>
    obtain ⟨rfl, -⟩ := List.cons.inj hs
    obtain ⟨item', v, rfl, hi', -⟩ := h.cons hi
    exact (Item.found_of_thin hi').symm.trans (Item.found_of_thin hi)

theorem quiet (h : Thins g g' u u') (hl : u ++ rest = rest ∨ LeftAhead g (u ++ rest))
    (hq : u = [] → Quiet P rest t) : Quiet P (u ++ rest) (u' ++ t) := by
  by_cases hne : u = []
  · subst hne
    obtain rfl := h.nil
    exact hq rfl
  · rcases hl with hl | hl
    · exact absurd (taken_nothing hl.symm) hne
    · exact .same (h.found_append hne hl t)

theorem words (words : List (String × Nat))
    (h : Thins g g' (words.map (fun p => .word p.1 p.2) ++ u) u') :
    ∃ v, u' = words.map (fun p => .word p.1 p.2) ++ v ∧ Thins g g' u v := by
  induction words generalizing u' with
  | nil => exact ⟨u', rfl, h⟩
  | cons p words ih =>
    obtain ⟨v, rfl, hv⟩ := h.lexeme
    obtain ⟨w, rfl, hw⟩ := ih hv
    exact ⟨w, rfl, hw⟩

theorem semicolon (h : Thins g g' u u') (hu : u = [] ∨ ∃ line, u = [.mark .semicolon line]) :
    u' = u := by
  obtain rfl | ⟨line, rfl⟩ := hu
  · exact h.nil
  · exact h.single

end Thins

theorem not_opener_of_assignment? (h : Punct.assignment? p = some op) : p ∉ openers := by
  intro hp
  cases p <;> first | exact absurd hp (by decide) | cases h

/-- A name in front of a text stands alone, so no sign of an assignment can be meant for it. -/
theorem Thins.assignHead? (h : Thins g g' u u') (he : Derives c .conditional (u ++ rest) e rest)
    (hne : u ≠ []) (ha : assignHead? (u ++ rest) = none) (ht : Quiet P rest t) :
    assignHead? (u' ++ t) = none := by
  cases hr : Script.assignHead? (u' ++ t) with
  | none => rfl
  | some r =>
    obtain ⟨⟨name, op⟩, s, hlt⟩ := r
    obtain ⟨line₁, p, line₂, hs, hn, hp⟩ := eq_of_assignHead? hr
    obtain ⟨item, s', left, hu, hi⟩ := he.fronts g
    obtain ⟨item, u, rfl⟩ := List.exists_cons_of_ne_nil hne
    obtain ⟨rfl, -⟩ := List.cons.inj hu
    obtain ⟨item', v, rfl, hi', hv⟩ := h.cons hi
    obtain ⟨rfl, hs₁⟩ := List.cons.inj hs
    cases hi'
    obtain rfl := Item.eq_of_thin_lexeme hi
    cases u with
    | nil =>
      obtain rfl := hv.nil
      obtain rfl : t = .mark p line₂ :: s := hs₁
      rcases ht with ht | ⟨ho, -⟩
      · obtain ⟨line, rest', rfl⟩ := Items.eq_cons_of_found ht.symm
        rw [List.cons_append, List.nil_append, assignHead?_cons hn hp] at ha
        cases ha
      · exact absurd ho (not_opener_of_assignment? hp)
    | cons item u =>
      cases hi : item.thin g with
      | none =>
        obtain ⟨t', n, rfl, -⟩ := Item.eq_of_thin_none hi
        obtain ⟨-, hrest⟩ := he.unique (.alone hn nofun)
        exact absurd (taken_nothing hrest) (List.cons_ne_nil _ _)
      | some left =>
        obtain ⟨item', v, rfl, hi', -⟩ := hv.cons hi
        obtain ⟨rfl, -⟩ := List.cons.inj hs₁
        cases hi'
        obtain rfl := Item.eq_of_thin_lexeme hi
        rw [List.cons_append, List.cons_append, assignHead?_cons hn hp] at ha
        cases ha

/-- A statement of which nothing is left is a text, and nothing is left of its items. -/
theorem Thins.nil_of_gone_statement (h : Thins g g' u u') (hf : Derives c .statement s stmt s₁)
    (hs : s = u ++ s₁) (hg : stmt.gone g = true) : u' = [] := by
  obtain ⟨t, rfl, ht⟩ := Stmt.eq_of_gone hg
  obtain ⟨_, line, rfl, he⟩ | ⟨-, hn⟩ := hf.texts
  · cases he
    obtain rfl := taken_item hs
    have hn := h.of_gone (by rw [Item.thin, ht]; rfl)
    exact hn.nil
  · exact absurd rfl (hn t)

/-- Where a statement is followed by texts that go, it does not go on behind them. -/
theorem Thins.quiet_gap (h : Thins g g' u₂ u') (hw : Items.Thinnable g whole)
    (hp : Items.Starts whole s) (hf : Derives c .statement s stmt s₁) (hs : s = u₁ ++ s₁)
    (hs₁ : s₁ = u₂ ++ rest) (hne : Items.thin g u₂ ≠ [])
    (ho : (Items.found (u' ++ t)).Opens) : Quiet (stmt.GoesOn u₁) s₁ (u' ++ t) := by
  -- The texts at the front that go, up to the first item of which something is left.
  obtain ⟨left, more, hleft⟩ := List.exists_cons_of_ne_nil hne
  obtain ⟨gap, item, v, rfl, hgap, hi, -⟩ := List.filterMap_eq_cons_iff.mp hleft
  have hgap : Items.thin g gap = [] := List.filterMap_eq_nil_iff.mpr hgap
  cases gap with
  | nil =>
    refine hs₁ ▸ h.quiet (.inr ⟨item, v ++ rest, left, rfl, hi⟩) fun hn => ?_
    cases hn
  | cons text gap =>
    refine .inr ⟨ho, fun l hl => ?_⟩
    obtain ⟨w, x, rfl, hw', hx⟩ := h.split
    obtain rfl := hw'.nil_of_gone hgap
    obtain ⟨item', x, rfl, hi', -⟩ := hx.cons hi
    have hitem : item.found = .lexeme l :=
      (Item.found_of_thin hi).symm.trans ((Item.found_of_thin hi').trans hl)
    obtain ⟨n, _, he⟩ := Items.eq_cons_of_found (s := item :: v) hitem
    obtain ⟨rfl, rfl⟩ := List.cons.inj he
    subst hs₁ hs
    rw [List.append_assoc, List.cons_append] at hf hp
    exact hw.apart hp (List.cons_ne_nil text gap) hgap hf

end Stencil.Script

import Stencil.Proofs.Script.Locality

/-!
Expressions in front of a mark. What is read up to the end of some items is read in the same way
from the front of more, if they go on with a mark that ends it (`Derives.append_mark`).
-/

namespace Stencil.Script

set_option autoImplicit true

/-- What the rule gives ends in front of the mark. -/
def Rule.EndsAt : Rule α → Punct → Prop
  | assignment, p => p.closes = true
  | conditional, p => p.closes = true
  | binary _, p => p.endsOperand = true ∧ p.operator? = none
  | binaryFrom _ _, p => p.endsOperand = true ∧ p.operator? = none
  | unary, p => p.endsOperand = true
  | suffixed, p => p.endsOperand = true
  | chain, p => p.endsOperand = true
  | chainFrom _, p => p.endsOperand = true
  | expressions _, _ => True
  | objectFields, _ => True
  | functionBody, _ => True
  | block, _ => True
  | primary, _ => True
  | _, _ => False

theorem ne_of_endsOperand {p q : Punct} (hp : p.endsOperand = true)
    (hq : q.endsOperand = false) : p ≠ q := by
  rintro rfl
  rw [hp] at hq
  cases hq

theorem Items.found_append_left (hs : s ≠ []) (t : List Item) : found (s ++ t) = found s := by
  cases s with
  | nil => exact absurd rfl hs
  | cons item s => rfl

section Heads

variable {p : Punct} (l : Nat) (t : List Item)

theorem Items.after?_append_mark (h : after? q s = none) (hp : p ≠ q) :
    after? q (s ++ .mark p l :: t) = none := by
  cases s with
  | nil => exact after?_mark_of_ne hp
  | cons item s => exact after?_congr (s := item :: s) rfl h

theorem stepHead?_mark_of_endsOperand (hp : p.endsOperand = true) :
    stepHead? (.mark p l :: t) = none := by
  cases p <;> first | rfl | cases hp

theorem operatorHead?_mark_of_none (hp : p.operator? = none) :
    operatorHead? (.mark p l :: t) = none := by
  rw [operatorHead?, hp]
  rfl

theorem assignHead?_append_mark (h : assignHead? s = none) (hs : s ≠ [])
    (hp : p.assignment? = none) : assignHead? (s ++ .mark p l :: t) = none := by
  cases ha : assignHead? (s ++ .mark p l :: t) with
  | none => rfl
  | some r =>
    obtain ⟨⟨name, op⟩, rest, hlt⟩ := r
    obtain ⟨l₁, q, l₂, he, hn, hq⟩ := eq_of_assignHead? ha
    exfalso
    match s with
    | [] => exact absurd rfl hs
    | [item] =>
      cases he
      cases hp.symm.trans hq
    | item :: item' :: s =>
      cases he
      rw [assignHead?_cons hn hq] at h
      cases h

end Heads

/-- A rule that does not read to the end of some items gives the same if more items follow. -/
theorem Derives.append (h : Derives c r s v rest) (hne : rest ≠ []) (t : List Item) :
    Derives c r (s ++ t) v (rest ++ t) := by
  obtain ⟨u, rfl, -⟩ := h.ends
  rw [List.append_assoc]
  exact h.before rfl ⟨id, id⟩ (.right fun hr => absurd hr hne)

theorem Derives.append_cons (h : Derives c r s v (item :: rest)) (t : List Item) :
    Derives c r (s ++ t) v (item :: (rest ++ t)) :=
  h.append (List.cons_ne_nil item rest) t

/-- The same of a part of a rule, which may read to the end or not. -/
theorem Derives.append_part (h : Derives c r s v rest)
    (ih : rest = [] → r.EndsAt p → Derives c r (s ++ .mark p l :: t) v (.mark p l :: t))
    (hp : rest = [] → r.EndsAt p) :
    Derives c r (s ++ .mark p l :: t) v (rest ++ .mark p l :: t) := by
  cases rest with
  | nil => exact ih rfl (hp rfl)
  | cons item rest => exact h.append (List.cons_ne_nil item rest) _

theorem Expr.Ends.whole_ne_nil (h : ∃ u, s = u ++ rest ∧ Expr.Ends e u) : s ≠ [] := by
  obtain ⟨u, rfl, hu⟩ := h
  exact List.append_ne_nil_of_left_ne_nil hu.ne_nil rest

/-- A rule that reads to the end of some items gives the same in front of a mark that ends it. -/
theorem Derives.append_mark (h : Derives c r s v rest) (hr : rest = []) (hp : r.EndsAt p) (l : Nat)
    (t : List Item) : Derives c r (s ++ .mark p l :: t) v (.mark p l :: t) := by
  induction h with
  | assign hn ha _ ih => exact .assign hn ha (ih hr hp)
  | unassigned ha hd ih =>
    have hs := Expr.Ends.whole_ne_nil hd.ends
    have ha' := p.assignment?_of_endsOperand (p.endsOperand_of_closes hp)
    exact .unassigned (assignHead?_append_mark l t ha hs ha') (ih hr hp)
  | choice ht hy _ _ _ ih => exact .choice (ht.append_cons _) (hy.append_cons _) (ih hr hp)
  | noChoice hb _ ih =>
    subst hr
    refine .noChoice (ih rfl ⟨p.endsOperand_of_closes hp, p.operator?_of_closes hp⟩)
      (Items.after?_mark_of_ne ?_)
    rintro rfl
    cases hp
  | binary hu _ ihu ih => exact .binary (hu.append_part ihu fun _ => hp.1) (ih hr hp)
  | operator hl hd _ ihd ih => exact .operator hl (hd.append_part ihd fun _ => hp) (ih hr hp)
  | noOperator =>
    subst hr
    refine .noOperator fun r hr => ?_
    cases (operatorHead?_mark_of_none l t hp.2).symm.trans hr
  | unary _ ih => exact .unary (ih hr hp)
  | stepBefore hn =>
    subst hr
    exact .stepBefore hn
  | noUnary hu hs hd ih =>
    have hf := Items.found_append_left (Expr.Ends.whole_ne_nil hd.ends) (.mark p l :: t)
    exact .noUnary (unaryHead?_congr hf hu) (stepHead?_congr hf hs) (ih hr hp)
  | stepAfter hd =>
    subst hr
    exact .stepAfter (hd.append_cons _)
  | noStep _ _ ih =>
    subst hr
    exact .noStep (ih rfl hp) fun _ _ => stepHead?_mark_of_endsOperand l t hp
  | chain hd _ ihd ih => exact .chain (hd.append_part ihd fun _ => trivial) (ih hr hp)
  | callProperty hd _ ihd ih => exact .callProperty (hd.append_part ihd fun _ => trivial) (ih hr hp)
  | property ha _ ih =>
    exact .property (Items.after?_append_mark l t ha (ne_of_endsOperand hp rfl)) (ih hr hp)
  | index hd _ _ ih => exact .index (hd.append_cons _) (ih hr hp)
  | call hd _ ihd ih => exact .call (hd.append_part ihd fun _ => trivial) (ih hr hp)
  | chainEnd =>
    subst hr
    exact chainEnd_of_endsOperand hp
  | noExpressions =>
    subst hr
    exact .noExpressions
  | lastExpression hc ha hd =>
    subst hr
    have hf := Items.found_append_left (Expr.Ends.whole_ne_nil hd.ends) (.mark p l :: t)
    exact .lastExpression hc (Items.after?_congr hf ha) (hd.append_cons _)
  | expressions ha hd _ _ ih =>
    have hf := Items.found_append_left (Expr.Ends.whole_ne_nil hd.ends) (.mark p l :: t)
    exact .expressions (Items.after?_congr hf ha) (hd.append_cons _) (ih hr trivial)
  | noFields =>
    subst hr
    exact .noFields
  | lastField hk hd =>
    subst hr
    exact .lastField hk (hd.append_cons _)
  | fields hk hd _ _ ih => exact .fields hk (hd.append_cons _) (ih hr hp)
  | functionBody hd _ _ ih => exact .functionBody (hd.append_cons _) (ih hr trivial)
  | namedFunction hn hd _ _ ih =>
    exact .namedFunction hn (hd.append_cons _) (ih hr trivial)
  | blockEnd =>
    subst hr
    exact .blockEnd
  | blockMore ha hd hm _ ih =>
    have hf := Items.found_append_left (ne_nil_of_statement hd) (.mark p l :: t)
    obtain ⟨u, rfl, hu⟩ := hm.ends
    have hd' := hd.append (List.append_ne_nil_of_left_ne_nil hu.ne_nil _) (.mark p l :: t)
    exact .blockMore (Items.after?_congr hf ha) hd' (ih hr trivial)
  | number =>
    subst hr
    exact .number
  | string =>
    subst hr
    exact .string
  | constant ha =>
    subst hr
    exact .constant ha
  | self ha =>
    subst hr
    exact .self ha
  | ident ha =>
    subst hr
    exact .ident ha
  | function ha _ ih => exact .function ha (ih hr trivial)
  | parens hd =>
    subst hr
    exact .parens (hd.append_cons _)
  | array _ ih => exact .array (ih hr trivial)
  | object _ ih => exact .object (ih hr trivial)
  | _ => exact hp.elim

end Stencil.Script

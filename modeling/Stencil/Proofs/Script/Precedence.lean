import Stencil.Proofs.Script.Delimited
import Stencil.Proofs.Script.Name

/-!
Chains of operators. The parser reads a chain from left to right and holds each operator against a
level. The tree that it gives is the one with the loosest operator at its root, the rightmost if
there are several, and the two sides of the chain below it (`assignment_chain`).
-/

namespace Stencil.Script

set_option autoImplicit true

namespace Operator

/-- The operators in tiers, from those that bind loosest to those that bind tightest. -/
def tiers : List (List Operator) :=
  [[.logical false], [.logical true],
    [.binary .equal, .binary .notEqual, .binary .identical, .binary .notIdentical],
    [.binary .less, .binary .atMost, .binary .greater, .binary .atLeast],
    [.binary .add, .binary .sub], [.binary .mul, .binary .div, .binary .rem]]

def tier (op : Operator) : Nat := tiers.findIdx (·.contains op)

theorem level_eq (op : Operator) : op.level = op.tier + 1 := by
  cases op with
  | binary op => cases op <;> rfl
  | logical onTrue => cases onTrue <;> rfl

end Operator

/-- Items that are an operand, to their end, which may be given any line. -/
structure ChainOperand (c : Context) where
  items : List Item
  value : Expr
  last : Nat
  whole : ∃ h, unary { c with last } items = .ok ⟨value, [], h⟩

/-- An operator with the operand behind it. -/
structure ChainLink (c : Context) where
  op : Operator
  line : Nat
  operand : ChainOperand c

def linkItems (links : List (ChainLink c)) : List Item :=
  links.flatMap fun k => .mark k.op.mark k.line :: k.operand.items

/-- The rightmost of the operators that bind loosest, and what stands before and after it. -/
def loosest? : List (ChainLink c) → Option (List (ChainLink c) × ChainLink c × List (ChainLink c))
  | [] => none
  | k :: links =>
    match loosest? links with
    | none => some ([], k, [])
    | some (before, m, after) =>
      if m.op.tier ≤ k.op.tier then some (k :: before, m, after) else some ([], k, links)

theorem loosest?_eq_none_iff {links : List (ChainLink c)} : loosest? links = none ↔ links = [] := by
  cases links with
  | nil => exact ⟨fun _ => rfl, fun _ => rfl⟩
  | cons k links =>
    refine ⟨fun h => ?_, nofun⟩
    rw [loosest?] at h
    split at h
    · cases h
    · split at h <;> cases h

/-- Before the operator none binds looser, after it all bind tighter. -/
theorem loosest?_spec {links : List (ChainLink c)} (h : loosest? links = some (before, m, after)) :
    links = before ++ m :: after ∧ (∀ k ∈ before, m.op.tier ≤ k.op.tier) ∧
      ∀ k ∈ after, m.op.tier < k.op.tier := by
  induction links generalizing before m after with
  | nil => cases h
  | cons k links ih =>
    rw [loosest?] at h
    cases hl : loosest? links with
    | none =>
      rw [hl] at h
      cases h
      rw [loosest?_eq_none_iff.mp hl]
      exact ⟨rfl, nofun, nofun⟩
    | some parts =>
      obtain ⟨before', m', after'⟩ := parts
      obtain ⟨rfl, hbefore, hafter⟩ := ih hl
      rw [hl] at h
      dsimp only at h
      split at h
      · rename_i hle
        cases h
        exact ⟨rfl, List.forall_mem_cons.mpr ⟨hle, hbefore⟩, hafter⟩
      · rename_i hlt
        cases h
        refine ⟨rfl, nofun, fun x hx => ?_⟩
        have hlt := Nat.lt_of_not_le hlt
        rcases List.mem_append.mp hx with hx | hx
        · exact Nat.lt_of_lt_of_le hlt (hbefore x hx)
        · rcases List.mem_cons.mp hx with rfl | hx
          · exact hlt
          · exact Nat.lt_trans hlt (hafter x hx)

theorem length_of_loosest? {links : List (ChainLink c)}
    (h : loosest? links = some (before, m, after)) :
    before.length < links.length ∧ after.length < links.length := by
  obtain ⟨rfl, -⟩ := loosest?_spec h
  rw [List.length_append, List.length_cons]
  omega

/-- The tree of a chain, split at the rightmost operator that binds loosest. -/
def chainTree (first : ChainOperand c) (links : List (ChainLink c)) : Expr :=
  match h : loosest? links with
  | none => first.value
  | some (before, m, after) =>
    have := length_of_loosest? h
    m.op.apply (chainTree first before) (chainTree m.operand after)
termination_by links.length

theorem chainTree_nil (first : ChainOperand c) : chainTree first [] = first.value := by
  rw [chainTree]
  rfl

theorem chainTree_of_loosest? {links : List (ChainLink c)} (first : ChainOperand c)
    (h : loosest? links = some (before, m, after)) :
    chainTree first links = m.op.apply (chainTree first before) (chainTree m.operand after) := by
  rw [chainTree]
  split
  · rename_i hn
    cases hn.symm.trans h
  · rename_i hs
    cases hs.symm.trans h
    rfl

/-- An operand ends in front of the items: at their end or at a mark. -/
def OperandEnds (t : List Item) : Prop :=
  t = [] ∨ ∃ p l s, t = .mark p l :: s ∧ p.endsOperand = true

/-- No operator at the head of the items binds tighter than one of the chain. -/
def LooserThan (links : List (ChainLink c)) (t : List Item) : Prop :=
  ∀ r, operatorHead? t = some r → ∀ k ∈ links, r.value.level ≤ k.op.level

namespace ChainOperand

variable (x : ChainOperand c)

theorem derives : Derives c .unary x.items x.value [] := by
  have h := derives_of_reads .unary x.whole
  rw [← List.append_nil x.items]
  exact h.before (List.append_nil x.items).symm ⟨id, id⟩ (.same rfl)

/-- An operand is read up to where it ends. -/
theorem unary (ht : OperandEnds t) : Derives c .unary (x.items ++ t) x.value t := by
  rcases ht with rfl | ⟨p, l, s, rfl, hp⟩
  · rw [List.append_nil]
    exact x.derives
  · exact x.derives.append_mark rfl hp l s

end ChainOperand

theorem operandEnds_linkItems (links : List (ChainLink c)) (ht : OperandEnds t) :
    OperandEnds (linkItems links ++ t) := by
  cases links with
  | nil => exact ht
  | cons k links => exact .inr ⟨k.op.mark, k.line, _, rfl, k.op.endsOperand_mark⟩

/-- A loop over the operators of a chain has its tree on the left when it comes to what follows. -/
theorem Derives.chain_links (first : ChainOperand c) (links : List (ChainLink c))
    (hlevel : ∀ k ∈ links, level ≤ k.op.level) (ht : OperandEnds t) (hl : LooserThan links t)
    (h : Derives c (.binaryFrom level (chainTree first links)) t e rest) :
    Derives c (.binaryFrom level first.value) (linkItems links ++ t) e rest := by
  cases hs : loosest? links with
  | none =>
    rw [loosest?_eq_none_iff.mp hs] at h ⊢
    rwa [chainTree_nil] at h
  | some parts =>
    obtain ⟨before, m, after⟩ := parts
    have hlength := length_of_loosest? hs
    rw [chainTree_of_loosest? first hs] at h
    obtain ⟨rfl, hbefore, hafter⟩ := loosest?_spec hs
    -- the right operand takes the tighter operators after `m` and stops in front of `t`
    have hstop : Derives c (.binaryFrom (m.op.level + 1) (chainTree m.operand after)) t
        (chainTree m.operand after) t := by
      refine .noOperator fun r hr => ?_
      exact Nat.lt_succ_of_le (hl r hr m (List.mem_append_right _ List.mem_cons_self))
    have hright : Derives c (.binary (m.op.level + 1)) (m.operand.items ++ (linkItems after ++ t))
        (chainTree m.operand after) t := by
      refine .binary (m.operand.unary (operandEnds_linkItems after ht)) ?_
      refine Derives.chain_links m.operand after (fun k hk => ?_) ht (fun r hr k hk => ?_) hstop
      · rw [m.op.level_eq, k.op.level_eq]
        exact Nat.succ_lt_succ (hafter k hk)
      · exact hl r hr k (List.mem_append_right _ (List.mem_cons_of_mem _ hk))
    -- the loop comes to `m` with the tree of what stands before it
    have hm : Derives c (.binaryFrom level (chainTree first before))
        (.mark m.op.mark m.line :: (m.operand.items ++ (linkItems after ++ t))) e rest :=
      .operator (Nat.not_lt.mpr (hlevel m (List.mem_append_right _ List.mem_cons_self))) hright h
    have hloose : LooserThan before
        (.mark m.op.mark m.line :: (m.operand.items ++ (linkItems after ++ t))) := by
      intro r hr k hk
      rw [operatorHead?_cons] at hr
      cases hr
      rw [m.op.level_eq, k.op.level_eq]
      exact Nat.succ_le_succ (hbefore k hk)
    have hchain := Derives.chain_links first before
      (fun k hk => hlevel k (List.mem_append_left _ hk))
      (.inr ⟨m.op.mark, m.line, _, rfl, m.op.endsOperand_mark⟩) hloose hm
    simpa only [linkItems, List.flatMap_append, List.flatMap_cons, List.append_assoc,
      List.cons_append] using hchain
termination_by links.length

/-- No assignment begins with an operand that is read to its end. -/
theorem ChainOperand.assignHead?_eq_none (x : ChainOperand c) : assignHead? x.items = none := by
  cases ha : assignHead? x.items with
  | none => rfl
  | some r =>
    obtain ⟨⟨name, op⟩, rest, hlt⟩ := r
    obtain ⟨l₁, p, l₂, hs, hn, hp⟩ := eq_of_assignHead? ha
    have hne (q : Punct) (hq : q.assignment? = none) :
        Items.after? q (.mark p l₂ :: rest) = none := by
      apply Items.after?_mark_of_ne
      rintro rfl
      cases hp.symm.trans hq
    have hstep : stepHead? (.mark p l₂ :: rest) = none := by
      cases p <;> first | rfl | cases hp
    have hd : Derives c .unary x.items (.ident name) (.mark p l₂ :: rest) := by
      rw [hs]
      exact .variable hn (hne _ rfl) (hne _ rfl) (hne _ rfl) hstep
    obtain ⟨-, he⟩ := x.derives.unique hd
    cases he

/-- A chain of operators between operands is an expression to its end, and its tree is the one that
the levels of the operators say. -/
theorem assignment_chain (first : ChainOperand c) (links : List (ChainLink c)) :
    ∃ h, assignment c (first.items ++ linkItems links) = .ok ⟨chainTree first links, [], h⟩ := by
  have hends : OperandEnds (linkItems links) := by
    rw [← List.append_nil (linkItems links)]
    exact operandEnds_linkItems links (.inl rfl)
  have hlinks : Derives c (.binaryFrom 0 first.value) (linkItems links) (chainTree first links)
      [] := by
    have h := Derives.chain_links first links (fun _ _ => Nat.zero_le _) (.inl rfl) nofun
      (.noOperator nofun)
    rwa [List.append_nil] at h
  have hassign : assignHead? (first.items ++ linkItems links) = none := by
    cases links with
    | nil =>
      rw [linkItems, List.flatMap_nil, List.append_nil]
      exact first.assignHead?_eq_none
    | cons k links =>
      exact assignHead?_append_mark _ _ first.assignHead?_eq_none
        (Expr.Ends.whole_ne_nil first.derives.ends)
        (k.op.mark.assignment?_of_endsOperand k.op.endsOperand_mark)
  exact accepts_of_derives
    (.unassigned hassign (.noChoice (.binary (first.unary hends) hlinks) rfl))

/-- A variable as an operand. -/
def ChainOperand.ident (c : Context) (name : String) (line : Nat) (hn : isReserved name = false) :
    ChainOperand c :=
  ⟨[.word name line], .ident name, c.last, accepts_of_derives (.variable hn rfl rfl rfl rfl)⟩

/-- The tree of `a - b - c * d == e && f`. -/
theorem assignment_chain_mixed : ∃ h, assignment ⟨1, false, false⟩
    [.word "a" 1, .mark .minus 1, .word "b" 1, .mark .minus 1, .word "c" 1, .mark .times 1,
      .word "d" 1, .mark .equal 1, .word "e" 1, .mark .both 1, .word "f" 1] =
    .ok ⟨.logical true (.binary .equal (.binary .sub (.binary .sub (.ident "a") (.ident "b"))
      (.binary .mul (.ident "c") (.ident "d"))) (.ident "e")) (.ident "f"), [], h⟩ := by
  let x (name : String) (hn : isReserved name = false) :=
    ChainOperand.ident ⟨1, false, false⟩ name 1 hn
  let links : List (ChainLink ⟨1, false, false⟩) := [⟨.binary .sub, 1, x "b" rfl⟩,
    ⟨.binary .sub, 1, x "c" rfl⟩, ⟨.binary .mul, 1, x "d" rfl⟩, ⟨.binary .equal, 1, x "e" rfl⟩,
    ⟨.logical true, 1, x "f" rfl⟩]
  have ht : chainTree (x "a" rfl) links = .logical true (.binary .equal (.binary .sub
      (.binary .sub (.ident "a") (.ident "b")) (.binary .mul (.ident "c") (.ident "d")))
      (.ident "e")) (.ident "f") := by
    cbv
  have h := assignment_chain (x "a" rfl) links
  rw [ht] at h
  exact h

end Stencil.Script

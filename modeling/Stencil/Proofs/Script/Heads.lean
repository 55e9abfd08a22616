import Stencil.Proofs.Script.Boundary
import Stencil.Proofs.Script.Operand

/-!
The front of some items. A reader of a head sees the same in front of any items (`loopHead?_before`),
a rule gives one value and leaves one rest (`Derives.unique`), and a statement is a text just where
the items begin with one (`Derives.texts`).
-/

namespace Stencil.Script

open Stencil.Text (Read)
open List (suffix_cons)

set_option autoImplicit true

theorem ne_nil_of_statement (h : Derives c .statement s stmt s₁) : s ≠ [] := by
  rintro rfl
  obtain ⟨hlt, _⟩ := accepts_of_derives h
  exact Nat.not_lt_zero _ hlt

theorem taken_unique {s rest u u' : List Item} (h : s = u ++ rest) (h' : s = u' ++ rest) :
    u = u' :=
  List.append_cancel_right (h.symm.trans h')

theorem taken_nothing {s u : List Item} (h : s = u ++ s) : u = [] := taken_unique h rfl

theorem taken_item {s u : List Item} (h : item :: s = u ++ s) : u = [item] :=
  taken_unique h (taken_cons item rfl)

theorem taken_pair {s u : List Item} (h : item :: item' :: s = u ++ s) : u = [item, item'] :=
  taken_unique h (taken_cons item (taken_cons item' rfl))

theorem suffix_cons_of_suffix {s u : List Item} (h : u <:+ s) (item : Item) : u <:+ item :: s :=
  h.trans (suffix_cons item s)

theorem Items.after?_congr (h : found t = found s) (ha : after? p s = none) :
    after? p t = none := by
  rw [after?_eq_none_iff] at ha ⊢
  rwa [h]

theorem declHead?_congr (h : Items.found t = Items.found s) (hd : declHead? s = none) :
    declHead? t = none := by
  rw [declHead?_eq_none_iff] at hd ⊢
  rwa [h]

theorem unaryHead?_congr (h : Items.found t = Items.found s) (hu : unaryHead? s = none) :
    unaryHead? t = none := by
  rw [unaryHead?_eq_none_iff] at hu ⊢
  rwa [h]

theorem stepHead?_congr (h : Items.found t = Items.found s) (hs : stepHead? s = none) :
    stepHead? t = none := by
  rw [stepHead?_eq_none_iff] at hs ⊢
  rwa [h]

/-- The words at the head of a loop make a head in front of any items. -/
theorem eachHead?_before (h : eachHead? s = some r) :
    ∃ words : List (String × Nat), s = words.map (fun p => .word p.1 p.2) ++ r.rest ∧
      words ≠ [] ∧ ∀ t, ∃ hlt,
        eachHead? (words.map (fun p => .word p.1 p.2) ++ t) = some ⟨r.value, t, hlt⟩ := by
  have hlt (item item' : Item) (t : List Item) : t.length < (item :: item' :: t).length :=
    Nat.lt_succ_of_lt (Nat.lt_succ_self _)
  unfold eachHead? at h
  split at h
  · rename_i name line₁ w line₂ rest
    split at h
    · cases h
    · rename_i hn
      split at h
      · rename_i ho
        cases h
        exact ⟨[(name, line₁), (w, line₂)], rfl, List.cons_ne_nil _ _, fun t =>
          ⟨hlt _ _ t, (if_neg hn).trans (if_pos ho)⟩⟩
      · rename_i ho
        split at h
        · rename_i hi
          cases h
          exact ⟨[(name, line₁), (w, line₂)], rfl, List.cons_ne_nil _ _, fun t =>
            ⟨hlt _ _ t, (if_neg hn).trans ((if_neg ho).trans (if_pos hi))⟩⟩
        · cases h
  · cases h

theorem loopHead?_before (h : loopHead? s = some r) :
    ∃ words : List (String × Nat), s = words.map (fun p => .word p.1 p.2) ++ r.rest ∧
      ∀ t, ∃ hlt, loopHead? (words.map (fun p => .word p.1 p.2) ++ t) =
        some ⟨r.value, t, hlt⟩ := by
  cases hd : declHead? s with
  | some r₁ =>
    obtain ⟨kind, s₁, hlt₁⟩ := r₁
    unfold loopHead? at h
    rw [hd] at h
    obtain ⟨r₂, he, rfl⟩ := Option.map_eq_some_iff.mp h
    obtain ⟨w, line, rfl, hk⟩ := eq_of_declHead? hd
    obtain ⟨words, hw, -, hall⟩ := eachHead?_before he
    refine ⟨(w, line) :: words, taken_cons _ hw, fun t => ?_⟩
    obtain ⟨hlt, ht⟩ := hall t
    have hcons (s : List Item) (r : Read Item (String × Bool) s.length)
        (hr : eachHead? s = some r) :
        loopHead? (.word w line :: s) = some (r.weaken (Nat.le_succ _)) := by
      simp only [loopHead?, declHead?_cons hk, hr]
      rfl
    exact ⟨Nat.lt_succ_of_lt hlt, hcons _ _ ht⟩
  | none =>
    unfold loopHead? at h
    rw [hd] at h
    obtain ⟨words, hw, hne, hall⟩ := eachHead?_before h
    refine ⟨words, hw, fun t => ?_⟩
    obtain ⟨hlt, ht⟩ := hall t
    rw [hw] at hd
    refine ⟨hlt, ?_⟩
    have hne : words.map (fun p => Item.word p.1 p.2) ≠ [] :=
      fun he => hne (List.map_eq_nil_iff.mp he)
    rw [loopHead?, declHead?_congr (Items.found_append hne _ _) hd, ht]

/-- A rule gives one value and leaves one rest. -/
theorem Derives.unique (h : Derives c r s v rest) (h' : Derives c r s v' rest') :
    v = v' ∧ rest = rest' := by
  have ha := accepts_of_derives h
  have ha' := accepts_of_derives h'
  cases r with
  | binaryFrom level left =>
    obtain ⟨_, ha⟩ := ha _ (Nat.lt_succ_self _)
    obtain ⟨_, ha'⟩ := ha' _ (Nat.lt_succ_self _)
    cases ha.symm.trans ha'
    exact ⟨rfl, rfl⟩
  | chainFrom target =>
    obtain ⟨_, ha⟩ := ha _ (Nat.lt_succ_self _)
    obtain ⟨_, ha'⟩ := ha' _ (Nat.lt_succ_self _)
    cases ha.symm.trans ha'
    exact ⟨rfl, rfl⟩
  | _ =>
    obtain ⟨_, ha⟩ := ha
    obtain ⟨_, ha'⟩ := ha'
    cases ha.symm.trans ha'
    exact ⟨rfl, rfl⟩

/-- A variable in front of an item that is no mark is an expression. -/
theorem Derives.alone (hn : isReserved name = false) (hi : ∀ p, item.found ≠ .lexeme (.mark p)) :
    Derives c .conditional (.word name line :: item :: s) (.ident name) (item :: s) := by
  have ho := opensOperand_of_not_reserved hn
  have ha (p : Punct) : Items.after? p (item :: s) = none := Items.after?_eq_none_iff.mpr (hi p)
  have hchain : Derives c .chain (.word name line :: item :: s) (.ident name) (item :: s) :=
    .chain (.ident (atom_of_not_reserved hn)) (.chainEnd (ha _) (ha _) (ha _))
  have hunary : Derives c .unary (.word name line :: item :: s) (.ident name) (item :: s) :=
    .noUnary (unaryHead?_of_opensOperand ho) (stepHead?_of_opensOperand ho)
      (.noStep hchain fun _ _ => stepHead?_eq_none_iff.mpr fun _ => hi _)
  refine .noChoice (.binary hunary (.noOperator fun r hr => ?_)) (ha _)
  exact absurd (found_of_operatorHead? hr) (hi _)

/-- Where the rule is that of a start of a loop, the items are not the head of one over elements. -/
abbrev Rule.Counts : Rule α → List Item → Prop
  | loopStart _, s => loopHead? s = none
  | _, _ => True

theorem eq_none_of_eachHead?
    (h : ∀ name line w line' rest, s = .word name line :: .word w line' :: rest →
      isReserved name = false → False) : eachHead? s = none := by
  cases he : eachHead? s with
  | none => rfl
  | some r =>
    obtain ⟨line, w, line', hs, hn⟩ := eq_of_eachHead? he
    exact (h _ line w line' _ hs hn).elim

theorem Derives.counts (h : Derives c r s v rest) : r.Counts s := by
  induction h with
  | noStart => rfl
  | @declareStart w kind c s decls l₂ s₁ line l₁ hk hd =>
    have he : eachHead? s = none := by
      apply eq_none_of_eachHead?
      rintro name line w line' rest rfl hn
      have hn' : Derives c .declarations (.word name line :: .word w line' :: rest) [(name, none)]
          (.word w line' :: rest) := .lastDeclared hn (.noInitial rfl) rfl
      obtain ⟨-, hr⟩ := hd.unique hn'
      cases hr
    change loopHead? (.word w l₁ :: s) = none
    simp only [loopHead?, declHead?_cons hk, he]
    rfl
  | @expressionStart s c e l s₁ line ha hd he =>
    have he : eachHead? s = none := by
      apply eq_none_of_eachHead?
      rintro name line w line' rest rfl hn
      have hn' : Derives c .assignment (.word name line :: .word w line' :: rest) (.ident name)
          (.word w line' :: rest) := .unassigned rfl (.alone hn nofun)
      obtain ⟨-, hr⟩ := he.unique hn'
      cases hr
    change loopHead? s = none
    unfold loopHead?
    rw [hd]
    exact he
  | _ => trivial

/-- A statement is a text where the items begin with one, and only there. -/
abbrev Rule.Texts : Rule α → α → List Item → List Item → Prop
  | statement, stmt, s, rest =>
    (∃ t line, s = .text t line :: rest ∧ stmt = .text t) ∨
      Items.found s ≠ .text ∧ ∀ t, stmt ≠ .text t
  | expressionStatement _, stmt, _, _ => ∀ t, stmt ≠ .text t
  | afterKeyword _ _ _, stmt, _, _ => ∀ t, stmt ≠ .text t
  | _, _, _, _ => True

theorem Derives.texts (h : Derives c r s v rest) : r.Texts v s rest := by
  induction h with
  | text => exact .inl ⟨_, _, rfl, rfl⟩
  | output => exact .inr ⟨nofun, nofun⟩
  | braces => exact .inr ⟨nofun, nofun⟩
  | empty => exact .inr ⟨nofun, nofun⟩
  | keyword _ _ ih => exact .inr ⟨nofun, ih⟩
  | expression _ _ ih => exact .inr ⟨nofun, ih⟩
  | expressionStatement => exact nofun
  | branch => exact nofun
  | forOf => exact nofun
  | forIn => exact nofun
  | loop => exact nofun
  | whileDo => exact nofun
  | declare => exact nofun
  | breakLoop => exact nofun
  | continueLoop => exact nofun
  | giveBack => exact nofun
  | _ => trivial

end Stencil.Script

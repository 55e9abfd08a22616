import Stencil.Proofs.Script.Adjacent
import Stencil.Proofs.Script.Located
import Stencil.Proofs.Script.Nesting

/-!
Templates that are read again with other texts and without some of them. The main statement is
`DerivesAll.reread`: what is left of the statements of the one template is left of those of the other,
if the texts that go matter to none. Where they stand shows that they do not (`Items.thinnable`); in
the code of a tag there are none (`thin_of_parseExpression`).
-/

namespace Stencil.Script

set_option autoImplicit true

/-- The statements of a template when texts change and go that matter to none of them. -/
theorem DerivesAll.reread (h : DerivesAll last s program) (hw : Items.ThinnableFrom g whole s)
    (hp : Items.Starts whole s) (hs : Thins g g' s s') (last' : Nat) :
    ∃ program', DerivesAll last' s' program' ∧
      Stmt.thinAll g program = Stmt.thinAll g' program' := by
  induction h generalizing s' with
  | nil =>
    obtain rfl := hs.nil
    exact ⟨[], .nil, rfl⟩
  | @cons s stmt s₁ more ha hf hm ih =>
    obtain ⟨u, rfl, hne⟩ := hf.ends
    obtain ⟨u', s₁', rfl, hu, hs₁⟩ := hs.split
    obtain ⟨more', hdm, hem⟩ := ih (hw.of_taken rfl) (.next hp hf) hs₁
    cases hg : stmt.gone g with
    | true =>
      obtain rfl := hu.nil_of_gone_statement hf rfl hg
      exact ⟨more', hdm, (Stmt.thinAll_of_gone hg more).trans hem⟩
    | false =>
      have hq : Quiet (stmt.GoesOn u) s₁ s₁' := by
        by_cases hgone : Items.thin g s₁ = []
        · obtain rfl := hs₁.nil_of_gone hgone
          exact .inr ⟨trivial, nofun⟩
        · have hq : Quiet (stmt.GoesOn u) s₁ (s₁' ++ []) := by
            refine hs₁.quiet_gap hw.toThinnable hp hf rfl (List.append_nil s₁).symm hgone ?_
            rw [List.append_nil]
            exact hdm.opens
          rwa [List.append_nil] at hq
      have hc : Context.Permits ⟨last, false, false⟩ ⟨last', false, false⟩ := ⟨nofun, nofun⟩
      obtain ⟨stmt', hd, he⟩ := hf.reread rfl hc hw ⟨hp, hg⟩ hu hq
      refine ⟨stmt' :: more', .cons ?_ hd hdm, ?_⟩
      · exact Items.after?_congr (hu.found_append hne (hf.fronts g hg) s₁') ha
      · rw [Stmt.thinAll_of_left hg, Stmt.thinAll_of_left (stmt'.gone_of_total hu.total)]
        exact congrArg₂ List.cons he hem

/-- The statement is read right behind a closing parenthesis or an `else`. -/
def Stmt.Follows (stmt : Stmt) (s : List Item) : Prop :=
  ∃ c item w rest, item :: w <:+ s ∧
    (item.found = .lexeme (.mark .closeParen) ∨ item.found = .lexeme (.word "else")) ∧
    Derives c .statement w stmt rest

theorem Stmt.Follows.mono {stmt : Stmt} (h : stmt.Follows s) (hs : s <:+ t) : stmt.Follows t := by
  obtain ⟨c, item, w, rest, hw, hi, hd⟩ := h
  exact ⟨c, item, w, rest, hw.trans hs, hi, hd⟩

theorem Derives.follows (h : Derives c .statement s₁ stmt rest) (hu : EndsWith .closeParen u)
    (hs : s = u ++ s₁) : stmt.Follows s := by
  obtain ⟨n, hn⟩ := hu.suffix hs
  exact ⟨c, _, s₁, rest, hn, .inl rfl, h⟩

/-- What a statement governs stands behind its head or an `else`. -/
abbrev Rule.Governs : Rule α → α → List Item → Prop
  | statement, stmt, s => ∀ body ∈ stmt.bodies, body.Follows s
  | expressionStatement _, stmt, _ => stmt.bodies = []
  | afterKeyword _ _ _, stmt, s => ∀ body ∈ stmt.bodies, body.Follows s
  | alternative, no, s => ∀ stmt ∈ no, stmt.Follows s
  | _, _, _ => True

theorem Derives.governs (h : Derives c r s v rest) : r.Governs v s := by
  induction h with
  | text => exact nofun
  | output => exact nofun
  | braces => exact nofun
  | empty => exact nofun
  | keyword _ _ ih => exact fun body hb => (ih body hb).mono (List.suffix_cons _ _)
  | @expression l c line s stmt _ _ _ ih =>
    have hn : stmt.bodies = [] := ih
    intro body hb
    rw [hn] at hb
    cases hb
  | expressionStatement => rfl
  | branch ht hy _ _ _ ihn =>
    obtain ⟨u, rfl, hu⟩ := ht.ends
    intro body hb
    rcases List.mem_cons.mp hb with rfl | hb
    · exact hy.follows hu rfl
    · have hs := hy.rest_suffix.trans (List.suffix_append u _)
      exact (ihn body (Option.mem_toList.mp hb)).mono hs
  | forOf hl _ hi hb =>
    intro body hm
    obtain rfl := List.mem_singleton.mp hm
    have hs := hi.rest_suffix.trans (suffix_of_loopHead? hl)
    exact ⟨_, _, _, _, hs.trans (List.suffix_cons _ _), .inl rfl, hb⟩
  | forIn hl _ hi hb =>
    intro body hm
    obtain rfl := List.mem_singleton.mp hm
    have hs := hi.rest_suffix.trans (suffix_of_loopHead? hl)
    exact ⟨_, _, _, _, hs.trans (List.suffix_cons _ _), .inl rfl, hb⟩
  | loop _ hf ht hu hb =>
    intro body hm
    obtain rfl := List.mem_singleton.mp hm
    obtain ⟨u, he, hu'⟩ := hu.ends
    have hs := ht.rest_suffix.trans hf.rest_suffix
    exact (hb.follows hu' he).mono (hs.trans (List.suffix_cons _ _))
  | whileDo ht hb =>
    intro body hm
    obtain rfl := List.mem_singleton.mp hm
    obtain ⟨u, rfl, hu⟩ := ht.ends
    exact hb.follows hu rfl
  | declare => exact nofun
  | breakLoop => exact nofun
  | continueLoop => exact nofun
  | giveBack => exact nofun
  | otherwise hb =>
    intro body hm
    obtain rfl := Option.some.inj hm
    exact ⟨_, _, _, _, List.suffix_refl _, .inr rfl, hb⟩
  | noAlternative => exact nofun
  | _ => trivial

theorem Items.Starts.suffix (h : Items.Starts whole s) : s <:+ whole := by
  induction h with
  | front => exact List.suffix_refl whole
  | brace h => exact suffix_tail h
  | head h => exact suffix_tail h
  | otherwise h => exact suffix_tail h
  | next _ hd ih => exact hd.rest_suffix.trans ih

/-- Texts may go that stand neither right behind a closing parenthesis or an `else` nor right in front
of a lexeme other than a closing brace. -/
theorem Items.thinnable {whole : List Item}
    (hbody : ∀ {item t n s}, item :: .text t n :: s <:+ whole → g t = none →
      item.found ≠ .lexeme (.mark .closeParen) ∧ item.found ≠ .lexeme (.word "else"))
    (hnext : ∀ {t n l m s}, .text t n :: .lexeme l m :: s <:+ whole → g t = none →
      l = .mark .closeBrace) : Items.Thinnable g whole where
  bodies {s c stmt rest} hs hd body hb := by
    obtain ⟨c, item, w, rest, hw, hitem, hd⟩ := hd.governs body hb
    cases hg : body.gone g with
    | false => rfl
    | true =>
      obtain ⟨t, rfl, ht⟩ := Stmt.eq_of_gone hg
      obtain ⟨_, n, rfl, he⟩ | ⟨-, hn⟩ := hd.texts
      · cases he
        obtain ⟨h₁, h₂⟩ := hbody (hw.trans hs.suffix) ht
        exact (hitem.elim h₁ h₂).elim
      · exact absurd rfl (hn t)
  apart {u gap rest c stmt l n} hs hne hgap _ := by
    obtain ⟨gap, item, rfl⟩ := (List.eq_nil_or_concat' gap).resolve_left hne
    have hi : item.thin g = none := List.filterMap_eq_nil_iff.mp hgap item List.mem_concat_self
    obtain ⟨t, m, rfl, ht⟩ := Item.eq_of_thin_none hi
    have hsuffix : .text t m :: .lexeme l n :: rest <:+ whole := by
      refine .trans ⟨u ++ gap, ?_⟩ hs.suffix
      simp only [List.append_assoc, List.cons_append, List.nil_append]
    rw [hnext hsuffix ht]
    exact Stmt.not_goesOn_closeBrace

theorem Items.thin_lexemes (g : String → Option String) (ls : List Lexeme) (line : Nat) :
    Items.thin g (ls.map fun l => .lexeme l line) = ls.map fun l => .lexeme l line := by
  induction ls with
  | nil => rfl
  | cons l ls ih => exact congrArg (Item.lexeme l line :: ·) ih

theorem thin_of_parseExpression (h : parseExpression code line = .ok e)
    (g : String → Option String) : e.thin g = e := by
  rcases derives_of_parseExpression h with ⟨-, rfl⟩ | ⟨items, hi, hd⟩
  · rfl
  · obtain ⟨ls, rfl⟩ := eq_of_lexemes hi
    have htext (t : String) (n : Nat) : .text t n ∉ ls.map fun l => Item.lexeme l line := by
      intro hm
      obtain ⟨l, -, hl⟩ := List.mem_map.mp hm
      cases hl
    have hw : Items.Thinnable g (ls.map fun l => .lexeme l line) :=
      Items.thinnable
        (fun hs _ => absurd (hs.subset (List.mem_cons_of_mem _ List.mem_cons_self)) (htext _ _))
        (fun hs _ => absurd (hs.subset List.mem_cons_self) (htext _ _))
    have hsame : Thins g some (ls.map fun l => .lexeme l line) (ls.map fun l => .lexeme l line) :=
      ⟨total_some, (Items.thin_lexemes g ls line).trans (Items.thin_some _).symm⟩
    obtain ⟨e', hd', he⟩ := hd.reread (List.append_nil _).symm ⟨id, id⟩
      ⟨hw, List.suffix_refl _⟩ trivial hsame (.same rfl)
    rw [List.append_nil] at hd'
    obtain ⟨rfl, -⟩ := hd.unique hd'
    exact he.trans e.thin_some

end Stencil.Script

import Stencil.Proofs.Script.Soundness

/-!
The readers accept what the grammar derives: by induction on the derivation, with a step of the
reader for each production.
-/

namespace Stencil.Script

open Stencil.Text (Read)

set_option autoImplicit true

/-- The reader of the rule accepts the items, up to a rest; with a left operand or a target, under
any bound. -/
abbrev Rule.Accepts (c : Context) (s rest : List Item) : (r : Rule α) → α → Prop
  | binaryFrom level left, v =>
    ∀ n hs, ∃ h, Script.binaryFrom (n := n) c level ⟨left, s, hs⟩ = .ok ⟨v, rest, h⟩
  | chainFrom target, v =>
    ∀ n hs, ∃ h, Script.chainFrom (n := n) c ⟨target, s, hs⟩ = .ok ⟨v, rest, h⟩
  | r, v => r.Reads c s rest v

/-- A loop over the elements or the keys of a value. -/
theorem keywordStatement_each {r : Read Item (String × Bool) s.length} (hl : loopHead? s = some r)
    {h₁ : (Item.mark .closeParen l₂ :: s₁).length < r.rest.length}
    (ht : assignment c r.rest = .ok ⟨target, .mark .closeParen l₂ :: s₁, h₁⟩)
    (hb : statement c.looping s₁ = .ok ⟨body, s₂, h₂⟩) :
    ∃ h, keywordStatement c w .loop line (.mark .openParen l₁ :: s) =
      .ok ⟨if r.value.2 then .forOf r.value.1 target body line
        else .forIn r.value.1 target body line, s₂, h⟩ := by
  obtain ⟨⟨name, elements⟩, s₀, hlt⟩ := r
  exact ⟨_, by
    simp only [keywordStatement, Items.mark_cons, hl, ht, hb, bind, Except.bind]
    rfl⟩

theorem accepts_of_derives (h : Derives c r s v rest) : r.Accepts c s rest v := by
  induction h with
  | text => exact ⟨_, by rw [statement]⟩
  | output => exact ⟨_, by rw [statement]⟩
  | braces _ ih =>
    obtain ⟨h₁, hb⟩ := ih
    exact ⟨_, by rw [statement, hb]; rfl⟩
  | empty => exact ⟨_, by rw [statement]⟩
  | keyword hk _ ih =>
    obtain ⟨h₁, hs⟩ := ih
    exact ⟨_, by rw [statement_of_keyword hk, hs]; rfl⟩
  | expression hl _ ih =>
    obtain ⟨h₁, hs⟩ := ih
    exact ⟨_, by rw [statement_of_beginsExpression hl, hs]⟩
  | expressionStatement _ ih =>
    obtain ⟨h₁, he⟩ := ih
    exact ⟨_, by rw [expressionStatement, he]; rfl⟩
  | branch _ _ _ iht ihy ihn =>
    obtain ⟨h₁, ht⟩ := iht
    obtain ⟨h₂, hy⟩ := ihy
    obtain ⟨h₃, hn⟩ := ihn
    exact ⟨_, by simp only [keywordStatement, ht, hy, hn, bind, Except.bind]; rfl⟩
  | forOf hl hr _ _ ihi ihb =>
    obtain ⟨_, hi⟩ := ihi
    obtain ⟨_, hb⟩ := ihb
    obtain ⟨h, he⟩ := keywordStatement_each hl hi hb
    rw [hr] at he
    exact ⟨h, he⟩
  | forIn hl hr _ _ iht ihb =>
    obtain ⟨_, ht⟩ := iht
    obtain ⟨_, hb⟩ := ihb
    obtain ⟨h, he⟩ := keywordStatement_each hl ht hb
    rw [hr] at he
    exact ⟨h, he⟩
  | loop hl _ _ _ _ ihf iht ihu ihb =>
    obtain ⟨_, hf⟩ := ihf
    obtain ⟨_, ht⟩ := iht
    obtain ⟨_, hu⟩ := ihu
    obtain ⟨_, hb⟩ := ihb
    exact ⟨_, by
      simp only [keywordStatement, Items.mark_cons, hl, hf, ht, hu, hb, bind, Except.bind]
      rfl⟩
  | whileDo _ _ iht ihb =>
    obtain ⟨_, ht⟩ := iht
    obtain ⟨_, hb⟩ := ihb
    exact ⟨_, by
      simp only [keywordStatement, ht, hb, bind, Except.bind]
      rfl⟩
  | declare _ ih =>
    obtain ⟨_, hd⟩ := ih
    exact ⟨_, by
      rw [keywordStatement, hd]
      rfl⟩
  | breakLoop hc =>
    exact ⟨_, by
      rw [keywordStatement, if_pos hc]
      rfl⟩
  | continueLoop hc =>
    exact ⟨_, by
      rw [keywordStatement, if_pos hc]
      rfl⟩
  | giveBack hc _ ih =>
    obtain ⟨_, hv⟩ := ih
    exact ⟨_, by
      rw [keywordStatement, if_pos hc, hv]
      rfl⟩
  | condition _ ih =>
    obtain ⟨_, he⟩ := ih
    exact ⟨_, by
      simp only [condition, Items.mark_cons, he, bind, Except.bind]
      rfl⟩
  | otherwise _ ih =>
    obtain ⟨_, hs⟩ := ih
    exact ⟨_, by
      rw [alternative, elseHead?_cons]
      simp only [hs, bind, Except.bind]
      rfl⟩
  | noAlternative he => exact ⟨_, by rw [alternative, he]⟩
  | returned hr _ ih =>
    obtain ⟨_, he⟩ := ih
    exact ⟨_, by
      rw [returned, hr]
      simp only [he, bind, Except.bind]
      rfl⟩
  | nothingReturned hr => exact ⟨_, by rw [returned, if_pos hr]⟩
  | blockEnd =>
    exact ⟨_, by
      rw [block, Items.after?_mark]
      rfl⟩
  | blockMore ha _ _ ihf ihm =>
    obtain ⟨h₁, hf⟩ := ihf
    obtain ⟨_, hm⟩ := ihm
    obtain ⟨item, s', _, rfl⟩ := cons_of_lt h₁
    exact ⟨_, by
      rw [block, ha]
      simp only [List.isEmpty_cons, hf, hm, bind, Except.bind]
      rfl⟩
  | noStart =>
    exact ⟨_, by
      rw [loopStart, Items.after?_mark]
      rfl⟩
  | declareStart hk _ ih =>
    obtain ⟨_, hd⟩ := ih
    exact ⟨_, by
      rw [loopStart, Items.after?_word, declHead?_cons hk]
      simp only [hd, Items.mark_cons, bind, Except.bind]
      rfl⟩
  | expressionStart ha hd _ ih =>
    obtain ⟨_, he⟩ := ih
    exact ⟨_, by
      rw [loopStart, ha, hd]
      simp only [he, Items.mark_cons, bind, Except.bind]
      rfl⟩
  | omitted =>
    exact ⟨_, by
      rw [Script.optional, Items.after?_mark]
      rfl⟩
  | given ha _ ih =>
    obtain ⟨_, he⟩ := ih
    exact ⟨_, by
      rw [Script.optional, ha]
      simp only [he, Items.mark_cons, bind, Except.bind]
      rfl⟩
  | lastDeclared hn _ ha ih =>
    obtain ⟨_, hv⟩ := ih
    exact ⟨_, by
      rw [declarations, Items.name_cons hn]
      simp only [hv, ha, bind, Except.bind]
      rfl⟩
  | declared hn _ _ ihv ihm =>
    obtain ⟨_, hv⟩ := ihv
    obtain ⟨_, hm⟩ := ihm
    exact ⟨_, by
      rw [declarations, Items.name_cons hn]
      simp only [hv, Items.after?_mark, hm, bind, Except.bind]
      rfl⟩
  | initial _ ih =>
    obtain ⟨_, he⟩ := ih
    exact ⟨_, by
      rw [initial, Items.after?_mark]
      simp only [he, bind, Except.bind]
      rfl⟩
  | noInitial ha => exact ⟨_, by rw [initial, ha]⟩
  | assign hn hp _ ih =>
    obtain ⟨_, he⟩ := ih
    exact ⟨_, by
      rw [assignment, assignHead?_cons hn hp]
      simp only [he, bind, Except.bind]
      rfl⟩
  | unassigned ha _ ih =>
    obtain ⟨_, he⟩ := ih
    exact ⟨_, by rw [assignment, ha, he]⟩
  | choice _ _ _ iht ihy ihn =>
    obtain ⟨_, ht⟩ := iht
    obtain ⟨_, hy⟩ := ihy
    obtain ⟨_, hn⟩ := ihn
    exact ⟨_, by
      rw [conditional, ht]
      simp only [Items.after?_mark, hy, Items.mark_cons, hn, bind, Except.bind]
      rfl⟩
  | noChoice _ ha ih =>
    obtain ⟨_, he⟩ := ih
    exact ⟨_, by
      rw [conditional, he]
      simp only [ha, bind, Except.bind]
      rfl⟩
  | binary _ _ ihl ihe =>
    obtain ⟨hlt, hl⟩ := ihl
    obtain ⟨_, he⟩ := ihe _ hlt
    exact ⟨_, by
      rw [binary, hl]
      exact he⟩
  | operator hl _ _ ihr ihe =>
    obtain ⟨hlt, hr⟩ := ihr
    intro n hs
    obtain ⟨h, he⟩ := ihe n (by simp only [List.length_cons] at hs; omega)
    exact ⟨h, by
      rw [binaryFrom, operatorHead?_cons]
      simp only [if_neg hl, hr, bind, Except.bind]
      exact he⟩
  | noOperator ho =>
    intro n hs
    refine ⟨hs, ?_⟩
    rw [binaryFrom]
    split
    · rename_i op s₁ h₁ hh
      rw [if_pos (ho _ hh)]
    · rfl
  | unary _ ih =>
    obtain ⟨_, he⟩ := ih
    exact ⟨_, by
      rw [unary, unaryHead?_cons]
      simp only [he, bind, Except.bind]
      rfl⟩
  | stepBefore hn =>
    exact ⟨_, by
      rw [unary, unaryHead?_stepMark, stepHead?_cons]
      simp only [Items.name_cons hn, bind, Except.bind]
      rfl⟩
  | noUnary hu hst _ ih =>
    obtain ⟨_, he⟩ := ih
    exact ⟨_, by rw [unary, hu, hst, he]⟩
  | stepAfter _ ih =>
    obtain ⟨_, he⟩ := ih
    exact ⟨_, by
      rw [suffixed, he]
      simp only [stepHead?_cons, bind, Except.bind]
      rfl⟩
  | noStep _ hn ih =>
    obtain ⟨h, he⟩ := ih
    refine ⟨h, ?_⟩
    rw [suffixed, he]
    simp only [bind, Except.bind]
    split
    · rename_i hh _
      rw [hn _ rfl] at hh
      cases hh
    · rfl
  | chain _ _ iht ihe =>
    obtain ⟨hlt, ht⟩ := iht
    obtain ⟨_, he⟩ := ihe _ hlt
    exact ⟨_, by
      rw [chain, ht]
      exact he⟩
  | callProperty _ _ iha ihe =>
    obtain ⟨hlt, ha⟩ := iha
    intro n hs
    obtain ⟨h, he⟩ := ihe n (by simp only [List.length_cons] at hs; omega)
    exact ⟨h, by
      rw [chainFrom]
      simp only [Items.after?_mark, Items.propertyName, ha, bind, Except.bind]
      exact he⟩
  | property ha _ ih =>
    intro n hs
    obtain ⟨h, he⟩ := ih n (by simp only [List.length_cons] at hs; omega)
    exact ⟨h, by
      rw [chainFrom]
      simp only [Items.after?_mark, Items.propertyName, ha, bind, Except.bind]
      exact he⟩
  | index _ _ ihk ihe =>
    obtain ⟨hlt, hk⟩ := ihk
    intro n hs
    obtain ⟨h, he⟩ := ihe n (by simp only [List.length_cons] at hs hlt; omega)
    exact ⟨h, by
      rw [chainFrom]
      simp only [Items.after?_mark_of_ne (show Punct.openBracket ≠ .dot by decide),
        Items.after?_mark, hk, Items.mark_cons, bind, Except.bind]
      exact he⟩
  | call _ _ iha ihe =>
    obtain ⟨hlt, ha⟩ := iha
    intro n hs
    obtain ⟨h, he⟩ := ihe n (by simp only [List.length_cons] at hs; omega)
    exact ⟨h, by
      rw [chainFrom]
      simp only [Items.after?_mark_of_ne (show Punct.openParen ≠ .dot by decide),
        Items.after?_mark_of_ne (show Punct.openParen ≠ .openBracket by decide),
        Items.after?_mark, ha, bind, Except.bind]
      exact he⟩
  | chainEnd hd hb hp =>
    intro n hs
    exact ⟨hs, by
      rw [chainFrom]
      simp only [hd, hb, hp]⟩
  | noExpressions =>
    exact ⟨_, by
      rw [expressions, Items.after?_mark]
      rfl⟩
  | lastExpression hc ha _ ih =>
    obtain ⟨_, he⟩ := ih
    exact ⟨_, by
      rw [expressions, ha]
      simp only [he, Items.after?_mark_of_ne hc, Items.mark_cons, bind, Except.bind]
      rfl⟩
  | expressions ha _ _ ihe ihm =>
    obtain ⟨_, he⟩ := ihe
    obtain ⟨_, hm⟩ := ihm
    exact ⟨_, by
      rw [expressions, ha]
      simp only [he, Items.after?_mark, hm, bind, Except.bind]
      rfl⟩
  | noFields =>
    exact ⟨_, by
      rw [objectFields, Items.after?_mark]
      rfl⟩
  | lastField hk _ ih =>
    obtain ⟨_, hv⟩ := ih
    exact ⟨_, by
      rw [objectFields, Items.after?_key hk, Items.fieldName_cons hk]
      simp only [hv, Items.mark_cons, bind, Except.bind]
      rfl⟩
  | fields hk _ _ ihe ihm =>
    obtain ⟨_, he⟩ := ihe
    obtain ⟨_, hm⟩ := ihm
    exact ⟨_, by
      rw [objectFields, Items.after?_key hk, Items.fieldName_cons hk]
      simp only [he, Items.after?_mark, hm, bind, Except.bind]
      rfl⟩
  | fieldValue _ ih =>
    obtain ⟨_, he⟩ := ih
    exact ⟨_, by
      rw [fieldValue, Items.after?_mark]
      simp only [he, bind, Except.bind]
      rfl⟩
  | shorthand ha => exact ⟨_, by rw [fieldValue, ha]⟩
  | noParams =>
    exact ⟨_, by
      rw [Items.params, Items.after?_mark]
      rfl⟩
  | lastParam hn =>
    exact ⟨_, by
      rw [Items.params, Items.after?_word, Items.name_cons hn]
      simp only [Items.after?_mark_of_ne (show Punct.closeParen ≠ .comma by decide),
        Items.mark_cons, bind, Except.bind]
      rfl⟩
  | params hn _ ih =>
    obtain ⟨_, hp⟩ := ih
    exact ⟨_, by
      rw [Items.params, Items.after?_word, Items.name_cons hn]
      simp only [Items.after?_mark, hp, bind, Except.bind]
      rfl⟩
  | functionBody _ _ ihp ihb =>
    obtain ⟨_, hp⟩ := ihp
    obtain ⟨_, hb⟩ := ihb
    exact ⟨_, by
      simp only [functionBody, functionName, Items.mark_cons, hp, hb, bind, Except.bind]
      rfl⟩
  | namedFunction hn _ _ ihp ihb =>
    obtain ⟨_, hp⟩ := ihp
    obtain ⟨_, hb⟩ := ihb
    exact ⟨_, by
      simp only [functionBody, functionName, Items.name_cons hn, Except.map, Read.map, Read.weaken,
        Items.mark_cons, hp, hb, bind, Except.bind]
      rfl⟩
  | number => exact ⟨_, by rw [primary]⟩
  | string => exact ⟨_, by rw [primary]⟩
  | constant hw => exact ⟨_, by rw [primary, hw]⟩
  | self hw => exact ⟨_, by rw [primary, hw]⟩
  | ident hw => exact ⟨_, by rw [primary, hw]⟩
  | function hw _ ih =>
    obtain ⟨_, hf⟩ := ih
    exact ⟨_, by
      rw [primary, hw]
      simp only [hf, bind, Except.bind]
      rfl⟩
  | parens _ ih =>
    obtain ⟨_, he⟩ := ih
    exact ⟨_, by
      rw [primary]
      simp only [he, Items.mark_cons, bind, Except.bind]
      rfl⟩
  | array _ ih =>
    obtain ⟨_, hx⟩ := ih
    exact ⟨_, by
      rw [primary, hx]
      rfl⟩
  | object _ ih =>
    obtain ⟨_, hf⟩ := ih
    exact ⟨_, by
      rw [primary, hf]
      rfl⟩

theorem statements_of_derivesAll (h : DerivesAll last s program) :
    statements last s = .ok program := by
  induction h with
  | nil =>
    rw [statements]
    rfl
  | cons hb hs _ ih =>
    obtain ⟨hlt, he⟩ := accepts_of_derives hs
    obtain ⟨item, t, _, rfl⟩ := cons_of_lt hlt
    rw [statements, hb]
    simp only [List.isEmpty_cons, he, ih, bind, Except.bind]
    rfl

end Stencil.Script

import Stencil.Proofs.Script.Cursor

/-!
A mover tracks a reader if it gives at a cursor what the reader gives for the items ahead: the same
fault, or the same value with the cursor just where the reader leaves off. The tests of the items ahead
find what the readers of a head find, and sequences of movers track sequences of readers.
-/

namespace Stencil.Script

open Stencil.Text (Read)

set_option autoImplicit true

namespace Answer

variable {x : Answer α} {k : α → Answer β}

theorem bind_of_ok (h : x = some (.ok v)) : x >>= k = k v := by
  rw [h]
  rfl

theorem bind_of_error (h : x = some (.error e)) : x >>= k = some (.error e) := by
  rw [h]
  rfl

end Answer

namespace Cursor

variable {p : Cursor}

theorem peek_eq (k : Nat) (p : Cursor) : p.peek k = p.rest[k]? := by
  rw [peek, rest, List.getElem?_drop]

theorem ended_eq (p : Cursor) : p.ended = p.rest.isEmpty := by
  rw [ended, peek_eq]
  cases p.rest <;> rfl

theorem look_eq (f : Lexeme → Option α) (p : Cursor) :
    p.look f = (Items.head? f p.rest).map Read.value := by
  rw [look, peek_eq]
  cases p.rest with
  | nil => rfl
  | cons item s =>
    cases item with
    | lexeme l line =>
      change f l = ((f l).map _).map Read.value
      cases f l <;> rfl
    | _ => rfl

theorem ahead_eq (m : Punct) (p : Cursor) : p.ahead m = (Items.after? m p.rest).isSome := by
  rw [ahead, look_eq, Items.after?_eq_head?]
  cases Items.head? (Lexeme.only? m) p.rest <;> rfl

/-- Where an item is ahead, there is a place behind it. -/
theorem of_rest_eq_cons (h : p.rest = item :: s) :
    p.pos + 1 ≤ p.items.length ∧ s = (p.advance 1).rest ∧ s.length < p.rest.length := by
  have hlt : p.pos < p.items.length := by
    rcases Nat.lt_or_ge p.pos p.items.length with hlt | hge
    · exact hlt
    · rw [rest, List.drop_eq_nil_of_le hge] at h
      cases h
  refine ⟨hlt, ?_, by rw [h]; exact Nat.lt_succ_self _⟩
  change s = p.items.drop (p.pos + 1)
  rw [← List.tail_drop, ← rest, h]
  rfl

theorem of_drop_eq_cons_cons (h : p.rest.drop k = a :: b :: s) :
    p.rest[k]? = some a ∧ p.rest[k + 1]? = some b ∧ p.pos + (k + 2) ≤ p.items.length ∧
      s = (p.advance (k + 2)).rest := by
  have h₀ : p.rest[k]? = some a := by
    rw [← List.head?_drop, h]
    rfl
  have h₁ : p.rest[k + 1]? = some b := by
    rw [← List.getElem?_drop, h]
    rfl
  rw [rest, List.drop_drop] at h
  obtain ⟨-, hb, -⟩ := of_rest_eq_cons (p := p.advance k) h
  obtain ⟨hl, hs, -⟩ := of_rest_eq_cons (p := p.advance (k + 1)) hb.symm
  exact ⟨h₀, h₁, hl, hs⟩

theorem drop_eq_cons_cons (ha : p.rest[k]? = some a) (hb : p.rest[k + 1]? = some b) :
    ∃ s, p.rest.drop k = a :: b :: s := by
  obtain ⟨hk, rfl⟩ := List.getElem?_eq_some_iff.mp ha
  obtain ⟨hk', rfl⟩ := List.getElem?_eq_some_iff.mp hb
  exact ⟨_, by rw [List.drop_eq_getElem_cons hk, List.drop_eq_getElem_cons hk']⟩

/-- A test of the items ahead and the reader of the head both find nothing, or they find the same and
the cursor is where the reader leaves off. -/
inductive Finds (p : Cursor) (x : Option (α × Cursor)) (o : Option (Read Item α n)) : Prop
  | none (hx : x = .none) (ho : o = .none)
  | some (hi : p.pos ≤ i) (hl : i ≤ p.items.length) (hx : x = .some (v, p.moved i))
    (ho : o = .some ⟨v, (p.moved i).rest, h⟩)

theorem finds_accept (f : Lexeme → Option α) (p : Cursor) :
    Finds p (p.accept f) (Items.head? f p.rest) := by
  rw [accept, look_eq]
  cases ho : Items.head? f p.rest with
  | none => exact .none rfl rfl
  | some r =>
    obtain ⟨v, s, h⟩ := r
    obtain ⟨l, line, hs, -⟩ := Items.eq_of_head? ho
    obtain ⟨hlt, rfl, -⟩ := of_rest_eq_cons hs
    exact .some (Nat.le_succ _) hlt rfl rfl

theorem finds_eat (m : Punct) (p : Cursor) : Finds p (p.eat m) (Items.after? m p.rest) := by
  rw [Items.after?_eq_head?]
  exact finds_accept (Lexeme.only? m) p

theorem finds_acceptPair (k : Nat) (f : Lexeme → Lexeme → Option α) (p : Cursor) :
    Finds p (p.acceptPair k f) (Items.pair? f (p.rest.drop k)) := by
  rw [acceptPair, peek_eq, peek_eq]
  split
  · rename_i l _ l' _ hl hl'
    obtain ⟨s, hs⟩ := drop_eq_cons_cons hl hl'
    rw [hs]
    obtain ⟨-, -, hb, rfl⟩ := of_drop_eq_cons_cons hs
    unfold Items.pair?
    dsimp only
    cases f l l' with
    | none => exact .none rfl rfl
    | some v => exact .some (Nat.le_add_right _ _) hb rfl rfl
  · rename_i hno
    generalize hs : p.rest.drop k = s
    unfold Items.pair?
    split
    · obtain ⟨hl, hl', -, -⟩ := of_drop_eq_cons_cons hs
      exact absurd hl' (hno _ _ _ _ hl)
    · exact .none rfl rfl

theorem finds_assignHead (p : Cursor) : Finds p p.assignHead (assignHead? p.rest) := by
  rw [assignHead?_eq_pair?]
  exact finds_acceptPair 0 Lexeme.assign? p

theorem finds_loopHead (p : Cursor) : Finds p p.loopHead (loopHead? p.rest) := by
  unfold loopHead?
  rw [loopHead, look_eq, declHead?_eq_head?]
  cases ho : Items.head? Lexeme.declKind? p.rest with
  | none =>
    dsimp only
    rw [eachHead?_eq_pair?]
    exact finds_acceptPair 0 Lexeme.each? p
  | some r =>
    obtain ⟨kind, s, h⟩ := r
    obtain ⟨l, line, hs, -⟩ := Items.eq_of_head? ho
    have hf := finds_acceptPair 1 Lexeme.each? p
    rw [show p.rest.drop 1 = s by rw [hs]; rfl] at hf
    dsimp only
    rw [eachHead?_eq_pair?]
    cases hf with
    | none hx ho =>
      rw [ho]
      exact .none hx rfl
    | some hi hl hx ho =>
      rw [ho]
      exact .some hi hl hx rfl

/-- The answer of a mover is that of a reader of what is ahead: the same fault, or a value that is made
of the reader's, with the cursor at what the reader leaves and otherwise as it was. -/
inductive Tracks (p : Cursor) (f : α → β) : Answer (β × Cursor) → Parsed α n → Prop
  | ok (hi : p.pos ≤ i) (hl : i ≤ p.items.length) (hw : f v = w) :
    Tracks p f (some (.ok (w, p.moved i))) (.ok ⟨v, (p.moved i).rest, h⟩)
  | error : Tracks p f (some (.error e)) (.error e)

namespace Tracks

theorem here {f : α → β} (hp : p.pos ≤ p.items.length) (hw : f v = w) {h : p.rest.length < n} :
    Tracks p f (some (.ok (w, p))) (.ok ⟨v, p.rest, h⟩) :=
  .ok (Nat.le_refl _) hp hw

theorem back {f : α → β} {r : Parsed α n} (h : Tracks (p.moved i) f a r) (hi : p.pos ≤ i) :
    Tracks p f a r := by
  cases h with
  | ok hj hl hw => exact .ok (Nat.le_trans hi hj) hl hw
  | error => exact .error

theorem advance {f : α → β} {r : Parsed α n} (h : Tracks (p.advance 1) f a r) : Tracks p f a r :=
  h.back (Nat.le_succ _)

/-- The rest of a sequence starts at whatever place the first mover comes to. -/
theorem bind {x : Answer (α × Cursor)} {k : α × Cursor → Answer (β × Cursor)} {g : γ → β}
    {r : Parsed α n} {l : Read Item α n → Parsed γ m} (hx : Tracks p id x r)
    (hk : ∀ v i h, i ≤ p.items.length →
      Tracks (p.moved i) g (k (v, p.moved i)) (l ⟨v, (p.moved i).rest, h⟩)) :
    Tracks p g (x >>= k) (r >>= l) := by
  cases hx with
  | ok hi hl hw =>
    cases hw
    exact (hk _ _ _ hl).back hi
  | error => exact .error

/-- A reader that only changes the value of another. -/
theorem mapped {f : α → β} {g : γ → β} {u : α → γ} {r : Parsed α n}
    {l : Read Item α n → Parsed γ m} (h : Tracks p f a r)
    (hl : ∀ v s h, ∃ h', l ⟨v, s, h⟩ = .ok ⟨u v, s, h'⟩) (hg : ∀ v, g (u v) = f v) :
    Tracks p g a (r >>= l) := by
  cases h with
  | ok hi hb hw =>
    obtain ⟨h', he⟩ := hl _ _ _
    change Tracks p g _ (l _)
    rw [he]
    exact .ok hi hb ((hg _).trans hw)
  | error => exact .error

/-- A mover between two changes of the depths that undo each other. -/
theorem inside {x : Answer (α × Cursor)} {k : α × Cursor → Answer (α × Cursor)} {r : Parsed α n}
    (h : Tracks (p.inside a b) id x r)
    (hk : ∀ v i, k (v, (p.inside a b).moved i) = some (.ok (v, p.moved i))) :
    Tracks p id (x >>= k) r := by
  cases h with
  | ok hi hl hw =>
    rw [Answer.bind_of_ok rfl, hk]
    exact .ok hi hl hw
  | error => exact .error

theorem ends {f : α → β} {r : Parsed α n} (h : Tracks p f a r) : ∃ answer, a = some answer := by
  cases h <;> exact ⟨_, rfl⟩

end Tracks

theorem tracks_require (f : Lexeme → Option α) (wanted : Wanted) (p : Cursor) :
    Tracks p id (p.require f wanted) (Items.require p.last f wanted p.rest) := by
  unfold require Items.require
  cases finds_accept f p with
  | none hx ho =>
    rw [hx, ho]
    exact .error
  | some hi hl hx ho =>
    rw [hx, ho]
    exact .ok hi hl rfl

theorem tracks_expect (m : Punct) (p : Cursor) :
    Tracks p id (p.expect m) (Items.mark p.last m p.rest) := by
  rw [Items.mark_eq_require]
  exact tracks_require _ _ p

theorem tracks_name (p : Cursor) : Tracks p id p.name (Items.name p.last p.rest) := by
  rw [Items.name_eq_require]
  exact tracks_require _ _ p

theorem tracks_propertyName (p : Cursor) :
    Tracks p id p.propertyName (Items.propertyName p.last p.rest) := by
  rw [Items.propertyName_eq_require]
  exact tracks_require _ _ p

theorem tracks_fieldName (p : Cursor) :
    Tracks p id p.fieldName (Items.fieldName p.last p.rest) := by
  rw [Items.fieldName_eq_require]
  exact tracks_require _ _ p

theorem tracks_functionName (hp : p.pos ≤ p.items.length) :
    Tracks p id p.functionName (Script.functionName p.last p.rest) := by
  rw [functionName, look_eq]
  cases hw : Items.head? Lexeme.word? p.rest with
  | none =>
    rw [functionName_of_none hw]
    exact .here hp rfl
  | some r =>
    rw [functionName_of_some hw]
    exact (tracks_name p).bind fun _ _ _ hl => .here hl rfl

theorem tracks_unexpected (f : α → β) (p : Cursor) :
    Tracks (n := n) p f p.unexpected (Items.unexpected p.last p.rest) :=
  .error

/-- A mark that may be left out at the end. -/
theorem tracks_skip (m : Punct) (hp : p.pos ≤ p.items.length) (v : α)
    {h : (Items.skip m p.rest).rest.length < n} :
    Tracks p id (some (.ok (v, p.skip m))) (.ok ⟨v, (Items.skip m p.rest).rest, h⟩) := by
  revert h
  unfold skip Items.skip
  cases finds_eat m p with
  | none hx ho =>
    rw [hx, ho]
    intro h
    exact .here hp rfl
  | some hi hl hx ho =>
    rw [hx, ho]
    intro h
    exact .ok hi hl rfl

theorem tracks_within {d : Nat} {y : Answer (β × Cursor)} {f : α → β} {r : Parsed α n}
    (h : Tracks p f y r) :
    Tracks p f (if d = 0 then throw e else y) (if decide (0 < d) = true then r else .error e) := by
  split
  · rename_i hd
    rw [hd]
    exact .error
  · rename_i hd
    rw [if_pos (decide_eq_true (Nat.pos_of_ne_zero hd))]
    exact h

theorem tracks_params (names : List String) (p : Cursor) :
    Tracks p (names ++ ·) (p.params names) (Items.params p.last p.rest) := by
  rw [params, Items.params]
  cases finds_eat .closeParen p with
  | some hi hl hx ho =>
    rw [hx, ho]
    exact .ok hi hl (List.append_nil names)
  | none hx ho =>
    rw [hx, ho]
    refine (tracks_name p).bind fun first i h₁ hl => ?_
    dsimp only
    cases finds_eat .comma (p.moved i) with
    | @some j _ h₂ hi hl hx ho =>
      rw [hx, ho]
      refine Tracks.back ?_ hi
      exact (tracks_params (names ++ [first]) (p.moved j)).mapped (fun _ _ _ => ⟨_, rfl⟩)
        (List.append_cons names first)
    | none hx ho =>
      rw [hx, ho]
      exact (tracks_expect .closeParen _).bind fun _ _ _ hl => .here hl rfl
termination_by p.rest.length
decreasing_by exact Nat.lt_trans h₂ h₁

end Cursor

end Stencil.Script

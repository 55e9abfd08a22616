import Stencil.Proofs.Script.Recorded
import Stencil.Proofs.Script.Soundness

/-!
Names that are bound with `var` can be seen in the whole template: from then on they are found
wherever they are asked for. The main statement is `var_visible`. A loop over elements or keys is
apart: whatever word stands before its name, it binds the name for each of its rounds only
(`undefined_after_each`).
-/

namespace Stencil.Script

set_option autoImplicit true

/-- The record that a computation leaves, however it ends. -/
def Recorded.after (x : Recorded α) (r : Record) : Record :=
  match x r with
  | .ok _ r => r
  | .error _ r => r

/-- A computation without its record. -/
def Recorded.plain (x : Recorded α) : Exec α := fun s =>
  match x ⟨s, []⟩ with
  | .ok a r => .ok a r.state
  | .error h r => .error h r.state

/-- What happens to variables in a run, in the order of time. -/
def happenings (scope : Scope) (limit : Nat) (program : List Stmt) (s : State) : List Event :=
  ((runRecorded scope limit program).after ⟨s, []⟩).events.reverse

theorem Record.sound_start (s : State) : Record.Sound ⟨s, []⟩ := ⟨nofun, .nil⟩

namespace Records

variable {x : Recorded α} {y : Exec α}

theorem plain (hx : Records x y) : x.plain = y := by
  funext s
  have he := hx.ends (Record.sound_start s)
  unfold Recorded.plain
  generalize x ⟨s, []⟩ = result, y _ = result' at he
  cases he with
  | ok => rfl
  | error => rfl

theorem sound (hx : Records x y) (h : Record.Sound r) : (x.after r).Sound := by
  have he := hx.ends h
  unfold Recorded.after
  generalize x r = result, y _ = result' at he
  cases he with
  | ok h => exact h
  | error h => exact h

theorem of_eq_ok (hx : Records x y) (h : Record.Sound r) (hr : x r = .ok a r') :
    r'.Sound ∧ r.events <:+ r'.events := by
  have he := hx.ends h
  rw [hr] at he
  generalize y _ = result' at he
  cases he with
  | ok h hb => exact ⟨h, hb⟩

/-- Where a name is undefined, it has been asked for in vain at last. -/
theorem head_of_undefined (hx : Records x y) (h : Record.Sound r)
    (hr : y r.state = .error (.error (.undefined name)) t) :
    (x.after r).events.head? = some (.asked name false) := by
  have he := hx.ends h
  rw [hr] at he
  unfold Recorded.after
  generalize x r = result at he
  cases he with
  | error _ _ hu => exact hu name rfl

end Records

/-- A name that has not been found had not been bound with `var` before. -/
theorem Record.Sound.not_bound {r : Record} (h : r.Sound)
    (hn : r.events.head? = some (.asked name false)) : .bound name ∉ r.events := by
  obtain ⟨earlier, he⟩ := List.head?_eq_some_iff.mp hn
  have hh := h.heeded
  rw [he] at hh ⊢
  intro hb
  rcases List.mem_cons.mp hb with hb | hb
  · cases hb
  · exact nomatch (List.pairwise_cons.mp hh).1 _ hb rfl

theorem Record.Sound.found_of_bound {r : Record} {before between after : List Event} (h : r.Sound)
    (he : r.events.reverse = before ++ .bound name :: (between ++ .asked name found :: after)) :
    found = true := by
  have hh := h.heeded
  rw [← List.reverse_reverse r.events, he, List.pairwise_reverse] at hh
  have hb := (List.pairwise_append.mp hh).2.1
  exact (List.pairwise_cons.mp hb).1 _ (List.mem_append_right _ List.mem_cons_self) rfl

/-- A statement with `var` that comes to its end has bound all its names. -/
theorem bound_of_declareAll (hs : Record.Sound r)
    (hr : declareAllRecorded scope limit .var decls r = .ok u r') :
    ∀ name ∈ decls.map Prod.fst, .bound name ∈ r'.events := by
  induction decls generalizing r with
  | nil => exact nofun
  | cons decl rest ih =>
    obtain ⟨name, value⟩ := decl
    have hrest (v : Value) (r₁ : Record) (h₁ : r₁.Sound)
        (hr : (do
          Recorded.declare .var name v
          declareAllRecorded scope limit .var rest) r₁ = .ok u r') :
        ∀ other ∈ name :: rest.map Prod.fst, .bound other ∈ r'.events := by
      obtain ⟨_, r₂, hd, hr⟩ := exists_of_bind_eq_ok hr
      obtain ⟨h₂, -⟩ := (Records.declare .var name v).of_eq_ok h₁ hd
      obtain ⟨-, hgrown⟩ := (records_declareAll scope limit .var rest).of_eq_ok h₂ hr
      have hn : .bound name ∈ r₂.events := by
        cases hd
        exact List.mem_cons_self
      exact List.forall_mem_cons.mpr ⟨hgrown.subset hn, ih h₂ hr⟩
    cases value with
    | none =>
      rw [declareAllRecorded] at hr
      exact hrest .null r hs hr
    | some e =>
      rw [declareAllRecorded] at hr
      obtain ⟨v, r₁, hv, hr⟩ := exists_of_bind_eq_ok hr
      exact hrest v r₁ ((records_eval scope limit e).of_eq_ok hs hv).1 hr

theorem bound_of_declare (hs : Record.Sound r)
    (hr : execRecorded scope limit (.declare .var decls line) r = .ok flow r') :
    ∀ name ∈ decls.map Prod.fst, .bound name ∈ r'.events := by
  rw [execRecorded] at hr
  obtain ⟨_, r₁, h₁, hr⟩ := exists_of_bind_eq_ok hr
  obtain ⟨_, r₂, h₂, hr⟩ := exists_of_bind_eq_ok hr
  cases hr
  exact bound_of_declareAll ((Records.atLine line).of_eq_ok hs h₁).1 h₂

theorem keyword?_of_declKind? (h : declKind? w = some kind) :
    keyword? w = some (.declare kind) := by
  unfold declKind? at h
  split at h
  · rename_i hw
    cases h
    rw [hw]
    rfl
  · split at h
    · rename_i hw
      cases h
      rw [hw]
      rfl
    · split at h
      · rename_i hw
        cases h
        rw [hw]
        rfl
      · cases h

/-- A statement that begins with the word of a declaration is one. -/
theorem statement_of_declKind? (hk : declKind? w = some kind)
    (h : statement c (.word w line :: s) = .ok ⟨stmt, rest, hlt⟩) :
    ∃ decls, stmt = .declare kind decls line := by
  rw [statement_of_keyword (keyword?_of_declKind? hk), keywordStatement] at h
  obtain ⟨⟨stmt', s₁, h₁⟩, hd, h⟩ := bind_eq_ok h
  obtain ⟨⟨decls, s₂, h₂⟩, -, hd⟩ := bind_eq_ok hd
  cases hd
  cases h
  exact ⟨decls, rfl⟩

theorem loopStart_of_declKind? (hk : declKind? w = some kind)
    (h : loopStart c line (.word w l :: s) = .ok ⟨first, rest, hlt⟩) :
    ∃ decls, first = some (.declare kind decls line) := by
  have hd : declHead? (.word w l :: s) = some ⟨kind, s, Nat.lt_succ_self _⟩ := by
    rw [declHead?, hk]
    rfl
  rw [loopStart] at h
  split at h
  · rename_i ha
    cases ha
  · split at h
    · rename_i hd'
      rw [hd] at hd'
      cases hd'
      obtain ⟨⟨decls, s₂, h₂⟩, -, h⟩ := bind_eq_ok h
      dsimp only at h
      obtain ⟨⟨_, s₃, h₃⟩, -, h⟩ := bind_eq_ok h
      cases h
      exact ⟨decls, rfl⟩
    · rename_i hd'
      rw [hd] at hd'
      cases hd'

/-- A loop that begins with the word of a declaration and does not go over the elements or keys of a
value begins with that declaration. -/
theorem statement_loop_of_declKind? (hk : declKind? w = some kind) (he : eachHead? s = none)
    (h : statement c (.word "for" line :: .mark .openParen l₁ :: .word w l₂ :: s) =
      .ok ⟨stmt, rest, hlt⟩) :
    ∃ decls test update body,
      stmt = .loop (some (.declare kind decls line)) test update body line := by
  have hl : loopHead? (.word w l₂ :: s) = none := by
    rw [loopHead?, declHead?, hk]
    exact Option.map_eq_none_iff.mpr he
  rw [statement_of_keyword rfl, keywordStatement] at h
  obtain ⟨⟨stmt', s₀, h₀⟩, hr, h⟩ := bind_eq_ok h
  cases h
  obtain ⟨⟨_, s₁, h₁⟩, hm, hr⟩ := bind_eq_ok hr
  dsimp only at hr
  obtain ⟨_, hs⟩ := Items.eq_of_mark hm
  cases hs
  split at hr
  · rename_i hl'
    rw [hl] at hl'
    cases hl'
  · obtain ⟨⟨first, s₂, h₂⟩, hf, hr⟩ := bind_eq_ok hr
    dsimp only at hr
    obtain ⟨decls, rfl⟩ := loopStart_of_declKind? hk hf
    obtain ⟨⟨test, s₃, h₃⟩, -, hr⟩ := bind_eq_ok hr
    dsimp only at hr
    obtain ⟨⟨update, s₄, h₄⟩, -, hr⟩ := bind_eq_ok hr
    dsimp only at hr
    obtain ⟨⟨body, s₅, h₅⟩, -, hr⟩ := bind_eq_ok hr
    cases hr
    exact ⟨decls, test, update, body, rfl⟩

/-- A name that has been bound with `var`, by a statement or in the head of a counting loop, is
found by whoever asks for it in the rest of the run; so it is not undefined. A run that ends because
a name is undefined ends where it has asked for that name. -/
theorem var_visible (scope : Scope) (limit : Nat) (c : Context) (line : Nat) :
    (∀ s stmt rest hlt, statement c (.word "var" line :: s) = .ok ⟨stmt, rest, hlt⟩ →
      ∃ decls, stmt = .declare .var decls line) ∧
    (∀ l₁ l₂ s stmt rest hlt,
      statement c (.word "for" line :: .mark .openParen l₁ :: .word "var" l₂ :: s) =
        .ok ⟨stmt, rest, hlt⟩ → eachHead? s = none →
      ∃ decls test update body,
        stmt = .loop (some (.declare .var decls line)) test update body line) ∧
    (∀ decls r flow r', Record.Sound r →
      execRecorded scope limit (.declare .var decls line) r = .ok flow r' →
      ∀ name ∈ decls.map Prod.fst, .bound name ∈ r'.events) ∧
    ∀ program s,
      (runRecorded scope limit program).plain s = run scope limit program s ∧
      (∀ name before between found after,
        happenings scope limit program s =
          before ++ .bound name :: (between ++ .asked name found :: after) → found = true) ∧
      ∀ name t, run scope limit program s = .error (.error (.undefined name)) t →
        (happenings scope limit program s).getLast? = some (.asked name false) ∧
          .bound name ∉ happenings scope limit program s := by
  refine ⟨fun s stmt rest hlt h => statement_of_declKind? rfl h,
    fun l₁ l₂ s stmt rest hlt h he => statement_loop_of_declKind? rfl he h,
    fun decls r flow r' hs hr => bound_of_declare hs hr, ?_⟩
  intro program s
  have hr := records_run scope limit program
  have hs := hr.sound (Record.sound_start s)
  refine ⟨congrFun hr.plain s, fun name before between found after => hs.found_of_bound, ?_⟩
  intro name t ht
  have hlast := hr.head_of_undefined (Record.sound_start s) ht
  constructor
  · rw [happenings, List.getLast?_reverse]
    exact hlast
  · intro hb
    exact hs.not_bound hlast (List.mem_reverse.mp hb)

/-- A name is bound in a block and shown after it; another one is shown that is not bound. -/
def visibleProgram : List Stmt :=
  [.block [.declare .var [("a", none)] 1], .output (.ident "a") false 1,
    .output (.ident "b") false 1]

/-- Both ways to bind a name, and a run in which one name is bound and another one is undefined. -/
theorem var_visible_block :
    (∃ hlt, statement ⟨1, false, false⟩ [.word "var" 1, .word "a" 1] =
        .ok ⟨.declare .var [("a", none)] 1, [], hlt⟩) ∧
      (∃ decls, Stmt.declare .var [("a", none)] 1 = .declare .var decls 1) ∧
      (∃ hlt, statement ⟨1, false, false⟩ [.word "for" 1, .mark .openParen 1, .word "var" 1,
          .word "a" 1, .mark .semicolon 1, .mark .semicolon 1, .mark .closeParen 1,
          .mark .semicolon 1] =
        .ok ⟨.loop (some (.declare .var [("a", none)] 1)) none none .empty 1, [], hlt⟩) ∧
      (∃ decls test update body,
        Stmt.loop (some (.declare .var [("a", none)] 1)) none none .empty 1 =
          .loop (some (.declare .var decls 1)) test update body 1) ∧
      (∃ flow r, execRecorded bareScope 0 (.declare .var [("a", none)] 1) ⟨.initial, []⟩ =
        .ok flow r ∧ .bound "a" ∈ r.events) ∧
      happenings bareScope 0 visibleProgram .initial =
        [.bound "a", .asked "a" true, .asked "b" false] ∧
      (∃ t, run bareScope 0 visibleProgram .initial = .error (.error (.undefined "b")) t) ∧
      .bound "b" ∉ happenings bareScope 0 visibleProgram .initial := by
  obtain ⟨hstatement, hloop, hdeclare, hrun⟩ := var_visible bareScope 0 ⟨1, false, false⟩ 1
  have hs : ∃ hlt, statement ⟨1, false, false⟩ [.word "var" 1, .word "a" 1] =
      .ok ⟨.declare .var [("a", none)] 1, [], hlt⟩ := ⟨by decide, by cbv⟩
  have hl : ∃ hlt, statement ⟨1, false, false⟩ [.word "for" 1, .mark .openParen 1, .word "var" 1,
      .word "a" 1, .mark .semicolon 1, .mark .semicolon 1, .mark .closeParen 1,
      .mark .semicolon 1] =
      .ok ⟨.loop (some (.declare .var [("a", none)] 1)) none none .empty 1, [], hlt⟩ :=
    ⟨by decide, by cbv⟩
  have hu : ∃ t, run bareScope 0 visibleProgram .initial = .error (.error (.undefined "b")) t :=
    ⟨_, rfl⟩
  refine ⟨hs, ?_, hl, ?_, ?_, rfl, hu, ?_⟩
  · obtain ⟨hlt, h⟩ := hs
    exact hstatement _ _ _ _ h
  · obtain ⟨hlt, h⟩ := hl
    exact hloop _ _ _ _ _ _ h rfl
  · obtain ⟨r, hr⟩ : ∃ r, execRecorded bareScope 0 (.declare .var [("a", none)] 1)
        ⟨.initial, []⟩ = .ok .normal r := ⟨_, rfl⟩
    exact ⟨_, r, hr, hdeclare _ _ _ _ (Record.sound_start _) hr "a" List.mem_cons_self⟩
  · obtain ⟨t, h⟩ := hu
    exact ((hrun _ _).2.2 "b" t h).2

/-- A loop over elements binds its name for a round only, also after the word `var`. -/
def eachProgram : List Stmt :=
  [.forOf "x" (.array [.value .null]) (.block []) 1, .output (.ident "x") false 1]

theorem undefined_after_each :
    statements 1 [.word "for" 1, .mark .openParen 1, .word "var" 1, .word "x" 1, .word "of" 1,
        .mark .openBracket 1, .word "null" 1, .mark .closeBracket 1, .mark .closeParen 1,
        .mark .openBrace 1, .mark .closeBrace 1, .output (.ident "x") false 1] =
      .ok eachProgram ∧
      run bareScope 0 eachProgram .initial = .error (.error (.undefined "x")) .initial :=
  ⟨by cbv, rfl⟩

end Stencil.Script

import Stencil.Proofs.Script.Jumps
import Stencil.Proofs.Script.Simulation

/-!
Statements inside a loop over values. They run there as a template of their own that sees the value
of the round under the name that the loop binds: the frame of the loop stands where the values of
the template would be asked. Assignments could tell the difference, and so could `var` and `locals`.
-/

namespace Stencil.Script

set_option autoImplicit true

/-- Nothing is assigned to, nothing is declared with `var`, and `locals` is not asked for. -/
def Checks.settled : Checks where
  expr e := e.writes? = none ∧ e.reads? ≠ some "locals"
  stmt stmt := ∀ decls line, stmt ≠ .declare .var decls line

/-- The state `s'` inside a loop belongs to the state `s` of a template: the frame of the template is
that of a block, which stands in that of the loop, and `before` has been put out before. -/
structure Inside (frame : Table Binding) (before : String) (depth : Nat) (s s' : State) : Prop where
  depth : s.blocks.length = depth
  blocks : s'.blocks = s.blocks ++ [s.base, frame]
  base : s'.base = ∅
  out : s'.out = before ++ s.out

def roundFrame (x : String) (v : Value) : Table Binding := Table.insert ∅ x ⟨v, false⟩

/-- The scope of a template that has one more value. -/
def Scope.set (scope : Scope) (x : String) (v : Value) : Scope :=
  { scope with values := scope.values.insert x v }

namespace Inside

variable {s s' : State}

theorem lookup? (h : Inside (roundFrame x v) before n s s') (hn : name ≠ "locals")
    (scope : Scope) : (scope.set x v).lookup? s name = scope.lookup? s' name := by
  have hf : s'.frames = s.frames ++ [roundFrame x v, ∅] := by
    rw [State.frames, State.frames, h.blocks, h.base, List.append_assoc, List.append_assoc]
    rfl
  have hr : ([roundFrame x v, ∅].findSome? fun frame => frame.get? name) =
      if name = x then some ⟨v, false⟩ else none := by
    rw [List.findSome?_cons, roundFrame, Table.get?_insert]
    by_cases hx : name = x
    · rw [if_pos hx, if_pos hx]
    · rw [if_neg hx, if_neg hx]
      rfl
  have hb : s'.binding? name =
      (s.binding? name).or (if name = x then some ⟨v, false⟩ else none) := by
    rw [State.binding?, hf, List.findSome?_append, hr]
    rfl
  rw [Scope.lookup?, Scope.lookup?, hb]
  cases s.binding? name with
  | some b => rfl
  | none =>
    simp only [Scope.set, Table.get?_insert, if_neg hn, Option.none_or]
    by_cases hx : name = x
    · rw [if_pos hx, if_pos hx]
    · rw [if_neg hx, if_neg hx]

theorem insertInner (h : Inside frame before n s s') (name : String) (b : Binding) :
    Inside frame before n (s.insertInner name b) (s'.insertInner name b) := by
  obtain ⟨hn, hb, hf, ho⟩ := h
  unfold State.insertInner
  rw [hb]
  cases hs : s.blocks with
  | nil =>
    rw [hs] at hn
    refine ⟨?_, ?_, hf, ho⟩
    · exact (congrArg List.length hs).trans hn
    · change _ = s.blocks ++ _
      rw [hs]
      rfl
  | cons block rest =>
    rw [hs] at hn
    exact ⟨hn, rfl, hf, ho⟩

theorem declare (h : Inside frame before n s s') (hk : kind ≠ .var) (name : String) (v : Value) :
    Inside frame before n (s.declare kind name v) (s'.declare kind name v) := by
  cases kind with
  | var => exact absurd rfl hk
  | block => exact h.insertInner name _
  | constant => exact h.insertInner name _

theorem write (h : Inside frame before n s s') (text : String) :
    Inside frame before n (s.write text) (s'.write text) where
  depth := h.depth
  blocks := h.blocks
  base := h.base
  out := by
    rw [State.write, State.write, h.out]
    exact String.append_assoc

theorem atLine (h : Inside frame before n s s') (l l' : Nat) :
    Inside frame before n (s.atLine l) (s'.atLine l') := ⟨h.depth, h.blocks, h.base, h.out⟩

theorem enter (h : Inside frame before n s s') :
    Inside frame before (n + 1) s.enter s'.enter where
  depth := congrArg (· + 1) h.depth
  blocks := congrArg (List.cons ∅) h.blocks
  base := h.base
  out := h.out

theorem leave (h : Inside frame before (n + 1) s s') : Inside frame before n s.leave s'.leave := by
  obtain ⟨hn, hb, hf, ho⟩ := h
  cases hs : s.blocks with
  | nil =>
    rw [hs] at hn
    cases hn
  | cons block rest =>
    refine ⟨?_, ?_, hf, ho⟩
    · rw [State.leave, List.length_tail, hn]
      rfl
    · rw [State.leave, State.leave, hb, hs]
      rfl

end Inside

/-- Settled statements run inside a loop as by themselves. -/
def inside (scope : Scope) (x : String) (v : Value) (before : String) :
    Simulation Nat (scope.set x v) scope (Expr.Every .settled) (Stmt.Every .settled) where
  rel := Inside (roundFrame x v) before
  inner n := n + 1
  opened _ := True
  opened_inner := trivial
  self := rfl
  env := rfl
  enter h := h.enter
  leave h := h.leave
  line _ _ h := h.atLine _ _
  back _ h := h.atLine _ _
  text _ h := h.write _
  shown _ h := h.write _
  bind _ h := h.declare DeclKind.noConfusion _ _
  declare := by
    rintro kind decls l name n s s' v hs - - h
    apply h.declare
    rintro rfl
    exact hs.here decls l rfl
  lookup := by
    rintro e name n s s' he hn h
    apply h.lookup?
    rintro rfl
    exact he.here.2 hn
  assign := by
    rintro e name n s s' v he hn -
    rw [he.here.1] at hn
    cases hn

/-- A round of a loop over values. -/
def round (scope : Scope) (limit : Nat) (x : String) (body : Stmt) (v : Value) :
    Exec (Option Flow) :=
  Exec.inBlock do
    Exec.declare .block x v
    let flow ← exec scope limit body
    pure flow.ofRound

/-- In a round the body puts out what it puts out as a template with one more value. -/
theorem round_of_execute {program : List Stmt} (hp : Stmt.AllPlaced false false program)
    (hk : Stmt.AllEvery .settled program)
    (h : execute (scope.set x v) limit program = .ok out) {s : State} (hb : s.blocks = [])
    (hf : s.base = ∅) : ∃ line, round scope limit x (.block program) v s =
      .ok none { s with out := s.out ++ out, line := line } := by
  have hi : Inside (roundFrame x v) s.out 0 .initial (s.enter.declare .block x v).enter := by
    refine ⟨rfl, ?_, hf, String.append_empty.symm⟩
    change _ :: _ :: s.blocks = _
    rw [hb]
    rfl
  unfold execute at h
  cases hr : run (scope.set x v) limit program .initial with
  | error e t =>
    rw [hr] at h
    cases h
  | ok flow t =>
    rw [hr] at h
    cases h
    obtain rfl := ((run_gives _ limit program hp).of_eq_ok hr).eq_normal
    obtain ⟨t', hr', ht⟩ := (simulates_run (inside scope x v s.out) (hereditary_every .settled)
      limit 0 program (stmts_every hk) trivial).of_eq_ok hi hr
    have hd : Exec.declare .block x v s.enter = .ok () (s.enter.declare .block x v) := rfl
    have he : exec scope limit (.block program) (s.enter.declare .block x v) =
        .ok .normal t'.leave := by
      rw [exec]
      exact Exec.inBlock_of_eq_ok hr'
    have hl : t'.leave.leave = { s with out := s.out ++ t.out, line := t'.line } := by
      have hblocks : t'.leave.leave.blocks = s.blocks := by
        rw [State.leave, State.leave, ht.blocks, List.eq_nil_of_length_eq_zero ht.depth, hb]
        rfl
      have hbase : t'.leave.leave.base = s.base := ht.base.trans hf.symm
      change State.mk t'.leave.leave.blocks t'.leave.leave.base t'.out t'.line = _
      rw [hblocks, hbase, ht.out]
    refine ⟨t'.line, ?_⟩
    rw [← hl, round]
    apply Exec.inBlock_of_eq_ok
    rw [bind_eq_of_ok hd, bind_eq_of_ok he]
    rfl

/-- The rounds of a loop put out what the body puts out for each value, in order. -/
theorem each_of_execute {program : List Stmt} {f : Value → String}
    (hp : Stmt.AllPlaced false false program) (hk : Stmt.AllEvery .settled program)
    (items : List Value)
    (h : ∀ v ∈ items, execute (scope.set x v) limit program = .ok (f v)) {s : State}
    (hb : s.blocks = []) (hf : s.base = ∅) :
    ∃ line, Exec.each (round scope limit x (.block program)) items s =
      .ok .normal { s with out := s.out ++ String.join (items.map f), line := line } := by
  induction items generalizing s with
  | nil =>
    refine ⟨s.line, ?_⟩
    rw [List.map_nil, String.join_nil, String.append_empty]
    rfl
  | cons v items ih =>
    obtain ⟨hv, hrest⟩ := List.forall_mem_cons.mp h
    obtain ⟨line, hr⟩ := round_of_execute hp hk hv hb hf
    obtain ⟨line', he⟩ := ih hrest (s := { s with out := s.out ++ f v, line := line }) hb hf
    refine ⟨line', ?_⟩
    rw [Exec.each, bind_eq_of_ok hr, List.map_cons, String.join_cons, ← String.append_assoc]
    exact he

end Stencil.Script

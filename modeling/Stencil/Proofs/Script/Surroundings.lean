import Stencil.Proofs.Script.Scoping

/-!
The same statements in different surroundings. Two runs have the same blocks around the place of
execution, and further out their blocks may differ as long as no look-up and no assignment notices.
Then both go the same way (`Surroundings.simulation`).
-/

namespace Stencil.Script

set_option autoImplicit true

/-- How the outer blocks of two runs and their frames of the template may differ. -/
structure Surroundings where
  blocks : List (Table Binding) → List (Table Binding) → Prop
  base : Table Binding → Table Binding → Prop
  /-- Names may be bound in the first of the outer blocks. -/
  opened : Prop
  bind : opened → blocks bs bs' → ∃ frame rest rest', bs = frame :: rest ∧ bs' = frame :: rest' ∧
    ∀ name b, blocks (frame.insert name b :: rest) (frame.insert name b :: rest')
  findSome? : blocks bs bs' →
    (bs'.findSome? fun frame => frame.get? name) = bs.findSome? fun frame => frame.get? name
  rebound : blocks bs bs' → blocks (State.rebound name b bs) (State.rebound name b bs')
  get? : blocks bs bs' → (bs.findSome? fun frame => frame.get? name) = none → base frame frame' →
    frame'.get? name = frame.get? name
  insert : base frame frame' → base (frame.insert name b) (frame'.insert name b)

namespace Surroundings

variable {around : Surroundings}

/-- The first `n` blocks are equal. -/
inductive Blocks (around : Surroundings) :
    Nat → List (Table Binding) → List (Table Binding) → Prop
  | outer (h : around.blocks bs bs') : Blocks around 0 bs bs'
  | inner (frame : Table Binding) (h : Blocks around n bs bs') :
    Blocks around (n + 1) (frame :: bs) (frame :: bs')

/-- The states of two runs, with `n` equal blocks inside of the surroundings. -/
structure Rel (around : Surroundings) (n : Nat) (s s' : State) : Prop where
  blocks : around.Blocks n s.blocks s'.blocks
  base : around.base s.base s'.base
  out : s'.out = s.out
  line : s'.line = s.line

theorem Blocks.findSome? (h : around.Blocks n bs bs') (name : String) :
    (bs'.findSome? fun frame => frame.get? name) =
      bs.findSome? fun frame => frame.get? name := by
  induction h with
  | outer h => exact around.findSome? h
  | inner frame _ ih => rw [List.findSome?_cons, List.findSome?_cons, ih]

theorem Blocks.rebound (h : around.Blocks n bs bs') (name : String) (b : Binding) :
    around.Blocks n (State.rebound name b bs) (State.rebound name b bs') := by
  induction h with
  | outer h => exact .outer (around.rebound h)
  | inner frame h ih =>
    rw [State.rebound, State.rebound]
    split
    · exact .inner _ h
    · exact .inner frame ih

/-- A name of no block means the same in both frames of the template. -/
theorem Blocks.get? (h : around.Blocks n bs bs')
    (hf : (bs.findSome? fun frame => frame.get? name) = none)
    (hb : around.base frame frame') : frame'.get? name = frame.get? name := by
  induction h with
  | outer h => exact around.get? h hf hb
  | inner block _ ih =>
    rw [List.findSome?_cons] at hf
    split at hf
    · cases hf
    · exact ih hf

namespace Rel

variable {s s' : State}

theorem enter (h : around.Rel n s s') : around.Rel (n + 1) s.enter s'.enter :=
  ⟨.inner ∅ h.blocks, h.base, h.out, h.line⟩

theorem leave (h : around.Rel (n + 1) s s') : around.Rel n s.leave s'.leave := by
  obtain ⟨blocks, base, out, line⟩ := s
  obtain ⟨blocks', base', out', line'⟩ := s'
  obtain ⟨hb, hbase, hout, hline⟩ := h
  cases hb with
  | inner frame hb => exact ⟨hb, hbase, hout, hline⟩

theorem atLine (h : around.Rel n s s') (l : Nat) : around.Rel n (s.atLine l) (s'.atLine l) :=
  ⟨h.blocks, h.base, h.out, rfl⟩

theorem write (h : around.Rel n s s') (text : String) :
    around.Rel n (s.write text) (s'.write text) :=
  ⟨h.blocks, h.base, congrArg (· ++ text) h.out, h.line⟩

theorem insertBase (h : around.Rel n s s') (name : String) (b : Binding) :
    around.Rel n (s.insertBase name b) (s'.insertBase name b) :=
  ⟨h.blocks, around.insert h.base, h.out, h.line⟩

theorem insertInner (h : around.Rel n s s') (ho : 0 < n ∨ around.opened) (name : String)
    (b : Binding) : around.Rel n (s.insertInner name b) (s'.insertInner name b) := by
  obtain ⟨blocks, base, out, line⟩ := s
  obtain ⟨blocks', base', out', line'⟩ := s'
  obtain ⟨hb, hbase, hout, hline⟩ := h
  cases hb with
  | outer hb =>
    obtain ⟨frame, rest, rest', rfl, rfl, hi⟩ := around.bind (ho.resolve_left (lt_irrefl 0)) hb
    exact ⟨.outer (hi name b), hbase, hout, hline⟩
  | inner frame hb => exact ⟨.inner _ hb, hbase, hout, hline⟩

theorem declare (h : around.Rel n s s') (ho : 0 < n ∨ around.opened) (kind : DeclKind)
    (name : String) (v : Value) :
    around.Rel n (s.declare kind name v) (s'.declare kind name v) := by
  cases kind with
  | var => exact h.insertBase name _
  | block => exact h.insertInner ho name _
  | constant => exact h.insertInner ho name _

theorem lookup? (h : around.Rel n s s') (scope : Scope) (name : String) :
    scope.lookup? s name = scope.lookup? s' name := by
  rw [Scope.lookup?, Scope.lookup?, binding?_eq, binding?_eq, h.blocks.findSome?]
  cases hf : s.blocks.findSome? fun frame => frame.get? name with
  | some b => rfl
  | none => rw [h.blocks.get? hf h.base]

theorem assign? (h : around.Rel n s s') (name : String) (v : Value) :
    Option.Rel (around.Rel n) (s.assign? name v) (s'.assign? name v) := by
  unfold State.assign?
  rw [h.blocks.findSome?]
  split
  · split
    · exact .none
    · exact .some ⟨h.blocks.rebound name _, h.base, h.out, h.line⟩
  · rename_i hf
    rw [h.blocks.get? hf h.base]
    split
    · split
      · exact .none
      · exact .some (h.insertBase name _)
    · exact .some (h.insertBase name _)

end Rel

/-- Any statements run the same way in both surroundings. -/
def simulation (around : Surroundings) {scope scope' : Scope} (h : scope = scope') :
    Simulation Nat scope scope' (fun _ => True) (fun _ => True) where
  rel := around.Rel
  inner n := n + 1
  opened n := 0 < n ∨ around.opened
  opened_inner := .inl (Nat.succ_pos _)
  self := congrArg Scope.self h
  env := congrArg Scope.env h
  enter h := h.enter
  leave h := h.leave
  line _ _ h := h.atLine _
  back h h' := h.line ▸ h'.atLine _
  text _ h := h.write _
  shown _ h := h.write _
  bind ho h := h.declare ho .block _ _
  declare _ _ ho h := h.declare ho _ _ _
  lookup _ _ hr := h ▸ hr.lookup? scope _
  assign _ _ h := h.assign? _ _

end Surroundings

end Stencil.Script

import Stencil.Proofs.Script.Compound
import Stencil.Proofs.Script.Surroundings
import Stencil.Proofs.Script.Visible
import Stencil.Proofs.Script.Visits

/-!
The parameters of a callback. It gets three values, and the first three parameters are bound to them
in a frame of its own before the body runs. So these are never undefined, what their names stand for
outside makes no difference to the callback, and it changes nothing of that unless it has a statement
with `var` of the name. The main statement is `params_local`. A fourth parameter is not bound at all
(`fourth_param`).
-/

namespace Stencil.Script

set_option autoImplicit true

/-- A frame in which names are bound besides, as long as there are values for them. Of two bindings
of one name the later one counts. -/
def Frame.bindAll (frame : Table Binding) (names : List String) (values : List Value) :
    Table Binding :=
  (names.zip values).foldl (fun frame pair => frame.insert pair.1 ⟨pair.2, false⟩) frame

/-- As many names are bound as there are values. -/
theorem Frame.contains_bindAll {frame : Table Binding} {names : List String} {values : List Value} :
    (bindAll frame names values).contains name = true ↔
      frame.contains name = true ∨ name ∈ names.take values.length := by
  induction names generalizing frame values with
  | nil => simp [bindAll]
  | cons other names ih =>
    cases values with
    | nil => simp [bindAll]
    | cons v values =>
      have hb : bindAll frame (other :: names) (v :: values) =
          bindAll (frame.insert other ⟨v, false⟩) names values := rfl
      rw [hb, ih, Table.contains_insert, Bool.or_eq_true, decide_eq_true_eq, List.length_cons,
        List.take_succ_cons, List.mem_cons, or_comm (a := name = other), or_assoc]

namespace State

def push (s : State) (frame : Table Binding) : State := { s with blocks := frame :: s.blocks }

/-- How a call ends that is made in this state, by how its body ends. -/
def called (s : State) : EStateM.Result Halt State Flow → EStateM.Result Halt State Value
  | .ok flow t => .ok flow.result (t.leave.atLine s.line)
  | .error e t => .error e t.leave

end State

theorem bindParams_push (s : State) (frame : Table Binding) (names : List String)
    (values : List Value) :
    bindParams names values (s.push frame) = .ok () (s.push (Frame.bindAll frame names values)) := by
  induction names generalizing values frame with
  | nil => rfl
  | cons name names ih =>
    cases values with
    | nil => rfl
    | cons v values => exact ih (frame.insert name ⟨v, false⟩) values

/-- A call runs its body in a frame with the parameters. -/
theorem callback_eq (params : List String) (args : List Value) (x : Exec Flow) (s : State) :
    callback params args x s = s.called (x (s.push (Frame.bindAll ∅ params args))) := by
  have hg : (get : Exec State) s = .ok s s := rfl
  have hb : (do bindParams params args; x : Exec Flow) s.enter =
      x (s.push (Frame.bindAll ∅ params args)) := bind_eq_of_ok (bindParams_push s ∅ params args)
  rw [callback, bind_eq_of_ok hg]
  cases hx : x (s.push (Frame.bindAll ∅ params args)) with
  | ok flow t => exact bind_eq_of_ok (Exec.inBlock_of_eq_ok (hb.trans hx))
  | error e t =>
    apply bind_eq_of_error
    rw [Exec.inBlock, hb, hx]

/-- The frames agree on all names but these. -/
def Frame.Apart (names : List String) (frame frame' : Table Binding) : Prop :=
  ∀ name ∉ names, frame.get? name = frame'.get? name

/-- The states differ at most in what their frames have under these names. -/
structure State.Apart (names : List String) (s s' : State) : Prop where
  blocks : List.Forall₂ (Frame.Apart names) s.blocks s'.blocks
  base : Frame.Apart names s.base s'.base
  out : s'.out = s.out
  line : s'.line = s.line

/-- The innermost blocks are equal and have all these names; blocks further out may differ in them. -/
inductive Sheltered (names : List String) : List (Table Binding) → List (Table Binding) → Prop
  | own (frame : Table Binding) (hp : ∀ name ∈ names, frame.contains name = true)
    (h : List.Forall₂ (Frame.Apart names) blocks blocks') :
    Sheltered names (frame :: blocks) (frame :: blocks')

namespace Frame

variable {names : List String} {frame frame' : Table Binding}

theorem Apart.refl (names : List String) (frame : Table Binding) : Apart names frame frame :=
  fun _ _ => rfl

theorem Apart.insert (h : Apart names frame frame') (name : String) (b : Binding) :
    Apart names (frame.insert name b) (frame'.insert name b) := by
  intro other ho
  rw [Table.get?_insert, Table.get?_insert, h other ho]

/-- What is bound under one of the names makes no difference. -/
theorem Apart.insert_right (hn : name ∈ names) (frame : Table Binding) (b : Binding) :
    Apart names frame (frame.insert name b) := by
  intro other ho
  have hne : other ≠ name := by
    rintro rfl
    exact ho hn
  rw [Table.get?_insert, if_neg hne]

theorem findSome?_apart (h : List.Forall₂ (Apart names) blocks blocks') (hn : name ∉ names) :
    (blocks'.findSome? fun frame => frame.get? name) =
      blocks.findSome? fun frame => frame.get? name := by
  induction h with
  | nil => rfl
  | cons hf _ ih => rw [List.findSome?_cons, List.findSome?_cons, hf name hn, ih]

theorem rebound_apart (h : List.Forall₂ (Apart names) blocks blocks') (hn : name ∉ names)
    (b : Binding) :
    List.Forall₂ (Apart names) (State.rebound name b blocks) (State.rebound name b blocks') := by
  induction h with
  | nil => exact .nil
  | cons hf hrest ih =>
    rw [State.rebound, State.rebound, Table.contains, Table.contains, hf name hn]
    split
    · exact .cons (hf.insert name b) hrest
    · exact .cons hf ih

/-- No binding takes names away from a frame. -/
theorem contains_insert_of_forall (h : ∀ name ∈ names, frame.contains name = true) (other : String)
    (b : Binding) : ∀ name ∈ names, (frame.insert other b).contains name = true := by
  intro name hn
  rw [Table.contains_insert, h name hn, Bool.or_true]

end Frame

namespace Sheltered

variable {names : List String}

/-- The names are found in the innermost block. -/
theorem exists_of_mem (h : Sheltered names blocks blocks') (hn : name ∈ names) :
    ∃ b, (blocks.findSome? fun frame => frame.get? name) = some b := by
  cases h with
  | own frame hp _ =>
    obtain ⟨b, hb⟩ := Option.isSome_iff_exists.mp (hp name hn)
    exact ⟨b, by rw [List.findSome?_cons, hb]⟩

theorem findSome? (h : Sheltered names blocks blocks') (name : String) :
    (blocks'.findSome? fun frame => frame.get? name) =
      blocks.findSome? fun frame => frame.get? name := by
  cases h with
  | own frame hp h =>
    rw [List.findSome?_cons, List.findSome?_cons]
    cases hf : frame.get? name with
    | some b => rfl
    | none =>
      have hn : name ∉ names := by
        intro hn
        have hc := hp name hn
        rw [Table.contains, hf] at hc
        cases hc
      exact Frame.findSome?_apart h hn

theorem rebound (h : Sheltered names blocks blocks') (name : String) (b : Binding) :
    Sheltered names (State.rebound name b blocks) (State.rebound name b blocks') := by
  cases h with
  | own frame hp h =>
    rw [State.rebound, State.rebound]
    split
    · exact .own _ (Frame.contains_insert_of_forall hp name b) h
    · rename_i hc
      exact .own _ hp (Frame.rebound_apart h (fun hn => hc (hp name hn)) b)

end Sheltered

/-- The blocks around a call whose frame has these names, and the frame of the template, may differ
in them. -/
def sheltering (names : List String) : Surroundings where
  blocks := Sheltered names
  base := Frame.Apart names
  opened := True
  bind := by
    rintro _ _ - ⟨frame, hp, h⟩
    exact ⟨frame, _, _, rfl, rfl, fun name b =>
      .own _ (Frame.contains_insert_of_forall hp name b) h⟩
  findSome? h := h.findSome? _
  rebound h := h.rebound _ _
  get? {_ _ name _ _} h hf hb := by
    have hn : name ∉ names := by
      intro hn
      obtain ⟨b, hs⟩ := h.exists_of_mem hn
      rw [hf] at hs
      cases hs
    exact (hb name hn).symm
  insert h := h.insert _ _

namespace State

variable {names : List String} {s s' : State}

theorem Apart.refl (names : List String) (s : State) : Apart names s s :=
  ⟨List.forall₂_same.mpr fun frame _ => .refl names frame, .refl names s.base, rfl, rfl⟩

theorem Apart.insertBase (hn : name ∈ names) (s : State) (b : Binding) :
    Apart names s (s.insertBase name b) :=
  ⟨(Apart.refl names s).blocks, .insert_right hn s.base b, rfl, rfl⟩

theorem Apart.push (h : Apart names s s') {frame : Table Binding}
    (hp : ∀ name ∈ names, frame.contains name = true) :
    (sheltering names).Rel 0 (s.push frame) (s'.push frame) :=
  ⟨.outer (.own frame hp h.blocks), h.base, h.out, h.line⟩

theorem apart_of_sheltering (h : (sheltering names).Rel 0 s s') : Apart names s.leave s'.leave := by
  obtain ⟨blocks, base, out, line⟩ := s
  obtain ⟨blocks', base', out', line'⟩ := s'
  obtain ⟨hb, hbase, hout, hline⟩ := h
  cases hb with
  | outer hb =>
    cases hb with
    | own _ _ hb => exact ⟨hb, hbase, hout, hline⟩

end State

/-- In a call there is its frame. -/
theorem lt_length_of_sheltering (h : (sheltering names).Blocks n blocks blocks') :
    n < blocks.length := by
  induction h with
  | outer h =>
    cases h
    exact Nat.succ_pos _
  | inner _ _ ih => exact Nat.succ_lt_succ ih

/-- An assignment to one of the names goes to the frame that has them, or to one inside of it. -/
theorem drop_rebound_of_sheltering (h : (sheltering names).Blocks n blocks blocks')
    (hn : name ∈ names) (b : Binding) :
    (State.rebound name b blocks).drop (n + 1) = blocks.drop (n + 1) := by
  induction h with
  | outer h =>
    cases h with
    | own frame hp _ =>
      rw [State.rebound, if_pos (hp name hn)]
      rfl
  | inner frame _ ih =>
    rw [State.rebound]
    split
    · rfl
    · exact ih

/-- The names are found in the frame of the call, or in one inside of it. -/
theorem exists_of_sheltering (h : (sheltering names).Blocks n blocks blocks') (hn : name ∈ names) :
    ∃ b, (blocks.findSome? fun frame => frame.get? name) = some b := by
  induction h with
  | outer h => exact h.exists_of_mem hn
  | inner frame _ ih =>
    rw [List.findSome?_cons]
    cases frame.get? name with
    | some b => exact ⟨b, rfl⟩
    | none => exact ih

/-- An assignment to one of the names changes nothing outside of the call. -/
theorem drop_bindings_assign? {s t : State} (h : (sheltering names).Rel n s s') (hn : name ∈ names)
    (ht : s.assign? name v = some t) :
    (t.bindings name).drop (n + 1) = (s.bindings name).drop (n + 1) := by
  obtain ⟨b, hb⟩ := exists_of_sheltering h.blocks hn
  unfold State.assign? at ht
  rw [hb] at ht
  dsimp only at ht
  split at ht
  · cases ht
  · cases ht
    have hl := lt_length_of_sheltering h.blocks
    have hl' := lt_length_of_sheltering (h.blocks.rebound name ⟨v, false⟩)
    rw [State.bindings_eq, State.bindings_eq,
      List.drop_append_of_le_length (by rwa [List.length_map]),
      List.drop_append_of_le_length (by rwa [List.length_map]), ← List.map_drop, ← List.map_drop,
      drop_rebound_of_sheltering h.blocks hn]

/-- No statement binds the name in the frame of the template. -/
def Checks.unvaried (name : String) : Checks where
  expr _ := True
  stmt := (Checks.keeping name).stmt

/-- What a name of the frame of a call stands for outside of the call stays as it is. -/
def guarding (scope : Scope) {names : List String} (hn : name ∈ names)
    {bs : List (Option Binding)} (hbs : bs ≠ []) :
    Invariant Nat scope (Expr.Every (.unvaried name)) (Stmt.Every (.unvaried name)) where
  holds n s := (sheltering names).Rel n s s ∧ (s.bindings name).drop (n + 1) = bs
  inner n := n + 1
  opened _ := True
  opened_inner := trivial
  enter h := ⟨h.1.enter, h.2⟩
  leave h := by
    refine ⟨h.1.leave, ?_⟩
    rw [State.bindings_leave (State.blocks_ne_nil (h.2 ▸ hbs)), List.drop_tail]
    exact h.2
  line _ _ h := ⟨h.1.atLine _, h.2⟩
  back _ h := ⟨h.1.atLine _, h.2⟩
  text _ h := ⟨h.1.write _, h.2⟩
  shown _ h := ⟨h.1.write _, h.2⟩
  bind {_ s other v} _ h := by
    have hk : DeclKind.block = .var → name ≠ other := nofun
    exact ⟨h.1.declare (.inr trivial) .block other v,
      (State.drop_bindings_declare (h.2 ▸ hbs) hk v).trans h.2⟩
  declare {kind decls l other n s v} hs hd _ h := by
    have hk : kind = .var → name ≠ other := by
      rintro rfl rfl
      exact hs.here decls l rfl hd
    exact ⟨h.1.declare (.inr trivial) kind other v,
      (State.drop_bindings_declare (h.2 ▸ hbs) hk v).trans h.2⟩
  assign {_ other _ _ _ v} _ _ ht h := by
    refine ⟨?_, ?_⟩
    · have hr := h.1.assign? other v
      rw [ht] at hr
      cases hr with
      | some hr => exact hr
    · by_cases ho : name = other
      · subst ho
        exact (drop_bindings_assign? h.1 hn ht).trans h.2
      · rw [State.bindings_assign? ho ht]
        exact h.2

section calls

variable {names params : List String} {args : List Value} {body : List Stmt}

/-- What the names in the frame of a call stand for outside makes no difference to it. -/
theorem simulates_callback_apart (scope : Scope) (limit : Nat) (body : List Stmt)
    (hp : ∀ name ∈ names, (Frame.bindAll ∅ params args).contains name = true) :
    Exec.Simulates (State.Apart names) (callback params args (run scope limit body))
      (callback params args (run scope limit body)) where
  alike {s s'} h := by
    rw [callback_eq, callback_eq]
    have hr : Exec.Simulates ((sheltering names).Rel 0) (run scope limit body)
        (run scope limit body) :=
      simulates_run ((sheltering names).simulation rfl) hereditary_true limit 0 body
        (fun _ _ => trivial) (.inr trivial)
    have ha := hr.alike (h.push hp)
    generalize run scope limit body (s.push _) = r, run scope limit body (s'.push _) = r' at ha
    cases ha with
    | ok ht =>
      obtain ⟨hb, hbase, hout, -⟩ := State.apart_of_sheltering ht
      exact .ok ⟨hb, hbase, hout, h.line⟩
    | error ht => exact .error (State.apart_of_sheltering ht)

/-- A call leaves what a name in its frame stands for outside, unless a statement in it binds the
name there. -/
theorem bindings_callback (scope : Scope) (limit : Nat) (hn : name ∈ names)
    (hp : ∀ name ∈ names, (Frame.bindAll ∅ params args).contains name = true)
    (hb : Stmt.AllEvery (.unvaried name) body) (s : State) :
    ((callback params args (run scope limit body)).after s).bindings name = s.bindings name := by
  have hbs : s.bindings name ≠ [] := by
    rw [State.bindings_eq]
    exact List.append_ne_nil_of_right_ne_nil _ (List.cons_ne_nil _ _)
  have ht := (guarding scope hn hbs).after_run (hereditary_every _) limit (i := 0)
    (stmts_every hb) trivial ⟨(State.Apart.refl names s).push hp, rfl⟩
  have hleave {t : State} (ht : (guarding scope hn hbs).holds 0 t) :
      t.leave.bindings name = s.bindings name := by
    rw [State.bindings_leave (State.blocks_ne_nil (ht.2 ▸ hbs)), ← List.drop_one]
    exact ht.2
  unfold Exec.after at ht ⊢
  rw [callback_eq]
  generalize run scope limit body _ = r at ht
  cases r with
  | ok flow t => exact hleave ht
  | error e t => exact hleave ht

/-- A name of the frame of the template is not undefined. -/
theorem Records.ne_undefined {x : Recorded α} {y : Exec α} (hx : Records x y) {s : State}
    (h : s.base.contains name = true) (t : State) :
    y s ≠ .error (.error (.undefined name)) t := by
  intro ht
  have hs : Record.Sound ⟨s, [.bound name]⟩ := by
    refine ⟨?_, List.pairwise_singleton _ _⟩
    intro other ho
    cases List.mem_singleton.mp ho
    exact h
  have he : Recorded.Ends [.bound name] (x ⟨s, [.bound name]⟩) (y s) := hx.ends hs
  rw [ht] at he
  generalize x _ = result at he
  cases he with
  | error hr hb hu => exact hr.not_bound (hu name rfl) (hb.subset List.mem_cons_self)

/-- A name in the frame of a call is not undefined in it: this would be so in a template, too, that
has the name. -/
theorem callback_ne_undefined (scope : Scope) (limit : Nat) (body : List Stmt) (hn : name ∈ names)
    (hp : ∀ name ∈ names, (Frame.bindAll ∅ params args).contains name = true) (s t : State) :
    callback params args (run scope limit body) s ≠ .error (.error (.undefined name)) t := by
  intro ht
  have ha := (simulates_callback_apart scope limit body hp).alike
    (State.Apart.insertBase hn s ⟨.null, false⟩)
  have hc : (s.insertBase name ⟨.null, false⟩).base.contains name = true := by
    rw [State.insertBase, Table.contains_insert, decide_eq_true rfl]
    rfl
  have hr := ((records_run scope limit body).callback params args).ne_undefined hc
  rw [ht] at ha
  generalize callback params args (run scope limit body) _ = r at ha hr
  cases ha with
  | error => exact hr _ rfl

end calls

/-- The frame of a call for an element of an array. -/
def callFrame (params : List String) (items : List Value) (item : Value) (index : Nat) :
    Table Binding :=
  Frame.bindAll ∅ params [item, .ofNat index, .array items]

theorem contains_callFrame (params : List String) (items : List Value) (item : Value) (index : Nat)
    (name : String) :
    (callFrame params items item index).contains name = true ↔ name ∈ params.take 3 := by
  have he : (∅ : Table Binding).contains name = true ↔ False := by
    rw [Table.contains, Table.get?_empty]
    exact iff_of_false Bool.false_ne_true id
  rw [callFrame, Frame.contains_bindAll, he, false_or]
  rfl

/-- An array method runs the body of its callback in a frame that has the first three parameters and
no other names. What these stand for outside makes no difference to a call, they are not undefined in
it, and it leaves them outside as they are unless a statement in it binds them there with `var`. -/
theorem params_local (scope : Scope) (limit : Nat) (params : List String) (body : List Stmt) :
    (∀ target method visit items s t, eval scope limit target s = .ok (.array items) t →
      Visit.ofName? method = some visit →
      eval scope limit (.method target method [.function params body]) s =
        visit.run (callOn scope limit params body items) [] 0 items t) ∧
    ∀ items item index s,
      callOn scope limit params body items item index s =
          s.called (run scope limit body (s.push (callFrame params items item index))) ∧
        (∀ name, (callFrame params items item index).contains name = true ↔
          name ∈ params.take 3) ∧
        (∀ s', s.Apart (params.take 3) s' →
          Exec.Alike (State.Apart (params.take 3))
            (callOn scope limit params body items item index s)
            (callOn scope limit params body items item index s')) ∧
        ∀ name ∈ params.take 3,
          (∀ t, callOn scope limit params body items item index s ≠
            .error (.error (.undefined name)) t) ∧
          (Stmt.AllEvery (.unvaried name) body →
            ((callOn scope limit params body items item index).after s).bindings name =
              s.bindings name) := by
  refine ⟨fun target method visit items s t ht hv => eval_method_function ht hv params body, ?_⟩
  intro items item index s
  have hc := contains_callFrame params items item index
  have hp : ∀ name ∈ params.take 3, (callFrame params items item index).contains name = true :=
    fun name => (hc name).mpr
  refine ⟨callback_eq _ _ _ s, hc, ?_, ?_⟩
  · intro s' h
    exact (simulates_callback_apart scope limit body hp).alike h
  · intro name hn
    refine ⟨fun t => callback_ne_undefined scope limit body hn hp s t, fun hb => ?_⟩
    exact bindings_callback scope limit hn hp hb s

/-- A template with a constant that has the name of a parameter. -/
def shadowed : State := ⟨[], .ofList [("x", ⟨.null, true⟩)], "", 1⟩

/-- The body of a callback that assigns to its parameter and gives it back. -/
def reassigning : List Stmt :=
  [.expr (.assign "x" none (.value (.bool true))) 1, .giveBack (some (.ident "x"))]

/-- A parameter gets another value, while a constant of the same name keeps its own. -/
theorem params_local_shadowed :
    eval bareScope 0 (.array [.value .null]) shadowed = .ok (.array [.null]) shadowed ∧
      Visit.ofName? "map" = some .map ∧
      eval bareScope 0 (.method (.array [.value .null]) "map" [.function ["x"] reassigning])
          shadowed =
        Visit.map.run (callOn bareScope 0 ["x"] reassigning [.null]) [] 0 [.null] shadowed ∧
      shadowed.Apart ["x"] .initial ∧
      Exec.Alike (State.Apart ["x"])
        (callOn bareScope 0 ["x"] reassigning [.null] .null 0 shadowed)
        (callOn bareScope 0 ["x"] reassigning [.null] .null 0 .initial) ∧
      "x" ∈ ["x"].take 3 ∧ Stmt.AllEvery (.unvaried "x") reassigning ∧
      callOn bareScope 0 ["x"] reassigning [.null] .null 0 shadowed = .ok (.bool true) shadowed ∧
      ((callOn bareScope 0 ["x"] reassigning [.null] .null 0).after shadowed).bindings "x" =
        shadowed.bindings "x" := by
  have ht : eval bareScope 0 (.array [.value .null]) shadowed =
      .ok (.array [.null]) shadowed := rfl
  have ha : shadowed.Apart ["x"] .initial := by
    refine ⟨.nil, fun name hn => ?_, rfl, rfl⟩
    change (Table.insert ∅ "x" _).get? name = none
    rw [Table.get?_insert, if_neg (fun h => hn (List.mem_singleton.mpr h))]
    rfl
  have hb : Stmt.AllEvery (.unvaried "x") reassigning := by
    simp [reassigning, Stmt.AllEvery, Stmt.Every, Expr.Every, Expr.OptionEvery, Checks.unvaried,
      Checks.keeping]
  have hx : "x" ∈ ["x"].take 3 := List.mem_cons_self
  obtain ⟨hmethod, hcall⟩ := params_local bareScope 0 ["x"] reassigning
  obtain ⟨-, -, halike, hkept⟩ := hcall [.null] .null 0 shadowed
  exact ⟨ht, rfl, hmethod _ _ _ _ _ _ ht rfl, ha, halike _ ha, hx, hb, rfl, (hkept "x" hx).2 hb⟩

/-- A callback with four parameters. -/
def fourParams (body : List Stmt) : Stmt :=
  .expr (.method (.array [.value .null]) "forEach" [.function ["a", "b", "c", "d"] body]) 1

/-- The fourth parameter is not bound: an assignment to it goes to a variable of the template, and
without one it is undefined. -/
theorem fourth_param :
    (callFrame ["a", "b", "c", "d"] [.null] .null 0).contains "d" = false ∧
      (∃ s, run bareScope 0 [.declare .var [("d", some (.value (.string "1")))] 1,
          fourParams [.expr (.assign "d" none (.value (.string "2"))) 1],
          .output (.ident "d") false 1] .initial = .ok .normal s ∧ s.out = "2") ∧
      run bareScope 0 [fourParams [.output (.ident "d") false 1]] .initial =
        .error (.error (.undefined "d")) .initial :=
  ⟨rfl, ⟨_, rfl, rfl⟩, rfl⟩

end Stencil.Script

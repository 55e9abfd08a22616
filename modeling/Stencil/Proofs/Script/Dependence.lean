import Stencil.Proofs.Script.Simulation

/-!
What a run depends on. Data enters only where a name is asked for that no variable is bound to, so two
scopes with the same values for the names that a program reads give the same run. The name `locals`
is apart, since it stands for all values at once.
-/

namespace Stencil.Script

set_option autoImplicit true

/-- All names that are read have a property. -/
def Checks.reading (P : String → Prop) : Checks where
  expr e := ∀ name, e.reads? = some name → P name
  stmt _ := True

namespace Scope

/-- The value of a name that no variable is bound to. -/
def outer? (scope : Scope) (name : String) : Option Value :=
  (scope.values.get? name).or (scope.locals.get? name)

/-- Two scopes have the same value for a name. -/
structure Agree (scope scope' : Scope) (name : String) : Prop where
  ne_locals : name ≠ "locals"
  outer? : scope.outer? name = scope'.outer? name

def insertValue (scope : Scope) (name : String) (v : Value) : Scope :=
  { scope with values := scope.values.insert name v }

def insertLocal (scope : Scope) (name : String) (v : Value) : Scope :=
  { scope with locals := scope.locals.insert name v }

theorem lookup?_eq (scope : Scope) (s : State) (hn : name ≠ "locals") :
    scope.lookup? s name = ((s.binding? name).map Binding.value).or (scope.outer? name) := by
  rw [lookup?, outer?, if_neg hn]
  cases s.binding? name with
  | some b => rfl
  | none =>
    cases scope.values.get? name with
    | some v => rfl
    | none => cases scope.locals.get? name <;> rfl

theorem Agree.lookup? (h : Agree scope scope' name) (s : State) :
    scope.lookup? s name = scope'.lookup? s name := by
  rw [lookup?_eq scope s h.ne_locals, lookup?_eq scope' s h.ne_locals, h.outer?]

theorem outer?_insertValue (scope : Scope) (name other : String) (v : Value) :
    (scope.insertValue other v).outer? name =
      if name = other then some v else scope.outer? name := by
  rw [outer?, insertValue, Table.get?_insert]
  split <;> rfl

theorem outer?_insertLocal (scope : Scope) (name other : String) (v : Value) :
    (scope.insertLocal other v).outer? name =
      if name = other then (scope.values.get? name).or (some v) else scope.outer? name := by
  rw [outer?, insertLocal, Table.get?_insert]
  split <;> rfl

end Scope

/-- Runs in scopes that agree on all names that are read go through the same states. -/
def sameRun {P : String → Prop} (hs : scope.self = scope'.self) (he : scope.env = scope'.env)
    (ha : ∀ name, P name → scope.Agree scope' name) :
    Simulation Unit scope scope' (Expr.Every (.reading P)) (Stmt.Every (.reading P)) where
  rel _ s s' := s = s'
  inner i := i
  opened _ := True
  opened_inner := trivial
  self := hs
  env := he
  enter h := congrArg State.enter h
  leave h := congrArg State.leave h
  line _ _ h := congrArg (State.atLine · _) h
  back h h' := by rw [h, h']
  text _ h := congrArg (State.write · _) h
  shown _ h := congrArg (State.write · _) h
  bind _ h := congrArg (State.declare · .block _ _) h
  declare _ _ _ h := congrArg (State.declare · _ _ _) h
  lookup := by
    rintro e name i s s' hk hn rfl
    exact (ha name (hk.here name hn)).lookup? s
  assign := by
    rintro e name i s s' v - - rfl
    cases s.assign? name v with
    | none => exact .none
    | some t => exact .some rfl

theorem execute_congr {P : String → Prop} (hs : scope.self = scope'.self)
    (he : scope.env = scope'.env) (ha : ∀ name, P name → scope.Agree scope' name)
    (hp : Stmt.AllEvery (.reading P) program) (limit : Nat) :
    execute scope limit program = execute scope' limit program := by
  have hr := (simulates_run (sameRun hs he ha) (hereditary_every _) limit () program
    (stmts_every hp) trivial).alike (rfl : State.initial = .initial)
  unfold execute
  generalize run scope limit program .initial = r, run scope' limit program .initial = r' at hr ⊢
  cases hr with
  | ok h =>
    cases h
    rfl
  | error h =>
    cases h
    rfl

/-- A run depends on the data only through the names that are read: scopes that agree on these give
the same output, or stop for the same reason on the same line. So a value may as well stand among the
locals, a local behind a value does not count, nor does a value that is never asked for. -/
theorem execute_eq_of_agree (scope : Scope) (program : List Stmt) (limit : Nat) :
    (∀ scope', scope.self = scope'.self → scope.env = scope'.env →
      Stmt.AllEvery (.reading (scope.Agree scope')) program →
      execute scope limit program = execute scope' limit program) ∧
    (Stmt.AllEvery (.reading (· ≠ "locals")) program → ∀ name v,
      (scope.values.get? name = none →
        execute (scope.insertValue name v) limit program =
          execute (scope.insertLocal name v) limit program) ∧
      (scope.values.get? name ≠ none →
        execute (scope.insertLocal name v) limit program = execute scope limit program)) ∧
    ∀ name v, Stmt.AllEvery (.reading fun n => n ≠ "locals" ∧ n ≠ name) program →
      execute (scope.insertValue name v) limit program = execute scope limit program ∧
      execute (scope.insertLocal name v) limit program = execute scope limit program := by
  refine ⟨fun scope' hs he hp => ?_, fun hp name v => ⟨fun hn => ?_, fun hn => ?_⟩,
    fun name v hp => ⟨?_, ?_⟩⟩
  · exact execute_congr hs he (fun _ ha => ha) hp limit
  · refine execute_congr ?_ ?_ (fun n hl => ⟨hl, ?_⟩) hp limit
    · rfl
    · rfl
    · rw [Scope.outer?_insertValue, Scope.outer?_insertLocal]
      split
      · rename_i he
        rw [he, hn, Option.none_or]
      · rfl
  · refine execute_congr ?_ ?_ (fun n hl => ⟨hl, ?_⟩) hp limit
    · rfl
    · rfl
    · rw [Scope.outer?_insertLocal]
      split
      · rename_i he
        obtain ⟨w, hw⟩ := Option.ne_none_iff_exists'.mp hn
        rw [he, hw, Scope.outer?, hw, Option.some_or, Option.some_or]
      · rfl
  · refine execute_congr ?_ ?_ (fun n hl => ⟨hl.1, ?_⟩) hp limit
    · rfl
    · rfl
    · rw [Scope.outer?_insertValue, if_neg hl.2]
  · refine execute_congr ?_ ?_ (fun n hl => ⟨hl.1, ?_⟩) hp limit
    · rfl
    · rfl
    · rw [Scope.outer?_insertLocal, if_neg hl.2]

/-- `a += b`, then the value of `a` and the kind of `c`. -/
def sumProgram : List Stmt :=
  [.expr (.assign "a" (some .add) (.ident "b")) 1, .output (.ident "a") true 2,
    .output (.unary .kind (.ident "c")) true 2]

def sumScope : Scope where
  values := .ofList [("a", .string "x"), ("b", .string "y")]
  locals := ∅
  self := .null
  env := ⟨∅, ∅, Value.display⟩

/-- Here `b` stands among the locals, and there are values that nobody asks for. -/
def movedScope : Scope :=
  { sumScope with
    values := .ofList [("a", .string "x"), ("z", .null)]
    locals := .ofList [("a", .null), ("b", .string "y")] }

theorem execute_eq_of_agree_sum :
    Stmt.AllEvery (.reading (sumScope.Agree movedScope)) sumProgram ∧
      Stmt.AllEvery (.reading (· ≠ "locals")) sumProgram ∧
      Stmt.AllEvery (.reading fun n => n ≠ "locals" ∧ n ≠ "z") sumProgram ∧
      execute movedScope 1 sumProgram = .ok "xyundefined" ∧
      execute (sumScope.insertLocal "a" .null) 1 sumProgram = .ok "xyundefined" ∧
      execute (sumScope.insertValue "z" .null) 1 sumProgram = .ok "xyundefined" := by
  have hnames : ∀ P : String → Prop, P "a" → P "b" → P "c" →
      Stmt.AllEvery (.reading P) sumProgram := by
    intro P ha hb hc
    simp [sumProgram, Stmt.AllEvery, Stmt.Every, Expr.Every, Checks.reading, Expr.reads?, ha, hb, hc]
  have hagree : Stmt.AllEvery (.reading (sumScope.Agree movedScope)) sumProgram :=
    hnames _ ⟨by decide, rfl⟩ ⟨by decide, rfl⟩ ⟨by decide, rfl⟩
  have hlocals := hnames (· ≠ "locals") (by decide) (by decide) (by decide)
  have hunnamed := hnames (fun n => n ≠ "locals" ∧ n ≠ "z") (by decide) (by decide) (by decide)
  have hout : execute sumScope 1 sumProgram = .ok "xyundefined" := rfl
  obtain ⟨hsame, hmoved, hextra⟩ := execute_eq_of_agree sumScope sumProgram 1
  refine ⟨hagree, hlocals, hunnamed, ?_, ?_, ?_⟩
  · exact (hsame movedScope rfl rfl hagree).symm.trans hout
  · exact ((hmoved hlocals "a" .null).2 nofun).trans hout
  · exact (hextra "z" .null hunnamed).1.trans hout

end Stencil.Script

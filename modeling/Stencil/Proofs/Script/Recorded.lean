import Stencil.Proofs.Script.Scoping

/-!
Runs that record what becomes of variables. A template is run as before, but the run also keeps a
record of the names that it binds with `var` and of those that it asks for. The main statement is
`records_run`: apart from the record both runs are the same, whoever asks for a name that has been
bound with `var` finds a value, and a run that ends because a name is undefined has asked for it in
vain.
-/

namespace Stencil.Script

set_option autoImplicit true

/-- What may happen to a variable. -/
inductive Event where
  /-- The name is bound with `var`. -/
  | bound (name : String)
  /-- The value of the name is asked for. -/
  | asked (name : String) (found : Bool)

/-- A state, and what has happened before it, the last event first. -/
structure Record where
  state : State
  events : List Event

/-- A computation that keeps a record. -/
abbrev Recorded := EStateM Halt Record

namespace Recorded

/-- A step that has nothing to do with any name that is bound with `var` or asked for. -/
def of (x : Exec α) : Recorded α := fun r =>
  match x r.state with
  | .ok a s => .ok a ⟨s, r.events⟩
  | .error h s => .error h ⟨s, r.events⟩

def note (event : Event) : Recorded Unit := modify fun r => ⟨r.state, event :: r.events⟩

def ask (scope : Scope) (name : String) : Recorded (Option Value) := do
  let found := scope.lookup? (← get).state name
  note (.asked name found.isSome)
  pure found

theorem ask_eq (scope : Scope) (name : String) (r : Record) : ask scope name r =
    .ok (scope.lookup? r.state name)
      ⟨r.state, .asked name (scope.lookup? r.state name).isSome :: r.events⟩ := rfl

def lookup (scope : Scope) (name : String) : Recorded Value := do
  match ← ask scope name with
  | some v => pure v
  | none => of (Exec.fail (.undefined name))

def declare (kind : DeclKind) (name : String) (v : Value) : Recorded Unit := do
  of (Exec.declare kind name v)
  if kind = .var then note (.bound name)

def inBlock (x : Recorded α) : Recorded α := fun r =>
  match x ⟨r.state.enter, r.events⟩ with
  | .ok a r => .ok a ⟨r.state.leave, r.events⟩
  | .error h r => .error h ⟨r.state.leave, r.events⟩

def rounds (round : Recorded (Option Flow)) : (limit : Nat) → Recorded Flow
  | 0 => throw .exhausted
  | limit + 1 => do
    match ← round with
    | some flow => pure flow
    | none => rounds round limit

def each (round : Value → Recorded (Option Flow)) : List Value → Recorded Flow
  | [] => pure .normal
  | v :: rest => do
    match ← round v with
    | some flow => pure flow
    | none => each round rest

def visit (visit : Visit) (call : Value → Nat → Recorded Value) (soFar : List Value)
    (index : Nat) : List Value → Recorded Value
  | [] => pure (visit.final soFar.reverse)
  | item :: rest => do
    let result ← call item index
    match visit.stop? item result with
    | some v => pure v
    | none => Recorded.visit visit call (visit.kept item result ++ soFar) (index + 1) rest

def callback (params : List String) (args : List Value) (body : Recorded Flow) :
    Recorded Value := do
  let line := (← get).state.line
  let flow ← inBlock do
    of (bindParams params args)
    body
  of (Exec.atLine line)
  pure flow.result

end Recorded

open Recorded (of)

mutual

def evalRecorded (scope : Scope) (limit : Nat) : Expr → Recorded Value
  | .value v => pure v
  | .ident name => Recorded.lookup scope name
  | .self => pure scope.self
  | .array items => do
    let values ← evalAllRecorded scope limit items
    pure (.array values)
  | .object fields => do
    let values ← evalFieldsRecorded scope limit fields
    pure (.object (Entries.ofList values))
  | .member target key => do
    let target ← evalRecorded scope limit target
    let key ← evalRecorded scope limit key
    of (Exec.lift (property target key))
  | .filter name args => do
    let values ← evalAllRecorded scope limit args
    of (Exec.lift (callFilter scope.env name values))
  | .call name args => do
    let values ← evalAllRecorded scope limit args
    of (Exec.lift (callFunction scope.env name values))
  | .method target name args => do
    let target ← evalRecorded scope limit target
    match args with
    | [.function params body] => do
      let (visit, items) ← of (Exec.lift (visited target name))
      Recorded.visit visit (fun item index =>
        Recorded.callback params [item, .ofNat index, target] (runRecorded scope limit body))
        [] 0 items
    | args => do
      let values ← evalAllRecorded scope limit args
      of (Exec.lift (callMethod target name values))
  | .unary op operand => do
    match op, operand with
    | .kind, .ident name => do
      let found ← Recorded.ask scope name
      pure (.string (found.elim "undefined" Value.typeName))
    | op, operand => do
      let v ← evalRecorded scope limit operand
      pure (op.apply v)
  | .binary op left right => do
    let a ← evalRecorded scope limit left
    let b ← evalRecorded scope limit right
    pure (op.apply a b)
  | .logical onTrue left right => do
    let v ← evalRecorded scope limit left
    if v.truthy = onTrue then evalRecorded scope limit right else pure v
  | .conditional test yes no => do
    let v ← evalRecorded scope limit test
    if v.truthy then evalRecorded scope limit yes else evalRecorded scope limit no
  | .assign name op value => do
    let v ← evalRecorded scope limit value
    let v ← match op with
      | none => pure v
      | some op => do
        let old ← Recorded.lookup scope name
        pure (op.apply old v)
    of (Exec.assign name v)
    pure v
  | .update name increment before => do
    let old ← Recorded.lookup scope name
    let x := old.toFloat
    let y := if increment then x + 1 else x - 1
    of (Exec.assign name (.ofFloat y))
    pure (.ofFloat (if before then y else x))
  | .function _ _ => of (Exec.fail .strayFunction)

def evalAllRecorded (scope : Scope) (limit : Nat) : List Expr → Recorded (List Value)
  | [] => pure []
  | e :: rest => do
    let v ← evalRecorded scope limit e
    let vs ← evalAllRecorded scope limit rest
    pure (v :: vs)

def evalFieldsRecorded (scope : Scope) (limit : Nat) :
    List (String × Expr) → Recorded (List (String × Value))
  | [] => pure []
  | (name, e) :: rest => do
    let v ← evalRecorded scope limit e
    let vs ← evalFieldsRecorded scope limit rest
    pure ((name, v) :: vs)

def declareAllRecorded (scope : Scope) (limit : Nat) (kind : DeclKind) :
    List (String × Option Expr) → Recorded Unit
  | [] => pure ()
  | (name, some e) :: rest => do
    let v ← evalRecorded scope limit e
    Recorded.declare kind name v
    declareAllRecorded scope limit kind rest
  | (name, none) :: rest => do
    Recorded.declare kind name .null
    declareAllRecorded scope limit kind rest

def execRecorded (scope : Scope) (limit : Nat) : Stmt → Recorded Flow
  | .output e escape line => do
    of (Exec.atLine line)
    let v ← evalRecorded scope limit e
    of (modify fun st => st.write (if escape then scope.env.escaper v else v.display))
    pure .normal
  | .expr e line => do
    of (Exec.atLine line)
    let _ ← evalRecorded scope limit e
    pure .normal
  | .declare kind decls line => do
    of (Exec.atLine line)
    declareAllRecorded scope limit kind decls
    pure .normal
  | .branch test yes no line => do
    of (Exec.atLine line)
    let v ← evalRecorded scope limit test
    if v.truthy then execRecorded scope limit yes
    else
      match no with
      | some no => execRecorded scope limit no
      | none => pure .normal
  | .forOf name items body line => do
    of (Exec.atLine line)
    let v ← evalRecorded scope limit items
    match elements? v with
    | none => of (Exec.fail (.notIterable v.describe))
    | some values =>
      Recorded.each (fun v => Recorded.inBlock do
        Recorded.declare .block name v
        let flow ← execRecorded scope limit body
        pure flow.ofRound) values
  | .forIn name target body line => do
    of (Exec.atLine line)
    let v ← evalRecorded scope limit target
    Recorded.each (fun key => Recorded.inBlock do
      Recorded.declare .block name key
      let flow ← execRecorded scope limit body
      pure flow.ofRound) (keys v)
  | .loop first test update body line => Recorded.inBlock do
    of (Exec.atLine line)
    match first with
    | some first => discard (execRecorded scope limit first)
    | none => pure ()
    Recorded.rounds (do
      of (Exec.atLine line)
      let go ← match test with
        | some test => do
          let v ← evalRecorded scope limit test
          pure v.truthy
        | none => pure true
      if go then
        let flow ← Recorded.inBlock (execRecorded scope limit body)
        match flow.ofRound with
        | some flow => pure (some flow)
        | none => do
          of (Exec.atLine line)
          match update with
          | some update => discard (evalRecorded scope limit update)
          | none => pure ()
          pure none
      else pure (some .normal)) limit
  | .whileDo test body line =>
    Recorded.rounds (do
      of (Exec.atLine line)
      let v ← evalRecorded scope limit test
      if v.truthy then
        let flow ← Recorded.inBlock (execRecorded scope limit body)
        pure flow.ofRound
      else pure (some .normal)) limit
  | .block body => Recorded.inBlock (runRecorded scope limit body)
  | .giveBack (some e) => do
    let v ← evalRecorded scope limit e
    pure (.giveBack v)
  -- Neither texts nor jumps have to do with variables.
  | stmt => of (exec scope limit stmt)

def runRecorded (scope : Scope) (limit : Nat) : List Stmt → Recorded Flow
  | [] => pure .normal
  | stmt :: rest => do
    match ← execRecorded scope limit stmt with
    | .normal => runRecorded scope limit rest
    | flow => pure flow

end

/-- Who asks for a name after it has been bound with `var` finds a value. -/
def Event.Heeds : Event → Event → Prop
  | asked name found, bound other => name = other → found = true
  | _, _ => True

/-- What has been bound with `var` is in the frame of the template, and was found ever since. -/
structure Record.Sound (r : Record) : Prop where
  bound : .bound name ∈ r.events → r.state.base.contains name = true
  heeded : r.events.Pairwise Event.Heeds

/-- Both end in the same way, with a sound record that goes on from `before`; and if a name is
undefined, it has been asked for in vain at last. -/
inductive Recorded.Ends (before : List Event) :
    EStateM.Result Halt Record α → EStateM.Result Halt State α → Prop
  | ok (h : r.Sound) (hb : before <:+ r.events) : Ends before (.ok a r) (.ok a r.state)
  | error (h : r.Sound) (hb : before <:+ r.events)
      (hu : ∀ name, e = .error (.undefined name) → r.events.head? = some (.asked name false)) :
      Ends before (.error e r) (.error e r.state)

theorem Recorded.Ends.mono {result : EStateM.Result Halt Record α} (h : Ends later result result')
    (hb : before <:+ later) : Ends before result result' := by
  cases h with
  | ok h hl => exact .ok h (hb.trans hl)
  | error h hl hu => exact .error h (hb.trans hl) hu

/-- From a sound record, the recorded computation ends as the other one does. -/
structure Records (x : Recorded α) (y : Exec α) : Prop where
  ends : Record.Sound r → Recorded.Ends r.events (x r) (y r.state)

/-- The computation takes no name from the frame of the template, and where it fails no name is
undefined. -/
structure Exec.Mild (x : Exec α) : Prop where
  keeps : ∀ s name, s.base.contains name = true → (x.after s).base.contains name = true
  defined : ∀ s t name, x s ≠ .error (.error (.undefined name)) t

theorem Record.Sound.go {r : Record} (h : r.Sound)
    (hs : ∀ name, r.state.base.contains name = true → s.base.contains name = true) :
    Record.Sound ⟨s, r.events⟩ where
  bound hb := hs _ (h.bound hb)
  heeded := h.heeded

/-- What is in the frame of the template is found. -/
theorem Scope.isSome_lookup? (scope : Scope) {s : State} (h : s.base.contains name = true) :
    (scope.lookup? s name).isSome = true := by
  obtain ⟨b, hb⟩ := Option.isSome_iff_exists.mp h
  rw [Scope.lookup?, binding?_eq, hb]
  cases s.blocks.findSome? fun frame => frame.get? name <;> rfl

theorem Record.Sound.ask {r : Record} (h : r.Sound) (scope : Scope) (name : String) :
    Record.Sound ⟨r.state, .asked name (scope.lookup? r.state name).isSome :: r.events⟩ where
  bound hb := by
    rcases List.mem_cons.mp hb with hb | hb
    · cases hb
    · exact h.bound hb
  heeded := by
    refine List.pairwise_cons.mpr ⟨?_, h.heeded⟩
    intro event he
    cases event with
    | asked => trivial
    | bound other =>
      rintro rfl
      exact scope.isSome_lookup? (h.bound he)

theorem Record.Sound.note {r : Record} (h : r.Sound) (hn : r.state.base.contains name = true) :
    Record.Sound ⟨r.state, .bound name :: r.events⟩ where
  bound hb := by
    rcases List.mem_cons.mp hb with hb | hb
    · cases hb
      exact hn
    · exact h.bound hb
  heeded := List.pairwise_cons.mpr ⟨fun _ _ => trivial, h.heeded⟩

namespace Exec.Mild

theorem pure (a : α) : Mild (Pure.pure a) where
  keeps _ _ h := h
  defined := nofun

theorem lift {r : Except RuntimeError α} (h : ∀ name, r ≠ .error (.undefined name)) :
    Mild (Exec.lift r) := by
  cases r with
  | ok a => exact pure a
  | error e =>
    refine ⟨fun _ _ h => h, ?_⟩
    rintro s t name hs
    cases hs
    exact h name rfl

theorem fail {e : RuntimeError} (h : ∀ name, e ≠ .undefined name) : Mild (Exec.fail e : Exec α) :=
  lift (r := .error e) fun name he => h name (Except.error.inj he)

theorem modify {f : State → State} (h : ∀ s, (f s).base = s.base) : Mild (modify f) where
  keeps s _ hn := (h s).symm ▸ hn
  defined := nofun

theorem declare (kind : DeclKind) (name : String) (v : Value) :
    Mild (Exec.declare kind name v) where
  keeps s := (State.kept_declare 0 s kind name v).base
  defined := nofun

theorem assign (name : String) (v : Value) : Mild (Exec.assign name v) := by
  have hs (s : State) : (Exec.assign name v s = .error (.error (.constantAssigned name)) s) ∨
      ∃ t, s.assign? name v = some t ∧ Exec.assign name v s = .ok () t := by
    have hg : (get : Exec State) s = .ok s s := rfl
    rw [Exec.assign, bind_eq_of_ok hg]
    cases s.assign? name v with
    | none => exact .inl rfl
    | some t => exact .inr ⟨t, rfl, rfl⟩
  constructor
  · intro s other hn
    rw [Exec.after]
    rcases hs s with he | ⟨t, ht, he⟩
    · rw [he]
      exact hn
    · rw [he]
      exact (State.kept_assign? ht).base other hn
  · intro s t other he
    rcases hs s with he' | ⟨t, -, he'⟩
    · rw [he'] at he
      cases he
    · rw [he'] at he
      cases he

theorem bindParams (names : List String) (values : List Value) :
    Mild (Script.bindParams names values) := by
  induction names generalizing values with
  | nil => exact pure ()
  | cons name names ih =>
    cases values with
    | nil => exact pure ()
    | cons v values =>
      obtain ⟨hk, hd⟩ := ih values
      constructor
      · intro s other hn
        exact hk _ other ((declare .block name v).keeps s other hn)
      · intro s t other
        exact hd _ t other

end Exec.Mild

theorem property_ne_undefined (target key : Value) (name : String) :
    property target key ≠ .error (.undefined name) := by
  unfold property
  split <;> nofun

theorem visited_ne_undefined (target : Value) (method name : String) :
    visited target method ≠ .error (.undefined name) := by
  unfold visited
  split <;> nofun

theorem callMethod_ne_undefined (target : Value) (method : String) (args : List Value)
    (name : String) : callMethod target method args ≠ .error (.undefined name) := by
  unfold callMethod
  split
  · nofun
  · split <;> nofun

theorem callFilter_ne_undefined (env : Environment) (filter : String) (args : List Value)
    (name : String) : callFilter env filter args ≠ .error (.undefined name) := by
  unfold callFilter Environment.filter
  split
  · nofun
  · rename_i f _
    cases f (args.headD .null) args.tail <;> nofun

theorem callFunction_ne_undefined (env : Environment) (function : String) (args : List Value)
    (name : String) : callFunction env function args ≠ .error (.undefined name) := by
  unfold callFunction
  split
  · nofun
  · unfold Environment.call
    split
    · nofun
    · rename_i f _
      cases f args <;> nofun

namespace Records

theorem pure (a : α) : Records (Pure.pure a) (Pure.pure a) where
  ends h := .ok h List.suffix_rfl

theorem bind {x : Recorded α} {y : Exec α} {f : α → Recorded β} {g : α → Exec β}
    (hx : Records x y) (hf : ∀ a, Records (f a) (g a)) : Records (x >>= f) (y >>= g) where
  ends {r} h := by
    change Recorded.Ends r.events (EStateM.bind x f r) (EStateM.bind y g r.state)
    unfold EStateM.bind
    have he := hx.ends h
    generalize x r = result, y r.state = result' at he
    cases he with
    | ok h hb => exact ((hf _).ends h).mono hb
    | error h hb hu => exact .error h hb hu

theorem discard {x : Recorded α} {y : Exec α} (hx : Records x y) :
    Records (discard x) (discard y) :=
  hx.bind fun _ => .pure _

theorem mild {x : Exec α} (hx : x.Mild) : Records (of x) x where
  ends {r} h := by
    have hk := hx.keeps r.state
    have hd := hx.defined r.state
    unfold Exec.after at hk
    unfold of
    generalize x r.state = result at hk hd
    cases result with
    | ok a s => exact .ok (h.go hk) List.suffix_rfl
    | error e s =>
      refine .error (h.go hk) List.suffix_rfl ?_
      rintro name rfl
      exact absurd rfl (hd s name)

theorem atLine (line : Nat) : Records (of (Exec.atLine line)) (Exec.atLine line) :=
  .mild (.modify fun _ => rfl)

theorem write (text : String) :
    Records (of (modify fun s => s.write text)) (modify fun s => s.write text) :=
  .mild (.modify fun _ => rfl)

theorem lookup (scope : Scope) (name : String) :
    Records (Recorded.lookup scope name) (Exec.lookup scope name) where
  ends {r} h := by
    have ha := h.ask scope name
    rw [Recorded.lookup, bind_eq_of_ok (Recorded.ask_eq scope name r)]
    cases hf : scope.lookup? r.state name with
    | some v =>
      rw [hf] at ha
      rw [Exec.lookup_of_some hf]
      exact .ok ha (List.suffix_cons _ _)
    | none =>
      rw [hf] at ha
      rw [Exec.lookup_of_none hf]
      refine .error ha (List.suffix_cons _ _) ?_
      rintro _ ⟨⟩
      rfl

/-- To ask for the kind of a variable is to look at the state. -/
theorem ask {f : Option Value → Recorded α} {g : Option Value → Exec α}
    (hf : ∀ found, Records (f found) (g found)) (scope : Scope) (name : String) :
    Records (Recorded.ask scope name >>= f) (do g (scope.lookup? (← get) name)) where
  ends {r} h := by
    rw [bind_eq_of_ok (Recorded.ask_eq scope name r)]
    exact ((hf _).ends (h.ask scope name)).mono (List.suffix_cons _ _)

theorem declare (kind : DeclKind) (name : String) (v : Value) :
    Records (Recorded.declare kind name v) (Exec.declare kind name v) where
  ends {r} h := by
    have hs : Record.Sound ⟨r.state.declare kind name v, r.events⟩ :=
      h.go (State.kept_declare 0 r.state kind name v).base
    cases kind with
    | var =>
      have hn : (r.state.declare .var name v).base.contains name = true := by
        rw [State.declare, State.insertBase, Table.contains_insert, decide_eq_true rfl]
        rfl
      exact .ok (hs.note hn) (List.suffix_cons _ _)
    | block => exact .ok hs List.suffix_rfl
    | constant => exact .ok hs List.suffix_rfl

theorem inBlock {x : Recorded α} {y : Exec α} (hx : Records x y) :
    Records (Recorded.inBlock x) (Exec.inBlock y) where
  ends {r} h := by
    have he := hx.ends (r := ⟨r.state.enter, r.events⟩) (h.go fun _ hn => hn)
    unfold Recorded.inBlock Exec.inBlock
    generalize x _ = result, y _ = result' at he
    cases he with
    | ok h hb => exact .ok (h.go fun _ hn => hn) hb
    | error h hb hu => exact .error (h.go fun _ hn => hn) hb hu

theorem rounds {x : Recorded (Option Flow)} {y : Exec (Option Flow)} (hx : Records x y)
    (limit : Nat) : Records (Recorded.rounds x limit) (Exec.rounds y limit) := by
  induction limit with
  | zero => exact ⟨fun h => .error h List.suffix_rfl nofun⟩
  | succ limit ih =>
    apply hx.bind
    intro ending
    cases ending with
    | none => exact ih
    | some flow => exact .pure flow

theorem each {f : Value → Recorded (Option Flow)} {g : Value → Exec (Option Flow)}
    (hf : ∀ v, Records (f v) (g v)) (values : List Value) :
    Records (Recorded.each f values) (Exec.each g values) := by
  induction values with
  | nil => exact .pure _
  | cons v rest ih =>
    apply (hf v).bind
    intro ending
    cases ending with
    | none => exact ih
    | some flow => exact .pure flow

theorem visit {f : Value → Nat → Recorded Value} {g : Value → Nat → Exec Value}
    (hf : ∀ v i, Records (f v i) (g v i)) (visit : Visit) (soFar : List Value) (index : Nat)
    (items : List Value) :
    Records (Recorded.visit visit f soFar index items) (visit.run g soFar index items) := by
  induction items generalizing soFar index with
  | nil => exact .pure _
  | cons item rest ih =>
    apply (hf item index).bind
    intro result
    cases visit.stop? item result with
    | none => exact ih _ _
    | some v => exact .pure v

theorem callback {body : Recorded Flow} {body' : Exec Flow} (h : Records body body')
    (params : List String) (args : List Value) :
    Records (Recorded.callback params args body) (callback params args body') where
  ends {r} hr := by
    have hbody : Records (Recorded.inBlock do of (bindParams params args); body)
        (Exec.inBlock do bindParams params args; body') := by
      apply inBlock
      apply (mild (.bindParams params args)).bind
      intro _
      exact h
    have hback (flow : Flow) : Records (do of (Exec.atLine r.state.line); Pure.pure flow.result)
        (do Exec.atLine r.state.line; Pure.pure flow.result) := by
      apply (atLine _).bind
      intro _
      exact .pure _
    exact (hbody.bind hback).ends hr

end Records

mutual

theorem records_eval (scope : Scope) (limit : Nat) : (e : Expr) →
    Records (evalRecorded scope limit e) (eval scope limit e)
  | .value v => .pure v
  | .ident name => .lookup scope name
  | .self => .pure scope.self
  | .array items => by
    rw [evalRecorded, eval]
    apply (records_evalAll scope limit items).bind
    intro values
    exact .pure _
  | .object fields => by
    rw [evalRecorded, eval]
    apply (records_evalFields scope limit fields).bind
    intro values
    exact .pure _
  | .member target key => by
    rw [evalRecorded, eval]
    apply (records_eval scope limit target).bind
    intro v
    apply (records_eval scope limit key).bind
    intro w
    exact .mild (.lift (property_ne_undefined v w))
  | .filter name args => by
    rw [evalRecorded, eval]
    apply (records_evalAll scope limit args).bind
    intro values
    exact .mild (.lift (callFilter_ne_undefined scope.env name values))
  | .call name args => by
    rw [evalRecorded, eval]
    apply (records_evalAll scope limit args).bind
    intro values
    exact .mild (.lift (callFunction_ne_undefined scope.env name values))
  | .method target name args => by
    rw [evalRecorded, eval]
    apply (records_eval scope limit target).bind
    intro v
    split
    · rename_i params body
      apply (Records.mild (.lift (visited_ne_undefined v name))).bind
      intro visited
      apply Records.visit
      intro item index
      apply Records.callback
      exact records_run scope limit body
    · rename_i hargs
      have hplain : Records
          (do
            let values ← evalAllRecorded scope limit args
            of (Exec.lift (callMethod v name values)))
          (do
            let values ← evalAll scope limit args
            Exec.lift (callMethod v name values)) := by
        apply (records_evalAll scope limit args).bind
        intro values
        exact .mild (.lift (callMethod_ne_undefined v name values))
      -- Both sides may share the match that is split above.
      first
        | exact hplain
        | split
          · exact absurd rfl (hargs _ _)
          · exact hplain
  | .unary op operand => by
    rw [evalRecorded.eq_def, eval.eq_def]
    dsimp only
    split
    · rename_i name
      exact .ask (fun _ => .pure _) scope name
    · rename_i hop
      have hplain : Records
          (do
            let v ← evalRecorded scope limit operand
            pure (op.apply v))
          (do
            let v ← eval scope limit operand
            pure (op.apply v)) := by
        apply (records_eval scope limit operand).bind
        intro v
        exact .pure _
      first
        | exact hplain
        | split
          · exact absurd rfl (hop _ rfl)
          · exact hplain
  | .binary op left right => by
    rw [evalRecorded, eval]
    apply (records_eval scope limit left).bind
    intro a
    apply (records_eval scope limit right).bind
    intro b
    exact .pure _
  | .logical onTrue left right => by
    rw [evalRecorded, eval]
    apply (records_eval scope limit left).bind
    intro v
    split
    · exact records_eval scope limit right
    · exact .pure v
  | .conditional test yes no => by
    rw [evalRecorded, eval]
    apply (records_eval scope limit test).bind
    intro v
    split
    · exact records_eval scope limit yes
    · exact records_eval scope limit no
  | .assign name op value => by
    rw [evalRecorded, eval]
    apply (records_eval scope limit value).bind
    intro v
    -- What follows the choice of the operator is common to both cases.
    extract_lets store store'
    have hs : ∀ v, Records (store v) (store' v) := by
      intro v
      apply (Records.mild (.assign name v)).bind
      intro _
      exact .pure v
    cases op with
    | none => exact hs v
    | some op =>
      apply (Records.lookup scope name).bind
      intro old
      exact hs _
  | .update name increment before => by
    rw [evalRecorded, eval]
    apply (Records.lookup scope name).bind
    intro old
    apply (Records.mild (.assign name _)).bind
    intro _
    exact .pure _
  | .function _ _ => .mild (.fail nofun)

theorem records_evalAll (scope : Scope) (limit : Nat) : (es : List Expr) →
    Records (evalAllRecorded scope limit es) (evalAll scope limit es)
  | [] => .pure []
  | e :: rest => by
    rw [evalAllRecorded, evalAll]
    apply (records_eval scope limit e).bind
    intro v
    apply (records_evalAll scope limit rest).bind
    intro vs
    exact .pure _

theorem records_evalFields (scope : Scope) (limit : Nat) : (fields : List (String × Expr)) →
    Records (evalFieldsRecorded scope limit fields) (evalFields scope limit fields)
  | [] => .pure []
  | (name, e) :: rest => by
    rw [evalFieldsRecorded, evalFields]
    apply (records_eval scope limit e).bind
    intro v
    apply (records_evalFields scope limit rest).bind
    intro vs
    exact .pure _

theorem records_declareAll (scope : Scope) (limit : Nat) (kind : DeclKind) :
    (decls : List (String × Option Expr)) →
    Records (declareAllRecorded scope limit kind decls) (declareAll scope limit kind decls)
  | [] => .pure ()
  | (name, some e) :: rest => by
    rw [declareAllRecorded, declareAll]
    apply (records_eval scope limit e).bind
    intro v
    apply (Records.declare kind name v).bind
    intro _
    exact records_declareAll scope limit kind rest
  | (name, none) :: rest => by
    rw [declareAllRecorded, declareAll]
    apply (Records.declare kind name .null).bind
    intro _
    exact records_declareAll scope limit kind rest

theorem records_exec (scope : Scope) (limit : Nat) : (stmt : Stmt) →
    Records (execRecorded scope limit stmt) (exec scope limit stmt)
  | .text s => .mild ⟨fun _ _ h => h, nofun⟩
  | .output e escape line => by
    rw [execRecorded, exec]
    apply (Records.atLine line).bind
    intro _
    apply (records_eval scope limit e).bind
    intro v
    apply (Records.write _).bind
    intro _
    exact .pure _
  | .expr e line => by
    rw [execRecorded, exec]
    apply (Records.atLine line).bind
    intro _
    apply (records_eval scope limit e).bind
    intro v
    exact .pure _
  | .declare kind decls line => by
    rw [execRecorded, exec]
    apply (Records.atLine line).bind
    intro _
    apply (records_declareAll scope limit kind decls).bind
    intro _
    exact .pure _
  | .branch test yes no line => by
    rw [execRecorded.eq_def, exec.eq_def]
    dsimp only
    apply (Records.atLine line).bind
    intro _
    apply (records_eval scope limit test).bind
    intro v
    split
    · exact records_exec scope limit yes
    · cases no with
      | some no => exact records_exec scope limit no
      | none => exact .pure _
  | .forOf name items body line => by
    rw [execRecorded, exec]
    apply (Records.atLine line).bind
    intro _
    apply (records_eval scope limit items).bind
    intro v
    cases elements? v with
    | none => exact .mild (.fail nofun)
    | some values =>
      apply Records.each
      intro v
      apply Records.inBlock
      apply (Records.declare .block name v).bind
      intro _
      apply (records_exec scope limit body).bind
      intro flow
      exact .pure _
  | .forIn name target body line => by
    rw [execRecorded, exec]
    apply (Records.atLine line).bind
    intro _
    apply (records_eval scope limit target).bind
    intro v
    apply Records.each
    intro key
    apply Records.inBlock
    apply (Records.declare .block name key).bind
    intro _
    apply (records_exec scope limit body).bind
    intro flow
    exact .pure _
  | .loop first test update body line => by
    rw [execRecorded, exec]
    apply Records.inBlock
    apply (Records.atLine line).bind
    intro _
    -- The end of a round, a round, and all rounds are common to the optional parts of the head.
    extract_lets next round rest next' round' rest'
    have hround : ∀ go, Records (round go) (round' go) := by
      intro go
      dsimp only [round, round']
      split
      · apply (records_exec scope limit body).inBlock.bind
        intro flow
        cases flow.ofRound with
        | some flow => exact .pure _
        | none =>
          apply (Records.atLine line).bind
          intro _
          cases update with
          | none => exact .pure _
          | some update =>
            apply (records_eval scope limit update).discard.bind
            intro _
            exact .pure _
      · exact .pure _
    have hrest : ∀ u, Records (rest u) (rest' u) := by
      intro _
      apply Records.rounds
      apply (Records.atLine line).bind
      intro _
      cases test with
      | none => exact hround true
      | some test =>
        apply (records_eval scope limit test).bind
        intro _
        exact hround _
    cases first with
    | none => exact hrest ()
    | some first =>
      apply (records_exec scope limit first).discard.bind
      exact hrest
  | .whileDo test body line => by
    rw [execRecorded, exec]
    apply Records.rounds
    apply (Records.atLine line).bind
    intro _
    apply (records_eval scope limit test).bind
    intro v
    split
    · apply (records_exec scope limit body).inBlock.bind
      intro flow
      exact .pure _
    · exact .pure _
  | .block body => by
    rw [execRecorded, exec]
    exact (records_run scope limit body).inBlock
  | .breakLoop => .mild (.pure _)
  | .continueLoop => .mild (.pure _)
  | .giveBack (some e) => by
    rw [execRecorded, exec]
    apply (records_eval scope limit e).bind
    intro v
    exact .pure _
  | .giveBack none => .mild (.pure _)
  | .empty => .mild (.pure _)

theorem records_run (scope : Scope) (limit : Nat) : (body : List Stmt) →
    Records (runRecorded scope limit body) (run scope limit body)
  | [] => .pure _
  | stmt :: rest => by
    rw [runRecorded, run]
    apply (records_exec scope limit stmt).bind
    intro flow
    cases flow with
    | normal => exact records_run scope limit rest
    | _ => exact .pure _

end

end Stencil.Script

import Stencil.Proofs.Script.Simulation

/-!
The innermost statement under execution, and the line that is reported for it. A template is run as
before, but a run that stops early also tells in which statement: the first one that the error leaves.
The main statement is `told_run`: apart from that, both runs are the same, and the line in place is the
one of that statement, unless it gives back a value.
-/

namespace Stencil.Script

set_option autoImplicit true

/-- A computation that tells, when it stops early, the statement that it has left first. -/
abbrev Traced := EStateM (Halt × Option Stmt) State

namespace Traced

/-- A computation that runs no statement. -/
def of (x : Exec α) : Traced α := fun s =>
  match x s with
  | .ok a t => .ok a t
  | .error h t => .error (h, none) t

/-- An error that comes from no statement inside comes from this one. -/
def during (stmt : Stmt) (x : Traced α) : Traced α := fun s =>
  match x s with
  | .ok a t => .ok a t
  | .error (h, culprit) t => .error (h, some (culprit.getD stmt)) t

def inBlock (x : Traced α) : Traced α := fun s =>
  match x s.enter with
  | .ok a t => .ok a t.leave
  | .error h t => .error h t.leave

def rounds (round : Traced (Option Flow)) : (limit : Nat) → Traced Flow
  | 0 => of (throw .exhausted)
  | limit + 1 => do
    match ← round with
    | some flow => pure flow
    | none => rounds round limit

def each (round : Value → Traced (Option Flow)) : List Value → Traced Flow
  | [] => pure .normal
  | v :: rest => do
    match ← round v with
    | some flow => pure flow
    | none => each round rest

def visit (visit : Visit) (call : Value → Nat → Traced Value) (soFar : List Value) (index : Nat) :
    List Value → Traced Value
  | [] => pure (visit.final soFar.reverse)
  | item :: rest => do
    let result ← call item index
    match visit.stop? item result with
    | some v => pure v
    | none => Traced.visit visit call (visit.kept item result ++ soFar) (index + 1) rest

def callback (params : List String) (args : List Value) (body : Traced Flow) : Traced Value := do
  let line := (← get).line
  let flow ← inBlock do
    of (bindParams params args)
    body
  of (Exec.atLine line)
  pure flow.result

end Traced

open Traced (of during)

mutual

def evalTraced (scope : Scope) (limit : Nat) : Expr → Traced Value
  | .array items => do
    let values ← evalAllTraced scope limit items
    pure (.array values)
  | .object fields => do
    let values ← evalFieldsTraced scope limit fields
    pure (.object (Entries.ofList values))
  | .member target key => do
    let target ← evalTraced scope limit target
    let key ← evalTraced scope limit key
    of (Exec.lift (property target key))
  | .filter name args => do
    let values ← evalAllTraced scope limit args
    of (Exec.lift (callFilter scope.env name values))
  | .call name args => do
    let values ← evalAllTraced scope limit args
    of (Exec.lift (callFunction scope.env name values))
  | .method target name args => do
    let target ← evalTraced scope limit target
    match args with
    | [.function params body] => do
      let (visit, items) ← of (Exec.lift (visited target name))
      Traced.visit visit (fun item index =>
        Traced.callback params [item, .ofNat index, target] (runTraced scope limit body)) [] 0 items
    | args => do
      let values ← evalAllTraced scope limit args
      of (Exec.lift (callMethod target name values))
  | .unary op operand => do
    match op, operand with
    | .kind, .ident name => of (eval scope limit (.unary .kind (.ident name)))
    | op, operand => do
      let v ← evalTraced scope limit operand
      pure (op.apply v)
  | .binary op left right => do
    let a ← evalTraced scope limit left
    let b ← evalTraced scope limit right
    pure (op.apply a b)
  | .logical onTrue left right => do
    let v ← evalTraced scope limit left
    if v.truthy = onTrue then evalTraced scope limit right else pure v
  | .conditional test yes no => do
    let v ← evalTraced scope limit test
    if v.truthy then evalTraced scope limit yes else evalTraced scope limit no
  | .assign name op value => do
    let v ← evalTraced scope limit value
    of do
      let v ← match op with
        | none => pure v
        | some op => do
          let old ← Exec.lookup scope name
          pure (op.apply old v)
      Exec.assign name v
      pure v
  | e => of (eval scope limit e)

def evalAllTraced (scope : Scope) (limit : Nat) : List Expr → Traced (List Value)
  | [] => pure []
  | e :: rest => do
    let v ← evalTraced scope limit e
    let vs ← evalAllTraced scope limit rest
    pure (v :: vs)

def evalFieldsTraced (scope : Scope) (limit : Nat) :
    List (String × Expr) → Traced (List (String × Value))
  | [] => pure []
  | (name, e) :: rest => do
    let v ← evalTraced scope limit e
    let vs ← evalFieldsTraced scope limit rest
    pure ((name, v) :: vs)

def declareAllTraced (scope : Scope) (limit : Nat) (kind : DeclKind) :
    List (String × Option Expr) → Traced Unit
  | [] => pure ()
  | (name, some e) :: rest => do
    let v ← evalTraced scope limit e
    of (Exec.declare kind name v)
    declareAllTraced scope limit kind rest
  | (name, none) :: rest => do
    of (Exec.declare kind name .null)
    declareAllTraced scope limit kind rest

/-- What a statement does. -/
def execTraced (scope : Scope) (limit : Nat) : Stmt → Traced Flow
  | .output e escape line => during (.output e escape line) do
    of (Exec.atLine line)
    let v ← evalTraced scope limit e
    of (modify fun st => st.write (if escape then scope.env.escaper v else v.display))
    pure .normal
  | .expr e line => during (.expr e line) do
    of (Exec.atLine line)
    let _ ← evalTraced scope limit e
    pure .normal
  | .declare kind decls line => during (.declare kind decls line) do
    of (Exec.atLine line)
    declareAllTraced scope limit kind decls
    pure .normal
  | .branch test yes no line => during (.branch test yes no line) do
    of (Exec.atLine line)
    let v ← evalTraced scope limit test
    if v.truthy then execTraced scope limit yes
    else
      match no with
      | some no => execTraced scope limit no
      | none => pure .normal
  | .forOf name items body line => during (.forOf name items body line) do
    of (Exec.atLine line)
    let v ← evalTraced scope limit items
    match elements? v with
    | none => of (Exec.fail (.notIterable v.describe))
    | some values =>
      Traced.each (fun v => Traced.inBlock do
        of (Exec.declare .block name v)
        let flow ← execTraced scope limit body
        pure flow.ofRound) values
  | .forIn name target body line => during (.forIn name target body line) do
    of (Exec.atLine line)
    let v ← evalTraced scope limit target
    Traced.each (fun key => Traced.inBlock do
      of (Exec.declare .block name key)
      let flow ← execTraced scope limit body
      pure flow.ofRound) (keys v)
  | .loop first test update body line => during (.loop first test update body line) <|
    Traced.inBlock do
    of (Exec.atLine line)
    match first with
    | some first => discard (execTraced scope limit first)
    | none => pure ()
    Traced.rounds (do
      of (Exec.atLine line)
      let go ← match test with
        | some test => do
          let v ← evalTraced scope limit test
          pure v.truthy
        | none => pure true
      if go then
        let flow ← Traced.inBlock (execTraced scope limit body)
        match flow.ofRound with
        | some flow => pure (some flow)
        | none => do
          of (Exec.atLine line)
          match update with
          | some update => discard (evalTraced scope limit update)
          | none => pure ()
          pure none
      else pure (some .normal)) limit
  | .whileDo test body line => during (.whileDo test body line) <|
    Traced.rounds (do
      of (Exec.atLine line)
      let v ← evalTraced scope limit test
      if v.truthy then
        let flow ← Traced.inBlock (execTraced scope limit body)
        pure flow.ofRound
      else pure (some .normal)) limit
  | .block body => Traced.inBlock (runTraced scope limit body)
  | .giveBack (some e) => during (.giveBack (some e)) do
    let v ← evalTraced scope limit e
    pure (.giveBack v)
  | stmt => of (exec scope limit stmt)

def runTraced (scope : Scope) (limit : Nat) : List Stmt → Traced Flow
  | [] => pure .normal
  | stmt :: rest => do
    match ← execTraced scope limit stmt with
    | .normal => runTraced scope limit rest
    | flow => pure flow

end

theorem State.line_declare (s : State) (kind : DeclKind) (name : String) (v : Value) :
    (s.declare kind name v).line = s.line := by
  cases kind with
  | var => rfl
  | _ =>
    simp only [State.declare, State.insertInner]
    split <;> rfl

theorem State.line_assign? {s t : State} (h : s.assign? name v = some t) : t.line = s.line := by
  unfold State.assign? at h
  split at h
  · split at h
    · cases h
    · cases h
      rfl
  · split at h
    · split at h
      · cases h
      · cases h
        rfl
    · cases h
      rfl

/-- The computation leaves the line that is in place. -/
def Exec.Steady (x : Exec α) : Prop := ∀ s, (x.after s).line = s.line

namespace Exec.Steady

theorem pure (a : α) : Steady (Pure.pure a) := fun _ => rfl

theorem fail (e : RuntimeError) : Steady (Exec.fail e : Exec α) := fun _ => rfl

theorem bind {x : Exec α} {f : α → Exec β} (hx : x.Steady) (hf : ∀ a, (f a).Steady) :
    (x >>= f).Steady := by
  intro s
  have hs := hx s
  change (Exec.after (EStateM.bind x f) s).line = s.line
  unfold Exec.after at hs ⊢
  unfold EStateM.bind
  generalize x s = r at hs ⊢
  cases r with
  | ok a t => exact (hf a t).trans hs
  | error e t => exact hs

theorem lift (r : Except RuntimeError α) : Steady (Exec.lift r) := by
  cases r with
  | ok a => exact pure a
  | error e => exact fail e

/-- A computation that looks at the state goes on from that state. -/
theorem get_bind {f : State → Exec α} (hf : ∀ s, ((f s).after s).line = s.line) :
    Steady (get >>= f) := hf

theorem lookup (scope : Scope) (name : String) : Steady (Exec.lookup scope name) := by
  apply get_bind
  intro s
  cases scope.lookup? s name with
  | some v => rfl
  | none => rfl

theorem assign (name : String) (v : Value) : Steady (Exec.assign name v) := by
  apply get_bind
  intro s
  cases h : s.assign? name v with
  | some t => exact State.line_assign? h
  | none => rfl

end Exec.Steady

/-- The line in place is the one of the statement, which has one unless it gives back a value. -/
def Stmt.At (stmt : Stmt) (line : Nat) : Prop :=
  stmt.line? = some line ∨ ∃ e, stmt = .giveBack (some e)

/-- Both end in the same way. If it is normal, the line in place is one of `B`; if an error comes
from no statement, one of `C`; and else that of the statement it comes from, one of `S`. -/
inductive Traced.Alike (S : Stmt → Prop) (B C : Nat → Prop) :
    EStateM.Result (Halt × Option Stmt) State α → EStateM.Result Halt State α → Prop
  | ok (h : B t.line) : Alike S B C (.ok a t) (.ok a t)
  | unowned (h : C t.line) : Alike S B C (.error (.error e, none) t) (.error (.error e) t)
  | owned (hs : S stmt) (hl : stmt.At t.line) :
      Alike S B C (.error (.error e, some stmt) t) (.error (.error e) t)
  | exhausted : Alike S B C (.error (.exhausted, culprit) t) (.error .exhausted t)

/-- From a line of `A`, the traced computation ends as the other one does. -/
structure Told (S : Stmt → Prop) (A B C : Nat → Prop) (x : Traced α) (y : Exec α) : Prop where
  alike : A s.line → Traced.Alike S B C (x s) (y s)

namespace Told

variable {S : Stmt → Prop} {A B C D : Nat → Prop}

theorem mono {x : Traced α} {y : Exec α} (h : Told S A B C x y) (ha : ∀ n, A' n → A n)
    (hb : ∀ n, B n → B' n) (hc : ∀ n, C n → C' n) : Told S A' B' C' x y where
  alike {s} hs := by
    have h' := h.alike (ha _ hs)
    generalize x s = r, y s = r' at h'
    cases h' with
    | ok h => exact .ok (hb _ h)
    | unowned h => exact .unowned (hc _ h)
    | owned hs hl => exact .owned hs hl
    | exhausted => exact .exhausted

theorem pure (a : α) : Told S A A C (Pure.pure a) (Pure.pure a) where
  alike h := .ok h

theorem bind {x : Traced α} {y : Exec α} {f : α → Traced β} {g : α → Exec β}
    (hx : Told S A B C x y) (hf : ∀ a, Told S B D C (f a) (g a)) :
    Told S A D C (x >>= f) (y >>= g) where
  alike {s} h := by
    change Traced.Alike S D C (EStateM.bind x f s) (EStateM.bind y g s)
    unfold EStateM.bind
    have ha := hx.alike h
    generalize x s = r, y s = r' at ha
    cases ha with
    | ok ht => exact (hf _).alike ht
    | unowned ht => exact .unowned ht
    | owned hs hl => exact .owned hs hl
    | exhausted => exact .exhausted

theorem any {x : Traced α} {y : Exec α} (h : Told S A B C x y) : Told S A (fun _ => True) C x y :=
  h.mono (fun _ h => h) (fun _ _ => trivial) fun _ h => h

theorem weaken {x : Traced α} {y : Exec α} (h : Told S (fun _ => True) B C x y) :
    Told S A B C x y :=
  h.mono (fun _ _ => trivial) (fun _ h => h) fun _ h => h

theorem discard {x : Traced α} {y : Exec α} (hx : Told S A B C x y) :
    Told S A B C (discard x) (discard y) :=
  hx.bind fun _ => .pure _

theorem steady {x : Exec α} (hx : x.Steady) :
    Told S (· = n) (· = n) (· = n) (Traced.of x) x where
  alike {s} h := by
    have hs := hx s
    unfold Exec.after at hs
    unfold Traced.of
    generalize x s = r at hs
    cases r with
    | ok a t => exact .ok (hs.trans h)
    | error halt t =>
      cases halt with
      | error e => exact .unowned (hs.trans h)
      | exhausted => exact .exhausted

theorem modify {f : State → State} (hf : ∀ s, (f s).line = s.line) :
    Told S A A C (Traced.of (modify f)) (modify f) where
  alike {s} h := .ok ((hf s).symm ▸ h)

theorem atLine (line : Nat) :
    Told S A (· = line) C (Traced.of (Exec.atLine line)) (Exec.atLine line) where
  alike _ := .ok rfl

/-- A statement answers for the errors of its own. -/
theorem during {stmt : Stmt} {x : Traced α} {y : Exec α} (hs : S stmt)
    (h : Told S A B stmt.At x y) : Told S A B D (Traced.during stmt x) y where
  alike {s} ha := by
    have h' := h.alike ha
    unfold Traced.during
    generalize x s = r, y s = r' at h'
    cases h' with
    | ok hb => exact .ok hb
    | unowned ht => exact .owned hs ht
    | owned hs hl => exact .owned hs hl
    | exhausted => exact .exhausted

theorem done (a : α) : Told S A (fun _ => True) C (Pure.pure a) (Pure.pure a) where
  alike _ := .ok trivial

theorem inBlock {x : Traced α} {y : Exec α} (h : Told S A B C x y) :
    Told S A B C (Traced.inBlock x) (Exec.inBlock y) where
  alike {s} ha := by
    have h' := h.alike (s := s.enter) ha
    unfold Traced.inBlock Exec.inBlock
    generalize x s.enter = r, y s.enter = r' at h'
    cases h' with
    | ok hb => exact .ok hb
    | unowned ht => exact .unowned ht
    | owned hs hl => exact .owned hs hl
    | exhausted => exact .exhausted

theorem rounds {x : Traced (Option Flow)} {y : Exec (Option Flow)} (h : Told S A A C x y)
    (limit : Nat) : Told S A A C (Traced.rounds x limit) (Exec.rounds y limit) := by
  induction limit with
  | zero => exact ⟨fun _ => .exhausted⟩
  | succ limit ih =>
    apply h.bind
    intro ending
    cases ending with
    | none => exact ih
    | some flow => exact .pure flow

theorem each {f : Value → Traced (Option Flow)} {g : Value → Exec (Option Flow)}
    (h : ∀ v, Told S A A C (f v) (g v)) (values : List Value) :
    Told S A A C (Traced.each f values) (Exec.each g values) := by
  induction values with
  | nil => exact .pure _
  | cons v rest ih =>
    apply (h v).bind
    intro ending
    cases ending with
    | none => exact ih
    | some flow => exact .pure flow

theorem visit {f : Value → Nat → Traced Value} {g : Value → Nat → Exec Value}
    (h : ∀ v i, Told S A A C (f v i) (g v i)) (visit : Visit) (soFar : List Value) (index : Nat)
    (items : List Value) :
    Told S A A C (Traced.visit visit f soFar index items) (visit.run g soFar index items) := by
  induction items generalizing soFar index with
  | nil => exact .pure _
  | cons item rest ih =>
    apply (h item index).bind
    intro result
    cases visit.stop? item result with
    | none => exact ih _ _
    | some v => exact .pure v

end Told

theorem Told.declare (kind : DeclKind) (name : String) (v : Value) :
    Told S A A C (of (Exec.declare kind name v)) (Exec.declare kind name v) :=
  .modify fun s => s.line_declare kind name v

theorem told_bindParams (names : List String) (values : List Value) :
    Told S A A C (of (bindParams names values)) (bindParams names values) := by
  have hb (s : State) : ∃ t, bindParams names values s = .ok () t ∧ t.line = s.line := by
    induction names generalizing values s with
    | nil => exact ⟨s, rfl, rfl⟩
    | cons name names ih =>
      cases values with
      | nil => exact ⟨s, rfl, rfl⟩
      | cons v values =>
        obtain ⟨t, ht, hl⟩ := ih values (s.declare .block name v)
        exact ⟨t, ht, hl.trans (s.line_declare .block name v)⟩
  constructor
  intro s hs
  obtain ⟨t, ht, hl⟩ := hb s
  unfold of
  rw [ht]
  exact .ok (hl ▸ hs)

/-- Statements answer for all their errors. -/
abbrev ToldAll (S : Stmt → Prop) (x : Traced α) (y : Exec α) : Prop :=
  Told S (fun _ => True) (fun _ => True) (fun _ => False) x y

/-- Expressions leave the line in place, also when something goes wrong in them. -/
abbrev ToldHere (S : Stmt → Prop) (x : Traced α) (y : Exec α) : Prop :=
  ∀ n, Told S (· = n) (· = n) (· = n) x y

/-- After a callback, the line of the caller is in place. -/
theorem told_callback {body : Traced Flow} {body' : Exec Flow} (h : ToldAll S body body')
    (params : List String) (args : List Value) :
    ToldHere S (Traced.callback params args body) (callback params args body') := by
  intro n
  constructor
  rintro s rfl
  have hbody : ToldAll S (Traced.inBlock do of (bindParams params args); body)
      (Exec.inBlock do bindParams params args; body') :=
    .inBlock ((told_bindParams params args).bind fun _ => h)
  change Traced.Alike S _ _ (EStateM.bind _ _ s) (EStateM.bind _ _ s)
  unfold EStateM.bind
  have ha := hbody.alike (s := s) trivial
  generalize Traced.inBlock _ s = r, Exec.inBlock _ s = r' at ha ⊢
  cases ha with
  | ok ht => exact .ok rfl
  | unowned ht => exact ht.elim
  | owned hs hl => exact .owned hs hl
  | exhausted => exact .exhausted

theorem ToldAll.of_ok {x : Exec α} (h : ∀ s, ∃ a t, x s = .ok a t) : ToldAll S (of x) x where
  alike {s} _ := by
    obtain ⟨a, t, ht⟩ := h s
    unfold of
    rw [ht]
    exact .ok trivial

/-- What is told of a statement may be told in the midst of another one. -/
theorem ToldAll.within {x : Traced α} {y : Exec α} (h : ToldAll S x y) :
    Told S A (fun _ => True) C x y :=
  h.mono (fun _ _ => trivial) (fun _ h => h) fun _ h => h.elim

/-- An expression in a statement that has put its line in place. -/
theorem ToldHere.owner {x : Traced α} {y : Exec α} (h : ToldHere S x y)
    (hl : Stmt.line? stmt = some line) : Told S (· = line) (· = line) stmt.At x y :=
  (h line).mono (fun _ h => h) (fun _ h => h) fun _ hn => .inl (hn ▸ hl)

theorem ToldHere.anywhere {x : Traced α} {y : Exec α} (h : ToldHere S x y) (hc : ∀ n, C n) :
    Told S (fun _ => True) (fun _ => True) C x y where
  alike {s} _ := ((h s.line).mono (fun _ h => h) (fun _ _ => trivial) fun n _ => hc n).alike rfl

section runs

variable {E : Expr → Prop} {S : Stmt → Prop}

mutual

theorem told_eval (k : Hereditary E S) (scope : Scope) (limit : Nat) : (e : Expr) → E e →
    ToldHere S (evalTraced scope limit e) (eval scope limit e)
  | .value v, _ => fun _ => .steady (.pure v)
  | .ident name, _ => fun _ => .steady (.lookup scope name)
  | .self, _ => fun _ => .steady (.pure scope.self)
  | .array items, h => by
    intro n
    rw [evalTraced, eval]
    apply (told_evalAll k scope limit items (k.array h) n).bind
    intro values
    exact .pure _
  | .object fields, h => by
    intro n
    rw [evalTraced, eval]
    apply (told_evalFields k scope limit fields (k.object h) n).bind
    intro values
    exact .pure _
  | .member target key, h => by
    intro n
    rw [evalTraced, eval]
    apply (told_eval k scope limit target (k.member h).1 n).bind
    intro v
    apply (told_eval k scope limit key (k.member h).2 n).bind
    intro w
    exact .steady (.lift _)
  | .filter name args, h => by
    intro n
    rw [evalTraced, eval]
    apply (told_evalAll k scope limit args (k.filter h) n).bind
    intro values
    exact .steady (.lift _)
  | .call name args, h => by
    intro n
    rw [evalTraced, eval]
    apply (told_evalAll k scope limit args (k.call h) n).bind
    intro values
    exact .steady (.lift _)
  | .method target name args, h => by
    intro n
    rw [evalTraced, eval]
    apply (told_eval k scope limit target (k.method h).1 n).bind
    intro v
    split
    · rename_i params body
      have hb := k.function ((k.method h).2 _ List.mem_cons_self)
      apply (Told.steady (.lift _)).bind
      intro visited
      apply Told.visit
      intro item index
      exact told_callback (told_run k scope limit body hb) _ _ n
    · rename_i hargs
      have hplain : Told S (· = n) (· = n) (· = n)
          (do
            let values ← evalAllTraced scope limit args
            of (Exec.lift (callMethod v name values)))
          (do
            let values ← evalAll scope limit args
            Exec.lift (callMethod v name values)) := by
        apply (told_evalAll k scope limit args (k.method h).2 n).bind
        intro values
        exact .steady (.lift _)
      -- Both sides may share the match that is split above.
      first
        | exact hplain
        | split
          · exact absurd rfl (hargs _ _)
          · exact hplain
  | .unary op operand, h => by
    intro n
    rw [evalTraced.eq_def, eval.eq_def]
    dsimp only
    split
    · rw [eval]
      exact .steady (.get_bind fun _ => rfl)
    · rename_i hop
      have hplain : Told S (· = n) (· = n) (· = n)
          (do
            let v ← evalTraced scope limit operand
            pure (op.apply v))
          (do
            let v ← eval scope limit operand
            pure (op.apply v)) := by
        apply (told_eval k scope limit operand (k.unary h) n).bind
        intro v
        exact .pure _
      first
        | exact hplain
        | split
          · exact absurd rfl (hop _ rfl)
          · exact hplain
  | .binary op left right, h => by
    intro n
    rw [evalTraced, eval]
    apply (told_eval k scope limit left (k.binary h).1 n).bind
    intro a
    apply (told_eval k scope limit right (k.binary h).2 n).bind
    intro b
    exact .pure _
  | .logical onTrue left right, h => by
    intro n
    rw [evalTraced, eval]
    apply (told_eval k scope limit left (k.logical h).1 n).bind
    intro v
    split
    · exact told_eval k scope limit right (k.logical h).2 n
    · exact .pure v
  | .conditional test yes no, h => by
    intro n
    obtain ⟨ht, hy, hn⟩ := k.conditional h
    rw [evalTraced, eval]
    apply (told_eval k scope limit test ht n).bind
    intro v
    split
    · exact told_eval k scope limit yes hy n
    · exact told_eval k scope limit no hn n
  | .assign name op value, h => by
    intro n
    rw [evalTraced, eval]
    apply (told_eval k scope limit value (k.assign h) n).bind
    intro v
    apply Told.steady
    extract_lets store
    have hs : ∀ v, (store v).Steady := fun v => (Exec.Steady.assign name v).bind fun _ => .pure v
    cases op with
    | none => exact hs v
    | some op => exact (Exec.Steady.lookup scope name).bind fun _ => hs _
  | .update name increment before, _ => by
    intro n
    rw [evalTraced.eq_def, eval]
    exact .steady ((Exec.Steady.lookup scope name).bind fun _ =>
      (Exec.Steady.assign name _).bind fun _ => .pure _)
  | .function _ _, _ => fun _ => .steady (.fail _)

theorem told_evalAll (k : Hereditary E S) (scope : Scope) (limit : Nat) : (es : List Expr) →
    (∀ e ∈ es, E e) → ToldHere S (evalAllTraced scope limit es) (evalAll scope limit es)
  | [], _ => fun _ => .pure []
  | e :: rest, h => by
    intro n
    obtain ⟨he, hrest⟩ := List.forall_mem_cons.mp h
    rw [evalAllTraced, evalAll]
    apply (told_eval k scope limit e he n).bind
    intro v
    apply (told_evalAll k scope limit rest hrest n).bind
    intro vs
    exact .pure _

theorem told_evalFields (k : Hereditary E S) (scope : Scope) (limit : Nat) :
    (fields : List (String × Expr)) → (∀ field ∈ fields, E field.2) →
    ToldHere S (evalFieldsTraced scope limit fields) (evalFields scope limit fields)
  | [], _ => fun _ => .pure []
  | (name, e) :: rest, h => by
    intro n
    obtain ⟨he, hrest⟩ := List.forall_mem_cons.mp h
    rw [evalFieldsTraced, evalFields]
    apply (told_eval k scope limit e he n).bind
    intro v
    apply (told_evalFields k scope limit rest hrest n).bind
    intro vs
    exact .pure _

theorem told_declareAll (k : Hereditary E S) (scope : Scope) (limit : Nat) (kind : DeclKind) :
    (decls : List (String × Option Expr)) → (∀ decl ∈ decls, ∀ e ∈ decl.2, E e) →
    ToldHere S (declareAllTraced scope limit kind decls) (declareAll scope limit kind decls)
  | [], _ => fun _ => .pure ()
  | (name, some e) :: rest, h => by
    intro n
    obtain ⟨he, hrest⟩ := List.forall_mem_cons.mp h
    rw [declareAllTraced, declareAll]
    apply (told_eval k scope limit e (he e rfl) n).bind
    intro v
    apply (Told.declare kind name v).bind
    intro _
    exact told_declareAll k scope limit kind rest hrest n
  | (name, none) :: rest, h => by
    intro n
    rw [declareAllTraced, declareAll]
    apply (Told.declare kind name .null).bind
    intro _
    exact told_declareAll k scope limit kind rest (List.forall_mem_cons.mp h).2 n

theorem told_exec (k : Hereditary E S) (scope : Scope) (limit : Nat) : (stmt : Stmt) → S stmt →
    ToldAll S (execTraced scope limit stmt) (exec scope limit stmt)
  | .text s, _ => .of_ok fun st => ⟨.normal, st.write s, rfl⟩
  | .output e escape line, h => by
    rw [execTraced, exec]
    apply Told.during h
    apply (Told.atLine line).bind
    intro _
    apply ((told_eval k scope limit e (k.output h)).owner rfl).bind
    intro v
    refine (Told.modify ?_).bind fun _ => .done _
    exact fun _ => rfl
  | .expr e line, h => by
    rw [execTraced, exec]
    apply Told.during h
    apply (Told.atLine line).bind
    intro _
    apply ((told_eval k scope limit e (k.expr h)).owner rfl).bind
    intro v
    exact .done _
  | .declare kind decls line, h => by
    rw [execTraced, exec]
    apply Told.during h
    apply (Told.atLine line).bind
    intro _
    apply ((told_declareAll k scope limit kind decls (k.declare h)).owner rfl).bind
    intro _
    exact .done _
  | .branch test yes no line, h => by
    obtain ⟨ht, hy, hn⟩ := k.branch h
    rw [execTraced.eq_def, exec.eq_def]
    dsimp only
    apply Told.during h
    apply (Told.atLine line).bind
    intro _
    apply ((told_eval k scope limit test ht).owner rfl).bind
    intro v
    split
    · exact (told_exec k scope limit yes hy).within
    · cases no with
      | some no => exact (told_exec k scope limit no (hn no rfl)).within
      | none => exact .done _
  | .forOf name items body line, h => by
    obtain ⟨hi, hb⟩ := k.forOf h
    rw [execTraced, exec]
    apply Told.during h
    apply (Told.atLine line).bind
    intro _
    apply ((told_eval k scope limit items hi).owner rfl).bind
    intro v
    cases elements? v with
    | none => exact (ToldHere.owner (fun _ => .steady (.fail _)) rfl).any
    | some values =>
      apply ToldAll.within
      apply Told.each
      intro v
      apply Told.inBlock
      apply (Told.declare .block name v).bind
      intro _
      apply (told_exec k scope limit body hb).bind
      intro flow
      exact .pure _
  | .forIn name target body line, h => by
    obtain ⟨ht, hb⟩ := k.forIn h
    rw [execTraced, exec]
    apply Told.during h
    apply (Told.atLine line).bind
    intro _
    apply ((told_eval k scope limit target ht).owner rfl).bind
    intro v
    apply ToldAll.within
    apply Told.each
    intro key
    apply Told.inBlock
    apply (Told.declare .block name key).bind
    intro _
    apply (told_exec k scope limit body hb).bind
    intro flow
    exact .pure _
  | .loop first test update body line, h => by
    obtain ⟨hf, ht, hu, hb⟩ := k.loop h
    rw [execTraced, exec]
    apply Told.during h
    apply Told.inBlock
    apply (Told.atLine line).bind
    intro _
    -- The end of a round, a round, and all rounds are common to the optional parts of the head.
    extract_lets next round rest next' round' rest'
    have hround : ∀ go, Told S (· = line) (fun _ => True)
        (Stmt.loop first test update body line).At (round go) (round' go) := by
      intro go
      dsimp only [round, round']
      split
      · apply (told_exec k scope limit body hb).within.inBlock.bind
        intro flow
        cases flow.ofRound with
        | some flow => exact .pure _
        | none =>
          apply (Told.atLine line).bind
          intro _
          cases update with
          | none => exact .done _
          | some update =>
            apply ((told_eval k scope limit update (hu update rfl)).owner rfl).discard.bind
            intro _
            exact .done _
      · exact .done _
    have hrest : ∀ u, Told S (fun _ => True) (fun _ => True)
        (Stmt.loop first test update body line).At (rest u) (rest' u) := by
      intro _
      apply Told.rounds
      apply (Told.atLine line).bind
      intro _
      cases test with
      | none => exact hround true
      | some test =>
        apply ((told_eval k scope limit test (ht test rfl)).owner rfl).bind
        intro _
        exact hround _
    cases first with
    | none => exact (hrest ()).weaken
    | some first =>
      apply Told.bind _ hrest
      exact (told_exec k scope limit first (hf first rfl)).within.discard
  | .whileDo test body line, h => by
    obtain ⟨ht, hb⟩ := k.whileDo h
    rw [execTraced, exec]
    apply Told.during h
    apply Told.rounds
    apply (Told.atLine line).bind
    intro _
    apply ((told_eval k scope limit test ht).owner rfl).bind
    intro v
    split
    · apply (told_exec k scope limit body hb).within.inBlock.bind
      intro flow
      exact .pure _
    · exact .done _
  | .block body, h => by
    rw [execTraced, exec]
    exact (told_run k scope limit body (k.block h)).inBlock
  | .breakLoop, _ => .of_ok fun s => ⟨_, s, rfl⟩
  | .continueLoop, _ => .of_ok fun s => ⟨_, s, rfl⟩
  | .giveBack (some e), h => by
    rw [execTraced, exec]
    apply Told.during h
    apply ((told_eval k scope limit e (k.giveBack h e rfl)).anywhere fun _ => .inr ⟨e, rfl⟩).bind
    intro v
    exact .pure _
  | .giveBack none, _ => .of_ok fun s => ⟨_, s, rfl⟩
  | .empty, _ => .of_ok fun s => ⟨_, s, rfl⟩

theorem told_run (k : Hereditary E S) (scope : Scope) (limit : Nat) : (body : List Stmt) →
    (∀ stmt ∈ body, S stmt) → ToldAll S (runTraced scope limit body) (run scope limit body)
  | [], _ => .pure _
  | stmt :: rest, h => by
    obtain ⟨hs, hrest⟩ := List.forall_mem_cons.mp h
    rw [runTraced, run]
    apply (told_exec k scope limit stmt hs).bind
    intro flow
    cases flow with
    | normal => exact told_run k scope limit rest hrest
    | _ => exact .pure _

end

end runs

end Stencil.Script

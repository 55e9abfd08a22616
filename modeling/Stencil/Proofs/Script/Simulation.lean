import Mathlib.Data.Option.Basic
import Stencil.Proofs.Computation
import Stencil.Proofs.Script.Every
import Stencil.Proofs.Script.Thin
import Stencil.Script.Eval

/-!
Two runs of the same statements, in scopes and from states that are related. If what single steps do
keeps the relation, whole runs keep it: both end in the same way, with the same value or the same
error, and in related states. The texts in the statements of the second run may be other ones, and
some may be missing (`simulates_run_thin`). What one run keeps is the case of two equal runs.
-/

namespace Stencil.Script

set_option autoImplicit true

/-- The name whose value an expression asks for before it is done with its parts. -/
def Expr.reads? : Expr → Option String
  | ident name => some name
  | assign name (some _) _ => some name
  | update name _ _ => some name
  | _ => none

/-- The name that an expression assigns to. -/
def Expr.writes? : Expr → Option String
  | assign name _ _ => some name
  | update name _ _ => some name
  | _ => none

/-- The line that a statement puts in place. -/
def Stmt.line? : Stmt → Option Nat
  | output _ _ line => some line
  | expr _ line => some line
  | declare _ _ line => some line
  | branch _ _ _ line => some line
  | forOf _ _ _ line => some line
  | forIn _ _ _ line => some line
  | loop _ _ _ _ line => some line
  | whileDo _ _ line => some line
  | _ => none

/-- The statement may bind names in the block in which it stands. -/
def Stmt.binds : Stmt → Bool
  | declare _ _ _ => true
  | branch _ _ _ _ => true
  | _ => false

/-- Both end in the same way, and in related states. -/
inductive Exec.Alike (R : State → State → Prop) :
    EStateM.Result Halt State α → EStateM.Result Halt State α → Prop
  | ok (h : R t t') : Alike R (.ok a t) (.ok a t')
  | error (h : R t t') : Alike R (.error e t) (.error e t')

/-- From related states both end alike. -/
structure Exec.Simulates (R : State → State → Prop) (x y : Exec α) : Prop where
  alike : R s s' → Exec.Alike R (x s) (y s')

/-- The state that a computation leaves, however it ends. -/
def Exec.after (x : Exec α) (s : State) : State :=
  match x s with
  | .ok _ s => s
  | .error _ s => s

theorem State.write_empty (s : State) : s.write "" = s := by
  rw [write, String.append_empty]

theorem Exec.inBlock_of_eq_ok {x : Exec α} (h : x (State.enter s) = .ok a t) :
    Exec.inBlock x s = .ok a t.leave := by
  rw [Exec.inBlock, h]

namespace Exec.Simulates

variable {R Q : State → State → Prop}

theorem after {x y : Exec α} (hx : Simulates R x y) (h : R s s') : R (x.after s) (y.after s') := by
  unfold Exec.after
  have ha := hx.alike h
  generalize x s = r, y s' = r' at ha
  cases ha with
  | ok ht => exact ht
  | error ht => exact ht

theorem of_eq_ok {x y : Exec α} (hx : Simulates R x y) (h : R s s') (hs : x s = .ok a t) :
    ∃ t', y s' = .ok a t' ∧ R t t' := by
  have ha := hx.alike h
  rw [hs] at ha
  generalize y s' = r' at ha
  cases ha with
  | ok ht => exact ⟨_, rfl, ht⟩

theorem pure (a : α) : Simulates R (Pure.pure a) (Pure.pure a) where
  alike h := .ok h

theorem throw (e : Halt) : Simulates R (MonadExcept.throw e : Exec α) (MonadExcept.throw e) where
  alike h := .error h

theorem bind {x y : Exec α} {f g : α → Exec β} (hx : Simulates R x y)
    (hf : ∀ a, Simulates R (f a) (g a)) : Simulates R (x >>= f) (y >>= g) where
  alike {s s'} h := by
    change Alike R (EStateM.bind x f s) (EStateM.bind y g s')
    unfold EStateM.bind
    have ha := hx.alike h
    generalize x s = r, y s' = r' at ha
    cases ha with
    | ok ht => exact (hf _).alike ht
    | error ht => exact .error ht

theorem discard {x y : Exec α} (hx : Simulates R x y) : Simulates R (discard x) (discard y) :=
  hx.bind fun _ => .pure _

/-- A computation that looks at the state goes on from that state. -/
theorem get_bind {f g : State → Exec α}
    (hf : ∀ s s', R s s' → Alike R (f s s) (g s' s')) :
    Simulates R (get >>= f) (get >>= g) where
  alike h := hf _ _ h

theorem modify {f g : State → State} (hf : ∀ s s', R s s' → R (f s) (g s')) :
    Simulates R (modify f : Exec Unit) (modify g) where
  alike h := .ok (hf _ _ h)

theorem lift (r : Except RuntimeError α) : Simulates R (Exec.lift r) (Exec.lift r) := by
  cases r with
  | ok a => exact .pure a
  | error e => exact .throw _

theorem inBlock {x y : Exec α} (henter : ∀ s s', R s s' → Q s.enter s'.enter)
    (hleave : ∀ s s', Q s s' → R s.leave s'.leave) (hx : Simulates Q x y) :
    Simulates R (Exec.inBlock x) (Exec.inBlock y) where
  alike {s s'} h := by
    unfold Exec.inBlock
    have ha := hx.alike (henter s s' h)
    generalize x s.enter = r, y s'.enter = r' at ha
    cases ha with
    | ok ht => exact .ok (hleave _ _ ht)
    | error ht => exact .error (hleave _ _ ht)

theorem rounds {x y : Exec (Option Flow)} (hx : Simulates R x y) (limit : Nat) :
    Simulates R (Exec.rounds x limit) (Exec.rounds y limit) := by
  induction limit with
  | zero => exact .throw _
  | succ limit ih =>
    apply hx.bind
    intro ending
    cases ending with
    | none => exact ih
    | some flow => exact .pure flow

theorem each {f g : Value → Exec (Option Flow)} (hf : ∀ v, Simulates R (f v) (g v))
    (values : List Value) : Simulates R (Exec.each f values) (Exec.each g values) := by
  induction values with
  | nil => exact .pure _
  | cons v rest ih =>
    apply (hf v).bind
    intro ending
    cases ending with
    | none => exact ih
    | some flow => exact .pure flow

theorem visit {f g : Value → Nat → Exec Value} (hf : ∀ v i, Simulates R (f v i) (g v i))
    (visit : Visit) (soFar : List Value) (index : Nat) (items : List Value) :
    Simulates R (visit.run f soFar index items) (visit.run g soFar index items) := by
  induction items generalizing soFar index with
  | nil => exact .pure _
  | cons item rest ih =>
    apply (hf item index).bind
    intro result
    cases visit.stop? item result with
    | none => exact ih _ _
    | some v => exact .pure v

end Exec.Simulates

/-- A relation between the states of two runs that single steps keep. It may be another one at each
depth of blocks, `opened` if names may be bound there. -/
structure Simulation (ι : Type) (scope scope' : Scope) (E : Expr → Prop) (S : Stmt → Prop) where
  rel : ι → State → State → Prop
  inner : ι → ι
  opened : ι → Prop
  opened_inner : opened (inner i)
  self : scope.self = scope'.self
  env : scope.env = scope'.env
  enter : rel i s s' → rel (inner i) s.enter s'.enter
  leave : rel (inner i) s s' → rel i s.leave s'.leave
  line : S stmt → stmt.line? = some l → rel i s s' → rel i (s.atLine l) (s'.atLine l)
  /-- A callback puts the line of its caller back. -/
  back : rel i s s' → rel i t t' → rel i (t.atLine s.line) (t'.atLine s'.line)
  text : S (.text t) → rel i s s' → rel i (s.write t) (s'.write t)
  shown : S (.output e escape l) → rel i s s' →
    rel i (s.write (if escape then scope.env.escaper v else v.display))
      (s'.write (if escape then scope.env.escaper v else v.display))
  bind : opened i → rel i s s' → rel i (s.declare .block name v) (s'.declare .block name v)
  declare : S (.declare kind decls l) → name ∈ decls.map Prod.fst → opened i → rel i s s' →
    rel i (s.declare kind name v) (s'.declare kind name v)
  lookup : E e → e.reads? = some name → rel i s s' →
    scope.lookup? s name = scope'.lookup? s' name
  assign : E e → e.writes? = some name → rel i s s' →
    Option.Rel (rel i) (s.assign? name v) (s'.assign? name v)

open Exec (Simulates)

namespace Simulation

variable {ι : Type} {scope scope' : Scope} {E : Expr → Prop} {S : Stmt → Prop}

theorem simulates_atLine (sim : Simulation ι scope scope' E S) (i : ι) (h : S stmt)
    (hl : stmt.line? = some l) : Simulates (sim.rel i) (Exec.atLine l) (Exec.atLine l) :=
  .modify fun _ _ hr => sim.line h hl hr

theorem simulates_lookup (sim : Simulation ι scope scope' E S) (i : ι) (h : E e)
    (hn : e.reads? = some name) :
    Simulates (sim.rel i) (Exec.lookup scope name) (Exec.lookup scope' name) := by
  apply Simulates.get_bind
  intro s s' hr
  rw [sim.lookup h hn hr]
  cases scope'.lookup? s' name with
  | some v => exact .ok hr
  | none => exact .error hr

theorem simulates_assign (sim : Simulation ι scope scope' E S) (i : ι) (h : E e)
    (hn : e.writes? = some name) (v : Value) :
    Simulates (sim.rel i) (Exec.assign name v) (Exec.assign name v) := by
  apply Simulates.get_bind
  intro s s' hr
  generalize hs : s.assign? name v = r
  generalize hs' : s'.assign? name v = r'
  have hrel : Option.Rel (sim.rel i) r r' := by
    rw [← hs, ← hs']
    exact sim.assign h hn hr
  cases hrel with
  | some ht => exact .ok ht
  | none => exact .error hr

theorem simulates_bind (sim : Simulation ι scope scope' E S) {i : ι} (ho : sim.opened i)
    (name : String) (v : Value) :
    Simulates (sim.rel i) (Exec.declare .block name v) (Exec.declare .block name v) :=
  .modify fun _ _ hr => sim.bind ho hr

theorem simulates_inBlock (sim : Simulation ι scope scope' E S) (i : ι) {x y : Exec α}
    (hx : Simulates (sim.rel (sim.inner i)) x y) :
    Simulates (sim.rel i) (Exec.inBlock x) (Exec.inBlock y) :=
  .inBlock (fun _ _ => sim.enter) (fun _ _ => sim.leave) hx

theorem simulates_bindParams (sim : Simulation ι scope scope' E S) {i : ι} (ho : sim.opened i)
    (names : List String) (values : List Value) :
    Simulates (sim.rel i) (bindParams names values) (bindParams names values) := by
  induction names generalizing values with
  | nil => exact .pure ()
  | cons name names ih =>
    cases values with
    | nil => exact .pure ()
    | cons v values =>
      apply (sim.simulates_bind ho name v).bind
      intro _
      exact ih values

theorem simulates_callback (sim : Simulation ι scope scope' E S) (i : ι) (params : List String)
    (args : List Value) {x y : Exec Flow} (hx : Simulates (sim.rel (sim.inner i)) x y) :
    Simulates (sim.rel i) (callback params args x) (callback params args y) := by
  apply Simulates.get_bind
  intro s s' hr
  have hbody : Simulates (sim.rel i)
      (Exec.inBlock do bindParams params args; x) (Exec.inBlock do bindParams params args; y) := by
    apply sim.simulates_inBlock
    apply (sim.simulates_bindParams sim.opened_inner params args).bind
    intro _
    exact hx
  -- What follows the body differs in the lines put back, so the two binds are opened by hand.
  change Exec.Alike _ (EStateM.bind _ _ s) (EStateM.bind _ _ s')
  unfold EStateM.bind
  have ha := hbody.alike hr
  generalize Exec.inBlock _ s = r, Exec.inBlock _ s' = r' at ha ⊢
  cases ha with
  | ok ht => exact .ok (sim.back hr ht)
  | error ht => exact .error ht

end Simulation

/-- What is left of the texts is put out alike. -/
structure Simulation.Keeps {ι : Type} {scope scope' : Scope} {E : Expr → Prop} {S : Stmt → Prop}
    (sim : Simulation ι scope scope' E S) (f : String → Option String) : Prop where
  text : S (.text t) → sim.rel i s s' → sim.rel i (s.write t) (s'.write ((f t).getD ""))

section runs

variable {ι : Type} {scope scope' : Scope} {E : Expr → Prop} {S : Stmt → Prop}

mutual

theorem simulates_eval_thin (sim : Simulation ι scope scope' E S) (kept : sim.Keeps f)
    (k : Hereditary E S) (limit : Nat)
    (i : ι) : (e : Expr) → E e →
    Simulates (sim.rel i) (eval scope limit e) (eval scope' limit (e.thin f))
  | .value v, _ => .pure v
  | .ident name, h => sim.simulates_lookup i h rfl
  | .self, _ => by
    rw [Expr.thin, eval, eval, sim.self]
    exact .pure _
  | .array items, h => by
    rw [Expr.thin, eval, eval]
    apply (simulates_evalAll_thin sim kept k limit i items (k.array h)).bind
    intro values
    exact .pure _
  | .object fields, h => by
    rw [Expr.thin, eval, eval]
    apply (simulates_evalFields_thin sim kept k limit i fields (k.object h)).bind
    intro values
    exact .pure _
  | .member target key, h => by
    rw [Expr.thin, eval, eval]
    apply (simulates_eval_thin sim kept k limit i target (k.member h).1).bind
    intro v
    apply (simulates_eval_thin sim kept k limit i key (k.member h).2).bind
    intro w
    exact .lift _
  | .filter name args, h => by
    rw [Expr.thin, eval, eval, sim.env]
    apply (simulates_evalAll_thin sim kept k limit i args (k.filter h)).bind
    intro values
    exact .lift _
  | .call name args, h => by
    rw [Expr.thin, eval, eval, sim.env]
    apply (simulates_evalAll_thin sim kept k limit i args (k.call h)).bind
    intro values
    exact .lift _
  | .method target name args, h => by
    rw [Expr.thin, eval, eval]
    apply (simulates_eval_thin sim kept k limit i target (k.method h).1).bind
    intro v
    split
    · rename_i params body
      have hb := k.function ((k.method h).2 _ List.mem_cons_self)
      apply (Simulates.lift _).bind
      intro visited
      apply Simulates.visit
      intro item index
      apply sim.simulates_callback
      exact simulates_run_thin sim kept k limit _ body hb sim.opened_inner
    · rename_i hargs
      split
      · rename_i params body he
        obtain ⟨body', rfl⟩ := Expr.eq_of_thinAll_function he
        exact absurd rfl (hargs params body')
      · apply (simulates_evalAll_thin sim kept k limit i args (k.method h).2).bind
        intro values
        exact .lift _
  | .unary op operand, h => by
    rw [Expr.thin, eval.eq_def, eval.eq_def]
    dsimp only
    split
    · apply Simulates.get_bind
      intro s s' hr
      rw [sim.lookup (k.unary h) rfl hr]
      exact .ok hr
    · rename_i hop
      split
      · rename_i name he
        exact absurd (Expr.eq_of_thin_ident he.symm) (hop name rfl)
      · apply (simulates_eval_thin sim kept k limit i operand (k.unary h)).bind
        intro v
        exact .pure _
  | .binary op left right, h => by
    rw [Expr.thin, eval, eval]
    apply (simulates_eval_thin sim kept k limit i left (k.binary h).1).bind
    intro a
    apply (simulates_eval_thin sim kept k limit i right (k.binary h).2).bind
    intro b
    exact .pure _
  | .logical onTrue left right, h => by
    rw [Expr.thin, eval, eval]
    apply (simulates_eval_thin sim kept k limit i left (k.logical h).1).bind
    intro v
    split
    · exact simulates_eval_thin sim kept k limit i right (k.logical h).2
    · exact .pure v
  | .conditional test yes no, h => by
    obtain ⟨ht, hy, hn⟩ := k.conditional h
    rw [Expr.thin, eval, eval]
    apply (simulates_eval_thin sim kept k limit i test ht).bind
    intro v
    split
    · exact simulates_eval_thin sim kept k limit i yes hy
    · exact simulates_eval_thin sim kept k limit i no hn
  | .assign name op value, h => by
    rw [Expr.thin, eval, eval]
    apply (simulates_eval_thin sim kept k limit i value (k.assign h)).bind
    intro v
    -- What follows the choice of the operator is common to both cases.
    extract_lets store
    have hs : ∀ v, Simulates (sim.rel i) (store v) (store v) := by
      intro v
      apply (sim.simulates_assign i h rfl v).bind
      intro _
      exact .pure v
    cases op with
    | none => exact hs v
    | some op =>
      apply (sim.simulates_lookup i h rfl).bind
      intro old
      exact hs _
  | .update name increment before, h => by
    rw [Expr.thin, eval, eval]
    apply (sim.simulates_lookup i h rfl).bind
    intro old
    apply (sim.simulates_assign i h rfl _).bind
    intro _
    exact .pure _
  | .function _ _, _ => .throw _

theorem simulates_evalAll_thin (sim : Simulation ι scope scope' E S) (kept : sim.Keeps f)
    (k : Hereditary E S)
    (limit : Nat) (i : ι) : (es : List Expr) → (∀ e ∈ es, E e) →
    Simulates (sim.rel i) (evalAll scope limit es)
      (evalAll scope' limit (Expr.thinAll f es))
  | [], _ => .pure []
  | e :: rest, h => by
    obtain ⟨he, hrest⟩ := List.forall_mem_cons.mp h
    rw [Expr.thinAll, evalAll, evalAll]
    apply (simulates_eval_thin sim kept k limit i e he).bind
    intro v
    apply (simulates_evalAll_thin sim kept k limit i rest hrest).bind
    intro vs
    exact .pure _

theorem simulates_evalFields_thin (sim : Simulation ι scope scope' E S) (kept : sim.Keeps f)
    (k : Hereditary E S)
    (limit : Nat) (i : ι) : (fields : List (String × Expr)) → (∀ field ∈ fields, E field.2) →
    Simulates (sim.rel i) (evalFields scope limit fields)
      (evalFields scope' limit (Expr.thinFields f fields))
  | [], _ => .pure []
  | (name, e) :: rest, h => by
    obtain ⟨he, hrest⟩ := List.forall_mem_cons.mp h
    rw [Expr.thinFields, evalFields, evalFields]
    apply (simulates_eval_thin sim kept k limit i e he).bind
    intro v
    apply (simulates_evalFields_thin sim kept k limit i rest hrest).bind
    intro vs
    exact .pure _

theorem simulates_declareAll_thin (sim : Simulation ι scope scope' E S) (kept : sim.Keeps f)
    (k : Hereditary E S)
    (limit : Nat) (i : ι) (kind : DeclKind) :
    (decls : List (String × Option Expr)) → (∀ decl ∈ decls, ∀ e ∈ decl.2, E e) →
    (∀ name ∈ decls.map Prod.fst, ∀ v,
      Simulates (sim.rel i) (Exec.declare kind name v) (Exec.declare kind name v)) →
    Simulates (sim.rel i) (declareAll scope limit kind decls)
      (declareAll scope' limit kind (Expr.thinDecls f decls))
  | [], _, _ => .pure ()
  | (name, some e) :: rest, h, hd => by
    obtain ⟨he, hrest⟩ := List.forall_mem_cons.mp h
    obtain ⟨hn, hd⟩ := List.forall_mem_cons.mp hd
    rw [Expr.thinDecls, Expr.thinOption, declareAll, declareAll]
    apply (simulates_eval_thin sim kept k limit i e (he e rfl)).bind
    intro v
    apply (hn v).bind
    intro _
    exact simulates_declareAll_thin sim kept k limit i kind rest hrest hd
  | (name, none) :: rest, h, hd => by
    obtain ⟨-, hrest⟩ := List.forall_mem_cons.mp h
    obtain ⟨hn, hd⟩ := List.forall_mem_cons.mp hd
    rw [Expr.thinDecls, Expr.thinOption, declareAll, declareAll]
    apply (hn .null).bind
    intro _
    exact simulates_declareAll_thin sim kept k limit i kind rest hrest hd

theorem simulates_exec_thin (sim : Simulation ι scope scope' E S) (kept : sim.Keeps f)
    (k : Hereditary E S) (limit : Nat)
    (i : ι) : (stmt : Stmt) → S stmt → (stmt.binds = true → sim.opened i) →
    Simulates (sim.rel i) (exec scope limit stmt) (exec scope' limit (stmt.thin f))
  | .text s, h, _ => by
    rw [Stmt.thin, exec, exec]
    apply (Simulates.modify fun _ _ hr => kept.text h hr).bind
    intro _
    exact .pure _
  | .output e escape line, h, _ => by
    rw [Stmt.thin, exec, exec, ← sim.env]
    apply (sim.simulates_atLine i h rfl).bind
    intro _
    apply (simulates_eval_thin sim kept k limit i e (k.output h)).bind
    intro v
    apply (Simulates.modify fun _ _ hr => sim.shown h hr).bind
    intro _
    exact .pure _
  | .expr e line, h, _ => by
    rw [Stmt.thin, exec, exec]
    apply (sim.simulates_atLine i h rfl).bind
    intro _
    apply (simulates_eval_thin sim kept k limit i e (k.expr h)).bind
    intro v
    exact .pure _
  | .declare kind decls line, h, ho => by
    have hd : ∀ name ∈ decls.map Prod.fst, ∀ v,
        Simulates (sim.rel i) (Exec.declare kind name v) (Exec.declare kind name v) :=
      fun name hn v => .modify fun _ _ hr => sim.declare h hn (ho rfl) hr
    rw [Stmt.thin, exec, exec]
    apply (sim.simulates_atLine i h rfl).bind
    intro _
    apply (simulates_declareAll_thin sim kept k limit i kind decls (k.declare h) hd).bind
    intro _
    exact .pure _
  | .branch test yes no line, h, ho => by
    obtain ⟨ht, hy, hn⟩ := k.branch h
    rw [exec.eq_def, exec.eq_def]
    dsimp only
    apply (sim.simulates_atLine i h rfl).bind
    intro _
    apply (simulates_eval_thin sim kept k limit i test ht).bind
    intro v
    split
    · exact simulates_exec_thin sim kept k limit i yes hy fun _ => ho rfl
    · cases no with
      | some no => exact simulates_exec_thin sim kept k limit i no (hn no rfl) fun _ => ho rfl
      | none => exact .pure _
  | .forOf name items body line, h, _ => by
    obtain ⟨hi, hb⟩ := k.forOf h
    rw [Stmt.thin, exec, exec]
    apply (sim.simulates_atLine i h rfl).bind
    intro _
    apply (simulates_eval_thin sim kept k limit i items hi).bind
    intro v
    split
    · exact .throw _
    · apply Simulates.each
      intro v
      apply sim.simulates_inBlock
      apply (sim.simulates_bind sim.opened_inner name v).bind
      intro _
      apply (simulates_exec_thin sim kept k limit _ body hb fun _ => sim.opened_inner).bind
      intro flow
      exact .pure _
  | .forIn name target body line, h, _ => by
    obtain ⟨ht, hb⟩ := k.forIn h
    rw [Stmt.thin, exec, exec]
    apply (sim.simulates_atLine i h rfl).bind
    intro _
    apply (simulates_eval_thin sim kept k limit i target ht).bind
    intro v
    apply Simulates.each
    intro key
    apply sim.simulates_inBlock
    apply (sim.simulates_bind sim.opened_inner name key).bind
    intro _
    apply (simulates_exec_thin sim kept k limit _ body hb fun _ => sim.opened_inner).bind
    intro flow
    exact .pure _
  | .loop first test update body line, h, _ => by
    obtain ⟨hf, ht, hu, hb⟩ := k.loop h
    rw [Stmt.thin, exec, exec]
    apply sim.simulates_inBlock
    apply (sim.simulates_atLine _ h rfl).bind
    intro _
    -- The end of a round, a round, and all rounds are common to the optional parts of the head.
    extract_lets next round rest round' rest'
    have hround : ∀ go, Simulates (sim.rel (sim.inner i)) (round go) (round' go) := by
      intro go
      dsimp only [round, round']
      split
      · apply Simulates.bind
        · apply sim.simulates_inBlock
          exact simulates_exec_thin sim kept k limit _ body hb fun _ => sim.opened_inner
        intro flow
        split
        · exact .pure _
        · apply (sim.simulates_atLine _ h rfl).bind
          intro _
          cases update with
          | none => exact .pure _
          | some update =>
            have he := hu update rfl
            apply (Simulates.discard (simulates_eval_thin sim kept k limit _ update he)).bind
            intro _
            exact .pure _
      · exact .pure _
    have hrest : ∀ u, Simulates (sim.rel (sim.inner i)) (rest u) (rest' u) := by
      intro _
      apply Simulates.rounds
      apply (sim.simulates_atLine _ h rfl).bind
      intro _
      cases test with
      | none => exact hround true
      | some test =>
        apply (simulates_eval_thin sim kept k limit _ test (ht test rfl)).bind
        intro _
        exact hround _
    cases first with
    | none => exact hrest ()
    | some first =>
      apply Simulates.bind _ hrest
      apply Simulates.discard
      exact simulates_exec_thin sim kept k limit _ first (hf first rfl) fun _ => sim.opened_inner
  | .whileDo test body line, h, _ => by
    obtain ⟨ht, hb⟩ := k.whileDo h
    rw [Stmt.thin, exec, exec]
    apply Simulates.rounds
    apply (sim.simulates_atLine i h rfl).bind
    intro _
    apply (simulates_eval_thin sim kept k limit i test ht).bind
    intro v
    split
    · apply Simulates.bind
      · apply sim.simulates_inBlock
        exact simulates_exec_thin sim kept k limit _ body hb fun _ => sim.opened_inner
      intro flow
      exact .pure _
    · exact .pure _
  | .block body, h, _ => by
    rw [Stmt.thin, exec, exec]
    apply sim.simulates_inBlock
    exact simulates_run_thin sim kept k limit _ body (k.block h) sim.opened_inner
  | .breakLoop, _, _ => .pure _
  | .continueLoop, _, _ => .pure _
  | .giveBack (some e), h, _ => by
    rw [Stmt.thin, Expr.thinOption, exec, exec]
    apply (simulates_eval_thin sim kept k limit i e (k.giveBack h e rfl)).bind
    intro v
    exact .pure _
  | .giveBack none, _, _ => by
    rw [Stmt.thin, Expr.thinOption, exec, exec]
    exact .pure _
  | .empty, _, _ => .pure _

theorem simulates_run_thin (sim : Simulation ι scope scope' E S) (kept : sim.Keeps f)
    (k : Hereditary E S) (limit : Nat)
    (i : ι) : (body : List Stmt) → (∀ stmt ∈ body, S stmt) → sim.opened i →
    Simulates (sim.rel i) (run scope limit body) (run scope' limit (Stmt.thinAll f body))
  | [], _, _ => .pure _
  | stmt :: rest, h, ho => by
    obtain ⟨hs, hrest⟩ := List.forall_mem_cons.mp h
    have ih := simulates_run_thin sim kept k limit i rest hrest ho
    cases hg : stmt.gone f with
    | true =>
      obtain ⟨t, rfl, ht⟩ := Stmt.eq_of_gone hg
      rw [Stmt.thinAll_of_gone hg, run, exec]
      constructor
      intro s s' hr
      have hw := kept.text hs hr
      rw [ht, Option.getD_none, State.write_empty] at hw
      exact ih.alike hw
    | false =>
      rw [Stmt.thinAll_of_left hg, run, run]
      apply (simulates_exec_thin sim kept k limit i stmt hs fun _ => ho).bind
      intro flow
      split
      · exact ih
      · exact .pure _

end

theorem Simulation.keeps_some (sim : Simulation ι scope scope' E S) : sim.Keeps some where
  text := sim.text

theorem simulates_eval (sim : Simulation ι scope scope' E S) (k : Hereditary E S) (limit : Nat)
    (i : ι) (e : Expr) (h : E e) :
    Simulates (sim.rel i) (eval scope limit e) (eval scope' limit e) := by
  have he := simulates_eval_thin sim sim.keeps_some k limit i e h
  rwa [Expr.thin_some] at he

theorem simulates_exec (sim : Simulation ι scope scope' E S) (k : Hereditary E S) (limit : Nat)
    (i : ι) (stmt : Stmt) (h : S stmt) (ho : stmt.binds = true → sim.opened i) :
    Simulates (sim.rel i) (exec scope limit stmt) (exec scope' limit stmt) := by
  have hs := simulates_exec_thin sim sim.keeps_some k limit i stmt h ho
  rwa [Stmt.thin_some] at hs

theorem simulates_run (sim : Simulation ι scope scope' E S) (k : Hereditary E S) (limit : Nat)
    (i : ι) (body : List Stmt) (h : ∀ stmt ∈ body, S stmt) (ho : sim.opened i) :
    Simulates (sim.rel i) (run scope limit body) (run scope' limit body) := by
  have hr := simulates_run_thin sim sim.keeps_some k limit i body h ho
  rwa [Stmt.thinAll_some] at hr

end runs

/-- A property of the state that single steps keep. It may be another one at each depth of blocks,
`opened` if names may be bound there. -/
structure Invariant (ι : Type) (scope : Scope) (E : Expr → Prop) (S : Stmt → Prop) where
  holds : ι → State → Prop
  inner : ι → ι
  opened : ι → Prop
  opened_inner : opened (inner i)
  enter : holds i s → holds (inner i) s.enter
  leave : holds (inner i) s → holds i s.leave
  line : S stmt → stmt.line? = some l → holds i s → holds i (s.atLine l)
  back : holds i s → holds i t → holds i (t.atLine s.line)
  text : S (.text t) → holds i s → holds i (s.write t)
  shown : S (.output e escape l) → holds i s →
    holds i (s.write (if escape then scope.env.escaper v else v.display))
  bind : opened i → holds i s → holds i (s.declare .block name v)
  declare : S (.declare kind decls l) → name ∈ decls.map Prod.fst → opened i → holds i s →
    holds i (s.declare kind name v)
  assign : E e → e.writes? = some name → s.assign? name v = some t → holds i s → holds i t

namespace Invariant

variable {ι : Type} {scope : Scope} {E : Expr → Prop} {S : Stmt → Prop}

/-- Of two equal runs, from one state. -/
def simulation (inv : Invariant ι scope E S) : Simulation ι scope scope E S where
  rel i s s' := s = s' ∧ inv.holds i s
  inner := inv.inner
  opened := inv.opened
  opened_inner := inv.opened_inner
  self := rfl
  env := rfl
  enter := fun ⟨hs, h⟩ => ⟨congrArg State.enter hs, inv.enter h⟩
  leave := fun ⟨hs, h⟩ => ⟨congrArg State.leave hs, inv.leave h⟩
  line := by
    rintro stmt l _ s _ hw hl ⟨rfl, h⟩
    exact ⟨rfl, inv.line hw hl h⟩
  back := by
    rintro _ s _ t _ ⟨rfl, hs⟩ ⟨rfl, ht⟩
    exact ⟨rfl, inv.back hs ht⟩
  text := by
    rintro t _ s _ hw ⟨rfl, h⟩
    exact ⟨rfl, inv.text hw h⟩
  shown := by
    rintro e escape l _ s _ v hw ⟨rfl, h⟩
    exact ⟨rfl, inv.shown hw h⟩
  bind := by
    rintro _ s _ name v ho ⟨rfl, h⟩
    exact ⟨rfl, inv.bind ho h⟩
  declare := by
    rintro kind decls l name _ s _ v hw hn ho ⟨rfl, h⟩
    exact ⟨rfl, inv.declare hw hn ho h⟩
  lookup := by
    rintro e name _ s _ _ _ ⟨rfl, _⟩
    rfl
  assign := by
    rintro e name _ s _ v he hn ⟨rfl, h⟩
    cases ht : s.assign? name v with
    | none => exact .none
    | some t => exact .some ⟨rfl, inv.assign he hn ht h⟩

theorem after_eval (inv : Invariant ι scope E S) (k : Hereditary E S) (limit : Nat) (he : E e)
    (h : inv.holds i s) : inv.holds i ((eval scope limit e).after s) :=
  ((simulates_eval inv.simulation k limit i e he).after ⟨rfl, h⟩).2

theorem after_exec (inv : Invariant ι scope E S) (k : Hereditary E S) (limit : Nat) (hs : S stmt)
    (ho : stmt.binds = true → inv.opened i) (h : inv.holds i s) :
    inv.holds i ((exec scope limit stmt).after s) :=
  ((simulates_exec inv.simulation k limit i stmt hs ho).after ⟨rfl, h⟩).2

theorem after_run (inv : Invariant ι scope E S) (k : Hereditary E S) (limit : Nat)
    (hb : ∀ stmt ∈ body, S stmt) (ho : inv.opened i) (h : inv.holds i s) :
    inv.holds i ((run scope limit body).after s) :=
  ((simulates_run inv.simulation k limit i body hb ho).after ⟨rfl, h⟩).2

theorem after_callback (inv : Invariant ι scope E S) (k : Hereditary E S) (limit : Nat)
    (hb : ∀ stmt ∈ body, S stmt) (params : List String) (args : List Value)
    (h : inv.holds i s) : inv.holds i ((callback params args (run scope limit body)).after s) := by
  have hr := simulates_run inv.simulation k limit (inv.inner i) body hb inv.opened_inner
  exact ((inv.simulation.simulates_callback i params args hr).after ⟨rfl, h⟩).2

end Invariant

end Stencil.Script

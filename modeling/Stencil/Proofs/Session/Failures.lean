import Stencil.Proofs.Session.Lifetime

/-!
What calls leave behind that fail, and how often a renderer has compiled. A call that fails before it
compiles changes nothing, one that fails in compiling has counted a compilation and may have kept the
text of its file, and one that fails in the evaluation of its template leaves what it would leave if
that had succeeded. In every run the compilations of a renderer are those that it was asked for, its
renders without the cache, and its renders with the cache that found no template under their file name
(`failing_leaves`).
-/

namespace Stencil

set_option autoImplicit true

/-- What is rendered: a source, or a file under its path. -/
inductive Subject where
  | source (text : String)
  | file (path : String)

namespace Subject

variable (env : Environment) (files : FileTree) (o : Options)

def call : Subject → Call
  | source text => .render text o
  | file path => .renderFile path o

/-- The options that the template is rendered with. -/
def options : Subject → Options
  | source _ => o
  | file path => { o with filename := some path }

/-- Looks up or compiles the template. -/
def template : Subject → Rendering Template
  | source text => Rendering.templateFor env text o
  | file path => do
    let text ← Rendering.sourceOf files path o.cache
    Rendering.templateFor env text { o with filename := some path }

/-- The call with any evaluation of the template in the place of the real one. -/
def runBy (evaluate : Template → Options → Except TemplateError String) (subject : Subject) :
    Rendering String := do
  let t ← subject.template env files o
  Rendering.lift (evaluate t (subject.options o))

theorem run_call (subject : Subject) :
    (subject.call o).run env files = subject.runBy env files o Template.render := by
  cases subject with
  | source text => rfl
  | file path => exact (bind_assoc _ _ _).symm

/-- From one cache to another only the text of the file may have come in. -/
def Spares (subject : Subject) (before after : Cache) : Prop :=
  ∀ key, after.get? key = before.get? key ∨
    ∃ path text, subject = .file path ∧ o.cache = true ∧ key = Cache.sourceKey path ∧
      files.read path = .ok text ∧ after.get? key = some (.source text)

variable {env files o}

theorem Spares.refl (subject : Subject) (cache : Cache) : subject.Spares files o cache cache :=
  fun _ => .inl rfl

/-- A call that comes to no template changes nothing, unless it fails in compiling. -/
theorem template_error {subject : Subject} (h : subject.template env files o desk = .error e d) :
    e.stage = .preparing ∧ d = desk ∨
      e.stage = .compiling ∧ d.compiles = desk.compiles + 1 ∧
        subject.Spares files o desk.cache d.cache := by
  cases subject with
  | source text =>
    change Rendering.templateFor env text o desk = _ at h
    have ho := Rendering.templateFor_outcome env text o desk
    rw [h] at ho
    cases ho with
    | unnamed => exact .inl ⟨rfl, rfl⟩
    | refused _ _ hc => exact .inr ⟨Template.stage_of_compile hc, rfl, .refl _ _⟩
  | file path =>
    have hs := Rendering.sourceOf_outcome desk files path o.cache
    rw [template] at h
    cases hr : Rendering.sourceOf files path o.cache desk with
    | error e' d' =>
      rw [hr] at hs
      rw [bind_eq_of_error hr] at h
      cases h
      cases hs
      exact .inl ⟨rfl, rfl⟩
    | ok text d₁ =>
      rw [hr] at hs
      rw [bind_eq_of_ok hr] at h
      have ho := Rendering.templateFor_outcome env text { o with filename := some path } d₁
      rw [h] at ho
      cases ho with
      | unnamed _ hn => cases hn
      | refused _ _ hc =>
        refine .inr ⟨Template.stage_of_compile hc, ?_⟩
        cases hs with
        | kept => exact ⟨rfl, .refl _ _⟩
        | read => exact ⟨rfl, .refl _ _⟩
        | stored hcache _ hread =>
          refine ⟨rfl, fun key => ?_⟩
          change Table.get? (desk.cache.insert _ _) key = _ ∨ _
          rw [Table.get?_insert]
          split
          · rename_i hk
            subst hk
            exact .inr ⟨path, text, rfl, hcache, rfl, hread, Table.get?_insert_self _ _ _⟩
          · exact .inl rfl

/-- How a call fails, at each stage. -/
theorem run_error {subject : Subject}
    (h : (subject.call o).run env files desk = .error e d) :
    (e.stage = .preparing ∧ d = desk) ∨
      (e.stage = .compiling ∧ d.compiles = desk.compiles + 1 ∧
        subject.Spares files o desk.cache d.cache) ∨
      (e.stage = .evaluating ∧
        ∀ out, subject.runBy env files o (fun _ _ => .ok out) desk = .ok out d) := by
  rw [run_call, runBy] at h
  cases ht : subject.template env files o desk with
  | error e' d' =>
    rw [bind_eq_of_error ht] at h
    cases h
    rcases template_error ht with hp | hc
    · exact .inl hp
    · exact .inr (.inl hc)
  | ok t d' =>
    rw [bind_eq_of_ok ht] at h
    cases hr : t.render (subject.options o) with
    | ok out =>
      rw [hr] at h
      cases h
    | error e' =>
      rw [hr] at h
      cases h
      refine .inr (.inr ⟨Template.stage_of_render hr, fun out => ?_⟩)
      rw [runBy, bind_eq_of_ok ht]
      rfl

end Subject

namespace Session

variable {s : Session}

theorem cache_keep (s : Session) (i : Nat) (d : Desk) :
    (s.keep i d).cache i = d.cache ∨ (s.keep i d).cache i = s.cache i := by
  have hset : (s.keep i d).cache i =
      (s.caches.set (s.renderer i).cache d.cache)[(s.renderer i).cache]?.getD ∅ := by
    rw [cache, (s.alike_keep i d).cache]
    rfl
  rw [hset, List.getElem?_set_self', cache]
  cases s.caches[(s.renderer i).cache]? with
  | none => exact .inr rfl
  | some c => exact .inl rfl

theorem compiles_keep (s : Session) (i j : Nat) (d : Desk) :
    ((s.keep j d).renderer i).compiles =
      if j = i ∧ i < s.renderers.length then d.compiles else (s.renderer i).compiles := by
  simp only [renderer, keep, List.getElem?_modify, List.length_set]
  cases hr : s.renderers[i]? with
  | none =>
    have hi := List.getElem?_eq_none_iff.mp hr
    rw [if_neg fun h => absurd h.2 (Nat.not_lt.mpr hi)]
    rfl
  | some r =>
    have hi := (List.getElem?_eq_some_iff.mp hr).1
    rw [Option.map_eq_map, Option.map_some, Option.getD_some, Option.getD_some]
    by_cases hj : j = i
    · rw [if_pos hj, if_pos ⟨hj, hi⟩]
    · rw [if_neg hj, if_neg (hj ∘ And.left)]

/-- What a call that fails at a stage may have made of the session. -/
def LeftBy (s : Session) (i : Nat) (subject : Subject) (o : Options) (s' : Session) : Stage → Prop
  | .preparing => s' = s
  | .compiling => (s'.renderer i).compiles = (s.renderer i).compiles + 1 ∧
      subject.Spares s.files o (s.cache i) (s'.cache i)
  | .evaluating => ∀ out,
      s.perform i (fun env files => subject.runBy env files o fun _ _ => .ok out) = (.ok out, s')

theorem left_by_failing (hi : i < s.renderers.length) {subject : Subject}
    (h : (s.answer i (subject.call o)).1 = .error e) :
    s.LeftBy i subject o (s.answer i (subject.call o)).2 e.stage := by
  rw [answer_eq] at h ⊢
  obtain ⟨d, hr⟩ := run_eq_of_perform h
  have hs : (s.perform i fun env files => (subject.call o).run env files).2 = s.keep i d :=
    congrArg Prod.snd (perform_of_error hr)
  rw [hs]
  rcases Subject.run_error hr with ⟨he, rfl⟩ | ⟨he, hc, hspares⟩ | ⟨he, hout⟩
  · rw [he]
    exact s.keep_desk i
  · rw [he]
    refine ⟨?_, ?_⟩
    · rw [compiles_keep, if_pos ⟨rfl, hi⟩, hc]
      rfl
    · rcases s.cache_keep i d with hk | hk
      · rw [hk]
        exact hspares
      · rw [hk]
        exact .refl _ _
  · rw [he]
    intro out
    rw [perform, EStateM.run, hout out]

end Session

/-- What a renderer does that may make it compile: it compiles a source for its own sake, or renders
one, with the cache or without, under a file name under which a template is found or not. -/
inductive Event where
  | compile
  | render (cached : Bool) (filename : Option String) (found : Bool)

namespace Event

def isCompile : Event → Bool
  | compile => true
  | render _ _ _ => false

/-- A render without the cache. -/
def isUncached : Event → Bool
  | render false _ _ => true
  | _ => false

/-- A render with the cache that has a file name and finds no template under it. -/
def isMissed : Event → Bool
  | render true (some _) false => true
  | _ => false

def compilations (events : List Event) : Nat :=
  events.countP isCompile + events.countP isUncached + events.countP isMissed

theorem compilations_append (events more : List Event) :
    compilations (events ++ more) = compilations events + compilations more := by
  simp only [compilations, List.countP_append]
  omega

/-- The render of a source at a desk. -/
def ofRender (o : Options) (desk : Desk) : Event :=
  .render o.cache o.filename (o.filename.bind desk.cache.template?).isSome

end Event

open Event (compilations ofRender)

/-- The renders at a desk: there is none of a file that cannot be read. -/
def Subject.events (files : FileTree) (o : Options) : Subject → Desk → List Event
  | source _, desk => [ofRender o desk]
  | file path, desk =>
    match Rendering.sourceOf files path o.cache desk with
    | .ok _ d => [ofRender { o with filename := some path } d]
    | .error _ _ => []

def Call.events (env : Environment) (files : FileTree) : Call → Desk → List Event
  | render source o, desk => (Subject.source source).events files o desk
  | renderFile path o, desk => (Subject.file path).events files o desk
  | renderView path o, desk =>
    (Subject.file path).events files o desk ++
      match Rendering.renderFile env files path o desk, o.layout with
      | .ok content d, some layout =>
        (Subject.file (Rendering.layoutPath o.views layout)).events files
          ({ o with layout := none }.set "body" (.string content)) d
      | _, _ => []

section compiles

variable {env : Environment} {files : FileTree} {o : Options}

theorem Rendering.compiles_templateFor (source : String) (o : Options) (desk : Desk) :
    (stateOf (templateFor env source o desk)).compiles =
      desk.compiles + compilations [ofRender o desk] := by
  have hmissed : ¬(o.cache = true ∧ o.filename = none) → desk.kept? o = none →
      compilations [ofRender o desk] = 1 := by
    intro hn hk
    cases hc : o.cache with
    | false =>
      rw [ofRender, hc]
      rfl
    | true =>
      cases hf : o.filename with
      | none => exact absurd ⟨hc, hf⟩ hn
      | some filename =>
        rw [Desk.kept?, if_pos hc, hf] at hk
        rw [ofRender, hc, hf, hk]
        rfl
  have ho := templateFor_outcome env source o desk
  generalize templateFor env source o desk = r at ho ⊢
  cases ho with
  | unnamed hc hf =>
    rw [ofRender, hc, hf]
    rfl
  | kept hk =>
    obtain ⟨hc, filename, hf, ht⟩ := Desk.exists_of_kept? hk
    rw [ofRender, hc, hf, Option.bind_some, ht]
    rfl
  | refused hn hk =>
    rw [hmissed hn hk]
    rfl
  | compiled hc =>
    rw [ofRender, hc]
    rfl
  | stored hc hf hk =>
    rw [hmissed (fun h => Option.some_ne_none _ (hf.symm.trans h.2)) hk]
    rfl

theorem Rendering.stateOf_bind_lift (x : Rendering α) (f : α → Except TemplateError β)
    (desk : Desk) : stateOf ((x >>= fun a => lift (f a)) desk) = stateOf (x desk) := by
  cases hx : x desk with
  | error e d =>
    rw [bind_eq_of_error hx]
    rfl
  | ok a d =>
    rw [bind_eq_of_ok hx, stateOf_lift]
    rfl

theorem Subject.compiles_run (subject : Subject) (o : Options) (desk : Desk) :
    (stateOf ((subject.call o).run env files desk)).compiles =
      desk.compiles + compilations (subject.events files o desk) := by
  rw [run_call, runBy, Rendering.stateOf_bind_lift]
  cases subject with
  | source text => exact Rendering.compiles_templateFor text o desk
  | file path =>
    have ho := Rendering.sourceOf_outcome desk files path o.cache
    rw [template, events]
    cases hs : Rendering.sourceOf files path o.cache desk with
    | error e d =>
      rw [hs] at ho
      rw [bind_eq_of_error hs]
      cases ho
      rfl
    | ok text d =>
      rw [hs] at ho
      have hd : d.compiles = desk.compiles := by cases ho <;> rfl
      rw [bind_eq_of_ok hs, Rendering.compiles_templateFor, hd]

theorem Call.compiles_run (call : Call) (desk : Desk) :
    (stateOf (call.run env files desk)).compiles =
      desk.compiles + compilations (call.events env files desk) := by
  cases call with
  | render source o => exact (Subject.source source).compiles_run o desk
  | renderFile path o => exact (Subject.file path).compiles_run o desk
  | renderView path o =>
    have hf : (stateOf (Rendering.renderFile env files path o desk)).compiles = _ :=
      (Subject.file path).compiles_run o desk
    change (stateOf (Rendering.renderView env files path o desk)).compiles = _
    rw [events, Event.compilations_append, Rendering.renderView]
    cases hr : Rendering.renderFile env files path o desk with
    | error e d =>
      rw [hr] at hf
      rw [bind_eq_of_error hr]
      exact hf
    | ok content d =>
      rw [hr] at hf
      rw [bind_eq_of_ok hr]
      cases hl : o.layout with
      | none => exact hf
      | some layout =>
        change d.compiles = _ at hf
        rw [← Nat.add_assoc, ← hf]
        exact (Subject.file (Rendering.layoutPath o.views layout)).compiles_run _ d

end compiles

namespace Session

variable {s s' : Session}

/-- What the renderer at a place does in an action, if there is one. -/
def events (s : Session) (i : Nat) : Action → List Event
  | .compile j _ _ => if j = i ∧ i < s.renderers.length then [.compile] else []
  | .call j call =>
    if j = i ∧ i < s.renderers.length then call.events (s.renderer i).env s.files (s.desk i) else []
  | _ => []

/-- What the renderer at a place does in a run. -/
def history (s : Session) (i : Nat) : List Action → List Event
  | [] => []
  | action :: rest => s.events i action ++ (s.act action).history i rest

/-- A new renderer has compiled nothing. -/
theorem compiles_added {r : Renderer} (h : s'.renderers = s.renderers ++ [r]) (hr : r.compiles = 0)
    (i : Nat) : (s'.renderer i).compiles = (s.renderer i).compiles := by
  rw [renderer, renderer, h]
  by_cases hi : i < s.renderers.length
  · rw [List.getElem?_append_left hi, List.getElem?_eq_getElem hi]
    rfl
  · have hle := Nat.le_of_not_lt hi
    rw [List.getElem?_append_right hle, List.getElem?_eq_none hle]
    cases i - s.renderers.length with
    | zero => exact hr
    | succ n => rfl

theorem compiles_perform (s : Session) (i j : Nat) (work : Environment → FileTree → Rendering α) :
    ((s.perform j work).2.renderer i).compiles =
      if j = i ∧ i < s.renderers.length then
        (stateOf (work (s.renderer i).env s.files (s.desk i))).compiles
      else (s.renderer i).compiles := by
  rw [perform_snd, compiles_keep]
  split
  · rename_i h
    rw [h.1]
  · rfl

theorem compiles_act (s : Session) (i : Nat) (action : Action) :
    ((s.act action).renderer i).compiles =
      (s.renderer i).compiles + compilations (s.events i action) := by
  cases action with
  | add =>
    have h : s.add.renderers = s.renderers ++ [⟨.standard, 0, s.caches.length⟩] := rfl
    exact compiles_added h rfl i
  | addSharing j =>
    have h : (s.addSharing j).renderers = s.renderers ++ [⟨.standard, 0, (s.renderer j).cache⟩] := rfl
    exact compiles_added h rfl i
  | changeEnvironment j f =>
    change (((s.renderers.modify j _)[i]?).getD _).compiles = (s.renderers[i]?.getD _).compiles
    rw [List.getElem?_modify]
    cases s.renderers[i]? with
    | none => rfl
    | some r =>
      rw [Option.map_eq_map, Option.map_some]
      split <;> rfl
  | changeFiles f => rfl
  | compile j source o =>
    change ((s.perform j fun env _ => Rendering.compile env source o).2.renderer i).compiles = _
    rw [compiles_perform, events, Rendering.compile_eq]
    split
    · cases Template.compile (s.desk i).stamp source o (s.renderer i).env <;> rfl
    · rfl
  | call j call =>
    change ((s.answer j call).2.renderer i).compiles = _
    rw [answer_eq, compiles_perform, events]
    split
    · exact call.compiles_run (s.desk i)
    · rfl
  | clearCache j =>
    simp only [act, renderer, clearCache, List.length_set]
    rfl

theorem compiles_after (s : Session) (i : Nat) (actions : List Action) :
    ((s.after actions).renderer i).compiles =
      (s.renderer i).compiles + compilations (s.history i actions) := by
  induction actions generalizing s with
  | nil => rfl
  | cons action rest ih =>
    change (((s.act action).after rest).renderer i).compiles = _
    rw [ih, compiles_act, history, Event.compilations_append, Nat.add_assoc]

/-- In every run a renderer has compiled as often as it was asked to, and rendered without the cache,
and rendered with the cache without finding a template under the file name. If it fails to render a
source or a file before it compiles, nothing at all has changed; if it fails in compiling, it has
compiled once more, and in the cache only the text of the file may have come in; and if the evaluation
of the template fails, all is as it would be if that had given any output. -/
theorem failing_leaves (files : FileTree) (actions : List Action)
    (hi : i < ((start files).after actions).renderers.length) :
    let s := (start files).after actions
    let events := (start files).history i actions
    (s.renderer i).compiles =
        events.countP Event.isCompile + events.countP Event.isUncached +
          events.countP Event.isMissed ∧
      ∀ (subject : Subject) (o : Options) (e : TemplateError),
        (s.answer i (subject.call o)).1 = .error e →
        s.LeftBy i subject o (s.answer i (subject.call o)).2 e.stage := by
  intro s events
  refine ⟨?_, fun subject o e h => left_by_failing hi h⟩
  rw [compiles_after]
  exact Nat.zero_add _

def brokenFiles : FileTree := .folder [("a", .file "<%")]

def brokenError : TemplateError := .unterminatedTag (.of (some "a") "<%" 1) "%>"

theorem failing_leaves_broken :
    let s := (start brokenFiles).after [.add]
    let s' := (s.answer 0 (.renderFile "a" (cachedAs "a"))).2
    (s.answer 0 (.renderFile "a" (cachedAs "a"))).1 = .error brokenError ∧
      0 < s.renderers.length ∧ (s.renderer 0).compiles = 0 ∧ (s'.renderer 0).compiles = 1 ∧
      (s'.cache 0).get? "a" = none := by
  intro s s'
  have hread : brokenFiles.read "a" = .ok "<%" := by cbv
  have hp : Template.parse "<%" (cachedAs "a") = .error brokenError := by cbv
  have hc : Template.compile 0 "<%" (cachedAs "a") .standard = .error brokenError := by
    rw [Template.compile, hp]
    rfl
  have hcall : (s.answer 0 (.renderFile "a" (cachedAs "a"))).1 = .error brokenError := by
    have hempty : (s.desk 0).cache = ∅ := rfl
    rw [answer_fst, Call.answer_run_empty hempty]
    change freshRenderFile .standard brokenFiles "a" (cachedAs "a") = _
    rw [freshRenderFile, hread]
    change freshRender .standard "<%" (cachedAs "a") = _
    rw [freshRender, if_neg (by decide), hc]
    rfl
  obtain ⟨hcount, hleft⟩ := failing_leaves brokenFiles [.add] (i := 0) Nat.zero_lt_one
  obtain ⟨hcompiles, hspares⟩ := hleft (.file "a") (cachedAs "a") brokenError hcall
  have hnone : (s'.cache 0).get? "a" = none := by
    rcases hspares "a" with hk | ⟨path, _, hf, _, hk, _⟩
    · exact hk
    · cases hf
      exact absurd hk (Cache.ne_sourceKey "a")
  exact ⟨hcall, Nat.zero_lt_one, hcount, hcompiles, hnone⟩

end Session

end Stencil

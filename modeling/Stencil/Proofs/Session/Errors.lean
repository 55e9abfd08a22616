import Stencil.Proofs.Renderer.Origins
import Stencil.Proofs.Template.Places

/-!
Errors of rendering in a session. Whatever has been done in the session before, an error with a line
names a line of the source that was compiled, under the file name of the call, and its message shows
the lines around it. With a cache this rests on what the templates in it were compiled from: each is
kept under its own file name.
-/

namespace Stencil

set_option autoImplicit true

/-- What may be done in a session. -/
inductive Action where
  | add
  | addSharing (i : Nat)
  | changeEnvironment (i : Nat) (f : Environment → Environment)
  | changeFiles (f : FileTree → FileTree)
  | compile (i : Nat) (source : String) (o : Options)
  | call (i : Nat) (call : Call)
  | clearCache (i : Nat)

namespace Session

def act (s : Session) : Action → Session
  | .add => s.add
  | .addSharing i => s.addSharing i
  | .changeEnvironment i f => s.changeEnvironment i f
  | .changeFiles f => { s with files := f s.files }
  | .compile i source o => (s.compile i source o).2
  | .call i call => (s.answer i call).2
  | .clearCache i => s.clearCache i

/-- The session after some actions. -/
def after (s : Session) (actions : List Action) : Session := actions.foldl act s

/-- What a new session may become. -/
def Reached (s : Session) : Prop := ∃ files actions, s = (start files).after actions

/-- Templates are kept under the file names that they were compiled with. -/
def named : Origin where
  template key _ o _ := o.filename = some key
  text _ _ := True

theorem named_admits (env : Environment) (files : FileTree) (call : Call) :
    named.Admits env files call := by
  have hfile : ∀ path o, named.AdmitsFile env files path o :=
    fun path o => ⟨fun _ _ _ => trivial, fun _ _ _ => rfl⟩
  cases call with
  | render source o => exact fun filename _ hf => hf
  | renderFile path o => exact hfile path o
  | renderView path o => exact ⟨hfile path o, fun _ _ _ => hfile _ _⟩

theorem From.act {s : Session} (h : s.From named) (action : Action) :
    (s.act action).From named := by
  cases action with
  | add =>
    intro c hc
    rcases List.mem_append.mp hc with hc | hc
    · exact h c hc
    · obtain rfl := List.mem_singleton.mp hc
      exact .empty
  | addSharing i => exact h
  | changeEnvironment i f => exact h
  | changeFiles f => exact h
  | compile i source o =>
    have hkeeps : Keeps named (fun _ => True)
        (Rendering.compile (s.renderer i).env source o (s.desk i)) := by
      rw [Rendering.compile_eq]
      cases Template.compile (s.desk i).stamp source o (s.renderer i).env with
      | ok t => exact ⟨h.cache i, trivial⟩
      | error e => exact h.cache i
    exact h.perform hkeeps
  | call i call => exact h.answer (named_admits _ _ call)
  | clearCache i => exact h.clearCache i

theorem From.after {s : Session} (h : s.From named) (actions : List Action) :
    (s.after actions).From named := by
  induction actions generalizing s with
  | nil => exact h
  | cons action actions ih => exact ih (h.act action)

end Session

namespace Desk

/-- The source of the template that a call renders: the one that is given, unless a template is
kept; then the one that this was compiled from. -/
inductive Compiles (desk : Desk) (source : String) (o : Options) : String → Prop
  | given : desk.kept? o = none → Compiles desk source o source
  | kept {n : Nat} : desk.kept? o = some t → Template.compile n text o' env = .ok t →
      Compiles desk source o text

/-- The text that a call takes for that of a file. -/
inductive Reads (desk : Desk) (files : FileTree) (path : String) (cache : Bool) : String → Prop
  | kept : desk.keptText? path cache = some text → Reads desk files path cache text
  | read : desk.keptText? path cache = none → files.read path = .ok text →
      Reads desk files path cache text

/-- Templates that are kept for a file do not depend on its text being kept. -/
theorem kept?_keeping_source (desk : Desk) (path text : String) (o : Options) :
    (desk.keeping (Cache.sourceKey path) (.source text)).kept? { o with filename := some path } =
      desk.kept? { o with filename := some path } := by
  have hne := Cache.ne_sourceKey path
  unfold kept?
  split
  · change Cache.template? (desk.cache.insert _ _) path = desk.cache.template? path
    rw [Cache.template?, Table.get?_insert, if_neg hne]
    rfl
  · rfl

end Desk

/-- The error names a line of the source, under the path, and its message shows the lines around. -/
structure TemplateError.PointsInto (e : TemplateError) (line : Nat) (path : Option String)
    (source : String) : Prop where
  at_path : e.path? = path
  at_line : IsLine source line
  shows : ∃ frame, Framed source line frame ∧
    e.message = path.getD "ejs" ++ ":" ++ toString line ++ "\n" ++ frame ++ "\n\n" ++ e.reason

theorem Place.Points.pointsInto {e : TemplateError} {p : Place} {path : Option String}
    (hp : e.place? = some p) (h : p.Points path source) : e.PointsInto p.line path source := by
  obtain ⟨rfl, hline, hframe⟩ := h
  refine ⟨?_, hline, p.frame, hframe, TemplateError.message_eq hp⟩
  rw [TemplateError.path?, hp]
  rfl

namespace Rendering

variable {desk : Desk} {env : Environment} {files : FileTree} {o : Options} {e : TemplateError}
  {p : Place}

/-- If a call of a renderer stops, the place that is named is a line of the source of the template
that was rendered. -/
theorem render_points (h : desk.cache.From Session.named)
    (hr : render env source o desk = .error e d) (hp : e.place? = some p) :
    ∃ text, desk.Compiles source o text ∧ p.Points o.filename text := by
  have ho := templateFor_outcome env source o desk
  unfold render at hr
  cases ht : templateFor env source o desk with
  | error e' d' =>
    rw [ht] at ho
    rw [bind_eq_of_error ht] at hr
    cases hr
    cases ho with
    | unnamed => cases hp
    | refused _ hk hc => exact ⟨source, .given hk, Template.compile_points hc hp⟩
  | ok t d' =>
    rw [ht] at ho
    rw [bind_eq_of_ok ht] at hr
    have hrender : t.render o = .error e := by
      cases hx : t.render o with
      | ok out =>
        rw [hx] at hr
        cases hr
      | error e' =>
        rw [hx] at hr
        cases hr
        rfl
    cases ho with
    | kept hk =>
      obtain ⟨_, filename, hf, ht⟩ := Desk.exists_of_kept? hk
      obtain ⟨stamp, text, o', env', ho', hc⟩ := h.template ht
      refine ⟨text, .kept hk hc, ?_⟩
      rw [hf, ← ho']
      exact Template.renderWith_points hc hrender hp
    | compiled hcache hc =>
      have hk : desk.kept? o = none := if_neg (by rw [hcache]; decide)
      exact ⟨source, .given hk, Template.renderWith_points hc hrender hp⟩
    | stored _ _ hk hc => exact ⟨source, .given hk, Template.renderWith_points hc hrender hp⟩

theorem renderFile_points (h : desk.cache.From Session.named)
    (hr : renderFile env files path o desk = .error e d) (hp : e.place? = some p) :
    ∃ source text, desk.Reads files path o.cache source ∧
      desk.Compiles source { o with filename := some path } text ∧ p.Points (some path) text := by
  have ho := sourceOf_outcome desk files path o.cache
  unfold renderFile at hr
  cases ht : sourceOf files path o.cache desk with
  | error e' d' =>
    rw [ht] at ho
    rw [bind_eq_of_error ht] at hr
    cases hr
    cases ho
    cases hp
  | ok source d' =>
    rw [ht] at ho
    rw [bind_eq_of_ok ht] at hr
    cases ho with
    | kept hk =>
      obtain ⟨text, hc, hpoints⟩ := render_points h hr hp
      exact ⟨source, text, .kept hk, hc, hpoints⟩
    | read hcache hread =>
      obtain ⟨text, hc, hpoints⟩ := render_points h hr hp
      have hk : desk.keptText? path o.cache = none := if_neg (by rw [hcache]; decide)
      exact ⟨source, text, .read hk hread, hc, hpoints⟩
    | stored hcache hk hread =>
      have hn : Cached.From Session.named (Cache.sourceKey path) (.source source) :=
        ⟨path, rfl, trivial⟩
      obtain ⟨text, hc, hpoints⟩ := render_points (h.insert hn) hr hp
      refine ⟨source, text, .read hk hread, ?_, hpoints⟩
      have heq := desk.kept?_keeping_source path source o
      cases hc with
      | given hg => exact .given (heq.symm.trans hg)
      | kept hg hc => exact .kept (heq.symm.trans hg) hc

end Rendering

namespace Session

variable {s : Session} {e : TemplateError} {o : Options}

theorem perform_of_error {work : Environment → FileTree → Rendering α}
    (h : work (s.renderer i).env s.files (s.desk i) = .error e d) :
    s.perform i work = (.error e, s.keep i d) := by
  unfold perform EStateM.run
  rw [h]

theorem run_eq_of_perform {work : Environment → FileTree → Rendering α}
    (h : (s.perform i work).1 = .error e) :
    ∃ d, work (s.renderer i).env s.files (s.desk i) = .error e d := by
  cases hr : work (s.renderer i).env s.files (s.desk i) with
  | ok a d =>
    unfold perform EStateM.run at h
    rw [hr] at h
    cases h
  | error e' d =>
    rw [perform_of_error hr] at h
    cases h
    exact ⟨d, rfl⟩

/-- Whatever has been done in a session, if rendering a source or a file fails with a line, this is
a line of the source of the template in question, under the file name of the call; and the message
shows it with the lines around it. -/
theorem errors_point (hs : s.Reached) (hl : e.line? = some line) (i : Nat) (o : Options) :
    (∀ source, (s.render i source o).1 = .error e →
      ∃ text, (s.desk i).Compiles source o text ∧ e.PointsInto line o.filename text) ∧
    ∀ path, (s.renderFile i path o).1 = .error e →
      ∃ source text, (s.desk i).Reads s.files path o.cache source ∧
        (s.desk i).Compiles source { o with filename := some path } text ∧
        e.PointsInto line (some path) text := by
  obtain ⟨files, actions, rfl⟩ := hs
  have hstart : (start files).From named := fun c hc => absurd hc List.not_mem_nil
  have hc := (hstart.after actions).cache i
  obtain ⟨p, hp, rfl⟩ := Option.map_eq_some_iff.mp hl
  constructor
  · intro source h
    obtain ⟨d, hr⟩ := run_eq_of_perform h
    obtain ⟨text, hcomp, hpoints⟩ := Rendering.render_points hc hr hp
    exact ⟨text, hcomp, hpoints.pointsInto hp⟩
  · intro path h
    obtain ⟨d, hr⟩ := run_eq_of_perform h
    obtain ⟨source, text, hreads, hcomp, hpoints⟩ := Rendering.renderFile_points hc hr hp
    exact ⟨source, text, hreads, hcomp, hpoints.pointsInto hp⟩

/-- A template that is kept although rendering it fails. -/
def pageTemplate : Template where
  stamp := 0
  source := "a\n<%= x %>"
  filename := some "page"
  segments := [.literal "a ", .emit " x " true 2]
  program := [.text "a ", .output (.ident "x") true 2]
  env := .standard

def pageOptions : Options := { Options.initial with cache := true, filename := some "page" }

def pageError : TemplateError :=
  .failed (.of (some "page") "a\n<%= x %>" 2) (.undefined "x")

def pageSession : Session :=
  (start default).after [.add, .call 0 (.render "a\n<%= x %>" pageOptions)]

/-- What the first call leaves behind. -/
def pageDesk : Desk :=
  (Desk.new.compiled "a\n<%= x %>" pageOptions).keeping "page" (.template pageTemplate)

theorem errors_point_page :
    (pageSession.render 0 "b" pageOptions).1 = .error pageError ∧ pageError.line? = some 2 ∧
      ∃ text, (pageSession.desk 0).Compiles "b" pageOptions text ∧
        pageError.PointsInto 2 (some "page") text := by
  have hp : Template.parse "a\n<%= x %>" pageOptions = .ok pageTemplate.segments := by cbv
  have hb : Script.build pageTemplate.segments = .ok pageTemplate.program := by cbv
  have hc : Template.compile 0 "a\n<%= x %>" pageOptions .standard = .ok pageTemplate :=
    Template.compile_of_build hp hb
  have hr : pageTemplate.render pageOptions = .error pageError := by rfl
  have ht := Rendering.templateFor_of_stored .standard _ pageOptions .new rfl rfl rfl hc
  have hfirst : Rendering.render .standard "a\n<%= x %>" pageOptions .new =
      .error pageError pageDesk := by
    rw [Rendering.render, bind_eq_of_ok ht, hr]
    rfl
  have hs : pageSession = (start default).add.keep 0 pageDesk :=
    congrArg Prod.snd (perform_of_error (s := (start default).add) hfirst)
  have hsecond : (pageSession.render 0 "b" pageOptions).1 = .error pageError := by
    rw [hs]
    rfl
  have hl : pageError.line? = some 2 := rfl
  exact ⟨hsecond, hl, (errors_point ⟨_, _, rfl⟩ hl 0 pageOptions).1 "b" hsecond⟩

end Session

end Stencil

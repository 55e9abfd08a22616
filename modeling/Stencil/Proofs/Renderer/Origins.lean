import Stencil.Proofs.Renderer.Outcomes
import Stencil.Session

/-!
Where the entries of a cache come from. Whatever may be said of the compilations and the readings
that fill a cache is kept as long as it is only used for rendering, also by calls that fail
(`Call.keeps`), whichever renderers of a session make them (`Session.From.answer`).
-/

namespace Stencil

set_option autoImplicit true

/-- What is said of the entries of a cache: of the source, the options and the environment that a
template under a key was compiled with, and of the text that was read from a file. -/
structure Origin where
  template : (key source : String) → Options → Environment → Prop
  text : (path text : String) → Prop

def Cached.From (k : Origin) (key : String) : Cached → Prop
  | .template t => ∃ stamp source o env, k.template key source o env ∧
      Template.compile stamp source o env = .ok t
  | .source text => ∃ path, key = Cache.sourceKey path ∧ k.text path text

/-- All entries of the cache are of this origin. -/
def Cache.From (k : Origin) (c : Cache) : Prop :=
  ∀ key entry, c.get? key = some entry → entry.From k key

namespace Cache.From

variable {k : Origin} {c : Cache}

theorem empty : From k ∅ := by
  intro key entry h
  rw [Table.get?_empty] at h
  cases h

theorem insert (h : c.From k) (he : entry.From k key) : From k (c.insert key entry) := by
  intro name other ho
  rw [Table.get?_insert] at ho
  split at ho
  · rename_i hn
    cases ho
    rw [hn]
    exact he
  · exact h name other ho

theorem template (h : c.From k) (ht : c.template? key = some t) :
    ∃ stamp source o env, k.template key source o env ∧
      Template.compile stamp source o env = .ok t := by
  unfold Cache.template? at ht
  split at ht
  · rename_i u hg
    cases ht
    exact h key _ hg
  · cases ht

theorem source (h : c.From k) (ht : c.source? (sourceKey path) = some text) : k.text path text := by
  unfold Cache.source? at ht
  split at ht
  · rename_i other hg
    cases ht
    obtain ⟨path', hp, ht⟩ := h _ _ hg
    rw [(String.append_left_inj _).mp hp]
    exact ht
  · cases ht

end Cache.From

/-- A result that leaves a cache of this origin, and a value with a property unless it is an error. -/
def Keeps (k : Origin) (T : α → Prop) : EStateM.Result TemplateError Desk α → Prop
  | .ok a desk => desk.cache.From k ∧ T a
  | .error _ desk => desk.cache.From k

theorem Keeps.bind {x : Rendering α} {f : α → Rendering β} (hx : Keeps k T (x desk))
    (hf : ∀ a d, d.cache.From k → T a → Keeps k U (f a d)) : Keeps k U ((x >>= f) desk) := by
  cases hr : x desk with
  | error e d =>
    rw [hr] at hx
    rw [bind_eq_of_error hr]
    exact hx
  | ok a d =>
    rw [hr] at hx
    rw [bind_eq_of_ok hr]
    exact hf a d hx.1 hx.2

/-- A call of a renderer for an output. -/
inductive Call where
  | render (source : String) (o : Options)
  | renderFile (path : String) (o : Options)
  | renderView (path : String) (o : Options)

def Call.run (env : Environment) (files : FileTree) : Call → Rendering String
  | render source o => Rendering.render env source o
  | renderFile path o => Rendering.renderFile env files path o
  | renderView path o => Rendering.renderView env files path o

/-- Lets a renderer answer a call. -/
def Session.answer (s : Session) (i : Nat) : Call → Except TemplateError String × Session
  | .render source o => s.render i source o
  | .renderFile path o => s.renderFile i path o
  | .renderView path o => s.renderView i path o

theorem Session.answer_eq (s : Session) (i : Nat) (call : Call) :
    s.answer i call = s.perform i fun env files => call.run env files := by
  cases call <;> rfl

namespace Origin

variable (k : Origin) (env : Environment) (files : FileTree)

/-- What compiling the source with the cache on may leave there is of this origin. -/
def AdmitsSource (source : String) (o : Options) : Prop :=
  ∀ filename, o.cache = true → o.filename = some filename → k.template filename source o env

/-- What rendering the file with the cache on may leave there is of this origin. -/
structure AdmitsFile (path : String) (o : Options) : Prop where
  text : ∀ text, o.cache = true → files.read path = .ok text → k.text path text
  template : ∀ text, o.cache = true → k.text path text →
    k.template path text { o with filename := some path } env

/-- What a call may leave in the cache is of this origin. -/
def Admits : Call → Prop
  | .render source o => k.AdmitsSource env source o
  | .renderFile path o => k.AdmitsFile env files path o
  | .renderView path o => k.AdmitsFile env files path o ∧
      ∀ layout content, o.layout = some layout →
        k.AdmitsFile env files (Rendering.layoutPath o.views layout)
          ({ o with layout := none }.set "body" (.string content))

end Origin

namespace Rendering

variable {k : Origin} {desk : Desk} {env : Environment} {files : FileTree}

theorem templateFor_keeps (h : desk.cache.From k) (ha : k.AdmitsSource env source o) :
    Keeps k (fun _ => True) (templateFor env source o desk) := by
  have hr := templateFor_outcome env source o desk
  generalize templateFor env source o desk = r at hr ⊢
  cases hr with
  | unnamed => exact h
  | kept => exact ⟨h, trivial⟩
  | refused => exact h
  | compiled => exact ⟨h, trivial⟩
  | stored hc hf _ ht => exact ⟨h.insert ⟨_, _, _, _, ha _ hc hf, ht⟩, trivial⟩

theorem render_keeps (h : desk.cache.From k) (ha : k.AdmitsSource env source o) :
    Keeps k (fun _ => True) (render env source o desk) := by
  refine (templateFor_keeps h ha).bind fun t d hd _ => ?_
  cases t.render o with
  | ok out => exact ⟨hd, trivial⟩
  | error e => exact hd

/-- With the cache on, the text of a file is of the origin, too. -/
theorem sourceOf_keeps (h : desk.cache.From k)
    (hr : ∀ text, cache = true → files.read path = .ok text → k.text path text) :
    Keeps k (fun text => cache = true → k.text path text) (sourceOf files path cache desk) := by
  have ho := sourceOf_outcome desk files path cache
  generalize sourceOf files path cache desk = r at ho ⊢
  cases ho with
  | kept hk => exact ⟨h, fun _ => h.source (Desk.source?_of_keptText? hk)⟩
  | unreadable => exact h
  | read hc _ => exact ⟨h, fun ht => absurd (hc.symm.trans ht) (by decide)⟩
  | stored hc _ hread => exact ⟨h.insert ⟨path, rfl, hr _ hc hread⟩, fun _ => hr _ hc hread⟩

theorem renderFile_keeps (h : desk.cache.From k) (ha : k.AdmitsFile env files path o) :
    Keeps k (fun _ => True) (renderFile env files path o desk) := by
  refine (sourceOf_keeps h ha.text).bind fun text d hd ht => ?_
  refine render_keeps hd fun filename hc hf => ?_
  cases hf
  exact ha.template text hc (ht hc)

theorem renderView_keeps (h : desk.cache.From k)
    (ha : k.Admits env files (.renderView path o)) :
    Keeps k (fun _ => True) (renderView env files path o desk) := by
  refine (renderFile_keeps h ha.1).bind fun content d hd _ => ?_
  cases hl : o.layout with
  | none => exact ⟨hd, trivial⟩
  | some layout => exact renderFile_keeps hd (ha.2 layout content hl)

end Rendering

/-- Every call keeps the origin of the entries, also if it fails. -/
theorem Call.keeps {k : Origin} {desk : Desk} (call : Call) (h : desk.cache.From k)
    (ha : k.Admits env files call) :
    Keeps k (fun _ => True) (call.run env files desk) := by
  cases call with
  | render source o => exact Rendering.render_keeps h ha
  | renderFile path o => exact Rendering.renderFile_keeps h ha
  | renderView path o => exact Rendering.renderView_keeps h ha

/-- All entries of all caches of the session are of this origin. -/
def Session.From (k : Origin) (s : Session) : Prop := ∀ c ∈ s.caches, c.From k

namespace Session.From

variable {k : Origin} {s : Session}

theorem cache (h : s.From k) (i : Nat) : (s.cache i).From k := by
  unfold Session.cache
  cases hc : s.caches[(s.renderer i).cache]? with
  | none => exact .empty
  | some c => exact h c (List.mem_of_getElem? hc)

theorem set {c : Cache} (h : s.From k) (hc : c.From k) (n : Nat) :
    ∀ c' ∈ s.caches.set n c, c'.From k := by
  intro c' hc'
  rcases List.mem_or_eq_of_mem_set hc' with hm | rfl
  · exact h c' hm
  · exact hc

theorem perform {work : Environment → FileTree → Rendering α} (h : s.From k)
    (hw : Keeps k T (work (s.renderer i).env s.files (s.desk i))) :
    (s.perform i work).2.From k := by
  unfold Session.perform EStateM.run
  cases hr : work (s.renderer i).env s.files (s.desk i) with
  | ok a d =>
    rw [hr] at hw
    exact h.set hw.1 _
  | error e d =>
    rw [hr] at hw
    exact h.set hw _

theorem answer (h : s.From k) {call : Call} (ha : k.Admits (s.renderer i).env s.files call) :
    (s.answer i call).2.From k := by
  rw [Session.answer_eq]
  exact h.perform (call.keeps (h.cache i) ha)

theorem clearCache (h : s.From k) (i : Nat) : (s.clearCache i).From k := h.set .empty _

end Session.From

end Stencil

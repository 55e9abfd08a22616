import Mathlib
import Stencil.Proofs.Renderer.Origins
import Stencil.Proofs.Template.Rendered

/-!
The cache is transparent: renderers that share a cache answer every call as if nothing were ever
found in it. This holds as long as a file name always stands for one text that is read in one way.
Then the cache can only hold what would be made anew, and it is no matter that texts and templates
are kept under keys of the same form.
-/

namespace Stencil

set_option autoImplicit true

section fresh

variable (env : Environment) (files : FileTree)

/-- Renders a source without a cache; there must be a file name if the cache is on. -/
def freshRender (source : String) (o : Options) : Except TemplateError String :=
  if o.cache = true ∧ o.filename = none then .error .cacheWithoutFilename
  else do
    let t ← Template.compile 0 source o env
    t.render o

/-- Renders a file without a cache. -/
def freshRenderFile (path : String) (o : Options) : Except TemplateError String :=
  match files.read path with
  | .error fault => .error (.unreadable path fault)
  | .ok text => freshRender env text { o with filename := some path }

/-- Renders a file and its layout without a cache. -/
def freshRenderView (path : String) (o : Options) : Except TemplateError String := do
  let content ← freshRenderFile env files path o
  match o.layout with
  | none => pure content
  | some layout =>
    freshRenderFile env files (Rendering.layoutPath o.views layout)
      ({ o with layout := none }.set "body" (.string content))

/-- The answer to a call without a cache. -/
def Call.fresh : Call → Except TemplateError String
  | .render source o => freshRender env source o
  | .renderFile path o => freshRenderFile env files path o
  | .renderView path o => freshRenderView env files path o

end fresh

/-- With the cache on, the call uses each file name for its one text, and reads that in one way. -/
def Call.Uses (text : String → String) (setting : String → Setting) : Call → Prop
  | .render source o => o.cache = true → ∀ filename, o.filename = some filename →
      source = text filename ∧ o.setting = setting filename
  | .renderFile path o => o.cache = true → o.setting = setting path
  | .renderView path o => o.cache = true → o.setting = setting path ∧
      ∀ layout, o.layout = some layout →
        o.setting = setting (Rendering.layoutPath o.views layout)

/-- The outcome without what has become of the desk. -/
def answerOf : EStateM.Result ε σ α → Except ε α
  | .ok a _ => .ok a
  | .error e _ => .error e

/-- Everything in the cache is what would be made anew. -/
def agreed (text : String → String) (setting : String → Setting) (env : Environment)
    (files : FileTree) : Origin where
  template key source o env' := source = text key ∧ o.filename = some key ∧
    o.setting = setting key ∧ env' = env
  text path t := files.read path = .ok t

section answers

variable {text : String → String} {setting : String → Setting} {env : Environment}
  {files : FileTree} {desk : Desk} {o : Options}

theorem agreed_admitsFile (hf : ∀ path source, files.read path = .ok source → source = text path)
    (hs : o.cache = true → o.setting = setting path) :
    (agreed text setting env files).AdmitsFile env files path o where
  text _ _ hr := hr
  template t hc hr := ⟨hf path t hr, rfl, hs hc, rfl⟩

theorem Call.Uses.admits (hf : ∀ path source, files.read path = .ok source → source = text path)
    {call : Call} (hu : call.Uses text setting) :
    (agreed text setting env files).Admits env files call := by
  cases call with
  | render source o =>
    intro filename hc hn
    obtain ⟨hs, hset⟩ := hu hc filename hn
    exact ⟨hs, hn, hset, rfl⟩
  | renderFile path o => exact agreed_admitsFile hf hu
  | renderView path o =>
    exact ⟨agreed_admitsFile hf fun hc => (hu hc).1,
      fun layout content hl => agreed_admitsFile hf fun hc => (hu hc).2 layout hl⟩

/-- A template that is kept is the one that would be compiled. -/
theorem compile_of_kept (h : desk.cache.From (agreed text setting env files))
    (ha : (agreed text setting env files).AdmitsSource env source o) (hk : desk.kept? o = some t) :
    Template.compile 0 source o env = .ok { t with stamp := 0 } := by
  obtain ⟨hc, filename, hf, ht⟩ := Desk.exists_of_kept? hk
  obtain ⟨stamp, source', o', env', ⟨hs', hf', hset', rfl⟩, hcompile⟩ := h.template ht
  obtain ⟨hs, _, hset, _⟩ := ha filename hc hf
  have hsource : source = source' := hs.trans hs'.symm
  have hcongr := Template.compile_congr stamp source' env'
    (hset.trans hset'.symm) (hf.trans hf'.symm)
  rw [hsource, Template.compile_restamp stamp 0, hcongr, hcompile]
  rfl

theorem answerOf_lift (r : Except TemplateError α) (desk : Desk) :
    answerOf ((Rendering.lift r : Rendering α) desk) = r := by
  cases r with
  | ok a => rfl
  | error e => rfl

theorem freshRender_eq (hn : ¬(o.cache = true ∧ o.filename = none)) (stamp : Nat) :
    freshRender env source o = Template.compile stamp source o env >>= fun t => t.render o := by
  rw [freshRender, if_neg hn, Template.compile_restamp stamp 0]
  cases Template.compile stamp source o env with
  | ok t => rfl
  | error e => rfl

/-- Rendering answers as it would without the cache. -/
theorem answer_render (h : desk.cache.From (agreed text setting env files))
    (ha : (agreed text setting env files).AdmitsSource env source o) :
    answerOf (Rendering.render env source o desk) = freshRender env source o := by
  have ho := Rendering.templateFor_outcome env source o desk
  unfold Rendering.render
  cases ht : Rendering.templateFor env source o desk with
  | error e d =>
    rw [ht] at ho
    rw [bind_eq_of_error ht]
    cases ho with
    | unnamed hc hf =>
      rw [freshRender, if_pos ⟨hc, hf⟩]
      rfl
    | refused hn _ hc =>
      rw [freshRender_eq hn, hc]
      rfl
  | ok t d =>
    rw [ht] at ho
    rw [bind_eq_of_ok ht, answerOf_lift]
    cases ho with
    | kept hk =>
      -- The source that is given is not looked at, but the kept template comes from the same one.
      obtain ⟨_, filename, hf, _⟩ := Desk.exists_of_kept? hk
      have hn : ¬(o.cache = true ∧ o.filename = none) := fun h => nomatch hf.symm.trans h.2
      rw [freshRender_eq hn, compile_of_kept h ha hk]
      rfl
    | compiled hcache hc =>
      have hn : ¬(o.cache = true ∧ o.filename = none) := fun h => nomatch hcache.symm.trans h.1
      rw [freshRender_eq hn, hc]
      rfl
    | stored _ hf _ hc =>
      have hn : ¬(o.cache = true ∧ o.filename = none) := fun h => nomatch hf.symm.trans h.2
      rw [freshRender_eq hn, hc]
      rfl

theorem answer_renderFile (h : desk.cache.From (agreed text setting env files))
    (ha : (agreed text setting env files).AdmitsFile env files path o) :
    answerOf (Rendering.renderFile env files path o desk) = freshRenderFile env files path o := by
  have hkeeps := Rendering.sourceOf_keeps h ha.text
  have ho := Rendering.sourceOf_outcome desk files path o.cache
  have hfresh : ∀ source (d : Desk), files.read path = .ok source →
      d.cache.From (agreed text setting env files) →
      answerOf (Rendering.render env source { o with filename := some path } d) =
        freshRenderFile env files path o := by
    intro source d hr hd
    rw [freshRenderFile, hr]
    refine answer_render hd fun filename hc hf => ?_
    cases hf
    exact ha.template source hc hr
  unfold Rendering.renderFile
  cases hs : Rendering.sourceOf files path o.cache desk with
  | error e d =>
    rw [hs] at ho
    rw [bind_eq_of_error hs]
    cases ho with
    | unreadable hr =>
      rw [freshRenderFile, hr]
      rfl
  | ok source d =>
    rw [hs] at ho hkeeps
    rw [bind_eq_of_ok hs]
    cases ho with
    | kept hk => exact hfresh source desk (h.source (Desk.source?_of_keptText? hk)) h
    | read _ hr => exact hfresh source desk hr h
    | stored _ _ hr => exact hfresh source _ hr hkeeps.1

theorem answer_renderView (h : desk.cache.From (agreed text setting env files))
    (ha : (agreed text setting env files).Admits env files (.renderView path o)) :
    answerOf (Rendering.renderView env files path o desk) = freshRenderView env files path o := by
  have hcontent := answer_renderFile h ha.1
  have hkeeps := Rendering.renderFile_keeps h ha.1
  unfold Rendering.renderView freshRenderView
  cases hr : Rendering.renderFile env files path o desk with
  | error e d =>
    rw [hr] at hcontent
    rw [bind_eq_of_error hr, ← hcontent]
    rfl
  | ok content d =>
    rw [hr] at hcontent hkeeps
    rw [bind_eq_of_ok hr, ← hcontent]
    cases hl : o.layout with
    | none => rfl
    | some layout => exact answer_renderFile hkeeps.1 (ha.2 layout content hl)

/-- Every call is answered as it would be without the cache. -/
theorem Call.answer_run (h : desk.cache.From (agreed text setting env files)) {call : Call}
    (ha : (agreed text setting env files).Admits env files call) :
    answerOf (call.run env files desk) = call.fresh env files := by
  cases call with
  | render source o => exact answer_render h ha
  | renderFile path o => exact answer_renderFile h ha
  | renderView path o => exact answer_renderView h ha

end answers

/-- What is answered without a cache is what any renderer with an empty cache answers. -/
theorem Call.answer_run_empty {desk : Desk} (h : desk.cache = ∅) (call : Call) :
    answerOf (call.run env files desk) = call.fresh env files := by
  have hempty : ∀ text setting, desk.cache.From (agreed text setting env files) := by
    intro text setting
    rw [h]
    exact .empty
  have hf : ∀ path source, files.read path = .ok source →
      source = (files.read path).toOption.getD "" := by
    intro path source hr
    rw [hr]
    rfl
  cases call with
  | render source o =>
    refine answer_render (hempty (fun _ => source) fun _ => o.setting) fun filename hc hn => ?_
    exact ⟨rfl, hn, rfl, rfl⟩
  | renderFile path o =>
    exact answer_renderFile (hempty _ fun _ => o.setting) (agreed_admitsFile hf fun _ => rfl)
  | renderView path o =>
    refine answer_renderView (hempty _ fun _ => o.setting)
      ⟨agreed_admitsFile hf fun _ => rfl, fun layout content hl => ?_⟩
    exact agreed_admitsFile hf fun _ => rfl

/-- A turn in a session: a call, or the clearing of the cache, by one of its renderers. -/
inductive Turn where
  | call (i : Nat) (call : Call)
  | clearCache (i : Nat)

namespace Turn

/-- The place of the renderer in the session. -/
def renderer : Turn → Nat
  | call i _ => i
  | clearCache i => i

def Uses (text : String → String) (setting : String → Setting) : Turn → Prop
  | call _ c => c.Uses text setting
  | clearCache _ => True

/-- What is answered without a cache, if it is a call. -/
def fresh? (env : Environment) (files : FileTree) :
    Turn → Option (Except TemplateError String)
  | call _ c => some (c.fresh env files)
  | clearCache _ => none

end Turn

namespace Session

/-- The answers to the calls in a list of turns. -/
def serve (s : Session) : List Turn → List (Except TemplateError String)
  | [] => []
  | .call i c :: rest => (s.answer i c).1 :: (s.answer i c).2.serve rest
  | .clearCache i :: rest => (s.clearCache i).serve rest

/-- Files and renderers are the same, apart from what these have counted. -/
structure Alike (s s' : Session) : Prop where
  files : s'.files = s.files
  env : ∀ i, (s'.renderer i).env = (s.renderer i).env
  cache : ∀ i, (s'.renderer i).cache = (s.renderer i).cache

theorem alike_keep (s : Session) (i : Nat) (d : Desk) : s.Alike (s.keep i d) := by
  have hr : ∀ j, ((s.keep i d).renderer j).env = (s.renderer j).env ∧
      ((s.keep i d).renderer j).cache = (s.renderer j).cache := by
    intro j
    simp only [renderer, keep, List.getElem?_modify, List.length_set]
    cases s.renderers[j]? with
    | none => exact ⟨rfl, rfl⟩
    | some r =>
      rw [Option.map_eq_map, Option.map_some]
      split <;> exact ⟨rfl, rfl⟩
  exact ⟨rfl, fun j => (hr j).1, fun j => (hr j).2⟩

theorem alike_clearCache (s : Session) (i : Nat) : s.Alike (s.clearCache i) := by
  have hr : ∀ j, (s.clearCache i).renderer j = s.renderer j := by
    intro j
    simp only [renderer, clearCache, List.length_set]
  exact ⟨rfl, fun j => congrArg _ (hr j), fun j => congrArg _ (hr j)⟩

theorem answer_fst (s : Session) (i : Nat) (call : Call) :
    (s.answer i call).1 = answerOf (call.run (s.renderer i).env s.files (s.desk i)) := by
  rw [answer_eq, perform, EStateM.run]
  cases call.run (s.renderer i).env s.files (s.desk i) <;> rfl

theorem exists_answer_snd {s : Session} {i : Nat} {call : Call}
    (h : Keeps k T (call.run (s.renderer i).env s.files (s.desk i))) :
    ∃ d, d.cache.From k ∧ (s.answer i call).2 = s.keep i d := by
  rw [answer_eq, perform, EStateM.run]
  cases hr : call.run (s.renderer i).env s.files (s.desk i) with
  | ok a d =>
    rw [hr] at h
    exact ⟨d, h.1, rfl⟩
  | error e d =>
    rw [hr] at h
    exact ⟨d, h, rfl⟩

theorem from_set {k : Origin} {c : Cache} (caches : List Cache) (n : Nat) (hc : c.From k) :
    ((caches.set n c)[n]?.getD ∅).From k := by
  rw [List.getElem?_set_self']
  cases caches[n]? with
  | none => exact .empty
  | some _ => exact hc

/-- The renderers that the turns go to have this environment, and share the cache at a place. -/
def Shares (s : Session) (env : Environment) (n : Nat) (turns : List Turn) : Prop :=
  ∀ turn ∈ turns, (s.renderer turn.renderer).env = env ∧
    (s.renderer turn.renderer).cache = n

theorem Shares.alike {s s' : Session} {env : Environment} (hr : s.Shares env n turns)
    (h : s.Alike s') : s'.Shares env n turns := by
  intro turn hm
  rw [h.env, h.cache]
  exact hr turn hm

/-- As long as the cache that renderers share holds nothing but what would be made anew, they answer
as if it were empty. -/
theorem serve_of_from {s : Session}
    (h : (s.caches[n]?.getD ∅).From (agreed text setting env s.files))
    (hr : s.Shares env n turns)
    (hf : ∀ path source, s.files.read path = .ok source → source = text path)
    (hu : ∀ turn ∈ turns, Turn.Uses text setting turn) :
    s.serve turns = turns.filterMap (Turn.fresh? env s.files) := by
  induction turns generalizing s with
  | nil => rfl
  | cons turn rest ih =>
    obtain ⟨henv, hcache⟩ := hr turn List.mem_cons_self
    have hrest : s.Shares env n rest := fun r hm => hr r (List.mem_cons_of_mem _ hm)
    obtain ⟨huses, hurest⟩ := List.forall_mem_cons.mp hu
    cases turn with
    | clearCache i =>
      have ha := s.alike_clearCache i
      have hkept : ((s.clearCache i).caches[n]?.getD ∅).From (agreed text setting env s.files) := by
        change (s.renderer i).cache = n at hcache
        rw [clearCache, hcache]
        exact from_set s.caches n .empty
      exact ih hkept (hrest.alike ha) hf hurest
    | call i c =>
      change (s.renderer i).env = env at henv
      change (s.renderer i).cache = n at hcache
      have hd : (s.desk i).cache.From (agreed text setting env s.files) := by
        change (s.caches[(s.renderer i).cache]?.getD ∅).From _
        rw [hcache]
        exact h
      have hadmits : (agreed text setting env s.files).Admits env s.files c :=
        Call.Uses.admits hf huses
      have hanswer : (s.answer i c).1 = c.fresh env s.files := by
        rw [answer_fst, henv]
        exact c.answer_run hd hadmits
      have hkeeps : Keeps (agreed text setting env s.files) (fun _ => True)
          (c.run (s.renderer i).env s.files (s.desk i)) := by
        rw [henv]
        exact c.keeps hd hadmits
      obtain ⟨d, hleft, hs⟩ := exists_answer_snd hkeeps
      have ha := s.alike_keep i d
      rw [serve, hanswer, hs]
      have hkept : ((s.keep i d).caches[n]?.getD ∅).From (agreed text setting env s.files) := by
        rw [keep, hcache]
        exact from_set s.caches n hleft
      exact congrArg (c.fresh env s.files :: ·) (ih hkept (hrest.alike ha) hf hurest)

/-- Renderers with equal environments that share a cache, which is empty at first, answer calls as
if nothing were ever found in it; provided that every file name stands for one text, that of the
file if there is one, and that with the cache on the text is read in one way. -/
theorem serve_eq_fresh {s : Session} {turns : List Turn} {env : Environment} {n : Nat}
    (text : String → String) (setting : String → Setting)
    (hr : s.Shares env n turns) (hn : s.caches[n]? = some ∅)
    (hf : ∀ path source, s.files.read path = .ok source → source = text path)
    (hu : ∀ turn ∈ turns, turn.Uses text setting) :
    s.serve turns = turns.filterMap (Turn.fresh? env s.files) := by
  refine serve_of_from ?_ hr hf hu
  rw [hn]
  exact .empty

/-- Two renderers that share a cache, beside a file. -/
def twoRenderers : Session := ((start (.folder [("a", .file "y")])).add).addSharing 0

def cachedAs (filename : String) : Options :=
  { Options.initial with cache := true, filename := some filename }

/-- The name of one template is the key under which the text of the file is kept. -/
def collidingTurns : List Turn :=
  [.call 0 (.render "x" (cachedAs "a:string")), .call 1 (.renderFile "a" (cachedAs "a")),
    .call 0 (.render "x" (cachedAs "a:string")), .clearCache 1,
    .call 0 (.renderFile "a" (cachedAs "a"))]

def collidingText (path : String) : String :=
  (twoRenderers.files.read path).toOption.getD "x"

theorem colliding_uses : ∀ turn ∈ collidingTurns,
    turn.Uses collidingText fun _ => Options.initial.setting := by
  have hstring : (Call.render "x" (cachedAs "a:string")).Uses collidingText
      fun _ => Options.initial.setting := by
    have hmissing : twoRenderers.files.read "a:string" = .error .notFound := by cbv
    rintro _ filename ⟨⟩
    refine ⟨?_, rfl⟩
    rw [collidingText, hmissing]
    rfl
  simp only [collidingTurns, List.forall_mem_cons]
  exact ⟨hstring, fun _ => rfl, hstring, trivial, fun _ => rfl,
    fun _ hm => absurd hm List.not_mem_nil⟩

theorem fresh_colliding : collidingTurns.filterMap
    (Turn.fresh? .standard twoRenderers.files) = [.ok "x", .ok "y", .ok "x", .ok "y"] := by
  have hx : freshRender .standard "x" (cachedAs "a:string") = .ok "x" := by
    have hp : Template.parse "x" (cachedAs "a:string") = .ok [.literal "x"] := by cbv
    have hb : Script.build [.literal "x"] = .ok [.text "x"] := by cbv
    rw [freshRender, if_neg (by decide), Template.compile_of_build hp hb]
    rfl
  have hy : freshRenderFile .standard twoRenderers.files "a" (cachedAs "a") = .ok "y" := by
    have hread : twoRenderers.files.read "a" = .ok "y" := by cbv
    have hp : Template.parse "y" (cachedAs "a") = .ok [.literal "y"] := by cbv
    have hb : Script.build [.literal "y"] = .ok [.text "y"] := by cbv
    rw [freshRenderFile, hread]
    change freshRender .standard "y" (cachedAs "a") = .ok "y"
    rw [freshRender, if_neg (by decide), Template.compile_of_build hp hb]
    rfl
  change [freshRender .standard "x" (cachedAs "a:string"),
    freshRenderFile .standard twoRenderers.files "a" (cachedAs "a"),
    freshRender .standard "x" (cachedAs "a:string"),
    freshRenderFile .standard twoRenderers.files "a" (cachedAs "a")] = _
  rw [hx, hy]

theorem serve_eq_fresh_colliding :
    twoRenderers.Shares .standard 0 collidingTurns ∧
      (∀ path source, twoRenderers.files.read path = .ok source → source = collidingText path) ∧
      (∀ turn ∈ collidingTurns,
        turn.Uses collidingText fun _ => Options.initial.setting) ∧
      twoRenderers.serve collidingTurns = [.ok "x", .ok "y", .ok "x", .ok "y"] := by
  have hr : twoRenderers.Shares .standard 0 collidingTurns := by
    simp only [Shares, collidingTurns, List.forall_mem_cons]
    exact ⟨⟨rfl, rfl⟩, ⟨rfl, rfl⟩, ⟨rfl, rfl⟩, ⟨rfl, rfl⟩, ⟨rfl, rfl⟩,
      fun _ hm => absurd hm List.not_mem_nil⟩
  have hf : ∀ path source, twoRenderers.files.read path = .ok source →
      source = collidingText path := by
    intro path source h
    rw [collidingText, h]
    rfl
  have hserve := serve_eq_fresh collidingText _ hr rfl hf colliding_uses
  exact ⟨hr, hf, colliding_uses, hserve.trans fresh_colliding⟩

end Session

end Stencil

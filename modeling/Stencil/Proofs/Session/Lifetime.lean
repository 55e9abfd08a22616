import Stencil.Proofs.Session.Errors
import Stencil.Proofs.Session.Transparency

/-!
How long a template is kept. A cache is emptied as a whole, but one key may stand for a template and
for the text of a file: a file `p` is kept under `p:string`, and so is a template with that file name.
Reading `p` with the cache on then takes the template away (`not_kept_until_cleared`). Nothing else
does: a template under a key under which no text is kept stays until the cache is cleared, and until
then it serves every call with its file name (`kept_until_cleared`).
-/

namespace Stencil

set_option autoImplicit true

/-- The state that is left, however a computation ends. -/
def stateOf : EStateM.Result ε σ α → σ
  | .ok _ s => s
  | .error _ s => s

theorem Rendering.stateOf_lift (r : Except TemplateError α) (desk : Desk) :
    stateOf ((lift r : Rendering α) desk) = desk := by
  cases r <;> rfl

/-- The desk has the template under the key. -/
def Desk.Holds (key : String) (t : Template) (desk : Desk) : Prop :=
  desk.cache.template? key = some t

/-- A computation that leaves the template under the key, or no template there, as it is. -/
def Rendering.Spares (key : String) (found : Option Template) (x : Rendering α) : Prop :=
  ∀ desk : Desk, desk.cache.template? key = found →
    (stateOf (x desk)).cache.template? key = found

theorem Rendering.Spares.bind {x : Rendering α} {f : α → Rendering β} (hx : Spares key found x)
    (hf : ∀ a, Spares key found (f a)) : Spares key found (x >>= f) := by
  intro desk h
  have h' := hx desk h
  cases hr : x desk with
  | error e d =>
    rw [hr] at h'
    rw [bind_eq_of_error hr]
    exact h'
  | ok a d =>
    rw [hr] at h'
    rw [bind_eq_of_ok hr]
    exact hf a d h'

namespace Cache

theorem template?_insert_of_ne (c : Cache) (entry : Cached) (h : key ≠ other) :
    template? (c.insert other entry) key = c.template? key := by
  simp only [template?, Table.get?_insert, if_neg h]

end Cache

/-- With the cache on, the call may keep the text of a file under the key. -/
def Call.KeepsText (key : String) : Call → Prop
  | .render _ _ => False
  | .renderFile path o => o.cache = true ∧ Cache.sourceKey path = key
  | .renderView path o => o.cache = true ∧ (Cache.sourceKey path = key ∨
      ∃ layout, o.layout = some layout ∧
        Cache.sourceKey (Rendering.layoutPath o.views layout) = key)

namespace Rendering

variable {o : Options} {env : Environment} {files : FileTree} {t : Template}

theorem templateFor_of_holds (env : Environment) (source : String) {desk : Desk}
    (h : desk.Holds key t) (hc : o.cache = true) (hf : o.filename = some key) :
    templateFor env source o desk = .ok t desk := by
  have hk : desk.kept? o = some t := by
    rw [Desk.kept?, if_pos hc, hf]
    exact h
  have ho := templateFor_outcome env source o desk
  generalize templateFor env source o desk = r at ho ⊢
  cases ho with
  | unnamed _ hn => cases hf.symm.trans hn
  | kept hk' =>
    cases hk.symm.trans hk'
    rfl
  | refused _ hn => cases hk.symm.trans hn
  | compiled hn => cases hc.symm.trans hn
  | stored _ _ hn => cases hk.symm.trans hn

/-- A template takes the place of no other. -/
theorem spares_templateFor (hf : o.filename = some key → found ≠ none) :
    Spares key found (templateFor env source o) := by
  intro desk h
  have ho := templateFor_outcome env source o desk
  have hk : o.cache = true → o.filename = some key → desk.kept? o = found := by
    intro hc hn
    rw [Desk.kept?, if_pos hc, hn]
    exact h
  generalize templateFor env source o desk = r at ho ⊢
  cases ho with
  | unnamed => exact h
  | kept => exact h
  | refused => exact h
  | compiled => exact h
  | @stored filename _ hc hn hnone _ =>
    have hne : key ≠ filename := by
      rintro rfl
      exact hf hn ((hk hc hn).symm.trans hnone)
    exact (Cache.template?_insert_of_ne _ _ hne).trans h

theorem spares_lift (r : Except TemplateError α) : Spares key found (lift r) := by
  intro desk h
  rwa [stateOf_lift]

theorem spares_render (hf : o.filename = some key → found ≠ none) :
    Spares key found (render env source o) :=
  (spares_templateFor hf).bind fun _ => spares_lift _

theorem spares_sourceOf (files : FileTree) {cache : Bool}
    (hn : ¬(cache = true ∧ Cache.sourceKey path = key)) :
    Spares key found (sourceOf files path cache) := by
  intro desk h
  have ho := sourceOf_outcome desk files path cache
  generalize sourceOf files path cache desk = r at ho ⊢
  cases ho with
  | kept => exact h
  | unreadable => exact h
  | read => exact h
  | stored hc =>
    have hne : key ≠ Cache.sourceKey path := fun he => hn ⟨hc, he.symm⟩
    exact (Cache.template?_insert_of_ne _ _ hne).trans h

theorem spares_renderFile (hn : ¬(o.cache = true ∧ Cache.sourceKey path = key)) :
    Spares key (some t) (renderFile env files path o) :=
  (spares_sourceOf files hn).bind fun _ => spares_render fun _ => Option.some_ne_none t

theorem spares_renderView (hn : ¬(Call.renderView path o).KeepsText key) :
    Spares key (some t) (renderView env files path o) := by
  have hcontent : ¬(o.cache = true ∧ Cache.sourceKey path = key) :=
    fun hk => hn ⟨hk.1, .inl hk.2⟩
  apply (spares_renderFile hcontent).bind
  intro content
  cases hl : o.layout with
  | none => exact fun _ h => h
  | some layout =>
    apply spares_renderFile
    intro hk
    exact hn ⟨hk.1, .inr ⟨layout, hl, hk.2⟩⟩

/-- The text of a file takes the place of a template that is kept under its key. -/
theorem template?_renderFile (env : Environment) {desk : Desk}
    (h : desk.Holds (Cache.sourceKey path) t) (hc : o.cache = true)
    (hr : files.read path = .ok text) :
    (stateOf (renderFile env files path o desk)).cache.template? (Cache.sourceKey path) = none := by
  have hk : desk.keptText? path o.cache = none := by
    unfold Desk.Holds Cache.template? at h
    rw [Desk.keptText?, if_pos hc, Cache.source?]
    split at h
    · rename_i u hg
      rw [hg]
    · cases h
  have ho := sourceOf_outcome desk files path o.cache
  have hrender : ∀ text', Spares (Cache.sourceKey path) none
      (render env text' { o with filename := some path }) := by
    intro text'
    apply spares_render
    intro hf
    exact absurd (Option.some.inj hf) (Cache.ne_sourceKey path)
  rw [renderFile]
  cases hs : sourceOf files path o.cache desk with
  | error e d =>
    rw [hs] at ho
    cases ho with
    | unreadable hr' => cases hr.symm.trans hr'
  | ok text' d =>
    rw [hs] at ho
    rw [bind_eq_of_ok hs]
    apply hrender text'
    cases ho with
    | kept hk' => cases hk.symm.trans hk'
    | read hn => cases hc.symm.trans hn
    | stored =>
      change Cache.template? (desk.cache.insert _ _) _ = none
      rw [Cache.template?, Table.get?_insert_self]

end Rendering

/-- A call that keeps no text under the key leaves the template there. -/
theorem Call.spares_run (call : Call) (hn : ¬call.KeepsText key) :
    Rendering.Spares key (some t) (call.run env files) := by
  cases call with
  | render source o => exact Rendering.spares_render fun _ => Option.some_ne_none t
  | renderFile path o => exact Rendering.spares_renderFile hn
  | renderView path o => exact Rendering.spares_renderView hn

namespace Session

variable {s : Session} {t : Template}

/-- The cache at a place has the template under the key. -/
def Holds (s : Session) (n : Nat) (key : String) (t : Template) : Prop :=
  ∃ c, s.caches[n]? = some c ∧ c.template? key = some t

/-- The action neither clears the cache at the place nor keeps a text under the key there. -/
def Spares (s : Session) (n : Nat) (key : String) : Action → Prop
  | .call i call => (s.renderer i).cache = n → ¬call.KeepsText key
  | .clearCache i => (s.renderer i).cache ≠ n
  | _ => True

def SparesAll (s : Session) (n : Nat) (key : String) : List Action → Prop
  | [] => True
  | action :: rest => s.Spares n key action ∧ (s.act action).SparesAll n key rest

theorem perform_snd (s : Session) (i : Nat) (work : Environment → FileTree → Rendering α) :
    (s.perform i work).2 = s.keep i (stateOf (work (s.renderer i).env s.files (s.desk i))) := by
  rw [perform, EStateM.run]
  cases work (s.renderer i).env s.files (s.desk i) <;> rfl

theorem Holds.desk (h : s.Holds n key t) (hi : (s.renderer i).cache = n) :
    (s.desk i).Holds key t := by
  obtain ⟨c, hc, ht⟩ := h
  change (s.caches[(s.renderer i).cache]?.getD ∅).template? key = some t
  rw [hi, hc]
  exact ht

theorem Holds.keep (h : s.Holds n key t) {d : Desk}
    (hd : (s.renderer i).cache = n → d.Holds key t) :
    (s.keep i d).Holds n key t := by
  obtain ⟨c, hc, ht⟩ := h
  by_cases hi : (s.renderer i).cache = n
  · refine ⟨d.cache, ?_, hd hi⟩
    change (s.caches.set (s.renderer i).cache d.cache)[n]? = some d.cache
    rw [hi, List.getElem?_set_self', hc]
    rfl
  · refine ⟨c, ?_, ht⟩
    change (s.caches.set (s.renderer i).cache d.cache)[n]? = some c
    rw [List.getElem?_set_ne hi, hc]

theorem Holds.act (h : s.Holds n key t) (hs : s.Spares n key action) :
    (s.act action).Holds n key t := by
  cases action with
  | add =>
    obtain ⟨c, hc, ht⟩ := h
    refine ⟨c, ?_, ht⟩
    have hn : n < s.caches.length := (List.getElem?_eq_some_iff.mp hc).1
    change (s.caches ++ [∅])[n]? = some c
    rw [List.getElem?_append_left hn, hc]
  | addSharing i => exact h
  | changeEnvironment i f => exact h
  | changeFiles f => exact h
  | compile i source o =>
    change (s.perform i _).2.Holds n key t
    rw [perform_snd]
    apply h.keep
    intro hi
    rw [Rendering.compile_eq]
    cases Template.compile (s.desk i).stamp source o (s.renderer i).env with
    | ok u => exact h.desk hi
    | error e => exact h.desk hi
  | call i call =>
    change (s.answer i call).2.Holds n key t
    rw [answer_eq, perform_snd]
    apply h.keep
    intro hi
    exact call.spares_run (hs hi) _ (h.desk hi)
  | clearCache i =>
    obtain ⟨c, hc, ht⟩ := h
    refine ⟨c, ?_, ht⟩
    change (s.caches.set (s.renderer i).cache ∅)[n]? = some c
    rw [List.getElem?_set_ne hs, hc]

theorem Holds.after (h : s.Holds n key t) (hs : s.SparesAll n key actions) :
    (s.after actions).Holds n key t := by
  induction actions generalizing s with
  | nil => exact h
  | cons action rest ih => exact ih (h.act hs.1) hs.2

/-- A renderer whose cache is in the session is in the session, too. -/
theorem Holds.exists_renderer (h : s.Holds n key t) (hi : (s.renderer i).cache = n) :
    s.renderers[i]? = some (s.renderer i) := by
  obtain ⟨c, hc, _⟩ := h
  have hn : n < s.caches.length := (List.getElem?_eq_some_iff.mp hc).1
  unfold renderer at hi ⊢
  cases hr : s.renderers[i]? with
  | some r => rfl
  | none =>
    rw [hr] at hi
    change s.caches.length = n at hi
    omega

/-- Nothing is taken over from a desk that has not changed. -/
theorem keep_desk (s : Session) (i : Nat) : s.keep i (s.desk i) = s := by
  have hcaches : s.caches.set (s.renderer i).cache (s.cache i) = s.caches := by
    rw [cache]
    cases hc : s.caches[(s.renderer i).cache]? with
    | none => exact List.set_eq_of_length_le (List.getElem?_eq_none_iff.mp hc)
    | some c =>
      obtain ⟨hn, rfl⟩ := List.getElem?_eq_some_iff.mp hc
      exact List.set_getElem_self hn
  have hrenderers : (s.renderers.modify i fun r => { r with compiles := (s.renderer i).compiles }) =
      s.renderers := by
    rw [List.modify_eq_set_getElem?, renderer]
    cases hr : s.renderers[i]? with
    | none => rfl
    | some r =>
      obtain ⟨hi, rfl⟩ := List.getElem?_eq_some_iff.mp hr
      exact List.set_getElem_self hi
  change Session.mk s.files (s.caches.set (s.renderer i).cache (s.cache i))
    (s.renderers.modify i fun r => { r with compiles := (s.renderer i).compiles }) s.stamp s.log = s
  rw [hcaches, hrenderers]

theorem renderer_keep (hr : s.renderers[i]? = some (s.renderer i)) (d : Desk) :
    (s.keep i d).renderer i = { s.renderer i with compiles := d.compiles } := by
  have hk : (s.keep i d).renderers[i]? = some { s.renderer i with compiles := d.compiles } := by
    change (s.renderers.modify i _)[i]? = _
    rw [List.getElem?_modify_eq, hr]
    rfl
  rw [renderer, hk]
  rfl

theorem Holds.cache_keep (h : s.Holds n key t) (hi : (s.renderer i).cache = n)
    (hj : (s.renderer j).cache = n) (d : Desk) : (s.keep i d).cache j = d.cache := by
  obtain ⟨c, hc, _⟩ := h
  rw [cache, (s.alike_keep i d).cache, hj]
  change (s.caches.set (s.renderer i).cache d.cache)[n]?.getD ∅ = d.cache
  rw [hi, List.getElem?_set_self', hc]
  rfl

theorem Holds.desk_keep (h : s.Holds n key t) (hi : (s.renderer i).cache = n) (d : Desk) :
    (s.keep i d).desk i = d := by
  rw [Session.desk, h.cache_keep hi hi, renderer_keep (h.exists_renderer hi)]
  rfl

theorem Holds.keep_keep (h : s.Holds n key t) (hi : (s.renderer i).cache = n) (d d' : Desk) :
    (s.keep i d).keep i d' = s.keep i d' := by
  have hr := renderer_keep (h.exists_renderer hi) d
  have hrenderers : ((s.renderers.modify i fun r => { r with compiles := d.compiles }).modify i
      fun r => { r with compiles := d'.compiles }) =
      s.renderers.modify i fun r => { r with compiles := d'.compiles } := by
    rw [List.modify_modify_eq]
    rfl
  unfold Session.keep at hr ⊢
  rw [hr]
  simp only [List.set_set, hrenderers]

/-- What a renderer does next, it does at the desk that it has left. -/
theorem Holds.perform_keep (h : s.Holds n key t) (hi : (s.renderer i).cache = n) (d : Desk)
    (work : Environment → FileTree → Rendering α) : (s.keep i d).perform i work =
      match work (s.renderer i).env s.files d with
      | .ok a d' => (.ok a, s.keep i d')
      | .error e d' => (.error e, s.keep i d') := by
  rw [perform, EStateM.run, h.desk_keep hi, renderer_keep (h.exists_renderer hi)]
  change (match work (s.renderer i).env s.files d with
    | .ok a d' => (Except.ok a, (s.keep i d).keep i d')
    | .error e d' => (Except.error e, (s.keep i d).keep i d')) = _
  simp only [h.keep_keep hi]

/-- A view is rendered as its file, and then its layout is rendered as another file. -/
theorem Holds.renderView_eq (h : s.Holds n key t) (hi : (s.renderer i).cache = n) (path : String)
    (o : Options) : s.renderView i path o =
      match s.renderFile i path o with
      | (.error e, s') => (.error e, s')
      | (.ok content, s') =>
        match o.layout with
        | none => (.ok content, s')
        | some layout => s'.renderFile i (Rendering.layoutPath o.views layout)
          ({ o with layout := none }.set "body" (.string content)) := by
  unfold renderView renderFile
  rw [perform, perform, EStateM.run, EStateM.run, Rendering.renderView]
  cases hf : Rendering.renderFile (s.renderer i).env s.files path o (s.desk i) with
  | error e d => rw [bind_eq_of_error hf]
  | ok content d =>
    rw [bind_eq_of_ok hf]
    cases o.layout with
    | none => rfl
    | some layout =>
      have hk := h.perform_keep hi d fun env files => Rendering.renderFile env files
        (Rendering.layoutPath o.views layout)
        ({ o with layout := none }.set "body" (.string content))
      exact hk.symm

/-- With the cache on, the renderer answers from the template whenever it has the file name: it
compiles nothing, and for a file it only needs to read that. -/
structure Serves (s : Session) (i : Nat) (key : String) (t : Template) : Prop where
  render : ∀ source o, o.cache = true → o.filename = some key →
    s.render i source o = (t.render o, s)
  renderFile : ∀ o, o.cache = true → ∃ d, d.Holds key t ∧
    d.compiles = (s.renderer i).compiles ∧
    ((s.renderFile i key o = (t.render { o with filename := some key }, s.keep i d)) ∨
      ∃ fault, s.files.read key = .error fault ∧
        s.renderFile i key o = (.error (.unreadable key fault), s.keep i d))
  renderView : ∀ path o, s.renderView i path o =
    match s.renderFile i path o with
    | (.error e, s') => (.error e, s')
    | (.ok content, s') =>
      match o.layout with
      | none => (.ok content, s')
      | some layout => s'.renderFile i (Rendering.layoutPath o.views layout)
        ({ o with layout := none }.set "body" (.string content))

theorem Holds.serves (h : s.Holds n key t) (hi : (s.renderer i).cache = n) :
    s.Serves i key t where
  render := by
    intro source o hc hf
    have ht := Rendering.templateFor_of_holds (s.renderer i).env source (h.desk hi) hc hf
    change s.perform i _ = _
    rw [perform, EStateM.run, Rendering.render, bind_eq_of_ok ht]
    cases t.render o with
    | ok out => exact congrArg (Prod.mk (Except.ok out)) (s.keep_desk i)
    | error e => exact congrArg (Prod.mk (Except.error e)) (s.keep_desk i)
  renderFile := by
    intro o hc
    have hne : ¬(o.cache = true ∧ Cache.sourceKey key = key) :=
      fun hk => Cache.ne_sourceKey key hk.2.symm
    have hspared := Rendering.spares_sourceOf s.files hne (s.desk i) (h.desk hi)
    have ho := Rendering.sourceOf_outcome (s.desk i) s.files key o.cache
    have hcompiles : (stateOf (Rendering.sourceOf s.files key o.cache (s.desk i))).compiles =
        (s.renderer i).compiles := by
      generalize Rendering.sourceOf s.files key o.cache (s.desk i) = r at ho ⊢
      cases ho <;> rfl
    refine ⟨_, hspared, hcompiles, ?_⟩
    change s.perform i _ = _ ∨ ∃ _, _ ∧ s.perform i _ = _
    rw [perform, EStateM.run, Rendering.renderFile]
    cases hs : Rendering.sourceOf s.files key o.cache (s.desk i) with
    | error e d =>
      rw [hs] at ho
      rw [bind_eq_of_error hs]
      cases ho with
      | unreadable hr => exact .inr ⟨_, hr, rfl⟩
    | ok text d =>
      have hd : d.Holds key t := by
        rw [hs] at hspared
        exact hspared
      have ht := Rendering.templateFor_of_holds (o := { o with filename := some key })
        (s.renderer i).env text hd hc rfl
      rw [bind_eq_of_ok hs, Rendering.render, bind_eq_of_ok ht]
      apply Or.inl
      cases t.render { o with filename := some key } with
      | ok out => rfl
      | error e => rfl
  renderView := h.renderView_eq hi

/-- A template stays until its cache is cleared or a text is kept under its key, and so long it
serves all renderers with that cache. -/
theorem kept_until_cleared (h : s.Holds n key t) (hs : s.SparesAll n key actions) :
    (s.after actions).Holds n key t ∧
      ∀ i, ((s.after actions).renderer i).cache = n → (s.after actions).Serves i key t := by
  have ha := h.after hs
  exact ⟨ha, fun i hi => ha.serves hi⟩

/-- A cached render with a new file name leaves its template under it. -/
theorem holds_render {o : Options} (hn : (s.renderer i).cache < s.caches.length)
    (hc : o.cache = true) (hf : o.filename = some key) (hk : (s.desk i).kept? o = none)
    (ht : Template.compile (s.desk i).stamp source o (s.renderer i).env = .ok t) :
    (s.render i source o).2.Holds (s.renderer i).cache key t := by
  have hst := Rendering.templateFor_of_stored (s.renderer i).env source o (s.desk i) hc hf hk ht
  have hd : (stateOf (Rendering.render (s.renderer i).env source o (s.desk i))).Holds key t := by
    rw [Rendering.render, bind_eq_of_ok hst]
    have hl : Rendering.Spares key (some t) (Rendering.lift (t.render o)) :=
      Rendering.spares_lift _
    apply hl
    change Cache.template? (Table.insert _ _ _) key = some t
    rw [Cache.template?, Table.get?_insert_self]
  refine ⟨_, ?_, hd⟩
  change (s.perform i _).2.caches[_]? = _
  rw [perform_snd]
  change (s.caches.set _ _)[_]? = _
  rw [List.getElem?_set_self hn]

theorem alike_answer (s : Session) (i : Nat) (call : Call) : s.Alike (s.answer i call).2 := by
  rw [answer_eq, perform_snd]
  exact s.alike_keep i _

/-- The template of a text without tags. -/
def plainTemplate (key : String) : Template where
  stamp := 0
  source := "x"
  filename := some key
  segments := [.literal "x"]
  program := [.text "x"]
  env := .standard

/-- Two renderers, one of which has just kept a template in the cache that they share. -/
def plainSession (key : String) : Session := (twoRenderers.render 0 "x" (cachedAs key)).2

theorem plainSession_holds (key : String) : (plainSession key).Holds 0 key (plainTemplate key) := by
  have hp : Template.parse "x" (cachedAs key) = .ok [.literal "x"] := by cbv
  have hb : Script.build [.literal "x"] = .ok [.text "x"] := by cbv
  exact holds_render Nat.zero_lt_one rfl rfl rfl (Template.compile_of_build hp hb)

theorem plainSession_alike (key : String) : twoRenderers.Alike (plainSession key) :=
  alike_answer twoRenderers 0 (.render "x" (cachedAs key))

theorem kept_until_cleared_page :
    let s := plainSession "page"
    let actions := [.call 1 (.renderFile "a" (cachedAs "a"))]
    s.Holds 0 "page" (plainTemplate "page") ∧ s.SparesAll 0 "page" actions ∧
      (s.after actions).render 1 "z" (cachedAs "page") = (.ok "x", s.after actions) := by
  intro s actions
  have hs : s.SparesAll 0 "page" actions := by
    refine ⟨?_, trivial⟩
    rintro - ⟨-, hk⟩
    revert hk
    decide
  have hkept := kept_until_cleared (plainSession_holds "page") hs
  have hcache : ((s.after actions).renderer 1).cache = 0 := by
    have ha := s.alike_answer 1 (.renderFile "a" (cachedAs "a"))
    exact (ha.cache 1).trans ((plainSession_alike "page").cache 1)
  exact ⟨plainSession_holds "page", hs, (hkept.2 1 hcache).render "z" (cachedAs "page") rfl rfl⟩

/-- A render that finds no template compiles. -/
theorem stamp_render (source : String) {o : Options} (hf : o.filename = some key)
    (hk : (s.desk i).cache.template? key = none) :
    (s.render i source o).2.stamp = s.stamp + 1 := by
  have ho := Rendering.templateFor_outcome (s.renderer i).env source o (s.desk i)
  change (s.perform i _).2.stamp = _
  rw [perform_snd]
  change (stateOf (Rendering.render _ _ _ _)).stamp = (s.desk i).stamp + 1
  rw [Rendering.render]
  generalize hr : Rendering.templateFor (s.renderer i).env source o (s.desk i) = r at ho
  cases ho with
  | unnamed _ hn => cases hf.symm.trans hn
  | kept hs =>
    obtain ⟨_, filename, hn, ht⟩ := Desk.exists_of_kept? hs
    cases hf.symm.trans hn
    cases hk.symm.trans ht
  | refused => rw [bind_eq_of_error hr]; rfl
  | compiled => rw [bind_eq_of_ok hr, Rendering.stateOf_lift]; rfl
  | stored => rw [bind_eq_of_ok hr, Rendering.stateOf_lift]; rfl

/-- Calls can take a template away without clearing the cache: reading the file `a` does so with the
template that is kept under `a:string`. -/
theorem not_kept_until_cleared :
    ¬∀ (s : Session) (n : Nat) (key : String) (t : Template) (actions : List Action),
      s.Holds n key t → (∀ action ∈ actions, ∃ i call, action = .call i call) →
      ∀ i, ((s.after actions).renderer i).cache = n → (s.after actions).Serves i key t := by
  intro hall
  have hh := plainSession_holds (Cache.sourceKey "a")
  have ha := plainSession_alike (Cache.sourceKey "a")
  generalize plainSession (Cache.sourceKey "a") = s at hh ha
  have hread : s.files.read "a" = .ok "y" := by
    rw [ha.files]
    cbv
  have hgone := Rendering.template?_renderFile (o := cachedAs "a") (s.renderer 1).env
    (hh.desk (ha.cache 1)) rfl hread
  have hcall := s.alike_answer 1 (.renderFile "a" (cachedAs "a"))
  have hserves := hall s 0 _ _ [.call 1 (.renderFile "a" (cachedAs "a"))] hh
    (fun action hm => ⟨1, _, List.mem_singleton.mp hm⟩) 0 ((hcall.cache 0).trans (ha.cache 0))
  have hafter : s.after [.call 1 (.renderFile "a" (cachedAs "a"))] = s.keep 1 (stateOf
      (Rendering.renderFile (s.renderer 1).env s.files "a" (cachedAs "a") (s.desk 1))) :=
    s.perform_snd 1 _
  rw [hafter] at hserves
  have hnone := (hh.cache_keep (ha.cache 1) (ha.cache 0) _).symm ▸ hgone
  have hstamp := stamp_render "z" (o := cachedAs (Cache.sourceKey "a")) rfl hnone
  rw [hserves.render "z" _ rfl rfl] at hstamp
  exact absurd hstamp (Nat.succ_ne_self _).symm

end Session

end Stencil

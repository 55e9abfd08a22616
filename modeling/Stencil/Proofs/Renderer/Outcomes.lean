import Stencil.Proofs.Computation
import Stencil.Renderer

/-!
How looking up or compiling a template and reading a file can end, with what then becomes of the
desk. What is proved about rendering goes by these cases.
-/

namespace Stencil

set_option autoImplicit true

/-- No text is kept under the name of its own file. -/
theorem Cache.ne_sourceKey (path : String) : path ≠ sourceKey path := by
  intro h
  have hl := congrArg String.length h
  have hs : ":string".length = 7 := rfl
  rw [sourceKey, String.length_append] at hl
  omega

namespace Desk

/-- The desk after the source has been compiled. -/
def compiled (desk : Desk) (source : String) (o : Options) : Desk :=
  { desk with
    compiles := desk.compiles + 1
    stamp := desk.stamp + 1
    log := desk.log ++ Template.logged source o }

/-- The desk after an entry has been kept. -/
def keeping (desk : Desk) (key : String) (entry : Cached) : Desk :=
  { desk with cache := desk.cache.insert key entry }

/-- The template that is kept for these options, if the cache is on. -/
def kept? (desk : Desk) (o : Options) : Option Template :=
  if o.cache then o.filename.bind desk.cache.template? else none

theorem exists_of_kept? {desk : Desk} {o : Options} (h : desk.kept? o = some t) :
    o.cache = true ∧
      ∃ filename, o.filename = some filename ∧ desk.cache.template? filename = some t := by
  unfold kept? at h
  split at h
  · rename_i hc
    exact ⟨hc, Option.bind_eq_some_iff.mp h⟩
  · cases h

/-- The text that is kept for a file, if the cache is on. -/
def keptText? (desk : Desk) (path : String) (cache : Bool) : Option String :=
  if cache then desk.cache.source? (Cache.sourceKey path) else none

theorem source?_of_keptText? {desk : Desk} {cache : Bool}
    (h : desk.keptText? path cache = some text) :
    desk.cache.source? (Cache.sourceKey path) = some text := by
  unfold keptText? at h
  split at h
  · exact h
  · cases h

end Desk

/-- How looking up or compiling a template ends. -/
inductive TemplateOutcome (env : Environment) (source : String) (o : Options) (desk : Desk) :
    EStateM.Result TemplateError Desk Template → Prop
  | unnamed : o.cache = true → o.filename = none →
      TemplateOutcome env source o desk (.error .cacheWithoutFilename desk)
  | kept : desk.kept? o = some t → TemplateOutcome env source o desk (.ok t desk)
  | refused : ¬(o.cache = true ∧ o.filename = none) → desk.kept? o = none →
      Template.compile desk.stamp source o env = .error e →
      TemplateOutcome env source o desk (.error e (desk.compiled source o))
  | compiled : o.cache = false → Template.compile desk.stamp source o env = .ok t →
      TemplateOutcome env source o desk (.ok t (desk.compiled source o))
  | stored : o.cache = true → o.filename = some filename → desk.kept? o = none →
      Template.compile desk.stamp source o env = .ok t →
      TemplateOutcome env source o desk
        (.ok t ((desk.compiled source o).keeping filename (.template t)))

/-- How reading a file ends. -/
inductive TextOutcome (files : FileTree) (path : String) (cache : Bool) (desk : Desk) :
    EStateM.Result TemplateError Desk String → Prop
  | kept : desk.keptText? path cache = some text → TextOutcome files path cache desk (.ok text desk)
  | unreadable : files.read path = .error fault →
      TextOutcome files path cache desk (.error (.unreadable path fault) desk)
  | read : cache = false → files.read path = .ok text →
      TextOutcome files path cache desk (.ok text desk)
  | stored : cache = true → desk.keptText? path cache = none → files.read path = .ok text →
      TextOutcome files path cache desk
        (.ok text (desk.keeping (Cache.sourceKey path) (.source text)))

namespace Rendering

variable (env : Environment) (source : String) (o : Options) (desk : Desk)

theorem compile_eq : compile env source o desk =
    match Template.compile desk.stamp source o env with
    | .ok t => .ok t (desk.compiled source o)
    | .error e => .error e (desk.compiled source o) := by
  have hg : (get : Rendering Desk) desk = .ok desk desk := rfl
  have hs : (set (desk.compiled source o) : Rendering PUnit) desk =
      .ok ⟨⟩ (desk.compiled source o) := rfl
  rw [compile, bind_eq_of_ok hg]
  refine (bind_eq_of_ok hs).trans ?_
  cases Template.compile desk.stamp source o env with
  | ok t => rfl
  | error e => rfl

theorem templateFor_outcome :
    TemplateOutcome env source o desk (templateFor env source o desk) := by
  have hcompile := compile_eq env source o desk
  unfold templateFor
  by_cases hc : o.cache = true
  · rw [if_pos hc]
    cases hf : o.filename with
    | none => exact .unnamed hc hf
    | some filename =>
      have hg : (get : Rendering Desk) desk = .ok desk desk := rfl
      have hk : desk.kept? o = desk.cache.template? filename := by
        rw [Desk.kept?, if_pos hc, hf]
        rfl
      dsimp only
      rw [bind_eq_of_ok hg]
      cases ht : desk.cache.template? filename with
      | some t => exact .kept (hk.trans ht)
      | none =>
        cases hr : Template.compile desk.stamp source o env with
        | error e =>
          rw [hr] at hcompile
          dsimp only
          rw [bind_eq_of_error hcompile]
          exact .refused (fun h => nomatch hf.symm.trans h.2) (hk.trans ht) hr
        | ok t =>
          rw [hr] at hcompile
          dsimp only
          rw [bind_eq_of_ok hcompile]
          exact .stored hc hf (hk.trans ht) hr
  · have hk : desk.kept? o = none := if_neg hc
    rw [if_neg hc, hcompile]
    cases hr : Template.compile desk.stamp source o env with
    | error e => exact .refused (fun h => hc h.1) hk hr
    | ok t => exact .compiled (by simpa using hc) hr

/-- With the cache on, a template that has not been kept is kept once it is compiled. -/
theorem templateFor_of_stored (hc : o.cache = true) (hf : o.filename = some filename)
    (hk : desk.kept? o = none) (ht : Template.compile desk.stamp source o env = .ok t) :
    templateFor env source o desk =
      .ok t ((desk.compiled source o).keeping filename (.template t)) := by
  have ho := templateFor_outcome env source o desk
  generalize templateFor env source o desk = r at ho ⊢
  cases ho with
  | unnamed _ hn => cases hf.symm.trans hn
  | kept hs => cases hk.symm.trans hs
  | refused _ _ he => cases ht.symm.trans he
  | compiled hn => cases hc.symm.trans hn
  | stored _ hf' _ ht' =>
    cases hf.symm.trans hf'
    cases ht.symm.trans ht'
    rfl

theorem sourceOf_outcome (files : FileTree) (path : String) (cache : Bool) :
    TextOutcome files path cache desk (sourceOf files path cache desk) := by
  have hg : (get : Rendering Desk) desk = .ok desk desk := rfl
  have hd : desk.keptText? path cache =
      if cache then desk.cache.source? (Cache.sourceKey path) else none := rfl
  rw [sourceOf, bind_eq_of_ok hg, ← hd]
  cases hk : desk.keptText? path cache with
  | some text => exact .kept hk
  | none =>
    cases hr : files.read path with
    | error fault => exact .unreadable hr
    | ok text =>
      cases cache with
      | false => exact .read rfl hr
      | true => exact .stored rfl hk hr

end Rendering

end Stencil

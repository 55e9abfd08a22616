import Mathlib
import Stencil.Command.Outcome
import Stencil.Proofs.Options

/-!
The command line of rendering. Whatever the configuration and the data file say, what it says of the
layout, of white space, of the log and of single variables holds for the options that a page is
rendered with; of the delimiters it holds as long as the data file has none of its own
(`Request.options_obey`, `Request.data_opener_counts`).
-/

namespace Stencil

set_option autoImplicit true

namespace Switch

theorem mem_of_long? (h : long? switches text = some u) : u.switch ∈ switches := by
  obtain ⟨s, hs, rfl⟩ := Option.map_eq_some_iff.mp h
  exact List.mem_of_find?_eq_some hs

theorem mem_of_short? (h : short? switches c text = some u) : u.switch ∈ switches := by
  obtain ⟨s, hs, rfl⟩ := Option.map_eq_some_iff.mp h
  exact List.mem_of_find?_eq_some hs

theorem eq_some_of_ofOption (h : ofOption found = .use u) : found = some u := by
  cases found with
  | none => cases h
  | some u' =>
    cases h
    rfl

theorem mem_of_kind (h : kind switches argument = .use u) : u.switch ∈ switches := by
  unfold kind at h
  split at h
  · cases h
  · exact mem_of_long? (eq_some_of_ofOption h)
  · exact mem_of_short? (eq_some_of_ofOption h)
  · cases h

end Switch

namespace Arguments

variable {a b : Arguments}

def AtMostOnce (a : Arguments) (name : String) : Prop := (a.values name).length ≤ 1

theorem mem_values (h : (name, value) ∈ a.given) : value ∈ a.values name :=
  List.mem_map.mpr ⟨(name, value), List.mem_filter.mpr ⟨h, decide_eq_true rfl⟩, rfl⟩

theorem AtMostOnce.value?_eq (ha : a.AtMostOnce name) (h : (name, value) ∈ a.given) :
    a.value? name = some value := by
  obtain ⟨other, hone⟩ : ∃ other, a.values name = [other] :=
    List.length_eq_one_iff.mp (Nat.le_antisymm ha (List.length_pos_of_mem (mem_values h)))
  have hm : value ∈ [other] := hone ▸ mem_values h
  rw [value?, hone, List.mem_singleton.mp hm]
  rfl

theorem values_eq_nil (h : a.isGiven name = false) : a.values name = [] := by
  have hf : (a.given.filter fun g => g.1 = name) = [] :=
    List.filter_eq_nil_iff.mpr fun g hg hn =>
      absurd (List.any_eq_true.mpr ⟨g, hg, hn⟩) (Bool.eq_false_iff.mp h)
  rw [values, hf]
  rfl

theorem give?_eq_some (h : give? s value a = some b) :
    (s.repeats = false → a.isGiven s.name = false) ∧
      ∀ name, b.values name =
        if s.name = name then value :: a.values name else a.values name := by
  unfold give? at h
  split at h
  · cases h
  · rename_i honce
    split at h
    · cases h
    · cases Option.some.inj h
      refine ⟨fun hr => by simpa [hr] using honce, fun name => ?_⟩
      by_cases hn : s.name = name
      · simp [values, hn]
      · simp [values, hn]

/-- With one more option a name still stands at most once, unless the option has it and repeats. -/
theorem AtMostOnce.give (ha : a.AtMostOnce name) (hs : s.name = name → s.repeats = false)
    (h : give? s value a = some b) : b.AtMostOnce name := by
  obtain ⟨honce, hvalues⟩ := give?_eq_some h
  rw [AtMostOnce, hvalues]
  split
  · rename_i hn
    have hnil : a.values name = [] := values_eq_nil (hn ▸ honce (hs hn))
    rw [hnil]
    exact Nat.le_refl 1
  · exact ha

theorem AtMostOnce.use (hk : Switch.kind switches argument = .use ⟨s, attached⟩)
    (hs : ∀ s ∈ switches, s.name = name → s.repeats = false)
    (ih : ∀ {a}, read? switches rest = some a → a.AtMostOnce name)
    (h : (read? switches rest).bind (give? s value) = some a) : a.AtMostOnce name := by
  obtain ⟨a', ha', hgive⟩ := Option.bind_eq_some_iff.mp h
  exact (ih ha').give (hs s (Switch.mem_of_kind hk)) hgive

/-- In arguments that have been read an option that does not repeat stands at most once. -/
theorem atMostOnce_of_read? (h : read? switches args = some a)
    (hs : ∀ s ∈ switches, s.name = name → s.repeats = false) : a.AtMostOnce name := by
  -- By the kind of the first argument; an option may take the next argument for its value.
  fun_induction read? switches args generalizing a with
  | case1 | case3 =>
    cases Option.some.inj h
    exact Nat.zero_le 1
  | case2 argument rest hk ih =>
    obtain ⟨a', ha', rfl⟩ := Option.map_eq_some_iff.mp h
    have h' : a'.AtMostOnce name := ih ha'
    exact h'
  | case5 argument rest s _ hk ih => exact .use hk hs ih h
  | case7 argument rest s value _ hk ih => exact .use hk hs ih h
  | case8 argument s value rest _ _ hk ih => exact .use hk hs ih h
  | case4 | case6 | case9 | case10 => cases h

end Arguments

namespace Request

/-- These are the arguments behind the name of the command, which is to render. -/
def Renders (args : List String) (a : Arguments) : Prop :=
  ∃ leading rest, leading? args = some (leading, "render" :: rest) ∧
    Arguments.read? renderSwitches rest = some a

theorem complete?_eq_some {make : Arguments → Option Command}
    (h : complete? leading switches args make = some ⟨config, c⟩) :
    ∃ a, Arguments.read? switches args = some a ∧ make a = some c := by
  obtain ⟨a, ha, h⟩ := Option.bind_eq_some_iff.mp h
  split at h
  · cases h
  · obtain ⟨c', hc, he⟩ := Option.map_eq_some_iff.mp h
    cases he
    exact ⟨a, ha, hc⟩

theorem renders_of_ofArguments? (h : ofArguments? args = some ⟨config, .render p⟩) :
    ∃ a, Renders args a ∧ page? a = some p := by
  obtain ⟨⟨leading, rest⟩, hlead, h⟩ := Option.bind_eq_some_iff.mp h
  dsimp only at h
  unfold command? at h
  split at h
  · obtain ⟨a, ha, hp⟩ := complete?_eq_some h
    obtain ⟨p', hp', he⟩ := Option.map_eq_some_iff.mp hp
    cases he
    exact ⟨a, ⟨leading, _, hlead, ha⟩, hp'⟩
  · obtain ⟨a, ha, hp⟩ := complete?_eq_some h
    obtain ⟨path, _, he⟩ := Option.map_eq_some_iff.mp hp
    cases he
  · obtain ⟨a, ha, hp⟩ := complete?_eq_some h
    cases hp
  · cases h

theorem page?_eq_some (h : page? a = some p) :
    p.settings = settings a ∧ p.sets = a.values "set" ∧ p.layout = a.value? "layout" ∧
      p.views = a.value? "views" := by
  obtain ⟨path, -, rfl⟩ := Option.map_eq_some_iff.mp h
  exact ⟨rfl, rfl, rfl, rfl⟩

theorem Renders.unique (h : Renders args a) (h' : Renders args b) : a = b := by
  obtain ⟨leading, rest, hlead, ha⟩ := h
  obtain ⟨leading', rest', hlead', hb⟩ := h'
  cases hlead.symm.trans hlead'
  exact Option.some.inj (ha.symm.trans hb)

theorem Renders.value?_eq (h : Renders args a) (hm : (name, value) ∈ a.given)
    (hs : ∀ s ∈ renderSwitches, s.name = name → s.repeats = false) :
    a.value? name = some value := by
  obtain ⟨leading, rest, _, ha⟩ := h
  exact (Arguments.atMostOnce_of_read? ha hs).value?_eq hm

end Request

/-- What a table has under a name after entries of other names have come in. -/
theorem Table.get?_foldl_insert (t : Table Value) (sets : List Assignment)
    (h : ∀ x ∈ sets, x.name ≠ name) :
    (sets.foldl (fun t x => t.insert x.name x.value) t).get? name = t.get? name := by
  induction sets generalizing t with
  | nil => rfl
  | cons x sets ih =>
    obtain ⟨hx, hrest⟩ := List.forall_mem_cons.mp h
    rw [List.foldl_cons, ih _ hrest, get?_insert, if_neg hx.symm]

theorem Options.foldl_set (o : Options) (sets : List Assignment) :
    sets.foldl (fun o x => o.set x.name x.value) o =
      { o with data := sets.foldl (fun t x => t.insert x.name x.value) o.data } := by
  induction sets generalizing o with
  | nil => rfl
  | cons x sets ih => exact ih (o.set x.name x.value)

namespace Page

variable {p : Page} {data : Option Options}

/-- The assignments that texts denote. -/
def assigned (texts : List String) : List Assignment :=
  texts.filterMap fun text => (Assignment.ofText text).toOption

theorem assigned_append_cons (hx : Assignment.ofText text = .ok x) (before after : List String) :
    assigned (before ++ text :: after) = assigned before ++ x :: assigned after := by
  rw [assigned, List.filterMap_append, List.filterMap_cons, hx]
  rfl

theorem dataOptions_eq (hp : p.data = some path) (hread : files.read path = .ok text)
    (ho : Options.ofJson? text = some o) : p.dataOptions files = .ok (some o) := by
  rw [dataOptions, hp]
  dsimp only
  rw [hread]
  dsimp only
  rw [ho]
  rfl

theorem mapM_ofText {texts : List String}
    (h : ∀ text ∈ texts, ∃ x, Assignment.ofText text = .ok x) :
    (texts.mapM fun text => (Assignment.ofText text).mapError Failure.assignment) =
      .ok (assigned texts) := by
  induction texts with
  | nil => rfl
  | cons text texts ih =>
    obtain ⟨⟨x, hx⟩, hrest⟩ := List.forall_mem_cons.mp h
    have ha : assigned (text :: texts) = x :: assigned texts := assigned_append_cons hx [] texts
    rw [List.mapM_cons, ih hrest, ha, hx]
    rfl

theorem options_eq (hdata : p.dataOptions files = .ok data)
    (hsets : ∀ text ∈ p.sets, ∃ x, Assignment.ofText text = .ok x) (base : Options) :
    p.options files base = .ok (p.layered base data (assigned p.sets)) := by
  rw [options, hdata, mapM_ofText hsets]
  rfl

/-- The configuration under the settings of the command line and under the data file. -/
def beneath (p : Page) (base : Options) (data : Option Options) : Options :=
  data.elim (p.settings.apply base) (p.settings.apply base).merge

theorem layered_eq (p : Page) (base : Options) (data : Option Options) (sets : List Assignment) :
    p.layered base data sets =
      { p.beneath base data with
        layout := p.layout.or (p.beneath base data).layout
        views := p.views.or (p.beneath base data).views
        data := sets.foldl (fun t x => t.insert x.name x.value) (p.beneath base data).data } := by
  rw [layered, Options.foldl_set]
  rfl

/-- The last assignment of a variable gives it its value. -/
theorem get?_values_layered (hx : Assignment.ofText text = .ok x)
    (hafter : ∀ t ∈ after, ∀ y, Assignment.ofText t = .ok y → y.name ≠ x.name)
    (base : Options) :
    (p.layered base data (assigned (before ++ text :: after))).values.get? x.name =
      some x.value := by
  have hlater : ∀ y ∈ assigned after, y.name ≠ x.name := by
    intro y hy
    obtain ⟨t, ht, hty⟩ := List.mem_filterMap.mp hy
    cases hr : Assignment.ofText t with
    | error fault =>
      rw [hr] at hty
      cases hty
    | ok y' =>
      rw [hr] at hty
      cases hty
      exact hafter t ht y hr
  rw [layered_eq, Options.values, Table.get?_extend, assigned_append_cons hx, List.foldl_append,
    List.foldl_cons, Table.get?_foldl_insert _ _ hlater, Table.get?_insert_self]
  rfl

end Page

namespace SourceSettings

open Options (Choice)

/-- What the command line chooses, if it does. -/
def value? (s : SourceSettings) : Choice → Option Value
  | .opener => s.opener.map .string
  | .closer => s.closer.map .string
  | .eatspace => if s.keepSpace then some (.bool false) else none
  | .cache => none
  | .debug => if s.debug then some (.bool true) else none

theorem valueIn_apply {s : SourceSettings} {choice : Choice} (h : s.value? choice = some v)
    (base : Options) : choice.valueIn (s.apply base) = v := by
  cases choice with
  | opener =>
    obtain ⟨text, ht, rfl⟩ := Option.map_eq_some_iff.mp h
    rw [Choice.valueIn, apply, ht]
    rfl
  | closer =>
    obtain ⟨text, ht, rfl⟩ := Option.map_eq_some_iff.mp h
    rw [Choice.valueIn, apply, ht]
    rfl
  | eatspace =>
    obtain ⟨hs, hv⟩ := Option.ite_none_right_eq_some.mp h
    rw [Choice.valueIn, apply, if_pos hs]
    exact Option.some.inj hv
  | cache => cases h
  | debug =>
    obtain ⟨hs, hv⟩ := Option.ite_none_right_eq_some.mp h
    rw [Choice.valueIn, apply, hs, Bool.or_true]
    exact Option.some.inj hv

end SourceSettings

/-- What the command line chooses counts, unless the data file chooses something else, and not what
is initial. -/
theorem Page.valueIn_layered {p : Page} {choice : Options.Choice}
    (h : p.settings.value? choice = some v) (base : Options) (data : Option Options)
    (sets : List Assignment) :
    choice.valueIn (p.layered base data sets) = v ↔
      ∀ d ∈ data, choice.valueIn d = choice.valueIn .initial ∨ choice.valueIn d = v := by
  have hlayered : choice.valueIn (p.layered base data sets) =
      choice.valueIn (p.beneath base data) := by
    rw [layered_eq]
    cases choice <;> rfl
  have hbase := SourceSettings.valueIn_apply h base
  rw [hlayered]
  cases data with
  | none => exact iff_of_true hbase fun d hd => nomatch hd
  | some d =>
    obtain ⟨hset, hunset⟩ := choice.valueIn_merge (p.settings.apply base) d
    have hone : (∀ d' ∈ some d, choice.valueIn d' = choice.valueIn .initial ∨
        choice.valueIn d' = v) ↔
          choice.valueIn d = choice.valueIn .initial ∨ choice.valueIn d = v := by
      simp only [Option.mem_def, Option.some.injEq, forall_eq']
    rw [hone]
    change choice.valueIn ((p.settings.apply base).merge d) = v ↔ _
    by_cases hd : choice.valueIn d = choice.valueIn .initial
    · exact iff_of_true ((hunset hd).trans hbase) (.inl hd)
    · rw [hset hd]
      exact ⟨.inr, fun h => h.resolve_left hd⟩

theorem Page.text_layered {p : Page} {choice : Options.Choice} {text : Options → String}
    (htext : ∀ o, choice.valueIn o = .string (text o))
    (h : p.settings.value? choice = some (.string s)) (base : Options) (data : Option Options)
    (sets : List Assignment) :
    text (p.layered base data sets) = s ↔
      ∀ d ∈ data, text d = text .initial ∨ text d = s := by
  simpa only [htext, Value.string.injEq] using valueIn_layered h base data sets

/-- A data file cannot take back a flag: it says the same, or what is initial. -/
theorem Page.flag_layered {p : Page} {choice : Options.Choice} {flag : Options → Bool}
    (hflag : ∀ o, choice.valueIn o = .bool (flag o))
    (h : p.settings.value? choice = some (.bool !flag .initial)) (base : Options)
    (data : Option Options) (sets : List Assignment) :
    flag (p.layered base data sets) = !flag .initial := by
  have hsame : ∀ d ∈ data, choice.valueIn d = choice.valueIn .initial ∨
      choice.valueIn d = .bool !flag .initial := by
    intro d _
    rw [hflag, hflag]
    by_cases hd : flag d = flag .initial
    · exact .inl (congrArg Value.bool hd)
    · exact .inr (congrArg Value.bool (Bool.eq_not_of_ne hd))
  have hvalue := (valueIn_layered h base data sets).mpr hsame
  exact Value.bool.inj ((hflag _).symm.trans hvalue)

/-- The options obey the arguments of rendering, though there may be those of a data file. -/
structure Options.Obeys (o : Options) (a : Arguments) (data : Option Options) : Prop where
  opener : ∀ s, ("open", s) ∈ a.given →
    (o.opener = s ↔ ∀ d ∈ data, d.opener = initial.opener ∨ d.opener = s)
  closer : ∀ s, ("close", s) ∈ a.given →
    (o.closer = s ↔ ∀ d ∈ data, d.closer = initial.closer ∨ d.closer = s)
  keepSpace : a.isGiven "keep-space" = true → o.eatspace = false
  debug : a.isGiven "debug" = true → o.debug = true
  layout : ∀ s, ("layout", s) ∈ a.given → o.layout = some s
  views : ∀ s, ("views", s) ∈ a.given → o.views = some s
  /-- Every variable has the value of its last assignment. -/
  sets : ∀ before text after x, a.values "set" = before ++ text :: after →
    Assignment.ofText text = .ok x →
    (∀ t ∈ after, ∀ y, Assignment.ofText t = .ok y → y.name ≠ x.name) →
    o.values.get? x.name = some x.value

/-- Whatever the configuration is, a page whose data file holds options and whose assignments are
well formed is rendered with options that obey the command line. -/
theorem Request.options_obey (h : ofArguments? args = some ⟨config, .render p⟩)
    (hdata : p.dataOptions files = .ok data)
    (hsets : ∀ text ∈ p.sets, ∃ x, Assignment.ofText text = .ok x) (base : Options) :
    ∃ a o, Renders args a ∧ p.options files base = .ok o ∧ o.Obeys a data := by
  obtain ⟨a, ha, hp⟩ := renders_of_ofArguments? h
  obtain ⟨hsettings, htexts, hlayout, hviews⟩ := page?_eq_some hp
  refine ⟨a, _, ha, Page.options_eq hdata hsets base, ?_⟩
  constructor
  case opener =>
    intro s hs
    have hv : p.settings.value? .opener = some (.string s) := by
      rw [hsettings, SourceSettings.value?, settings, ha.value?_eq hs (by decide)]
      rfl
    exact Page.text_layered (fun _ => rfl) hv base data _
  case closer =>
    intro s hs
    have hv : p.settings.value? .closer = some (.string s) := by
      rw [hsettings, SourceSettings.value?, settings, ha.value?_eq hs (by decide)]
      rfl
    exact Page.text_layered (fun _ => rfl) hv base data _
  case keepSpace =>
    intro hs
    have hv : p.settings.value? .eatspace = some (.bool false) := by
      rw [hsettings]
      exact if_pos hs
    exact Page.flag_layered (fun _ => rfl) hv base data _
  case debug =>
    intro hs
    have hv : p.settings.value? .debug = some (.bool true) := by
      rw [hsettings]
      exact if_pos hs
    exact Page.flag_layered (fun _ => rfl) hv base data _
  case layout =>
    intro s hs
    rw [Page.layered_eq, hlayout, ha.value?_eq hs (by decide)]
    rfl
  case views =>
    intro s hs
    rw [Page.layered_eq, hviews, ha.value?_eq hs (by decide)]
    rfl
  case sets =>
    intro before text after x hvalues hx hafter
    rw [htexts, hvalues]
    exact Page.get?_values_layered hx hafter base

/-- A folder whose only file holds a text. -/
def dataFolder (text : String) : FileTree := .folder [("d", .file text)]

theorem read_dataFolder (text : String) : (dataFolder text).read "d" = .ok text := by cbv

/-- A page with settings of its own and a variable that is assigned twice. -/
def pageArguments : List String :=
  ["render", "t", "--open", "[[", "--keep-space", "-s", "n=a", "--layout", "l", "-s", "n=b",
    "-d", "d"]

/-- A data file that names another layout and another value. -/
def pageData : String := "\x7b\"n\":\"c\",\"layout\":\"m\"\x7d"

theorem Request.options_obey_page :
    ∃ p o, ofArguments? pageArguments = some ⟨none, .render p⟩ ∧
      p.options (dataFolder pageData) .initial = .ok o ∧ o.opener = "[[" ∧
      o.eatspace = false ∧ o.layout = some "l" ∧ o.values.get? "n" = some (.string "b") := by
  let p : Page :=
    ⟨"t", ⟨some "[[", none, true, false⟩, some "d", ["n=a", "n=b"], none, some "l", none⟩
  let given : Arguments :=
    ⟨[("open", "[["), ("keep-space", ""), ("set", "n=a"), ("layout", "l"), ("set", "n=b"),
      ("data", "d")], ["t"]⟩
  let d : Options :=
    { Options.initial with layout := some "m", data := .ofList [("n", .string "c")] }
  have hp : ofArguments? pageArguments = some ⟨none, .render p⟩ := by cbv
  have hgiven : Renders pageArguments given := ⟨.empty, pageArguments.tail, by cbv, by cbv⟩
  have hfields : Json.fieldsOfText? pageData =
      some [("n", .string "c"), ("layout", .string "m")] := by cbv
  have hd : Options.ofJson? pageData = some d := by
    rw [Options.ofJson?, hfields]
    rfl
  have hdata := Page.dataOptions_eq (rfl : p.data = some "d") (read_dataFolder pageData) hd
  have ha : Assignment.ofText "n=a" = .ok ⟨"n", .string "a"⟩ := by cbv
  have hb : Assignment.ofText "n=b" = .ok ⟨"n", .string "b"⟩ := by cbv
  have hsets : ∀ text ∈ p.sets, ∃ x, Assignment.ofText text = .ok x :=
    List.forall_mem_cons.mpr ⟨⟨_, ha⟩, List.forall_mem_singleton.mpr ⟨_, hb⟩⟩
  obtain ⟨a, o, hrenders, ho, hobeys⟩ := options_obey hp hdata hsets .initial
  cases hrenders.unique hgiven
  have hopener : o.opener = "[[" := by
    refine (hobeys.opener "[[" List.mem_cons_self).mpr fun d' hd' => ?_
    cases hd'
    exact .inl rfl
  have hlast := hobeys.sets ["n=a"] "n=b" [] _ rfl hb (List.forall_mem_nil _)
  exact ⟨p, o, hp, ho, hopener, hobeys.keepSpace rfl, hobeys.layout "l" (by simp [given]), hlast⟩

/-- A data file with an opening delimiter of its own wins over the command line. -/
theorem Request.data_opener_counts :
    let args := ["render", "t", "--open", "[[", "-d", "d"]
    let files := dataFolder "\x7b\"open\":\"((\"\x7d"
    ∃ a p o, Renders args a ∧ ("open", "[[") ∈ a.given ∧
      ofArguments? args = some ⟨none, .render p⟩ ∧ p.options files .initial = .ok o ∧
      o.opener = "((" := by
  intro args files
  let p : Page := ⟨"t", ⟨some "[[", none, false, false⟩, some "d", [], none, none, none⟩
  have hrenders : Renders args ⟨[("open", "[["), ("data", "d")], ["t"]⟩ :=
    ⟨.empty, args.tail, by cbv, by cbv⟩
  have hfields : Json.fieldsOfText? "\x7b\"open\":\"((\"\x7d" = some [("open", .string "((")] := by
    cbv
  have hd : Options.ofJson? "\x7b\"open\":\"((\"\x7d" =
      some { Options.initial with opener := "((" } := by
    rw [Options.ofJson?, hfields]
    rfl
  have hdata := Page.dataOptions_eq (rfl : p.data = some "d") (read_dataFolder _) hd
  have ho := Page.options_eq hdata (List.forall_mem_nil _) .initial
  exact ⟨_, p, _, hrenders, List.mem_cons_self, by cbv, ho, rfl⟩

end Stencil

import Mathlib
import Stencil.Options.Reader

/-!
Layers of options. One setting is layered on another by one rule, whatever it is: the later one
counts unless it is unset (`layer`). So options are a monoid in which every element is idempotent,
and layers may be grouped at will (`merge_idempotent_monoid`). Of what a document chooses that
counts which differs from the initial choice (`merge_document`); an initial choice that is written
out is lost (`merge_document_initial`).
-/

namespace Stencil.Options

set_option autoImplicit true

section layer

/-- The later of two settings, unless it is unset. -/
def layer (unset : α → Prop) [DecidablePred unset] (earlier later : α) : α :=
  if unset later then earlier else later

variable (unset : α → Prop) [DecidablePred unset]

theorem layer_of_unset (h : unset b) (a : α) : layer unset a b = a := if_pos h

theorem layer_of_set (h : ¬unset b) (a : α) : layer unset a b = b := if_neg h

theorem layer_assoc (a b c : α) :
    layer unset (layer unset a b) c = layer unset a (layer unset b c) := by
  by_cases hc : unset c
  · rw [layer_of_unset unset hc, layer_of_unset unset hc]
  · rw [layer_of_set unset hc, layer_of_set unset hc, layer_of_set unset hc]

/-- The only unset value may lie below any other. -/
theorem unset_layer (h : ∀ b, unset b → b = a) (b : α) : layer unset a b = b := by
  by_cases hb : unset b
  · rw [layer_of_unset unset hb, h b hb]
  · exact layer_of_set unset hb a

theorem layer_self (a : α) : layer unset a a = a := ite_self a

/-- What is layered may as well be what is written of it, if nothing is lost in writing. -/
theorem map_layer [DecidableEq α] {write : α → β} (hw : ∀ a b, write a = write b → a = b)
    (d a b : α) :
    (write b ≠ write d → write (layer (· = d) a b) = write b) ∧
      (write b = write d → write (layer (· = d) a b) = write a) :=
  ⟨fun hne => congrArg write (layer_of_set (· = d) (fun he => hne (congrArg write he)) a),
    fun he => congrArg write (layer_of_unset (· = d) (hw b d he) a)⟩

theorem and_eq_layer (a b : Bool) : (a && b) = layer (· = true) a b := by
  cases b with
  | false => exact Bool.and_false a
  | true => exact Bool.and_true a

theorem or_eq_layer (a b : Bool) : (a || b) = layer (· = false) a b := by
  cases b with
  | false => exact Bool.or_false a
  | true => exact Bool.or_true a

theorem optionOr_eq_layer [DecidableEq α] (a b : Option α) : b.or a = layer (· = none) a b := by
  cases b with
  | none => rfl
  | some b => rfl

end layer

/-- All settings but the tables are layered by the same rule. -/
theorem merge_eq (a b : Options) : a.merge b =
    { opener := layer (· = initial.opener) a.opener b.opener
      closer := layer (· = initial.closer) a.closer b.closer
      eatspace := layer (· = initial.eatspace) a.eatspace b.eatspace
      cache := layer (· = initial.cache) a.cache b.cache
      filename := layer (· = initial.filename) a.filename b.filename
      debug := layer (· = initial.debug) a.debug b.debug
      locals := a.locals.extend b.locals
      scope := layer (·.isNull = true) a.scope b.scope
      layout := layer (· = initial.layout) a.layout b.layout
      views := layer (· = initial.views) a.views b.views
      data := a.data.extend b.data } := by
  rw [merge, and_eq_layer, or_eq_layer, or_eq_layer, optionOr_eq_layer, optionOr_eq_layer,
    optionOr_eq_layer]
  rfl

theorem merge_assoc (a b c : Options) : (a.merge b).merge c = a.merge (b.merge c) := by
  simp only [merge_eq, layer_assoc, Table.extend_assoc]

theorem initial_merge (a : Options) : initial.merge a = a := by
  have hscope : ∀ v : Value, v.isNull = true → v = initial.scope := by
    intro v hv
    cases v with
    | null => rfl
    | _ => cases hv
  have hlocals : initial.locals.extend a.locals = a.locals := Table.empty_extend a.locals
  have hdata : initial.data.extend a.data = a.data := Table.empty_extend a.data
  rw [merge_eq, hlocals, hdata]
  simp only [unset_layer _ (fun _ h => h), unset_layer _ hscope]

theorem merge_initial (a : Options) : a.merge initial = a := by
  have hscope : initial.scope.isNull = true := rfl
  have hlocals : a.locals.extend initial.locals = a.locals := Table.extend_empty a.locals
  have hdata : a.data.extend initial.data = a.data := Table.extend_empty a.data
  rw [merge_eq, hlocals, hdata, layer_of_unset (fun v : Value => v.isNull = true) hscope]
  simp only [layer_of_unset (· = _) rfl]

theorem merge_self (a : Options) : a.merge a = a := by
  simp only [merge_eq, layer_self, Table.extend_self]

instance : Std.Associative merge := ⟨merge_assoc⟩

/-- Layers on each other, the first one lowest. -/
def stack (layers : List Options) : Options := layers.foldl merge initial

theorem foldl_merge (base : Options) (layers : List Options) :
    layers.foldl merge base = base.merge (stack layers) := by
  have h : layers.foldl merge (base.merge initial) = base.merge (stack layers) := List.foldl_assoc
  rw [merge_initial] at h
  exact h

theorem stack_append (lower upper : List Options) :
    stack (lower ++ upper) = (stack lower).merge (stack upper) := by
  rw [stack, List.foldl_append, foldl_merge]
  rfl

theorem stack_flatten (groups : List (List Options)) :
    stack groups.flatten = stack (groups.map stack) := by
  induction groups with
  | nil => rfl
  | cons group groups ih =>
    have hgroup : stack [stack group] = stack group := initial_merge _
    calc stack (group :: groups).flatten
        = (stack group).merge (stack groups.flatten) := stack_append group groups.flatten
      _ = (stack [stack group]).merge (stack (groups.map stack)) := by rw [ih, hgroup]
      _ = stack ((group :: groups).map stack) := (stack_append [stack group] _).symm

/-- Layering is associative, the initial options are neutral on both sides, and a layer put on
itself changes nothing. So whole stacks may be layered as well as their layers. -/
theorem merge_idempotent_monoid :
    (∀ a b c : Options, (a.merge b).merge c = a.merge (b.merge c)) ∧
      (∀ a : Options, initial.merge a = a ∧ a.merge initial = a) ∧
      (∀ a : Options, a.merge a = a) ∧
      ∀ groups : List (List Options), stack groups.flatten = stack (groups.map stack) :=
  ⟨merge_assoc, fun a => ⟨initial_merge a, merge_initial a⟩, merge_self, stack_flatten⟩

section reading

theorem text?_eq_some (h : text? v = some s) : Value.string s = v := by
  cases v with
  | string t => exact congrArg Value.string (Option.some.inj h).symm
  | _ => cases h

theorem bool?_eq_some (h : bool? v = some b) : Value.bool b = v := by
  cases v with
  | bool c => exact congrArg Value.bool (Option.some.inj h).symm
  | _ => cases h

variable {fields : List (String × Value)}

/-- What has been read from a field is what it holds, if it can be written back. -/
theorem field?_written {read : Value → Option α} {write : α → Value}
    (hw : ∀ v x, read v = some x → write x = v)
    (h : field? fields name read missing = some x) :
    field? fields name some (write missing) = some (write x) := by
  unfold field? at h ⊢
  split at h
  · exact congrArg (fun x => some (write x)) (Option.some.inj h)
  · exact congrArg some (hw _ x h).symm
  · cases h

/-- A field that has been read stands once. -/
theorem eq_of_mem (h : field? fields name some missing = some w) (hm : (name, v) ∈ fields) :
    w = v := by
  have hf : (name, v) ∈ fields.filter fun f => f.1 = name :=
    List.mem_filter.mpr ⟨hm, decide_eq_true rfl⟩
  unfold field? at h
  split at h
  · rename_i hnil
    rw [hnil] at hf
    cases hf
  · rename_i other w' hone
    rw [hone] at hf
    cases List.mem_singleton.mp hf
    exact (Option.some.inj h).symm
  · cases h

theorem eq_of_not_mem (h : field? fields name some missing = some w)
    (hn : ∀ v, (name, v) ∉ fields) : w = missing := by
  have hf : (fields.filter fun f => f.1 = name) = [] := by
    refine List.filter_eq_nil_iff.mpr fun f hf hname => ?_
    cases of_decide_eq_true hname
    exact hn f.2 hf
  rw [field?, hf] at h
  exact (Option.some.inj h).symm

end reading

/-- What options choose about how templates are read and compiled. -/
inductive Choice where
  | opener
  | closer
  | eatspace
  | cache
  | debug

namespace Choice

/-- The name of the field that makes the choice. -/
def name : Choice → String
  | opener => "open"
  | closer => "close"
  | eatspace => "eatspace"
  | cache => "cache"
  | debug => "debug"

/-- What is chosen, as the value of the field. -/
def valueIn (o : Options) : Choice → Value
  | opener => .string o.opener
  | closer => .string o.closer
  | eatspace => .bool o.eatspace
  | cache => .bool o.cache
  | debug => .bool o.debug

/-- One field is read for each choice, and its value is kept. -/
theorem field?_of_ofFields? (h : ofFields? fields = some o) (c : Choice) :
    field? fields c.name some (c.valueIn initial) = some (c.valueIn o) := by
  simp only [ofFields?, Option.bind_eq_bind, Option.bind_eq_some_iff] at h
  obtain ⟨opener, hopener, closer, hcloser, eatspace, heatspace, cache, hcache, filename, -,
    debug, hdebug, locals, -, scope, -, layout, -, views, -, ho⟩ := h
  cases Option.some.inj ho
  cases c with
  | opener => exact field?_written (fun _ _ => text?_eq_some) hopener
  | closer => exact field?_written (fun _ _ => text?_eq_some) hcloser
  | eatspace => exact field?_written (fun _ _ => bool?_eq_some) heatspace
  | cache => exact field?_written (fun _ _ => bool?_eq_some) hcache
  | debug => exact field?_written (fun _ _ => bool?_eq_some) hdebug

theorem valueIn_merge (c : Choice) (a b : Options) :
    (c.valueIn b ≠ c.valueIn initial → c.valueIn (a.merge b) = c.valueIn b) ∧
      (c.valueIn b = c.valueIn initial → c.valueIn (a.merge b) = c.valueIn a) := by
  rw [merge_eq]
  cases c with
  | opener => exact map_layer (fun _ _ => Value.string.inj) _ _ _
  | closer => exact map_layer (fun _ _ => Value.string.inj) _ _ _
  | eatspace => exact map_layer (fun _ _ => Value.bool.inj) _ _ _
  | cache => exact map_layer (fun _ _ => Value.bool.inj) _ _ _
  | debug => exact map_layer (fun _ _ => Value.bool.inj) _ _ _

end Choice

/-- A text is that of an object, in which the value stands under the name. -/
def Gives (text name : String) (v : Value) : Prop :=
  ∃ fields, Json.fieldsOfText? text = some fields ∧ (name, v) ∈ fields

/-- What a document chooses counts over what lies below, unless it is the initial choice: then, as
where the document makes none, that below stays. -/
theorem merge_document (h : ofJson? text = some o) (base : Options) (c : Choice) :
    (∀ v, Gives text c.name v →
        (v ≠ c.valueIn initial → c.valueIn (base.merge o) = v) ∧
          (v = c.valueIn initial → c.valueIn (base.merge o) = c.valueIn base)) ∧
      ((∀ v, ¬Gives text c.name v) → c.valueIn (base.merge o) = c.valueIn base) := by
  obtain ⟨fields, hfields, ho⟩ := Option.bind_eq_some_iff.mp h
  have hread := Choice.field?_of_ofFields? ho c
  have hmerge := Choice.valueIn_merge c base o
  constructor
  · rintro v ⟨fields', hfields', hv⟩
    cases Option.some.inj (hfields.symm.trans hfields')
    cases eq_of_mem hread hv
    exact hmerge
  · intro hn
    exact hmerge.2 (eq_of_not_mem hread fun v hv => hn v ⟨fields, hfields, hv⟩)

/-- A document that opens tags by `[[`, turns the cache on, and says nothing of the rest. -/
def documentText : String := "\x7b\"open\":\"[[\",\"cache\":true\x7d"

theorem merge_document_brackets :
    ∃ o, ofJson? documentText = some o ∧
      ∀ base : Options, (base.merge o).opener = "[[" ∧ (base.merge o).closer = base.closer ∧
        (base.merge o).cache = true := by
  have hfields : Json.fieldsOfText? documentText =
      some [("open", .string "[["), ("cache", .bool true)] := by cbv
  have hopener : Gives documentText "open" (.string "[[") := ⟨_, hfields, List.mem_cons_self⟩
  have hcache : Gives documentText "cache" (.bool true) :=
    ⟨_, hfields, List.mem_cons_of_mem _ List.mem_cons_self⟩
  have hcloser : ∀ v, ¬Gives documentText "close" v := by
    rintro v ⟨fields, hf, hv⟩
    cases Option.some.inj (hfields.symm.trans hf)
    simp at hv
  obtain ⟨o, ho⟩ : ∃ o, ofJson? documentText = some o := Option.isSome_iff_exists.mp (by cbv)
  refine ⟨o, ho, fun base => ⟨?_, ?_, ?_⟩⟩
  · have hne : Value.string "[[" ≠ Choice.valueIn initial .opener := by
      intro h
      exact absurd (Value.string.inj h) (by decide)
    exact Value.string.inj (((merge_document ho base .opener).1 _ hopener).1 hne)
  · exact Value.string.inj ((merge_document ho base .closer).2 hcloser)
  · have hne : Value.bool true ≠ Choice.valueIn initial .cache := by
      intro h
      exact absurd (Value.bool.inj h) (by decide)
    exact Value.bool.inj (((merge_document ho base .cache).1 _ hcache).1 hne)

/-- A document that writes out the initial opening delimiter does not bring it back: its options are
those of an empty document. -/
theorem merge_document_initial :
    let text := "\x7b\"open\": \"<%\"\x7d"
    let base := { initial with opener := "[[" }
    Gives text "open" (.string "<%") ∧ ofJson? text = some initial ∧
      Choice.opener.valueIn (base.merge initial) = .string "[[" ∧
      Choice.opener.valueIn (base.merge initial) ≠ .string "<%" := by
  intro text base
  have hfields : Json.fieldsOfText? text = some [("open", .string "<%")] := by cbv
  have ho : ofJson? text = some initial := by
    rw [ofJson?, hfields]
    rfl
  have hbase : base.merge initial = base := merge_initial base
  rw [hbase]
  refine ⟨⟨_, hfields, List.mem_cons_self⟩, ho, rfl, ?_⟩
  intro h
  exact absurd (Value.string.inj h) (by decide)

end Stencil.Options

import Stencil.Proofs.Text.Markup

/-!
Reading escaped text. A reader that decodes the entities that escaping writes, and no others, finds
in an escaped text what it finds in the text itself (`unescape_escape`); so escaping loses nothing.
-/

namespace Stencil.Text

set_option autoImplicit true

/-- Decodes the entities that escaping writes, in one pass from left to right. -/
def unescapeChars : List Char → List Char
  | '&' :: 'a' :: 'm' :: 'p' :: ';' :: rest => '&' :: unescapeChars rest
  | '&' :: 'l' :: 't' :: ';' :: rest => '<' :: unescapeChars rest
  | '&' :: 'g' :: 't' :: ';' :: rest => '>' :: unescapeChars rest
  | '&' :: 'q' :: 'u' :: 'o' :: 't' :: ';' :: rest => '"' :: unescapeChars rest
  | '&' :: '#' :: '3' :: '9' :: ';' :: rest => '\'' :: unescapeChars rest
  | c :: rest => c :: unescapeChars rest
  | [] => []

def unescape (s : String) : String := String.ofList (unescapeChars s.toList)

/-- The names of the entities that are decoded. -/
inductive StandsFor : List Char → Char → Prop
  | ampersand : StandsFor ['a', 'm', 'p'] '&'
  | less : StandsFor ['l', 't'] '<'
  | greater : StandsFor ['g', 't'] '>'
  | double : StandsFor ['q', 'u', 'o', 't'] '"'
  | single : StandsFor ['#', '3', '9'] '\''

theorem StandsFor.entityName (h : StandsFor name c) : EntityName name := by
  cases h with
  | single => exact .decimal (List.cons_ne_nil _ _) (List.all_eq_true.mp rfl)
  | _ => exact .name (List.cons_ne_nil _ _) (List.all_eq_true.mp rfl)

theorem StandsFor.unescapeChars (h : StandsFor name c) (s : List Char) :
    unescapeChars ('&' :: (name ++ ';' :: s)) = c :: unescapeChars s := by
  cases h <;> rfl

theorem standsFor_of_entity? (h : entity? c = some e) :
    ∃ name, StandsFor name c ∧ e.toList = '&' :: (name ++ [';']) := by
  unfold entity? at h
  split at h
  · cases h
    exact ⟨_, .less, rfl⟩
  · cases h
    exact ⟨_, .greater, rfl⟩
  · cases h
    exact ⟨_, .double, rfl⟩
  · cases h
    exact ⟨_, .single, rfl⟩
  · cases h

theorem unescapeChars_cons (hc : c ≠ '&') (s : List Char) :
    unescapeChars (c :: s) = c :: unescapeChars s := by
  rw [unescapeChars]
  all_goals
    intro _ h
    exact absurd h hc

/-- An ampersand stays if no entity that is decoded begins there. -/
theorem unescapeChars_ampersand
    (h : ∀ name c rest, StandsFor name c → s ≠ name ++ ';' :: rest) :
    unescapeChars ('&' :: s) = '&' :: unescapeChars s := by
  rw [unescapeChars]
  · exact fun rest _ => h _ _ rest .ampersand
  · exact fun rest _ => h _ _ rest .less
  · exact fun rest _ => h _ _ rest .greater
  · exact fun rest _ => h _ _ rest .double
  · exact fun rest _ => h _ _ rest .single

theorem unescapeChars_append (hs : ∀ c ∈ s, c ≠ '&') (t : List Char) :
    unescapeChars (s ++ t) = s ++ unescapeChars t := by
  induction s with
  | nil => rfl
  | cons c s ih =>
    obtain ⟨hc, hrest⟩ := List.forall_mem_cons.mp hs
    rw [List.cons_append, unescapeChars_cons hc, ih hrest]
    rfl

/-- What follows an ampersand and completes an entity is no entity by itself. -/
theorem unescapeChars_entityName (h : EntityName name) (s : List Char) :
    unescapeChars (name ++ ';' :: s) = name ++ ';' :: unescapeChars s := by
  rw [unescapeChars_append fun c hc => (h.plain c hc).1, unescapeChars_cons (by decide)]

/-- A name ends at the first semicolon. -/
theorem entityName_inj (h : EntityName name) (h' : EntityName name')
    (he : name ++ ';' :: s = name' ++ ';' :: s') : name = name' := by
  have hcut {name : List Char} (h : EntityName name) (s : List Char) :
      cut? [';'] (name ++ ';' :: s) = some (name, s) := by
    rw [← (endsFirst_of_not_mem h.semicolon_not_mem).cut? s, List.append_assoc]
    rfl
  have hc := hcut h s
  rw [he, hcut h' s'] at hc
  exact (congrArg Prod.fst (Option.some.inj hc)).symm

/-- An entity is decoded or kept without regard to what follows it. -/
theorem unescapeChars_congr (h : EntityName name) (hs : unescapeChars s = unescapeChars t) :
    unescapeChars ('&' :: (name ++ ';' :: s)) = unescapeChars ('&' :: (name ++ ';' :: t)) := by
  by_cases hn : ∃ c, StandsFor name c
  · obtain ⟨c, hc⟩ := hn
    rw [hc.unescapeChars, hc.unescapeChars, hs]
  · have hkept (u : List Char) : unescapeChars ('&' :: (name ++ ';' :: u)) =
        '&' :: (name ++ ';' :: unescapeChars u) := by
      rw [unescapeChars_ampersand, unescapeChars_entityName h]
      intro name' c rest hc he
      have hname := entityName_inj h hc.entityName he
      exact hn ⟨c, hname ▸ hc⟩
    rw [hkept, hkept, hs]

theorem unescapeChars_escapeChars (s : List Char) :
    unescapeChars (escapeChars s) = unescapeChars s := by
  induction s with
  | nil => rfl
  | cons c rest ih =>
    rw [escapeChars]
    split
    · rename_i hc
      subst hc
      split
      · -- Both passes see the entity that is there already, and go on behind it in the same way.
        rename_i hrest
        obtain ⟨name, rest, hn, rfl⟩ := completes_of_completesEntity hrest
        have he : escapeChars (name ++ ';' :: rest) = name ++ ';' :: escapeChars rest := by
          rw [escapeChars_append hn.plain]
          rfl
        rw [he, unescapeChars_entityName hn, unescapeChars_entityName hn] at ih
        rw [he]
        exact unescapeChars_congr hn (List.cons.inj (List.append_cancel_left ih)).2
      · rename_i hrest
        have hkept : unescapeChars ('&' :: rest) = '&' :: unescapeChars rest := by
          apply unescapeChars_ampersand
          rintro name c rest' hc rfl
          exact hrest (completesEntity_of_completes ⟨name, rest', hc.entityName, rfl⟩)
        rw [hkept, ← ih]
        rfl
    · rename_i hc
      rw [unescapeChars_cons hc]
      cases he : entity? c with
      | none => rw [Option.elim_none, List.singleton_append, unescapeChars_cons hc, ih]
      | some e =>
        obtain ⟨name, hn, heq⟩ := standsFor_of_entity? he
        have hwhole : e.toList ++ escapeChars rest = '&' :: (name ++ ';' :: escapeChars rest) := by
          rw [heq, List.cons_append, List.append_assoc]
          rfl
        rw [Option.elim_some, hwhole, hn.unescapeChars, ih]

/-- Escaping loses nothing: to a reader of entities an escaped text says what the text itself says.
So a text without ampersands, in which there is nothing to decode, is got back. -/
theorem unescape_escape (s : String) :
    unescape (escape s) = unescape s ∧ ('&' ∉ s.toList → unescape (escape s) = s) := by
  have h : unescape (escape s) = unescape s := by
    rw [unescape, escape, String.toList_ofList, unescapeChars_escapeChars, unescape]
  refine ⟨h, fun hs => ?_⟩
  have hplain : ∀ c ∈ s.toList, c ≠ '&' := by
    rintro c hc rfl
    exact hs hc
  have hu := unescapeChars_append hplain []
  rw [List.append_nil] at hu
  rw [h, unescape, hu, unescapeChars, List.append_nil, String.ofList_toList]

theorem unescape_escape_quoted :
    '&' ∉ "<a title='\"'>".toList ∧ unescape (escape "<a title='\"'>") = "<a title='\"'>" := by
  have h : '&' ∉ "<a title='\"'>".toList := by decide
  exact ⟨h, (unescape_escape _).2 h⟩

end Stencil.Text

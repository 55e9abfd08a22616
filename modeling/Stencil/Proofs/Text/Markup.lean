import Stencil.Proofs.Text.Search
import Stencil.Text.Markup

/-!
Escaped text is confined: it has no character that opens or closes markup or a quoted value, and
every ampersand in it begins a complete entity. Confined texts are put together from single
characters, entities, and an ampersand before the rest of an entity; escaping does nothing else.
Just these texts stay as they are when they are escaped (`escape_idempotent`).
-/

namespace Stencil.Text

set_option autoImplicit true

/-- What may stand between the ampersand and the semicolon of an entity. -/
inductive EntityName : List Char → Prop
  | name (hne : s ≠ []) (hs : ∀ c ∈ s, isAsciiAlphanumeric c = true) : EntityName s
  | decimal (hne : s ≠ []) (hs : ∀ c ∈ s, isAsciiDigit c = true) : EntityName ('#' :: s)
  | hexadecimal (hx : x = 'x' ∨ x = 'X') (hne : s ≠ []) (hs : ∀ c ∈ s, isHexDigit c = true) :
    EntityName ('#' :: x :: s)

/-- A text begins with what completes an entity after an ampersand. -/
def Completes (s : List Char) : Prop := ∃ name rest, EntityName name ∧ s = name ++ ';' :: rest

/-- A text that can neither open nor close markup or a quoted value, nor leave an entity open. -/
structure Confined (s : List Char) : Prop where
  no_markup : ∀ c ∈ s, c ≠ '<' ∧ c ≠ '>' ∧ c ≠ '"' ∧ c ≠ '\''
  entities : ∀ before rest, s = before ++ '&' :: rest → Completes rest

/-- A character that is escaped to itself wherever it stands. -/
def Plain (c : Char) : Prop := c ≠ '&' ∧ entity? c = none

theorem Plain.no_markup (h : Plain c) : c ≠ '<' ∧ c ≠ '>' ∧ c ≠ '"' ∧ c ≠ '\'' := by
  refine ⟨?_, ?_, ?_, ?_⟩
  all_goals
    rintro rfl
    exact nomatch h.2

theorem entity?_eq_none (h : c ≠ '<' ∧ c ≠ '>' ∧ c ≠ '"' ∧ c ≠ '\'') : entity? c = none := by
  obtain ⟨hless, hgreater, hdouble, hsingle⟩ := h
  unfold entity?
  split
  · exact absurd rfl hless
  · exact absurd rfl hgreater
  · exact absurd rfl hdouble
  · exact absurd rfl hsingle
  · rfl

/-- Characters of a kind are plain if those that are escaped are not of the kind. -/
theorem plain_of_kind {p : Char → Bool} (hp : p c = true)
    (h : ['&', '<', '>', '"', '\''].any p = false) : Plain c := by
  simp only [List.any_cons, List.any_nil, Bool.or_eq_false_iff] at h
  obtain ⟨hamp, hless, hgreater, hdouble, hsingle, -⟩ := h
  have hne : ∀ d, p d = false → c ≠ d := by
    rintro d hd rfl
    exact Bool.false_ne_true (hd.symm.trans hp)
  exact ⟨hne '&' hamp,
    entity?_eq_none ⟨hne '<' hless, hne '>' hgreater, hne '"' hdouble, hne '\'' hsingle⟩⟩

theorem EntityName.plain (h : EntityName s) : ∀ c ∈ s, Plain c := by
  have hhash : Plain '#' := ⟨by decide, rfl⟩
  cases h with
  | name _ hs => exact fun c hc => plain_of_kind (hs c hc) rfl
  | decimal _ hs =>
    exact List.forall_mem_cons.mpr ⟨hhash, fun c hc => plain_of_kind (hs c hc) rfl⟩
  | hexadecimal hx _ hs =>
    refine List.forall_mem_cons.mpr ⟨hhash, List.forall_mem_cons.mpr ⟨?_, ?_⟩⟩
    · rcases hx with rfl | rfl
      · exact ⟨by decide, rfl⟩
      · exact ⟨by decide, rfl⟩
    · exact fun c hc => plain_of_kind (hs c hc) rfl

/-- What a character is written as is a whole entity. -/
theorem exists_entityName_of_entity? (h : entity? c = some e) :
    ∃ name, EntityName name ∧ e.toList = '&' :: (name ++ [';']) := by
  unfold entity? at h
  split at h
  · cases h
    exact ⟨['l', 't'], .name (List.cons_ne_nil _ _) (List.all_eq_true.mp rfl), rfl⟩
  · cases h
    exact ⟨['g', 't'], .name (List.cons_ne_nil _ _) (List.all_eq_true.mp rfl), rfl⟩
  · cases h
    exact ⟨['q', 'u', 'o', 't'], .name (List.cons_ne_nil _ _) (List.all_eq_true.mp rfl), rfl⟩
  · cases h
    exact ⟨['#', '3', '9'], .decimal (List.cons_ne_nil _ _) (List.all_eq_true.mp rfl), rfl⟩
  · cases h

theorem isRun_iff {p : Char → Bool} : isRun p s = true ↔ s ≠ [] ∧ ∀ c ∈ s, p c = true := by
  simp only [isRun, Bool.and_eq_true, Bool.not_eq_true', List.isEmpty_eq_false_iff,
    List.all_eq_true]

theorem entityName_of_isEntityName (h : isEntityName s = true) : EntityName s := by
  unfold isEntityName at h
  split at h
  · exact .hexadecimal (.inl rfl) (isRun_iff.mp h).1 (isRun_iff.mp h).2
  · exact .hexadecimal (.inr rfl) (isRun_iff.mp h).1 (isRun_iff.mp h).2
  · exact .decimal (isRun_iff.mp h).1 (isRun_iff.mp h).2
  · exact .name (isRun_iff.mp h).1 (isRun_iff.mp h).2

theorem completes_of_completesEntity (h : completesEntity s = true) : Completes s := by
  unfold completesEntity at h
  split at h
  · rename_i name rest hcut
    refine ⟨name, rest, entityName_of_isEntityName h, ?_⟩
    rw [eq_of_cut? hcut, List.append_assoc]
    rfl
  · cases h

/-- Escaping leaves plain characters alone. -/
theorem escapeChars_append (hs : ∀ c ∈ s, Plain c) (t : List Char) :
    escapeChars (s ++ t) = s ++ escapeChars t := by
  induction s with
  | nil => rfl
  | cons c s ih =>
    obtain ⟨hc, hrest⟩ := List.forall_mem_cons.mp hs
    rw [List.cons_append, escapeChars, if_neg hc.1, hc.2, ih hrest]
    rfl

theorem Completes.escapeChars (h : Completes s) : Completes (escapeChars s) := by
  obtain ⟨name, rest, hn, rfl⟩ := h
  refine ⟨name, Text.escapeChars rest, hn, ?_⟩
  rw [escapeChars_append hn.plain]
  rfl

namespace Confined

theorem nil : Confined [] :=
  ⟨fun _ hc => absurd hc List.not_mem_nil, fun before rest h => by
    cases before <;> cases h⟩

theorem cons (hc : Plain c) (hs : Confined s) : Confined (c :: s) := by
  refine ⟨List.forall_mem_cons.mpr ⟨hc.no_markup, hs.no_markup⟩, fun before rest h => ?_⟩
  cases before with
  | nil =>
    cases h
    exact absurd rfl hc.1
  | cons b before =>
    cases h
    exact hs.entities before rest rfl

/-- An ampersand may stand before the rest of an entity. -/
theorem ampersand (h : Completes s) (hs : Confined s) : Confined ('&' :: s) := by
  refine ⟨List.forall_mem_cons.mpr ⟨by decide, hs.no_markup⟩, fun before rest he => ?_⟩
  cases before with
  | nil =>
    cases he
    exact h
  | cons b before =>
    cases he
    exact hs.entities before rest rfl

theorem append (hs : ∀ c ∈ s, Plain c) (ht : Confined t) : Confined (s ++ t) := by
  induction s with
  | nil => exact ht
  | cons c s ih =>
    obtain ⟨hc, hrest⟩ := List.forall_mem_cons.mp hs
    exact .cons hc (ih hrest)

/-- An entity may stand before any confined text. -/
theorem entity (hn : EntityName name) (hs : Confined s) : Confined ('&' :: (name ++ ';' :: s)) :=
  ampersand ⟨name, s, hn, rfl⟩ (append hn.plain (cons ⟨by decide, rfl⟩ hs))

end Confined

/-- Every escaped text is confined. -/
theorem confined_escapeChars (s : List Char) : Confined (escapeChars s) := by
  induction s with
  | nil => exact .nil
  | cons c rest ih =>
    rw [escapeChars]
    split
    · split
      · -- The entity that the ampersand begins is still there when the rest has been escaped.
        rename_i h
        exact .ampersand (completes_of_completesEntity h).escapeChars ih
      · have hamp : EntityName ['a', 'm', 'p'] :=
          .name (List.cons_ne_nil _ _) (List.all_eq_true.mp rfl)
        exact .entity hamp ih
    · rename_i hc
      cases he : entity? c with
      | none => exact .cons ⟨hc, he⟩ ih
      | some e =>
        obtain ⟨name, hn, heq⟩ := exists_entityName_of_entity? he
        have hwhole : e.toList ++ escapeChars rest = '&' :: (name ++ ';' :: escapeChars rest) := by
          rw [heq, List.cons_append, List.append_assoc]
          rfl
        rw [Option.elim_some, hwhole]
        exact .entity hn ih

theorem confined_escape (s : String) : Confined (escape s).toList := by
  rw [escape, String.toList_ofList]
  exact confined_escapeChars s.toList

theorem EntityName.semicolon_not_mem (h : EntityName s) : ';' ∉ s := by
  cases h with
  | name _ hs => exact fun hm => absurd (hs ';' hm) (by decide)
  | decimal _ hs =>
    rintro (_ | ⟨_, hm⟩)
    exact absurd (hs ';' hm) (by decide)
  | hexadecimal hx _ hs =>
    rintro (_ | ⟨_, hm⟩)
    rcases List.mem_cons.mp hm with rfl | hm
    · exact absurd hx (by decide)
    · exact absurd (hs ';' hm) (by decide)

theorem isEntityName_of_entityName (h : EntityName s) : isEntityName s = true := by
  cases h with
  | name hne hs =>
    have hhash : '#' ∉ s := fun hm => absurd (hs '#' hm) (by decide)
    unfold isEntityName
    split
    · exact absurd List.mem_cons_self hhash
    · exact absurd List.mem_cons_self hhash
    · exact absurd List.mem_cons_self hhash
    · exact isRun_iff.mpr ⟨hne, hs⟩
  | @decimal s hne hs =>
    have hx : 'x' ∉ s := fun hm => absurd (hs 'x' hm) (by decide)
    have hX : 'X' ∉ s := fun hm => absurd (hs 'X' hm) (by decide)
    unfold isEntityName
    split
    · rename_i he
      cases he
      exact absurd List.mem_cons_self hx
    · rename_i he
      cases he
      exact absurd List.mem_cons_self hX
    · rename_i he
      cases he
      exact isRun_iff.mpr ⟨hne, hs⟩
    · rename_i hno
      exact absurd rfl (hno s)
  | hexadecimal hx hne hs =>
    rcases hx with rfl | rfl
    · exact isRun_iff.mpr ⟨hne, hs⟩
    · exact isRun_iff.mpr ⟨hne, hs⟩

theorem completesEntity_of_completes (h : Completes s) : completesEntity s = true := by
  obtain ⟨name, rest, hn, rfl⟩ := h
  have hends : EndsFirst [';'] name := endsFirst_of_not_mem hn.semicolon_not_mem
  have hcut : cut? [';'] (name ++ ';' :: rest) = some (name, rest) := by
    rw [← hends.cut? rest, List.append_assoc]
    rfl
  rw [completesEntity, hcut]
  exact isEntityName_of_entityName hn

theorem Confined.tail (h : Confined (c :: s)) : Confined s :=
  ⟨fun d hd => h.no_markup d (List.mem_cons_of_mem c hd),
    fun before rest he => h.entities (c :: before) rest (congrArg (c :: ·) he)⟩

theorem escapeChars_of_confined (h : Confined s) : escapeChars s = s := by
  induction s with
  | nil => rfl
  | cons c rest ih =>
    rw [Text.escapeChars, ih h.tail]
    split
    · rename_i hc
      have hrest : Completes rest := h.entities [] rest (congrArg (· :: rest) hc)
      rw [if_pos (completesEntity_of_completes hrest), hc]
      rfl
    · rw [entity?_eq_none (h.no_markup c List.mem_cons_self)]
      rfl

theorem escapeChars_eq_self_iff : escapeChars s = s ↔ Confined s :=
  ⟨fun h => h ▸ confined_escapeChars s, escapeChars_of_confined⟩

theorem escape_eq_self_iff (s : String) : escape s = s ↔ Confined s.toList := by
  rw [← escapeChars_eq_self_iff, escape, ← String.toList_inj, String.toList_ofList]

/-- Escaped text is confined, and escaping changes every text but the confined ones; so escaping
twice is escaping once. -/
theorem escape_idempotent (s : String) :
    Confined (escape s).toList ∧ escape (escape s) = escape s ∧
      (escape s = s ↔ Confined s.toList) :=
  ⟨confined_escape s, (escape_eq_self_iff _).mpr (confined_escape s), escape_eq_self_iff s⟩

end Stencil.Text

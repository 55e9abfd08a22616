/-!
Finite maps from names to values as lists of entries in the ascending order of their names. The
look-up lemmas hold of every list; `get?_ext` says that an ascending list is determined by its
look-ups.
-/

namespace Stencil

abbrev Entries (α : Type) := List (String × α)

namespace Entries

variable {α : Type}

/-- Names ascend strictly, so no name stands twice. -/
def Ascending (entries : Entries α) : Prop :=
  entries.Pairwise fun a b => a.1 < b.1

/-- The value of the first entry under a name. -/
def get? (name : String) : Entries α → Option α
  | [] => none
  | (other, value) :: rest => if name = other then some value else get? name rest

/-- Adds an entry at its place in the order, in the place of an entry of the same name. -/
def insert (name : String) (value : α) : Entries α → Entries α
  | [] => [(name, value)]
  | (other, old) :: rest =>
    if name = other then (name, value) :: rest
    else if name < other then (name, value) :: (other, old) :: rest
    else (other, old) :: insert name value rest

/-- Takes out the entries of a name. -/
def erase (name : String) (entries : Entries α) : Entries α :=
  entries.filter fun e => e.1 ≠ name

/-- Enters every entry of the second list into the first; later entries win. -/
def extend (entries more : Entries α) : Entries α :=
  more.foldl (fun acc e => insert e.1 e.2 acc) entries

def ofList (list : Entries α) : Entries α := extend [] list

def names (entries : Entries α) : List String := entries.map (·.1)

@[simp] theorem get?_nil (name : String) : get? name ([] : Entries α) = none := rfl

theorem mem_of_get? {name : String} {value : α} {entries : Entries α}
    (h : get? name entries = some value) : (name, value) ∈ entries := by
  induction entries with
  | nil => cases h
  | cons e rest ih =>
    rw [get?] at h
    split at h
    · rename_i he
      cases h
      rw [he]
      exact List.mem_cons_self
    · exact List.mem_cons_of_mem e (ih h)

@[simp] theorem get?_insert_self (name : String) (value : α) (entries : Entries α) :
    get? name (insert name value entries) = some value := by
  induction entries with
  | nil => simp [insert, get?]
  | cons e rest ih =>
    obtain ⟨other, old⟩ := e
    simp only [insert]
    split
    · simp [get?]
    · split
      · simp [get?]
      · rename_i hne _
        simp [get?, hne, ih]

theorem get?_insert_of_ne {name other : String} (h : name ≠ other) (value : α)
    (entries : Entries α) : get? name (insert other value entries) = get? name entries := by
  induction entries with
  | nil => simp [insert, get?, h]
  | cons e rest ih =>
    obtain ⟨third, old⟩ := e
    simp only [insert]
    split
    · rename_i heq
      subst heq
      simp [get?, h]
    · split
      · simp [get?, h]
      · simp [get?, ih]

theorem get?_insert (name other : String) (value : α) (entries : Entries α) :
    get? name (insert other value entries) =
      if name = other then some value else get? name entries := by
  split
  · rename_i h
    subst h
    exact get?_insert_self ..
  · rename_i h
    exact get?_insert_of_ne h ..

theorem mem_insert {name : String} {value : α} {entries : Entries α} {e : String × α}
    (h : e ∈ insert name value entries) : e = (name, value) ∨ e ∈ entries := by
  induction entries with
  | nil => simpa [insert] using h
  | cons first rest ih =>
    obtain ⟨other, old⟩ := first
    simp only [insert] at h
    split at h
    · simp only [List.mem_cons] at h ⊢
      grind
    · split at h
      · simpa using h
      · simp only [List.mem_cons] at h ⊢
        grind

theorem Ascending.insert {entries : Entries α} (h : Ascending entries) (name : String)
    (value : α) : Ascending (entries.insert name value) := by
  induction entries with
  | nil => simp [Entries.insert, Ascending]
  | cons first rest ih =>
    obtain ⟨other, old⟩ := first
    obtain ⟨hfirst, hrest⟩ := List.pairwise_cons.mp h
    simp only [Entries.insert]
    split
    · rename_i heq
      subst heq
      exact List.pairwise_cons.mpr ⟨hfirst, hrest⟩
    · rename_i hne
      split
      · rename_i hlt
        refine List.pairwise_cons.mpr ⟨?_, h⟩
        intro e he
        rcases List.mem_cons.mp he with rfl | he
        · exact hlt
        · exact String.lt_trans hlt (hfirst e he)
      · rename_i hge
        refine List.pairwise_cons.mpr ⟨?_, ih hrest⟩
        intro e he
        rcases mem_insert he with rfl | he
        · by_cases hlt : other < name
          · exact hlt
          · exact absurd (String.le_antisymm (String.not_lt.mp hlt) (String.not_lt.mp hge)) hne
        · exact hfirst e he

theorem Ascending.extend {entries : Entries α} (h : Ascending entries) (more : Entries α) :
    Ascending (entries.extend more) := by
  induction more generalizing entries with
  | nil => exact h
  | cons e rest ih => exact ih (h.insert e.1 e.2)

theorem Ascending.erase {entries : Entries α} (h : Ascending entries) (name : String) :
    Ascending (entries.erase name) :=
  List.Pairwise.filter _ h

theorem ascending_ofList (list : Entries α) : Ascending (ofList list) :=
  Ascending.extend List.Pairwise.nil list

theorem get?_eq_none_of_forall_lt {name : String} {entries : Entries α}
    (h : ∀ e ∈ entries, name < e.1) : get? name entries = none := by
  induction entries with
  | nil => rfl
  | cons first rest ih =>
    obtain ⟨other, value⟩ := first
    have hne : name ≠ other := by
      rintro rfl
      exact String.lt_irrefl _ (h (name, value) List.mem_cons_self)
    simp [get?, hne, ih fun e he => h e (List.mem_cons_of_mem _ he)]

/-- A look-up after extending finds what is in the second list first. -/
theorem get?_extend {more : Entries α} (h : Ascending more) (name : String)
    (entries : Entries α) :
    get? name (extend entries more) = (get? name more).or (get? name entries) := by
  induction more generalizing entries with
  | nil => rfl
  | cons first rest ih =>
    obtain ⟨other, value⟩ := first
    obtain ⟨hfirst, hrest⟩ := List.pairwise_cons.mp h
    have hr := ih hrest (insert other value entries)
    change get? name (extend (insert other value entries) rest) = _
    rw [hr, get?_insert, get?]
    split
    · rename_i heq
      subst heq
      rw [get?_eq_none_of_forall_lt hfirst]
      rfl
    · rfl

theorem get?_append (name : String) (a b : Entries α) :
    get? name (a ++ b) = (get? name a).or (get? name b) := by
  induction a with
  | nil => rfl
  | cons e rest ih =>
    obtain ⟨other, value⟩ := e
    rw [List.cons_append, get?, get?, ih]
    split <;> rfl

/-- A look-up in the entries of any list finds the last one under the name. -/
theorem get?_ofList (name : String) (list : Entries α) :
    get? name (ofList list) = get? name list.reverse := by
  suffices h : ∀ acc : Entries α,
      get? name (extend acc list) = (get? name list.reverse).or (get? name acc) from
    (h []).trans (Option.or_none ..)
  induction list with
  | nil => exact fun acc => rfl
  | cons e rest ih =>
    obtain ⟨other, value⟩ := e
    intro acc
    change get? name (extend (insert other value acc) rest) = _
    rw [ih, get?_insert, List.reverse_cons, get?_append, Option.or_assoc, get?]
    split <;> rfl

/-- Two ascending lists with the same look-ups are the same list. -/
theorem get?_ext {a b : Entries α} (ha : Ascending a) (hb : Ascending b)
    (h : ∀ name, get? name a = get? name b) : a = b := by
  induction a generalizing b with
  | nil =>
    cases b with
    | nil => rfl
    | cons e rest =>
      have := h e.1
      simp [get?] at this
  | cons e rest ih =>
    obtain ⟨name, value⟩ := e
    cases b with
    | nil =>
      have := h name
      simp [get?] at this
    | cons e' rest' =>
      obtain ⟨name', value'⟩ := e'
      obtain ⟨ha1, ha2⟩ := List.pairwise_cons.mp ha
      obtain ⟨hb1, hb2⟩ := List.pairwise_cons.mp hb
      have hname : name = name' := by
        by_cases hlt : name < name'
        · have hn := h name
          have hnone : get? name ((name', value') :: rest') = none := by
            refine get?_eq_none_of_forall_lt fun e he => ?_
            rcases List.mem_cons.mp he with rfl | he
            · exact hlt
            · exact String.lt_trans hlt (hb1 e he)
          rw [hnone] at hn
          simp [get?] at hn
        · by_cases hgt : name' < name
          · have hn := h name'
            have hnone : get? name' ((name, value) :: rest) = none := by
              refine get?_eq_none_of_forall_lt fun e he => ?_
              rcases List.mem_cons.mp he with rfl | he
              · exact hgt
              · exact String.lt_trans hgt (ha1 e he)
            rw [hnone] at hn
            simp [get?] at hn
          · exact String.le_antisymm (String.not_lt.mp hgt) (String.not_lt.mp hlt)
      subst hname
      have hvalue : value = value' := by simpa [get?] using h name
      subst hvalue
      congr 1
      refine ih ha2 hb2 fun other => ?_
      by_cases heq : other = name
      · subst heq
        rw [get?_eq_none_of_forall_lt ha1, get?_eq_none_of_forall_lt hb1]
      · simpa [get?, heq] using h other

end Entries

end Stencil

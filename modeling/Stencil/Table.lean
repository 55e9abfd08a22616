import Stencil.Entries

/-!
Tables: entries in the ascending order of their names. Two tables with the same look-ups are equal
(`Table.ext`).
-/

namespace Stencil

/-- A finite map from names to values. -/
structure Table (α : Type) where
  entries : Entries α
  ascending : entries.Ascending

namespace Table

variable {α : Type}

def empty : Table α := ⟨[], List.Pairwise.nil⟩

instance : EmptyCollection (Table α) := ⟨empty⟩

instance : Inhabited (Table α) := ⟨empty⟩

def get? (t : Table α) (name : String) : Option α := t.entries.get? name

def contains (t : Table α) (name : String) : Bool := (t.get? name).isSome

def insert (t : Table α) (name : String) (value : α) : Table α :=
  ⟨t.entries.insert name value, t.ascending.insert name value⟩

def erase (t : Table α) (name : String) : Table α :=
  ⟨t.entries.erase name, t.ascending.erase name⟩

/-- The entries of both tables; those of the second win. -/
def extend (t more : Table α) : Table α :=
  ⟨t.entries.extend more.entries, t.ascending.extend more.entries⟩

/-- The table of a list of entries; of two entries with one name the later one counts. -/
def ofList (list : Entries α) : Table α :=
  ⟨Entries.ofList list, Entries.ascending_ofList list⟩

def names (t : Table α) : List String := t.entries.names

def size (t : Table α) : Nat := t.entries.length

@[ext] theorem ext {a b : Table α} (h : ∀ name, a.get? name = b.get? name) : a = b := by
  obtain ⟨as, ha⟩ := a
  obtain ⟨bs, hb⟩ := b
  have : as = bs := Entries.get?_ext ha hb h
  subst this
  rfl

@[simp] theorem get?_empty (name : String) : (∅ : Table α).get? name = none := rfl

theorem get?_insert (t : Table α) (name other : String) (value : α) :
    (t.insert other value).get? name = if name = other then some value else t.get? name :=
  Entries.get?_insert ..

theorem get?_ofList (list : Entries α) (name : String) :
    (ofList list).get? name = Entries.get? name list.reverse :=
  Entries.get?_ofList ..

theorem get?_extend (t more : Table α) (name : String) :
    (t.extend more).get? name = (more.get? name).or (t.get? name) :=
  Entries.get?_extend more.ascending ..

@[simp] theorem get?_insert_self (t : Table α) (name : String) (value : α) :
    (t.insert name value).get? name = some value :=
  Entries.get?_insert_self ..

theorem extend_assoc (a b c : Table α) : (a.extend b).extend c = a.extend (b.extend c) := by
  refine ext fun name => ?_
  simp only [get?_extend, Option.or_assoc]

@[simp] theorem empty_extend (t : Table α) : (∅ : Table α).extend t = t := by
  refine ext fun name => ?_
  rw [get?_extend, get?_empty, Option.or_none]

@[simp] theorem extend_empty (t : Table α) : t.extend ∅ = t := rfl

@[simp] theorem extend_self (t : Table α) : t.extend t = t := by
  refine ext fun name => ?_
  rw [get?_extend, Option.or_self]

end Table

end Stencil

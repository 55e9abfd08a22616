import Mathlib
import Stencil.Filter.Sort

/-!
What sorting by insertion gives. Under any order that is total and transitive on the elements it is
the stable sort of them (`stableSort_sorted`), of which there is only one (`StableSort.unique`); and
elements that come in another order are sorted to the same list but for ties (`StableSort.ties`).
-/

namespace Stencil.Insertion

set_option autoImplicit true

/-- The elements of a list can be put in order: any two compare, and what is not after something is
not after what that is not after. -/
structure Ordered (le : α → α → Prop) (items : List α) : Prop where
  total : ∀ a ∈ items, ∀ b ∈ items, le a b ∨ le b a
  trans : ∀ a ∈ items, ∀ b ∈ items, ∀ c ∈ items, le a b → le b c → le a c

/-- Neither of two elements is after the other. -/
def Tied {α : Type} (le : α → α → Prop) (a b : α) : Prop := le a b ∧ le b a

instance {α : Type} (le : α → α → Prop) [DecidableRel le] (a b : α) : Decidable (Tied le a b) :=
  inferInstanceAs (Decidable (le a b ∧ le b a))

/-- The same elements in order; those that are tied stand as they stood. -/
structure StableSort {α : Type} (le : α → α → Prop) [DecidableRel le] (items result : List α) :
    Prop where
  perm : result.Perm items
  ordered : result.Pairwise le
  stable : ∀ a ∈ items, result.filter (Tied le a ·) = items.filter (Tied le a ·)

variable {α : Type} {le : α → α → Prop} {items : List α}

namespace Ordered

theorem refl (h : Ordered le items) (ha : a ∈ items) : le a a :=
  (h.total a ha a ha).elim id id

theorem le_of_mem (h : Ordered le items) (ha : a ∈ items) {s : List α}
    (hp : (a :: s).Pairwise le) (hb : b ∈ a :: s) : le a b := by
  obtain rfl | hb := List.mem_cons.mp hb
  · exact h.refl ha
  · exact (List.pairwise_cons.mp hp).1 b hb

end Ordered

section insertion

variable {before : α → α → Bool}

theorem insertLast_perm (before : α → α → Bool) (x : α) (done : List α) :
    (insertLast before x done).Perm (x :: done) := by
  induction done with
  | nil => exact .refl _
  | cons y rest ih =>
    rw [insertLast]
    split
    · exact (ih.cons y).trans (.swap x y rest)
    · exact .refl _

theorem reverse_sorted_concat (before : α → α → Bool) (items : List α) (x : α) :
    (sorted before (items ++ [x])).reverse = insertLast before x (sorted before items).reverse := by
  simp only [sorted, List.foldl_append, List.foldl_cons, List.foldl_nil, List.reverse_reverse]

theorem sorted_perm (before : α → α → Bool) (items : List α) :
    (sorted before items).Perm items := by
  induction items using List.reverseRecOn with
  | nil => exact .refl _
  | append_singleton items x ih =>
    have hlast : (insertLast before x (sorted before items).reverse).Perm (x :: items) :=
      (insertLast_perm ..).trans (((List.reverse_perm _).trans ih).cons x)
    rw [← List.reverse_reverse (sorted before _), reverse_sorted_concat]
    exact (List.reverse_perm _).trans (hlast.trans (List.perm_append_singleton x items).symm)

variable (h : Ordered le items)
  (hb : ∀ a ∈ items, ∀ b ∈ items, before a b = true ↔ ¬le b a)

include h hb

/-- The list stands last one first, so the order is turned round. -/
theorem pairwise_insertLast (hx : x ∈ items) (hd : ∀ y ∈ done, y ∈ items)
    (hdone : done.Pairwise fun a b => le b a) :
    (insertLast before x done).Pairwise fun a b => le b a := by
  induction done with
  | nil => exact List.pairwise_singleton _ x
  | cons y rest ih =>
    obtain ⟨hy, hrest⟩ := List.forall_mem_cons.mp hd
    obtain ⟨hle, hpair⟩ := List.pairwise_cons.mp hdone
    rw [insertLast]
    split
    · rename_i hbefore
      have hxy : le x y := (h.total x hx y hy).resolve_right ((hb x hx y hy).mp hbefore)
      refine List.pairwise_cons.mpr ⟨fun z hz => ?_, ih hrest hpair⟩
      obtain rfl | hz := List.mem_cons.mp ((insertLast_perm before x rest).mem_iff.mp hz)
      · exact hxy
      · exact hle z hz
    · rename_i hbefore
      have hyx : le y x := by
        by_contra hn
        exact hbefore ((hb x hx y hy).mpr hn)
      refine List.pairwise_cons.mpr ⟨fun z hz => ?_, hdone⟩
      obtain rfl | hz := List.mem_cons.mp hz
      · exact hyx
      · exact h.trans z (hrest z hz) y hy x hx (hle z hz) hyx

/-- An element passes nothing that it is tied with. -/
theorem filter_insertLast [DecidableRel le] (ha : a ∈ items) (hx : x ∈ items)
    (hd : ∀ y ∈ done, y ∈ items) :
    (insertLast before x done).filter (Tied le a ·) = (x :: done).filter (Tied le a ·) := by
  induction done with
  | nil => rfl
  | cons y rest ih =>
    obtain ⟨hy, hrest⟩ := List.forall_mem_cons.mp hd
    rw [insertLast]
    split
    · rename_i hbefore
      have hyx : ¬le y x := (hb x hx y hy).mp hbefore
      by_cases hay : Tied le a y
      · have hax : ¬Tied le a x := fun hax => hyx (h.trans y hy a ha x hx hay.2 hax.1)
        simp [ih hrest, hay, hax]
      · simp [ih hrest, hay, List.filter_cons]
    · rfl

/-- What insertion has done with the first elements. -/
theorem sorted_part [DecidableRel le] (hd : ∀ a ∈ done, a ∈ items) :
    (sorted before done).Pairwise le ∧
      ∀ a ∈ items, (sorted before done).filter (Tied le a ·) = done.filter (Tied le a ·) := by
  induction done using List.reverseRecOn with
  | nil => exact ⟨.nil, fun _ _ => rfl⟩
  | append_singleton done x ih =>
    obtain ⟨hdone, hlast⟩ := List.forall_mem_append.mp hd
    obtain ⟨hpair, hfilter⟩ := ih hdone
    have hx : x ∈ items := hlast x List.mem_cons_self
    have hmem : ∀ y ∈ (sorted before done).reverse, y ∈ items := fun y hy =>
      hdone y ((sorted_perm before done).mem_iff.mp (List.mem_reverse.mp hy))
    rw [← List.reverse_reverse (sorted before _), reverse_sorted_concat]
    constructor
    · rw [List.pairwise_reverse]
      exact pairwise_insertLast h hb hx hmem (List.pairwise_reverse.mpr hpair)
    · intro a ha
      rw [List.filter_reverse, filter_insertLast h hb ha hx hmem, ← List.filter_reverse,
        List.reverse_cons, List.reverse_reverse, List.filter_append, List.filter_append,
        hfilter a ha]

/-- Sorting by insertion is a stable sort. -/
theorem stableSort_sorted [DecidableRel le] : StableSort le items (sorted before items) :=
  have hpart := sorted_part h hb fun _ ha => ha
  ⟨sorted_perm before items, hpart.1, hpart.2⟩

end insertion

variable [DecidableRel le] {s t result result' items' : List α}

namespace Ordered

theorem mem_iff_of_filter (h : Ordered le items) (ha : a ∈ items)
    (hf : s.filter (Tied le a ·) = t.filter (Tied le a ·)) : a ∈ s ↔ a ∈ t := by
  have hin (l : List α) : a ∈ l ↔ a ∈ l.filter (Tied le a ·) := by simp [Tied, h.refl ha]
  rw [hin s, hf, ← hin t]

/-- Lists in order are equal if in both the elements that are tied are the same. -/
theorem eq_of_filter (h : Ordered le items) (hs : ∀ a ∈ s, a ∈ items)
    (ht : ∀ a ∈ t, a ∈ items) (hps : s.Pairwise le) (hpt : t.Pairwise le)
    (hf : ∀ a ∈ items, s.filter (Tied le a ·) = t.filter (Tied le a ·)) : s = t := by
  induction s generalizing t with
  | nil =>
    cases t with
    | nil => rfl
    | cons b t =>
      have hb : b ∈ items := ht b List.mem_cons_self
      exact nomatch (h.mem_iff_of_filter hb (hf b hb)).mpr List.mem_cons_self
  | cons a s ih =>
    obtain ⟨ha, hs'⟩ := List.forall_mem_cons.mp hs
    have hat : a ∈ t := (h.mem_iff_of_filter ha (hf a ha)).mp List.mem_cons_self
    cases t with
    | nil => cases hat
    | cons b t =>
      obtain ⟨hb, ht'⟩ := List.forall_mem_cons.mp ht
      have hbs : b ∈ a :: s := (h.mem_iff_of_filter hb (hf b hb)).mpr List.mem_cons_self
      have hab : Tied le a b := ⟨h.le_of_mem ha hps hbs, h.le_of_mem hb hpt hat⟩
      have haa : Tied le a a := ⟨h.refl ha, h.refl ha⟩
      have hheads : a = b ∧ s.filter (Tied le a ·) = t.filter (Tied le a ·) := by
        simpa [haa, hab] using hf a ha
      obtain rfl : a = b := hheads.1
      refine congrArg (a :: ·) (ih hs' ht' hps.of_cons hpt.of_cons fun c hc => ?_)
      have hrest := hf c hc
      by_cases hca : Tied le c a
      · simpa [hca] using hrest
      · simpa [hca] using hrest

end Ordered

theorem countP_lt_countP {p q : α → Bool} (h : ∀ a ∈ s, p a = true → q a = true) (hb : b ∈ s)
    (hq : q b = true) (hp : ¬p b = true) : s.countP p < s.countP q := by
  obtain ⟨u, v, rfl⟩ := List.append_of_mem hb
  obtain ⟨hu, hv⟩ := List.forall_mem_append.mp h
  have hmu : u.countP p ≤ u.countP q := List.countP_mono_left hu
  have hmv : v.countP p ≤ v.countP q := List.countP_mono_left (List.forall_mem_cons.mp hv).2
  rw [List.countP_append, List.countP_append, List.countP_cons_of_neg hp,
    List.countP_cons_of_pos hq]
  omega

/-- The number of elements that are before another one. -/
def place (le : α → α → Prop) [DecidableRel le] (items : List α) (a : α) : Nat :=
  items.countP fun b => ¬le a b

theorem Ordered.le_iff_place (h : Ordered le items) (ha : a ∈ items) (hb : b ∈ items) :
    le a b ↔ place le items a ≤ place le items b := by
  have hmono {a b : α} (ha : a ∈ items) (hb : b ∈ items) (hab : le a b) :
      ∀ c ∈ items, ¬le a c → ¬le b c := fun c hc hac hbc =>
    hac (h.trans a ha b hb c hc hab hbc)
  constructor
  · intro hab
    refine List.countP_mono_left fun c hc => ?_
    simpa using hmono ha hb hab c hc
  · intro hle
    by_contra hab
    have hba : le b a := (h.total a ha b hb).resolve_left hab
    have hlt : place le items b < place le items a := by
      refine countP_lt_countP (fun c hc => ?_) hb (by simpa using hab) (by simpa using h.refl hb)
      simpa using hmono hb ha hba c hc
    exact Nat.not_lt_of_ge hle hlt

namespace StableSort

/-- There is one stable sort. -/
theorem unique (h : Ordered le items) (hs : StableSort le items result)
    (hs' : StableSort le items result') : result = result' :=
  h.eq_of_filter (fun _ => hs.perm.mem_iff.mp) (fun _ => hs'.perm.mem_iff.mp) hs.ordered
    hs'.ordered fun a ha => (hs.stable a ha).trans (hs'.stable a ha).symm

/-- Sorts of the same elements are the same but for ties. -/
theorem ties (h : Ordered le items) (hs : StableSort le items result)
    (hs' : StableSort le items' result') (hp : items'.Perm items) :
    List.Forall₂ (fun a b => a ∈ items ∧ b ∈ items ∧ Tied le a b) result result' := by
  have hr {a : α} (ha : a ∈ result) : a ∈ items := hs.perm.mem_iff.mp ha
  have hr' {a : α} (ha : a ∈ result') : a ∈ items := (hs'.perm.trans hp).mem_iff.mp ha
  have hsorted {r : List α} (hm : ∀ {a}, a ∈ r → a ∈ items) (ho : r.Pairwise le) :
      (r.map (place le items)).SortedLE := by
    rw [List.sortedLE_iff_pairwise, List.pairwise_map]
    exact ho.imp_of_mem fun ha hb hab => (h.le_iff_place (hm ha) (hm hb)).mp hab
  have hperm : result.Perm result' := hs.perm.trans (hs'.perm.trans hp).symm
  have hplaces : result.map (place le items) = result'.map (place le items) :=
    (hperm.map _).eq_of_sortedLE (hsorted hr hs.ordered) (hsorted hr' hs'.ordered)
  rw [← List.forall₂_eq_eq_eq, List.forall₂_map_left_iff, List.forall₂_map_right_iff,
    List.forall₂_iff_zip] at hplaces
  refine List.forall₂_iff_zip.mpr ⟨hplaces.1, fun {a b} hab => ?_⟩
  obtain ⟨ha, hb⟩ := List.of_mem_zip hab
  have he := hplaces.2 hab
  exact ⟨hr ha, hr' hb, (h.le_iff_place (hr ha) (hr' hb)).mpr he.le,
    (h.le_iff_place (hr' hb) (hr ha)).mpr he.ge⟩

end StableSort

end Stencil.Insertion

import Stencil.Proofs.Files.Way

/-!
What is listed below a directory: `exists_lists` says that the paths of the files with an extension are
those of the names that reach one, each of them once, in the order in which a walk comes to them.
Directories with paths that are too long to be followed count as files.
-/

namespace Stencil

set_option autoImplicit true

namespace FileTree

open Stencil.Path (IsName)

/-- Every directory has its entries in the ascending order of their names, each of which is one that
an entry can have. -/
inductive Proper : FileTree → Prop where
  | file : Proper (file text)
  | folder : Entries.Ascending entries → (∀ e ∈ entries, IsName e.1) →
      (∀ e ∈ entries, Proper e.2) → Proper (folder entries)

theorem Proper.tail (h : Proper (.folder (e :: rest))) : Proper (.folder rest) := by
  cases h with
  | folder ha hn hc =>
    exact .folder (List.pairwise_cons.mp ha).2 (fun e he => hn e (List.mem_cons_of_mem _ he))
      fun e he => hc e (List.mem_cons_of_mem _ he)

theorem proper_empty : Proper empty :=
  .folder .nil (fun _ h => absurd h List.not_mem_nil) fun _ h => absurd h List.not_mem_nil

theorem Proper.cons (hn : IsName name) (hi : Proper item) (hlt : ∀ e ∈ rest, name < e.1)
    (h : Proper (.folder rest)) : Proper (.folder ((name, item) :: rest)) := by
  cases h with
  | folder hs hnames hc =>
    exact .folder (List.pairwise_cons.mpr ⟨hlt, hs⟩) (List.forall_mem_cons.mpr ⟨hn, hnames⟩)
      (List.forall_mem_cons.mpr ⟨hi, hc⟩)

/-- What a way leads to in a proper tree is proper. -/
theorem Proper.walk (h : Proper here) (ha : ∀ up ∈ above, Proper up.2)
    (hw : walk above here steps = .ok (way, there)) : Proper there := by
  induction steps generalizing above here with
  | nil =>
    cases hw
    exact h
  | cons part rest ih =>
    cases h with
    | file => cases hw
    | @folder entries hs hn hc =>
      simp only [FileTree.walk] at hw
      split at hw
      · exact ih (.folder hs hn hc) ha hw
      · split at hw
        · cases above with
          | nil => exact ih proper_empty ha hw
          | cons up more =>
            obtain ⟨hup, hmore⟩ := List.forall_mem_cons.mp ha
            exact ih hup hmore hw
        · split at hw
          · cases hw
          · rename_i child hg
            refine ih (hc _ (Entries.mem_of_get? hg)) ?_ hw
            exact List.forall_mem_cons.mpr ⟨.folder hs hn hc, ha⟩

theorem Proper.locate {root : FileTree} (h : Proper root) (hl : root.locate path = .ok (way, there)) :
    Proper there :=
  h.walk (fun _ hm => absurd hm List.not_mem_nil) (locate_eq_ok hl).2.2

/-- All names under which something stands are names that an entry can have. -/
theorem Proper.isName (h : Proper here) (hu : here.under? names = some item) :
    ∀ name ∈ names, IsName name := by
  induction names generalizing here with
  | nil => exact nofun
  | cons name names ih =>
    cases h with
    | file => cases hu
    | folder hs hn hc =>
      obtain ⟨child, hg, hu⟩ := Option.bind_eq_some_iff.mp hu
      have hm := Entries.mem_of_get? hg
      exact List.forall_mem_cons.mpr ⟨hn _ hm, ih (hc _ hm) hu⟩

/-- Names lead from a directory with the path to something with the extension that counts as a file.
The paths of the directories on the way are not too long to be followed, and if it is a directory
itself then its path is. -/
structure Reaches (extension path : String) (entries : List (String × FileTree))
    (names : List String) : Prop where
  entry : ∃ item, (folder entries).under? names = some item ∧
    (item.isFolder = true → Path.maxSize < (Path.joinAll path names).utf8ByteSize)
  named : names.getLast?.bind Path.nameExtension? = some extension
  followed : ∀ front, front ≠ [] → front <+: names → front ≠ names →
    (Path.joinAll path front).utf8ByteSize ≤ Path.maxSize

/-- All names that reach something, the entries of each directory in the order of their names and
those below an entry in its place. -/
structure Lists (extension path : String) (entries : List (String × FileTree))
    (found : List (List String)) : Prop where
  sorted : found.Pairwise (List.Lex (· < ·))
  mem_iff : ∀ names, names ∈ found ↔ Reaches extension path entries names

theorem Reaches.exists_cons (h : Reaches extension path entries names) :
    ∃ name tail item, names = name :: tail ∧ Entries.get? name entries = some item := by
  cases names with
  | nil => exact absurd h.named nofun
  | cons name tail =>
    obtain ⟨item, hu, _⟩ := h.entry
    obtain ⟨item', hg, _⟩ := Option.bind_eq_some_iff.mp hu
    exact ⟨name, tail, item', rfl, hg⟩

theorem reaches_congr (h : Entries.get? name entries = Entries.get? name entries') :
    Reaches extension path entries (name :: tail) ↔ Reaches extension path entries' (name :: tail) := by
  have hu : (folder entries).under? (name :: tail) = (folder entries').under? (name :: tail) := by
    rw [under?, under?, h]
  constructor
  · exact fun hr => ⟨hu ▸ hr.entry, hr.named, hr.followed⟩
  · exact fun hr => ⟨hu ▸ hr.entry, hr.named, hr.followed⟩

/-- The first entry comes in front of what the other entries list. -/
theorem Lists.cons {own : List (List String)} (ha : Entries.Ascending ((name, item) :: rest))
    (hs : own.Pairwise (List.Lex (· < ·)))
    (hm : ∀ tail, tail ∈ own ↔ Reaches extension path ((name, item) :: rest) (name :: tail))
    (hr : Lists extension path rest found) :
    Lists extension path ((name, item) :: rest) (own.map (name :: ·) ++ found) := by
  have hlt : ∀ other item', Entries.get? other rest = some item' → name < other :=
    fun other item' hg => (List.pairwise_cons.mp ha).1 _ (Entries.mem_of_get? hg)
  have hskip : ∀ {other}, other ≠ name →
      Entries.get? other ((name, item) :: rest) = Entries.get? other rest := by
    intro other hne
    rw [Entries.get?, if_neg hne]
  constructor
  · rw [List.pairwise_append, List.pairwise_map]
    refine ⟨hs.imp fun h => .cons h, hr.sorted, ?_⟩
    intro a hown b hb
    -- What the others list begins with a greater name than the first entry has.
    obtain ⟨tail, _, rfl⟩ := List.mem_map.mp hown
    obtain ⟨other, tail', item', rfl, hg⟩ := ((hr.mem_iff b).mp hb).exists_cons
    exact .rel (hlt other item' hg)
  · intro names
    rw [List.mem_append, List.mem_map, hr.mem_iff]
    constructor
    · rintro (⟨tail, hown, rfl⟩ | hrest)
      · exact (hm tail).mp hown
      · obtain ⟨other, tail, item', rfl, hg⟩ := hrest.exists_cons
        have hne : other ≠ name := (String.ne_of_lt (hlt other item' hg)).symm
        exact (reaches_congr (hskip hne)).mpr hrest
    · intro h
      obtain ⟨other, tail, item', rfl, _⟩ := h.exists_cons
      by_cases he : other = name
      · subst he
        exact .inl ⟨tail, (hm tail).mpr h, rfl⟩
      · exact .inr ((reaches_congr (hskip he)).mp h)

end FileTree

end Stencil

import Stencil.Proofs.Segment.Lines

/-!
The two treatments of white space side by side. The main statement is `eaten_of_parse`: without their
white space the texts of a source are the same in both, and where space is eaten some texts are
missing that are nothing but white space.
-/

namespace Stencil

set_option autoImplicit true

namespace Spacing

/-- What the white-space rule changes or takes away: spaces, tabs, and the ends of lines. -/
def isSpace (c : Char) : Bool := c == ' ' || c == '\t' || c == '\r' || c == '\n'

/-- A text without its white space. -/
def bare (s : String) : String := String.ofList (s.toList.filter (!isSpace ·))

@[simp] theorem bare_append (s t : String) : bare (s ++ t) = bare s ++ bare t := by
  rw [bare, String.toList_append, List.filter_append, String.ofList_append]
  rfl

@[simp] theorem bare_bare (s : String) : bare (bare s) = bare s := by
  rw [bare, bare, String.toList_ofList, List.filter_filter]
  simp only [Bool.and_self]

theorem bare_ofList_congr {s t : List Char}
    (h : s.filter (!isSpace ·) = t.filter (!isSpace ·)) :
    bare (String.ofList s) = bare (String.ofList t) := by
  rw [bare, bare, String.toList_ofList, String.toList_ofList, h]

/-- Nothing but white space changes. -/
theorem filter_step (eatspace : Bool) (w : Spacing) (c : Char) :
    (step eatspace w c).1.toList.filter (!isSpace ·) = [c].filter (!isSpace ·) := by
  unfold step
  split
  · subst c
    split <;> rfl
  · split
    · subst c
      split <;> rfl
    · split
      · subst c
        split
        · rfl
        · split <;> rfl
      · split
        · subst c
          split <;> rfl
        · rfl

/-- Where white space is kept, no character is missing. -/
theorem step_kept (w : Spacing) (c : Char) : ∃ c' w', step false w c = (some c', w') := by
  unfold step
  split
  · exact ⟨_, _, rfl⟩
  · split
    · exact ⟨_, _, rfl⟩
    · split
      · exact ⟨_, _, rfl⟩
      · split
        · exact ⟨_, _, rfl⟩
        · exact ⟨_, _, rfl⟩

end Spacing

namespace Segment

open Spacing (bare)

/-- The segments with and without eating space: the texts differ in white space, and where nothing
else is in a text it may be missing. -/
inductive Eaten : List Segment → List Segment → Prop where
  | nil : Eaten [] []
  | tag {segment : Segment} : segment.isLiteral = false → Eaten kept eaten →
      Eaten (segment :: kept) (segment :: eaten)
  | text : bare s = bare t → t ≠ "" → Eaten kept eaten →
      Eaten (.literal s :: kept) (.literal t :: eaten)
  | gone : bare s = "" → (∀ segment ∈ eaten.head?, segment.isLiteral = false) →
      Eaten kept eaten → Eaten (.literal s :: kept) eaten

/-- What is left of each text where space is eaten, the texts that are missing among them. -/
def remains : List Segment → List Segment → List Segment
  | .literal _ :: kept, .literal t :: eaten => .literal t :: remains kept eaten
  | .literal _ :: kept, eaten => .literal "" :: remains kept eaten
  | segment :: kept, _ :: eaten => segment :: remains kept eaten
  | segment :: kept, [] => segment :: remains kept []
  | [], _ => []

theorem remains_tag {segment : Segment} (h : segment.isLiteral = false)
    (kept eaten : List Segment) :
    remains (segment :: kept) (segment :: eaten) = segment :: remains kept eaten := by
  cases segment with
  | literal t => cases h
  | emit code escape line => rfl
  | statement code line => rfl

theorem remains_gone (h : ∀ segment ∈ eaten.head?, segment.isLiteral = false) (s : String)
    (kept : List Segment) :
    remains (.literal s :: kept) eaten = .literal "" :: remains kept eaten := by
  cases eaten with
  | nil => rfl
  | cons segment eaten =>
    cases segment with
    | literal t => cases h _ rfl
    | emit code escape line => rfl
    | statement code line => rfl

theorem Eaten.flush (h : Eaten kept eaten)
    (hh : ∀ segment ∈ eaten.head?, segment.isLiteral = false)
    (hp : p.filter (!Spacing.isSpace ·) = q.filter (!Spacing.isSpace ·)) (hn : p = [] → q = []) :
    Eaten (Segment.flush p kept) (Segment.flush q eaten) := by
  have hbare : bare (String.ofList p.reverse) = bare (String.ofList q.reverse) := by
    apply Spacing.bare_ofList_congr
    rw [List.filter_reverse, List.filter_reverse, hp]
  unfold Segment.flush
  cases p with
  | nil =>
    rw [hn rfl]
    exact h
  | cons c p =>
    cases q with
    | nil => exact .gone hbare hh h
    | cons d q =>
      refine .text hbare (fun he => ?_) h
      have hl := congrArg String.toList he
      rw [String.toList_ofList, String.toList_empty, List.reverse_eq_nil_iff] at hl
      cases hl

theorem eaten_gather (pieces : List Piece) (w w' : Spacing)
    (hp : p.filter (!Spacing.isSpace ·) = q.filter (!Spacing.isSpace ·)) (hn : p = [] → q = []) :
    Eaten (gather p (Spacing.kept false w pieces)) (gather q (Spacing.kept true w' pieces)) := by
  induction pieces generalizing p q w w' with
  | nil => exact Eaten.nil.flush (fun _ h => absurd h (Option.not_mem_none _)) hp hn
  | cons piece pieces ih =>
    cases piece with
    | tag t =>
      have hrest := ih (p := []) (q := []) w w' rfl fun _ => rfl
      refine (Eaten.tag (isLiteral_segment t) hrest).flush (fun segment hm => ?_) hp hn
      obtain rfl := Option.some.inj hm
      exact isLiteral_segment t
    | char c =>
      obtain ⟨c', w₁, hkept⟩ := Spacing.step_kept w c
      have hfilter (r : List Char) :
          (c' :: r).filter (!Spacing.isSpace ·) = [c].filter (!Spacing.isSpace ·) ++
            r.filter (!Spacing.isSpace ·) := by
        have hc := Spacing.filter_step false w c
        rw [hkept] at hc
        rw [← hc]
        exact List.filter_append [c'] r
      have heaten := Spacing.filter_step true w' c
      rw [Spacing.kept, Spacing.kept, hkept]
      cases hs : Spacing.step true w' c with
      | mk left w₂ =>
        rw [hs] at heaten
        cases left with
        | none =>
          refine ih _ _ ?_ fun h => absurd h (List.cons_ne_nil _ _)
          rw [hfilter, ← heaten]
          exact hp
        | some d =>
          refine ih _ _ ?_ fun h => absurd h (List.cons_ne_nil _ _)
          rw [hfilter, ← heaten, hp]
          exact (List.filter_append [d] q).symm

end Segment

theorem eaten_of_parse {o : Options}
    (hk : Template.parse source { o with eatspace := false } = .ok kept)
    (he : Template.parse source { o with eatspace := true } = .ok eaten) :
    Segment.Eaten kept eaten := by
  obtain ⟨d, pieces, hd, hp, rfl⟩ := exists_pieces_of_parse hk
  have he' := parse_of_ofSource (o := { o with eatspace := true }) hd hp
  obtain rfl := Except.ok.inj (he.symm.trans he')
  exact Segment.eaten_gather pieces _ _ rfl id

end Stencil

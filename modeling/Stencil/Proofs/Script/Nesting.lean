import Stencil.Proofs.Script.Locality

/-!
Code reads the same inside a block. No rule would go on with a closing brace, so whatever is read from
the front of some items is read from there too if such a brace follows them. The main statement is
`DerivesAll.block`: the statements of a template are those of a block with the same items.
-/

namespace Stencil.Script

set_option autoImplicit true

theorem not_declsGoOn_closeBrace : ¬declsGoOn decls u (.mark .closeBrace) := by
  rintro ⟨name, e, -, he⟩
  exact he

theorem Stmt.not_goesOn_closeBrace : ¬Stmt.GoesOn stmt u (.mark .closeBrace) := by
  rintro ⟨-, h⟩
  unfold RunsOn at h
  split at h
  · exact h.elim nofun id
  · exact h.elim nofun not_declsGoOn_closeBrace
  · cases h
  · cases h
  · exact h rfl
  · exact h.elim nofun id
  · exact h

/-- The statements of a template are those of a block with its items, in any context. -/
theorem DerivesAll.block (h : DerivesAll last s program) (c : Context) (line : Nat)
    (rest : List Item) :
    Derives c .block (s ++ .mark .closeBrace line :: rest) program rest := by
  induction h with
  | nil => exact .blockEnd
  | cons ha hs _ ih =>
    obtain ⟨u, rfl, hu⟩ := hs.ends
    rw [List.append_assoc]
    refine .blockMore (Items.after?_congr (Items.found_append hu _ _) ha)
      (hs.before rfl ⟨nofun, nofun⟩ (.right fun _ => .inr ⟨opens_mark (by decide), ?_⟩)) ih
    intro l hl
    cases hl
    exact Stmt.not_goesOn_closeBrace

end Stencil.Script

import Mathlib.Data.List.Infix

/-!
# Nested parentheses

A text whose parentheses fit together: no prefix closes more than it opens, and in the end
everything is closed.
-/

namespace FilterQuery.Text

/-- The parentheses of the text fit together. -/
structure Nested (s : List Char) : Prop where
  prefixes : ∀ before ∈ s.inits, before.count ')' ≤ before.count '('
  total : s.count ')' = s.count '('

theorem nested_nil : Nested [] := by
  refine ⟨?_, rfl⟩
  intro before hbefore
  obtain rfl : before = [] := by simpa using hbefore
  exact Nat.le_refl _

/-- Texts whose parentheses fit together may stand side by side. -/
theorem Nested.append {s t : List Char} (hs : Nested s) (ht : Nested t) : Nested (s ++ t) := by
  constructor
  · intro before hbefore
    obtain ⟨after, hafter⟩ := (List.mem_inits before _).mp hbefore
    -- a prefix ends inside `s`, or it is `s` and a prefix of `t`
    rcases List.append_eq_append_iff.mp hafter with ⟨u, hu, _⟩ | ⟨u, rfl, hu⟩
    · exact hs.prefixes before ((List.mem_inits before s).mpr ⟨u, hu.symm⟩)
    · have hprefix := ht.prefixes u ((List.mem_inits u t).mpr ⟨after, hu.symm⟩)
      have htotal := hs.total
      rw [List.count_append, List.count_append]
      omega
  · rw [List.count_append, List.count_append, hs.total, ht.total]

/-- A pair of parentheses may be put around a text whose parentheses fit together. -/
theorem Nested.group {s : List Char} (hs : Nested s) : Nested ('(' :: s ++ [')']) := by
  constructor
  · intro before hbefore
    obtain ⟨after, hafter⟩ := (List.mem_inits before _).mp hbefore
    rw [List.cons_append] at hafter
    cases before with
    | nil => exact Nat.le_refl _
    | cons c before =>
      obtain ⟨rfl, hrest⟩ := List.cons.inj hafter
      rcases List.append_eq_append_iff.mp hrest with ⟨u, hu, _⟩ | ⟨u, rfl, hu⟩
      · -- the prefix ends inside, so the pair only adds an opening parenthesis to it
        have hprefix := hs.prefixes before ((List.mem_inits before s).mpr ⟨u, hu.symm⟩)
        simp
        omega
      · -- the prefix ends with a part of the closing parenthesis, be it empty
        have hlast : u.count ')' ≤ 1 := by
          have hcount := congrArg (List.count ')') hu
          simp at hcount
          omega
        have htotal := hs.total
        simp
        omega
  · have htotal := hs.total
    simp
    omega

end FilterQuery.Text

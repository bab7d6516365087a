/-!
# Comparison without regard to letter case

Keywords are spelled in any mixture of upper and lower case. Only the letters `A`–`Z` and `a`–`z`
have two cases here; every other character stands for itself.
-/

namespace FilterQuery.Text

/-- The text with the letters `A`–`Z` replaced by their lower case. -/
def lower (s : List Char) : List Char := s.map Char.toLower

/-- The two texts agree up to the case of the letters `A`–`Z`. -/
def caselessEq (s t : List Char) : Bool := lower s == lower t

/-- Cuts a text after the given token, in whatever letter case the text spells it. -/
def splitAfter? (token s : List Char) : Option (List Char × List Char) :=
  let start := s.take token.length
  if caselessEq start token then some (start, s.drop token.length) else none

@[simp] theorem caselessEq_iff {s t : List Char} : caselessEq s t = true ↔ lower s = lower t := by
  simp [caselessEq]

/-- What is cut off spells the token, and nothing is lost. -/
theorem splitAfter?_eq_some {token s start rest : List Char}
    (h : splitAfter? token s = some (start, rest)) :
    s = start ++ rest ∧ lower start = lower token := by
  simp only [splitAfter?] at h
  split at h
  · simp only [Option.some.injEq, Prod.mk.injEq] at h
    obtain ⟨rfl, rfl⟩ := h
    exact ⟨(List.take_append_drop _ _).symm, by simp_all⟩
  · contradiction

/-- A text that starts with a spelling of the token is cut right behind it. -/
theorem splitAfter?_append {token start : List Char} (rest : List Char)
    (h : lower start = lower token) : splitAfter? token (start ++ rest) = some (start, rest) := by
  have length_eq : start.length = token.length := by
    simpa [lower] using congrArg List.length h
  simp [splitAfter?, ← length_eq, h]

end FilterQuery.Text

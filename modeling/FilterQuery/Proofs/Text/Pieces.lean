import FilterQuery.Proofs.Text.Runs
import FilterQuery.Text.Blank
import FilterQuery.Value
import Mathlib.Data.List.DropRight

/-!
# Trimmed pieces

A list is written with a comma and a blank between its elements and read by cutting at the commas
and trimming. Elements that have no comma and are trimmed already come back as they are
(`map_trim_splitOn_commaSeparated`), and the pieces that a reader gets are of this kind
(`trim_trim`, `notMem_of_mem_splitOn`).
-/

namespace FilterQuery

namespace Text

/-! ## Blanks -/

/-- No class that the four blanks are not in has spacing in it. -/
theorem eq_false_of_isSpacing {p : Char → Bool} (hp : [' ', '\t', '\r', '\n'].any p = false)
    {c : Char} (hc : isSpacing c = true) : p c = false := by
  simp only [isSpacing, Bool.or_eq_true, beq_iff_eq] at hc
  refine Bool.eq_false_iff.mpr (List.any_eq_false.mp hp c ?_)
  rcases hc with ((rfl | rfl) | rfl) | rfl <;> simp

/-- Blanks and digits have nothing in common. -/
theorem not_isBlank_of_isDigit {c : Char} (h : c.isDigit = true) : isBlank c = false := by
  have hrange := Char.isDigit_iff_toNat.mp h
  have hlow : 48 ≤ c.toNat := hrange.1
  have hhigh : c.toNat ≤ 57 := hrange.2
  refine Bool.eq_false_iff.mpr fun hblank => ?_
  simp only [isBlank, Bool.or_eq_true, Bool.and_eq_true, decide_eq_true_eq, beq_iff_eq] at hblank
  omega

/-! ## Trimming -/

theorem trim_cons_of_isBlank {c : Char} (hc : isBlank c = true) (s : List Char) :
    trim (c :: s) = trim s := by
  unfold trim trimStart
  rw [List.dropWhile_cons_of_pos hc]

/-- From a text that starts with no blank nothing is trimmed but at its end. -/
theorem trim_cons_of_not_isBlank {c : Char} (hc : isBlank c = false) (s : List Char) :
    trim (c :: s) = trimEnd (c :: s) := by
  unfold trim trimStart
  rw [List.dropWhile_cons_of_neg (by simp [hc])]

/-- Nothing but blanks is trimmed from the end. -/
theorem exists_trimEnd_append (s : List Char) :
    ∃ blanks, (∀ c ∈ blanks, isBlank c = true) ∧ s = trimEnd s ++ blanks :=
  ⟨s.rtakeWhile isBlank, fun _ => List.mem_rtakeWhile_imp, List.rdropWhile_append_rtakeWhile.symm⟩

/-- What is left is a part of the text, in one piece. -/
theorem trim_isInfix (s : List Char) : trim s <:+: s :=
  (List.rdropWhile_prefix isBlank (trimStart s)).isInfix.trans
    (List.dropWhile_suffix isBlank).isInfix

/-- A text with no blank at either end is trimmed. -/
theorem trim_of_stopsAt {s : List Char} (hstart : StopsAt isBlank s)
    (hend : StopsAt isBlank s.reverse) : trim s = s := by
  unfold trim trimStart trimEnd
  rw [dropWhile_of_stopsAt hstart, dropWhile_of_stopsAt hend, List.reverse_reverse]

/-- Blanks around a text are trimmed from it. -/
theorem trim_padded {lead trail : List Char} (hlead : ∀ c ∈ lead, isBlank c = true)
    (htrail : ∀ c ∈ trail, isBlank c = true) (s : List Char) :
    trim (lead ++ s ++ trail) = trim s := by
  have hend : ∀ t : List Char, trimEnd (t ++ trail) = trimEnd t := by
    intro t
    unfold trimEnd
    rw [List.reverse_append, List.dropWhile_append_of_pos (by simpa using htrail)]
  unfold trim trimStart
  rw [List.append_assoc, List.dropWhile_append_of_pos hlead, List.dropWhile_append]
  -- of a text that is all blank nothing is left, and so nothing to keep the trailing blanks apart
  -- from
  split
  · next hs =>
    have hdrop : trail.dropWhile isBlank = [] := List.dropWhile_eq_nil_iff.mpr htrail
    rw [List.isEmpty_iff.mp hs, hdrop]
  · exact hend _

/-- A text without any blank is trimmed. -/
theorem trim_of_not_isBlank {s : List Char} (h : ∀ c ∈ s, isBlank c = false) : trim s = s := by
  refine trim_of_stopsAt ?_ ?_
  · intro c hc
    exact h c (List.mem_of_mem_head? hc)
  · intro c hc
    exact h c (List.mem_reverse.mp (List.mem_of_mem_head? hc))

/-- A trimmed text has no blank at either end. -/
theorem stopsAt_trim (s : List Char) :
    StopsAt isBlank (trim s) ∧ StopsAt isBlank (trim s).reverse := by
  refine ⟨?_, ?_⟩
  · exact (stopsAt_dropWhile isBlank s).of_isPrefix (List.rdropWhile_prefix isBlank (trimStart s))
  · unfold trim trimEnd
    rw [List.reverse_reverse]
    exact stopsAt_dropWhile isBlank _

/-- Trimming again changes nothing. -/
theorem trim_trim (s : List Char) : trim (trim s) = trim s :=
  trim_of_stopsAt (stopsAt_trim s).1 (stopsAt_trim s).2

/-- A text is trimmed iff its first and last characters are no blanks. -/
theorem trim_eq_self_iff {s : List Char} :
    trim s = s ↔ (∀ c ∈ s.head?, isBlank c = false) ∧ ∀ c ∈ s.getLast?, isBlank c = false := by
  rw [← List.head?_reverse]
  constructor
  · intro h
    have hstops := stopsAt_trim s
    rw [h] at hstops
    exact hstops
  · rintro ⟨hstart, hend⟩
    exact trim_of_stopsAt hstart hend

/-! ## Pieces -/

/-- A character of joined texts comes from one of them or from a separator. -/
theorem mem_intercalate {c : Char} {separator : List Char} {texts : List (List Char)}
    (h : c ∈ separator.intercalate texts) : c ∈ separator ∨ ∃ t ∈ texts, c ∈ t := by
  induction texts with
  | nil => cases h
  | cons t texts ih =>
    -- a separator stands in front of every text but the first
    cases texts with
    | nil =>
      rw [List.intercalate_singleton] at h
      exact .inr ⟨t, by simp, h⟩
    | cons u texts =>
      rw [List.intercalate_cons_cons, List.mem_append, List.mem_append] at h
      rcases h with (h | h) | h
      · exact .inr ⟨t, by simp, h⟩
      · exact .inl h
      · rcases ih h with h | ⟨v, hv, h⟩
        · exact .inl h
        · exact .inr ⟨v, List.mem_cons_of_mem t hv, h⟩

/-- Joined texts keep all their characters. -/
theorem mem_intercalate_of_mem {c : Char} (separator : List Char) {t : List Char}
    {texts : List (List Char)} (ht : t ∈ texts) (hc : c ∈ t) :
    c ∈ separator.intercalate texts := by
  induction texts with
  | nil => cases ht
  | cons u texts ih =>
    cases texts with
    | nil =>
      obtain rfl := List.mem_singleton.mp ht
      rw [List.intercalate_singleton]
      exact hc
    | cons v texts =>
      rw [List.intercalate_cons_cons, List.mem_append, List.mem_append]
      rcases List.mem_cons.mp ht with rfl | ht
      · exact .inl (.inl hc)
      · exact .inr (ih ht)

/-- The last text stands at the end, behind the separator. -/
theorem intercalate_concat {separator : List Char} {texts : List (List Char)} (hne : texts ≠ [])
    (t : List Char) :
    separator.intercalate (texts ++ [t]) = separator.intercalate texts ++ separator ++ t := by
  induction texts with
  | nil => exact absurd rfl hne
  | cons u texts ih =>
    cases texts with
    | nil => simp [List.intercalate_cons_cons, List.intercalate_singleton]
    | cons v texts =>
      rw [List.cons_append, List.intercalate_cons_of_ne_nil (by simp),
        ih (List.cons_ne_nil v texts), List.intercalate_cons_cons]
      simp

/-- What starts the first text starts the joined texts. -/
theorem head?_intercalate {t : List Char} (hne : t ≠ []) (separator : List Char)
    (texts : List (List Char)) : (separator.intercalate (t :: texts)).head? = t.head? := by
  obtain ⟨c, t, rfl⟩ := List.exists_cons_of_ne_nil hne
  rw [List.intercalate_cons_cons_left, List.head?_cons, List.head?_cons]

/-- What ends the last text ends the joined texts. -/
theorem getLast?_intercalate {t : List Char} (hne : t ≠ []) (separator : List Char)
    (texts : List (List Char)) :
    (separator.intercalate (texts ++ [t])).getLast? = t.getLast? := by
  by_cases htexts : texts = []
  · rw [htexts, List.nil_append, List.intercalate_singleton]
  · rw [intercalate_concat htexts, List.getLast?_append_of_ne_nil _ hne]

/-- Trimmed texts stay trimmed when they are joined, whatever is put between them. -/
theorem trim_intercalate {texts : List (List Char)} (htexts : ∀ t ∈ texts, t ≠ [] ∧ trim t = t)
    (separator : List Char) :
    trim (separator.intercalate texts) = separator.intercalate texts := by
  refine trim_eq_self_iff.mpr ⟨?_, ?_⟩
  · cases texts with
    | nil => simp
    | cons t texts =>
      obtain ⟨hne, htrim⟩ := htexts t List.mem_cons_self
      rw [head?_intercalate hne]
      exact (trim_eq_self_iff.mp htrim).1
  · -- only the end of the last text matters now
    rcases List.eq_nil_or_concat' texts with rfl | ⟨front, t, rfl⟩
    · simp
    · obtain ⟨hne, htrim⟩ := htexts t (by simp)
      rw [getLast?_intercalate hne]
      exact (trim_eq_self_iff.mp htrim).2

/-- A piece is a part of the text. -/
theorem mem_of_mem_splitOn {c separator : Char} {s t : List Char} (ht : t ∈ s.splitOn separator)
    (hc : c ∈ t) : c ∈ s := by
  have hmem := mem_intercalate_of_mem [separator] ht hc
  rw [List.intercalate_splitOn] at hmem
  exact hmem

/-- No piece has the separator in it. Induction on the text: a character either starts a piece of
its own or goes in front of the first one. -/
theorem notMem_of_mem_splitOn {separator : Char} {s t : List Char}
    (ht : t ∈ s.splitOn separator) : separator ∉ t := by
  induction s generalizing t with
  | nil =>
    obtain rfl := List.mem_singleton.mp ht
    exact List.not_mem_nil
  | cons d s ih =>
    rw [List.splitOn_cons_eq_if_modifyHead] at ht
    split at ht
    · rcases List.mem_cons.mp ht with rfl | ht
      · exact List.not_mem_nil
      · exact ih ht
    · next hd =>
      cases hpieces : s.splitOn separator with
      | nil => exact absurd hpieces (List.splitOn_ne_nil separator s)
      | cons u pieces =>
        rw [hpieces, List.modifyHead_cons] at ht
        rcases List.mem_cons.mp ht with rfl | ht
        · have hu := ih (hpieces ▸ List.mem_cons_self)
          have hne : separator ≠ d := fun heq => hd (by simp [heq])
          simp [hne, hu]
        · exact ih (hpieces ▸ List.mem_cons_of_mem u ht)

/-- A text has one piece more than it has separators. -/
theorem length_splitOn (c : Char) (s : List Char) : (s.splitOn c).length = s.count c + 1 := by
  induction s with
  | nil => rfl
  | cons d s ih =>
    rw [List.splitOn_cons_eq_if_modifyHead]
    by_cases h : d = c
    · simp [h, ih]
    · simp [h, ih]

/-- A trimmed piece has neither the separator nor a blank at its ends. -/
theorem trimmed_of_mem_map_splitOn {separator : Char} {s t : List Char}
    (ht : t ∈ (s.splitOn separator).map trim) : separator ∉ t ∧ trim t = t := by
  obtain ⟨u, hu, rfl⟩ := List.mem_map.mp ht
  exact ⟨fun hmem => notMem_of_mem_splitOn hu ((trim_isInfix u).subset hmem), trim_trim u⟩

end Text

namespace Value

open Text

/-- A blank behind every comma is a blank in front of every element but the first. -/
theorem commaSeparated_cons (t : List Char) (texts : List (List Char)) :
    commaSeparated (t :: texts) = [','].intercalate (t :: texts.map fun u => ' ' :: u) := by
  unfold commaSeparated
  induction texts generalizing t with
  | nil => rfl
  | cons u texts ih =>
    rw [List.intercalate_cons_cons, ih, List.map_cons, List.intercalate_cons_cons]
    cases texts with
    | nil => simp [List.intercalate_singleton]
    | cons v texts => simp [List.intercalate_cons_cons]

/-- **What was written with commas is read back**, element by element. -/
theorem map_trim_splitOn_commaSeparated {texts : List (List Char)} (hne : texts ≠ [])
    (hcomma : ∀ t ∈ texts, ',' ∉ t) :
    ((commaSeparated texts).splitOn ',').map trim = texts.map trim := by
  cases texts with
  | nil => exact absurd rfl hne
  | cons t texts =>
    -- the blank behind a comma goes to the element that follows it
    have hpieces : ∀ u ∈ t :: texts.map fun u => ' ' :: u, ',' ∉ u := by
      intro u hu
      rcases List.mem_cons.mp hu with rfl | hu
      · exact hcomma u (by simp)
      · obtain ⟨v, hv, rfl⟩ := List.mem_map.mp hu
        simpa using hcomma v (List.mem_cons_of_mem t hv)
    rw [commaSeparated_cons, List.splitOn_intercalate ',' hpieces (List.cons_ne_nil _ _),
      List.map_cons, List.map_cons, List.map_map]
    refine congrArg (trim t :: ·) (List.map_congr_left fun u _ => ?_)
    exact trim_cons_of_isBlank rfl u

end Value

end FilterQuery

import FilterQuery.Query.Where

/-!
# Inert text

The clause is sent to a database, so what matters is what can get into it. `Text.Inert` is the text
that consists of plain characters (letters, underscores, spaces, parentheses, commas and the signs
of comparisons) and of placeholders. Nothing in such a text can quote, end a statement or start a
comment (`Inert.notMem_of_not`), and a digit belongs to a placeholder (`Inert.dollar_before_digit`).

Of what a query asks for, only the names of the fields are copied into the clause. The clause is
inert as soon as they are plain (`Predicate.inert_clause`).
-/

namespace FilterQuery

namespace Text

/-- The characters that SQL text is written with, placeholders aside. -/
def isPlain (c : Char) : Bool := c.isAlpha || "_ (),=<>".toList.contains c

/-- Text that consists of plain characters and placeholders. -/
inductive Inert : List Char → Prop where
  | nil : Inert []
  | plain (c : Char) (rest : List Char) (hc : isPlain c = true) (hrest : Inert rest) :
      Inert (c :: rest)
  | placeholder (number : Nat) (rest : List Char) (hrest : Inert rest) :
      Inert (placeholder number ++ rest)

/-! ## Composition -/

/-- Inert texts may stand side by side. Induction on the pieces of the first one. -/
theorem Inert.append {s t : List Char} (hs : Inert s) (ht : Inert t) : Inert (s ++ t) := by
  induction hs with
  | nil => exact ht
  | plain c rest hc _ ih => exact .plain c (rest ++ t) hc ih
  | placeholder number rest _ ih =>
    rw [List.append_assoc]
    exact .placeholder number (rest ++ t) ih

/-- Plain characters make an inert text whatever their order. -/
theorem inert_of_all {s : List Char} (h : s.all isPlain = true) : Inert s := by
  induction s with
  | nil => exact .nil
  | cons c s ih =>
    rw [List.all_cons, Bool.and_eq_true] at h
    exact .plain c s h.1 (ih h.2)

theorem inert_placeholder (number : Nat) : Inert (placeholder number) := by
  have h := Inert.placeholder number [] .nil
  rw [List.append_nil] at h
  exact h

/-- Inert texts are joined by an inert separator to an inert text. -/
theorem inert_intercalate {separator : List Char} {parts : List (List Char)}
    (hseparator : Inert separator) (hparts : ∀ t ∈ parts, Inert t) :
    Inert (separator.intercalate parts) := by
  induction parts with
  | nil => exact .nil
  | cons t parts ih =>
    have ht := hparts t (by simp)
    cases parts with
    | nil =>
      rw [List.intercalate_singleton]
      exact ht
    | cons u parts =>
      rw [List.intercalate_cons_cons, List.append_assoc]
      exact ht.append (hseparator.append (ih fun v hv => hparts v (by simp [hv])))

/-! ## What inert text contains -/

/-- The letters come behind the digits. -/
theorem le_toNat_of_isAlpha {c : Char} (h : c.isAlpha = true) : 65 ≤ c.toNat := by
  have hcase : c.isUpper = true ∨ c.isLower = true := (Bool.or_eq_true _ _).mp h
  rcases hcase with hupper | hlower
  · have hbounds := of_decide_eq_true hupper
    exact hbounds.1
  · have hbounds : (decide (97 ≤ c.toNat) && decide (c.toNat ≤ 122)) = true := hlower
    rw [Bool.and_eq_true, decide_eq_true_eq] at hbounds
    omega

/-- Plain characters and digits have nothing in common, so that every digit is told to be part of a
placeholder. -/
theorem isDigit_of_isPlain {c : Char} (h : isPlain c = true) : c.isDigit = false := by
  refine Bool.eq_false_iff.mpr fun hdigit => ?_
  unfold isPlain at h
  rw [Bool.or_eq_true] at h
  -- letters come behind the digits, and the other plain characters are few enough to be looked at
  rcases h with h | h
  · have hletter := le_toNat_of_isAlpha h
    have hdigit : '0'.toNat ≤ c.toNat ∧ c.toNat ≤ 57 := Char.isDigit_iff_toNat.mp hdigit
    omega
  · have hmem : c ∈ "_ (),=<>".toList := by simpa using h
    have hnone : "_ (),=<>".toList.any Char.isDigit = false := by decide
    exact List.any_eq_false.mp hnone c hmem hdigit

/-- There are three kinds of characters in an inert text. -/
theorem Inert.mem {s : List Char} (h : Inert s) :
    ∀ c ∈ s, isPlain c = true ∨ c = '$' ∨ c.isDigit = true := by
  induction h with
  | nil => simp
  | plain c rest hc _ ih =>
    intro d hd
    rcases List.mem_cons.mp hd with rfl | hd
    · exact .inl hc
    · exact ih d hd
  | placeholder number rest _ ih =>
    intro d hd
    rcases List.mem_append.mp hd with hd | hd
    · rcases List.mem_cons.mp hd with rfl | hd
      · exact .inr (.inl rfl)
      · exact .inr (.inr (List.all_eq_true.mp (all_isDigit_decimal number) d hd))
    · exact ih d hd

/-- A digit stands behind a dollar sign, with nothing but digits between them. -/
theorem Inert.dollar_before_digit {s before after : List Char} {d : Char} (h : Inert s)
    (hs : s = before ++ d :: after) (hd : d.isDigit = true) :
    ∃ head digits, before = head ++ '$' :: digits ∧ ∀ c ∈ digits, c.isDigit = true := by
  -- Induction on the pieces of the text. The digit stands in the first piece or behind it, and a
  -- piece that is one plain character cannot hold it.
  induction h generalizing before with
  | nil => simp at hs
  | plain c rest hc _ ih =>
    cases before with
    | nil =>
      obtain ⟨rfl, -⟩ := List.cons.inj hs
      rw [isDigit_of_isPlain hc] at hd
      cases hd
    | cons b before =>
      obtain ⟨rfl, hrest⟩ := List.cons.inj hs
      obtain ⟨head, digits, rfl, hdigits⟩ := ih hrest
      exact ⟨c :: head, digits, rfl, hdigits⟩
  | placeholder number rest _ ih =>
    cases before with
    | nil =>
      obtain ⟨rfl, -⟩ := List.cons.inj hs
      -- the placeholder starts with its dollar sign
      exact absurd hd (by decide)
    | cons b before =>
      obtain ⟨rfl, hrest⟩ := List.cons.inj hs
      rcases List.append_eq_append_iff.mp hrest with ⟨middle, rfl, hmiddle⟩ | ⟨middle, hmiddle, -⟩
      · -- the digit stands behind this placeholder
        obtain ⟨head, digits, rfl, hdigits⟩ := ih hmiddle
        refine ⟨FilterQuery.placeholder number ++ head, digits, ?_, hdigits⟩
        simp [FilterQuery.placeholder]
      · -- the digit belongs to this placeholder
        refine ⟨[], before, rfl, ?_⟩
        intro c hc
        refine List.all_eq_true.mp (all_isDigit_decimal number) c ?_
        rw [hmiddle]
        simp [hc]

/-- A character that is neither plain nor part of a placeholder is not in the text at all. -/
theorem Inert.notMem_of_not {s : List Char} (h : Inert s) {c : Char}
    (hc : (isPlain c || c == '$' || c.isDigit) = false) : c ∉ s := by
  intro hmem
  rw [Bool.or_eq_false_iff, Bool.or_eq_false_iff, beq_eq_false_iff_ne] at hc
  rcases h.mem c hmem with hplain | hdollar | hdigit
  · rw [hc.1.1] at hplain
    cases hplain
  · exact hc.1.2 hdollar
  · rw [hc.2] at hdigit
    cases hdigit

end Text

open Text

/-! ## The clause -/

/-- The keywords are letters, spaces and signs of comparisons. -/
theorem Operator.all_isPlain_keyword (op : Operator) : op.keyword.toList.all isPlain = true := by
  cases op <;> decide

theorem Connective.all_isPlain_word (key : Connective) : key.word.toList.all isPlain = true := by
  cases key <;> decide

/-- An operand shows placeholders only, never a value. -/
theorem Operand.inert_text (o : Operand) (first : Nat) : Inert (o.text first) := by
  cases o with
  | single value => exact inert_placeholder first
  | alternatives values =>
    have hparts : ∀ t ∈ (List.range' first values.length).map placeholder, Inert t := by
      intro t ht
      obtain ⟨number, -, rfl⟩ := List.mem_map.mp ht
      exact inert_placeholder number
    -- around and between the placeholders there are parentheses and commas
    have hcomma : Inert [',', ' '] := inert_of_all (by decide)
    have hclose : Inert [')'] := inert_of_all (by decide)
    exact .plain '(' _ (by decide) ((inert_intercalate hcomma hparts).append hclose)

namespace Predicate

/-- Of a predicate only the field could bring in something that is not plain. -/
theorem inert_text {p : Predicate} (hfield : p.field.toList.all isPlain = true)
    (first : Nat) : Inert (p.text first) := by
  -- carried parentheses are parentheses, however many
  have hparen : ∀ (paren : Char) (n : Nat), isPlain paren = true →
      Inert (List.replicate n paren) := by
    intro paren n hplain
    refine inert_of_all (List.all_eq_true.mpr fun c hc => ?_)
    rw [List.eq_of_mem_replicate hc]
    exact hplain
  have hkeyword : Inert (' ' :: p.operator.keyword.toList) :=
    .plain ' ' _ (by decide) (inert_of_all p.operator.all_isPlain_keyword)
  have hoperand : Inert (' ' :: p.operand.text first) :=
    .plain ' ' _ (by decide) (p.operand.inert_text first)
  unfold text
  have hopens := hparen '(' p.opens.toNat (by decide)
  have hcloses := hparen ')' p.closes.toNat (by decide)
  exact (((hopens.append (inert_of_all hfield)).append hkeyword).append hoperand).append hcloses

/-- Induction on the predicates. Their numbers go on from one to the next, but inert text does not
ask for numbers. -/
theorem inert_joined {ps : List Predicate}
    (hfields : ∀ p ∈ ps, p.field.toList.all isPlain = true) (first : Nat) :
    Inert (joined first ps) := by
  induction ps generalizing first with
  | nil => exact .nil
  | cons p ps ih =>
    have hp := inert_text (hfields p (by simp)) first
    cases ps with
    | nil => exact hp
    | cons q ps =>
      have hrest := ih (fun r hr => hfields r (by simp [hr])) (first + p.arguments.length)
      have hword : Inert (' ' :: p.connective.word.toList) :=
        .plain ' ' _ (by decide) (inert_of_all p.connective.all_isPlain_word)
      exact (hp.append hword).append (.plain ' ' _ (by decide) hrest)

/-- **Nothing but plain characters and placeholders** is in the clause, if the fields are plain. -/
theorem inert_clause {ps : List Predicate}
    (hfields : ∀ p ∈ ps, p.field.toList.all isPlain = true) : Inert (clause ps) := by
  unfold clause
  split
  · exact .nil
  · exact (inert_of_all (by decide)).append (inert_joined hfields 1)

end Predicate

end FilterQuery

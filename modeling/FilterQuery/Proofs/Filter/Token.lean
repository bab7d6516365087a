import FilterQuery.Filter.Line
import FilterQuery.Proofs.Text.Pieces
import Mathlib.Tactic.ByContra

/-!
# Tokens of a filter line

The tokens of the operators and the words of the connectives may be spelled in any letter case. Two
facts make reading them unambiguous:

* the operators are tried in an order in which no token is a prefix of a later one
  (`operators_pairwise`), so the first token that fits is the longest one that fits
  (`splitOperator?_iff_longest_token`);
* no spelling has a blank or a bracket in it, so in front of a value the operator is known from the
  text alone (`operatorBeforeValue?_eq_some_iff`).
-/

namespace FilterQuery

namespace Text

/-- A word is as long in one letter case as in another. -/
theorem length_of_lower_eq {s t : List Char} (h : lower s = lower t) : s.length = t.length := by
  have hlength := congrArg List.length h
  unfold lower at hlength
  rw [List.length_map, List.length_map] at hlength
  exact hlength

/-- A blank has one case only. -/
theorem toLower_of_isBlank {c : Char} (h : isBlank c = true) : c.toLower = c := by
  unfold Char.toLower
  split
  · next hupper =>
    obtain ⟨hlow, hhigh⟩ := hupper
    have hlow : 65 ≤ c.toNat := hlow
    have hhigh : c.toNat ≤ 90 := hhigh
    simp only [isBlank, Bool.or_eq_true, Bool.and_eq_true, decide_eq_true_eq, beq_iff_eq] at h
    omega
  · rfl

/-- A character with one case only is in a spelling of a word only if it is in the word. -/
theorem notMem_of_lower_eq {c : Char} {s word : List Char} (hcase : c.toLower = c)
    (hword : c ∉ lower word) (h : lower s = lower word) : c ∉ s := by
  intro hc
  have hmem : c.toLower ∈ lower s := List.mem_map_of_mem hc
  rw [hcase, h] at hmem
  exact hword hmem

/-- No letter case of a word without blanks has a blank in it. -/
theorem not_isBlank_of_lower_eq {s word : List Char} (hword : (lower word).any isBlank = false)
    (h : lower s = lower word) : ∀ c ∈ s, isBlank c = false := by
  intro c hc
  refine Bool.eq_false_iff.mpr fun hblank => ?_
  have hmem : c ∈ lower word := by
    -- a blank has one case only, so it would be in the word
    by_contra hnot
    exact notMem_of_lower_eq (toLower_of_isBlank hblank) hnot h hc
  exact List.any_eq_false.mp hword c hmem hblank

end Text

open Text

/-- The text spells the token of the operator. -/
def Operator.SpelledBy (op : Operator) (s : List Char) : Prop := lower s = lower op.token.toList

/-- The text spells the word of the connective. -/
def Connective.SpelledBy (key : Connective) (s : List Char) : Prop :=
  lower s = lower key.word.toList

namespace Operator

variable {op : Operator} {s : List Char}

/-- No operator is spelled with blanks. -/
theorem SpelledBy.not_isBlank (h : op.SpelledBy s) : ∀ c ∈ s, isBlank c = false :=
  not_isBlank_of_lower_eq (by cases op <;> decide) h

/-- So an operator is read up to the spacing behind it at most. -/
theorem SpelledBy.not_isSpacing (h : op.SpelledBy s) : ∀ c ∈ s, isSpacing c = false := by
  intro c hc
  refine Bool.eq_false_iff.mpr fun hspacing => ?_
  have hblank := isBlank_of_isSpacing hspacing
  rw [h.not_isBlank c hc] at hblank
  cases hblank

/-- So an operator is read up to the bracket behind it at most. -/
theorem SpelledBy.not_bracket (h : op.SpelledBy s) : '[' ∉ s :=
  notMem_of_lower_eq rfl (by cases op <;> decide) h

/-- No operator is spelled with nothing. -/
theorem SpelledBy.ne_nil (h : op.SpelledBy s) : s ≠ [] := by
  rintro rfl
  have hlength := length_of_lower_eq h
  cases op <;> cases hlength

/-- The spelling of a token names its operator. -/
theorem SpelledBy.ofText_eq (h : op.SpelledBy s) : ofText s = .ok op := by
  have htrim := trim_of_not_isBlank h.not_isBlank
  -- the table is searched without regard to case, so it has the same answer for the spelling as for
  -- the token
  have htoken : ofText? s = ofText? op.token.toList := by
    unfold ofText?
    have htokenTrim : trim op.token.toList = op.token.toList := by cases op <;> decide
    rw [htrim, htokenTrim]
    unfold caselessEq
    rw [h]
  have hread := ofText_token op
  unfold ofText at hread ⊢
  rw [htoken]
  split at hread
  · exact hread
  · cases hread

/-- A text spells one operator at most. -/
theorem SpelledBy.unique {op' : Operator} (h : op.SpelledBy s) (h' : op'.SpelledBy s) : op = op' :=
  Except.ok.inj (h.ofText_eq.symm.trans h'.ofText_eq)

end Operator

namespace Connective

variable {key : Connective} {s : List Char}

/-- No connective is spelled with blanks. -/
theorem SpelledBy.not_isBlank (h : key.SpelledBy s) : ∀ c ∈ s, isBlank c = false :=
  not_isBlank_of_lower_eq (by cases key <;> decide) h

/-- So a connective is told from the parenthesis that may stand in front of it. -/
theorem SpelledBy.not_paren (h : key.SpelledBy s) : ')' ∉ s :=
  notMem_of_lower_eq rfl (by cases key <;> decide) h

/-- No connective is spelled with nothing. -/
theorem SpelledBy.ne_nil (h : key.SpelledBy s) : s ≠ [] := by
  rintro rfl
  have hlength := length_of_lower_eq h
  cases key <;> cases hlength

/-- The spelling of a word names its connective. -/
theorem SpelledBy.ofText_eq (h : key.SpelledBy s) : ofText s = .ok key := by
  unfold SpelledBy at h
  unfold ofText
  cases key with
  | and => rw [if_pos (caselessEq_iff.mpr h)]
  | or =>
    have hand : ¬ caselessEq s and.word.toList = true := by
      rw [caselessEq_iff, h]
      decide
    rw [if_neg hand, if_pos (caselessEq_iff.mpr h)]

end Connective

namespace Line

/-! ## The longest token -/

/-- Every operator is tried. -/
theorem mem_operators (op : Operator) : op ∈ operators := by
  cases op <;> decide

/-- No operator is tried before one whose token goes on. -/
theorem operators_pairwise :
    operators.Pairwise fun a b => ¬ lower a.token.toList <+: lower b.token.toList := by
  decide

/-- What is cut off spells an operator. -/
theorem splitOperator?_eq_some {s token rest : List Char}
    (h : splitOperator? s = some (token, rest)) :
    s = token ++ rest ∧ ∃ op : Operator, op.SpelledBy token := by
  obtain ⟨_, op, _, _, hcut, _⟩ := List.findSome?_eq_some_iff.mp h
  obtain ⟨hs, htoken⟩ := splitAfter?_eq_some hcut
  exact ⟨hs, op, htoken⟩

/-- **Any token at the front is read, or a longer one.** -/
theorem splitOperator?_longest {token : List Char} {op : Operator} (h : op.SpelledBy token)
    (rest : List Char) :
    ∃ token' rest', splitOperator? (token ++ rest) = some (token', rest') ∧
      token.length ≤ token'.length := by
  cases hread : splitOperator? (token ++ rest) with
  | none =>
    have hnone := List.findSome?_eq_none_iff.mp hread op (mem_operators op)
    rw [splitAfter?_append rest h] at hnone
    cases hnone
  | some cut =>
    obtain ⟨token', rest'⟩ := cut
    refine ⟨token', rest', rfl, ?_⟩
    -- `first` is the operator whose token is read; `op` is tried before it, or is it, or is tried
    -- later
    obtain ⟨before, first, after, hsplit, hcut, hbefore⟩ := List.findSome?_eq_some_iff.mp hread
    obtain ⟨happend, hfirst⟩ := splitAfter?_eq_some hcut
    have hmem := mem_operators op
    rw [hsplit, List.mem_append, List.mem_cons] at hmem
    rcases hmem with hmem | rfl | hmem
    · -- an operator tried before the first one that fits does not fit
      have hnone := hbefore op hmem
      rw [splitAfter?_append rest h] at hnone
      cases hnone
    · exact Nat.le_of_eq (length_of_lower_eq (h.trans hfirst.symm))
    · -- an operator tried later has no token that goes on behind the first one
      have hpairwise := operators_pairwise
      rw [hsplit, List.pairwise_append, List.pairwise_cons] at hpairwise
      have hnot := hpairwise.2.1.1 op hmem
      refine Nat.le_of_not_lt fun hlt => hnot ?_
      have hprefix : token' <+: token :=
        List.prefix_of_prefix_length_le ⟨rest', happend.symm⟩ ⟨rest, rfl⟩ (by omega)
      rw [← hfirst, ← h]
      exact hprefix.map Char.toLower

/-- **Operators are recognised by the longest token.** A text is cut behind an operator iff some
token stands at its front, and then behind the longest one that does. The table of spellings, which
has other entries besides the tokens and is searched from its start, takes what is cut off for the
one operator whose token it spells. -/
theorem splitOperator?_iff_longest_token (s : List Char) :
    ((∃ token rest, splitOperator? s = some (token, rest)) ↔
      ∃ (op : Operator) (token : List Char), op.SpelledBy token ∧ token <+: s) ∧
    ∀ token rest, splitOperator? s = some (token, rest) ↔
      s = token ++ rest ∧
      (∀ (op : Operator) (token' : List Char), op.SpelledBy token' → token' <+: s →
        token'.length ≤ token.length) ∧
      ∃ op : Operator, Operator.ofText token = .ok op ∧
        ∀ op' : Operator, op'.SpelledBy token ↔ op' = op := by
  have hlongest : ∀ {token rest}, splitOperator? s = some (token, rest) →
      ∀ (op : Operator) (token' : List Char), op.SpelledBy token' → token' <+: s →
        token'.length ≤ token.length := by
    rintro token rest hread op token' hop ⟨rest', rfl⟩
    obtain ⟨cut, behind, hcut, hle⟩ := splitOperator?_longest hop rest'
    rw [hread] at hcut
    obtain ⟨rfl, -⟩ := Prod.mk.inj (Option.some.inj hcut)
    exact hle
  refine ⟨⟨?_, ?_⟩, fun token rest => ⟨fun hread => ?_, ?_⟩⟩
  · rintro ⟨token, rest, hread⟩
    obtain ⟨rfl, op, hop⟩ := splitOperator?_eq_some hread
    exact ⟨op, token, hop, rest, rfl⟩
  · rintro ⟨op, token, hop, rest, rfl⟩
    obtain ⟨cut, behind, hcut, -⟩ := splitOperator?_longest hop rest
    exact ⟨cut, behind, hcut⟩
  · obtain ⟨hs, op, hop⟩ := splitOperator?_eq_some hread
    exact ⟨hs, hlongest hread, op, hop.ofText_eq, fun op' => ⟨fun h => h.unique hop, (· ▸ hop)⟩⟩
  · rintro ⟨rfl, hle, op, -, hop⟩
    -- of two tokens at the front the shorter one is a prefix of the other
    obtain ⟨cut, behind, hcut, hlength⟩ := splitOperator?_longest ((hop op).mpr rfl) rest
    obtain ⟨happend, op', hop'⟩ := splitOperator?_eq_some hcut
    have hcutle : cut.length ≤ token.length := hle op' cut hop' ⟨behind, happend.symm⟩
    obtain ⟨rfl, rfl⟩ := List.append_inj happend (Nat.le_antisymm hlength hcutle)
    exact hcut

/-- Both `IS` and `IS_NOT` stand at the front. -/
theorem splitOperator?_iff_longest_token_of_isNot :
    splitOperator? "Is_NoT_in [x]".toList = some ("Is_NoT".toList, "_in [x]".toList) ∧
    Operator.ofText "Is_NoT".toList = .ok .isNot ∧
    ∀ (op : Operator) (token : List Char), op.SpelledBy token →
      token <+: "Is_NoT_in [x]".toList → token.length ≤ 6 := by
  have hread : splitOperator? "Is_NoT_in [x]".toList =
      some ("Is_NoT".toList, "_in [x]".toList) := by decide
  obtain ⟨-, hle, op, hop, hspelled⟩ :=
    ((splitOperator?_iff_longest_token "Is_NoT_in [x]".toList).2 _ _).mp hread
  obtain rfl := (hspelled .isNot).mp rfl
  exact ⟨hread, hop, hle⟩

/-! ## The operator in front of a value -/

/-- The text is an operator that stands in front of the bracketed `rest`, spacing aside. -/
structure IsOperatorCut (s operator rest : List Char) : Prop where
  spelled : ∃ op : Operator, op.SpelledBy operator
  bracket : ∃ value, rest = '[' :: value
  layout : ∃ s₁ s₂, (∀ c ∈ s₁, isSpacing c = true) ∧ (∀ c ∈ s₂, isSpacing c = true) ∧
    s = s₁ ++ operator ++ s₂ ++ rest

/-- What is taken for an operator stands in front of the bracket, with nothing but spacing in
between. -/
theorem operatorBeforeValue?_sound {s operator rest : List Char}
    (h : operatorBeforeValue? s = some (operator, rest)) : IsOperatorCut s operator rest := by
  unfold operatorBeforeValue? at h
  obtain ⟨⟨token, behind⟩, hread, hrest⟩ := Option.bind_eq_some_iff.mp h
  obtain ⟨hskip, hspelled⟩ := splitOperator?_eq_some hread
  simp only at hrest
  split at hrest
  · next value hvalue =>
    simp only [Option.some.injEq, Prod.mk.injEq] at hrest
    obtain ⟨rfl, rfl⟩ := hrest
    refine ⟨hspelled, ⟨value, rfl⟩, s.takeWhile isSpacing, behind.takeWhile isSpacing,
      fun c hc => List.mem_takeWhile_imp hc, fun c hc => List.mem_takeWhile_imp hc, ?_⟩
    -- the two runs of spacing that are skipped are put back into the text
    have hs : s.takeWhile isSpacing ++ skipSpacing s = s := List.takeWhile_append_dropWhile
    have hbehind : behind.takeWhile isSpacing ++ skipSpacing behind = behind :=
      List.takeWhile_append_dropWhile
    rw [← hvalue, List.append_assoc, hbehind, List.append_assoc, ← hskip, hs]
  · cases hrest

/-- An operator in front of the bracket is found. -/
theorem operatorBeforeValue?_complete {s operator rest : List Char}
    (h : IsOperatorCut s operator rest) :
    operatorBeforeValue? s = some (operator, rest) := by
  obtain ⟨⟨op, hop⟩, ⟨value, rfl⟩, s₁, s₂, h₁, h₂, rfl⟩ := h
  have hstop : StopsAt isSpacing (operator ++ (s₂ ++ '[' :: value)) := by
    cases operator with
    | nil => exact absurd rfl hop.ne_nil
    | cons c operator => exact stopsAt_cons.mpr (hop.not_isSpacing c (by simp))
  have hskip : skipSpacing (s₁ ++ operator ++ s₂ ++ '[' :: value) =
      operator ++ (s₂ ++ '[' :: value) := by
    rw [List.append_assoc, List.append_assoc]
    exact dropWhile_append_of_stopsAt h₁ hstop
  -- what follows the operator is spacing or the bracket, which no longer token can have
  have hread : splitOperator? (operator ++ (s₂ ++ '[' :: value)) =
      some (operator, s₂ ++ '[' :: value) := by
    obtain ⟨token, behind, hread, hle⟩ := splitOperator?_longest hop (s₂ ++ '[' :: value)
    obtain ⟨happend, op', hop'⟩ := splitOperator?_eq_some hread
    obtain ⟨more, rfl⟩ : operator <+: token :=
      List.prefix_of_prefix_length_le ⟨_, rfl⟩ ⟨behind, happend.symm⟩ hle
    rw [List.append_assoc, List.append_cancel_left_eq] at happend
    cases more with
    | nil =>
      rw [List.nil_append] at happend
      rw [hread, List.append_nil, happend]
    | cons c more =>
      exfalso
      cases s₂ with
      | nil =>
        obtain ⟨rfl, -⟩ := List.cons.inj happend
        exact hop'.not_bracket (by simp)
      | cons d s₂ =>
        obtain ⟨rfl, -⟩ := List.cons.inj happend
        have hnot := hop'.not_isSpacing d (by simp)
        rw [h₂ d (by simp)] at hnot
        cases hnot
  have hskip₂ : skipSpacing (s₂ ++ '[' :: value) = '[' :: value :=
    dropWhile_append_of_stopsAt h₂ (stopsAt_cons.mpr rfl)
  unfold operatorBeforeValue?
  rw [hskip, hread]
  simp only [Option.bind_eq_bind, Option.bind_some, hskip₂]

/-- **In front of a value the operator is known** from the text alone. -/
theorem operatorBeforeValue?_eq_some_iff {s operator rest : List Char} :
    operatorBeforeValue? s = some (operator, rest) ↔ IsOperatorCut s operator rest :=
  ⟨operatorBeforeValue?_sound, operatorBeforeValue?_complete⟩

/-- The bracket in front of which the operator stands is the first one of the text. -/
theorem IsOperatorCut.rest_eq {s operator rest : List Char} (h : IsOperatorCut s operator rest) :
    rest = s.dropWhile (· != '[') := by
  obtain ⟨⟨op, hop⟩, ⟨value, rfl⟩, s₁, s₂, h₁, h₂, rfl⟩ := h
  -- neither spacing nor a spelling has a bracket in it
  have hnone : ∀ t : List Char, (∀ c ∈ t, isSpacing c = true) → '[' ∉ t := by
    intro t ht hmem
    cases ht _ hmem
  refine (dropWhile_append_of_stopsAt (bne_of_notMem ?_) (stopsAt_cons.mpr rfl)).symm
  simp [hnone s₁ h₁, hop.not_bracket, hnone s₂ h₂]

end Line

end FilterQuery

import FilterQuery.Proofs.Filter.Grammar
import Mathlib.Data.List.Forall2

/-!
# Lines read one by one

Whether a line is a filter, and which one, is a matter of the line alone (`Filter.ReadFrom`). Its
number is seen only in the complaint that it is none, and this is the only complaint there is
(`Filter.ofLine_eq_error_iff`): once a line has been cut into parts, its operator, its value and its
connective always have a meaning.

So reading many lines is all or nothing. There is one filter for each line, in order
(`Filter.ofLinesFrom_eq_ok_iff`), or a complaint about the first line that is no filter
(`Filter.ofLinesFrom_eq_error_iff`).
-/

namespace FilterQuery.Filter

open Text

/-- The filter was read from the line, as a line of some number. -/
def ReadFrom (line : String) (f : Filter) : Prop := ∃ number, ofLine number line = .ok f

variable {number : Nat} {line : String} {lines : List String} {f : Filter} {e : Error}

/-! ## One line -/

/-- **The only complaint about a line** is that it cannot be cut into the parts of a filter. -/
theorem ofLine_eq_error_iff :
    ofLine number line = .error e ↔
      Line.ofText? (trim line.toList) = none ∧ e = .malformedLine number line := by
  unfold ofLine
  cases hread : Line.ofText? (trim line.toList) with
  | none =>
    constructor
    · intro h
      cases h
      exact ⟨rfl, rfl⟩
    · rintro ⟨-, rfl⟩
      rfl
  | some parts =>
    -- the parts have a meaning, so that nothing can go wrong behind them
    obtain ⟨f, hf, -⟩ := (Line.ofText?_sound hread).exists_means
    constructor
    · intro h
      rw [show ofParts parts = .error e from h] at hf
      cases hf
    · rintro ⟨hnone, -⟩
      cases hnone

/-- A line is the same filter under any number. -/
theorem ReadFrom.ofLine_eq (h : ReadFrom line f) (number : Nat) : ofLine number line = .ok f := by
  obtain ⟨number', h⟩ := h
  unfold ofLine at h ⊢
  split at h
  · exact h
  · cases h

theorem readFrom_iff : ReadFrom line f ↔ ∀ number, ofLine number line = .ok f :=
  ⟨ReadFrom.ofLine_eq, fun h => ⟨0, h 0⟩⟩

theorem forall_not_readFrom_iff :
    (∀ f, ¬ReadFrom line f) ↔ ∀ number f, ofLine number line ≠ .ok f := by
  constructor
  · intro h number f hf
    exact h f ⟨number, hf⟩
  · rintro h f ⟨number, hf⟩
    exact h number f hf

/-- A line that is no filter is a complaint under any number. -/
theorem ofLine_of_not_readFrom (h : ∀ f, ¬ReadFrom line f) (number : Nat) :
    ofLine number line = .error (.malformedLine number line) := by
  cases hread : ofLine number line with
  | ok f => exact absurd ⟨number, hread⟩ (h f)
  -- there is one complaint only, so it is this one
  | error e => rw [(ofLine_eq_error_iff.mp hread).2]

theorem not_readFrom_of_eq_error (h : ofLine number line = .error e) (f : Filter) :
    ¬ReadFrom line f := by
  intro hf
  rw [hf.ofLine_eq number] at h
  cases h

/-! ## Many lines -/

/-- Lines are read one by one. -/
theorem readFrom_of_ofLinesFrom {filters : List Filter}
    (h : ofLinesFrom number lines = .ok filters) : List.Forall₂ ReadFrom lines filters := by
  induction lines generalizing number filters with
  | nil =>
    cases h
    exact .nil
  | cons line lines ih =>
    unfold ofLinesFrom at h
    obtain ⟨f, hf, h⟩ := bind_eq_ok_iff.mp h
    obtain ⟨fs, hfs, h⟩ := bind_eq_ok_iff.mp h
    cases h
    exact .cons ⟨number, hf⟩ (ih hfs)

/-- **One filter for each line**, in order. -/
theorem ofLinesFrom_eq_ok_iff {filters : List Filter} :
    ofLinesFrom number lines = .ok filters ↔ List.Forall₂ ReadFrom lines filters := by
  refine ⟨readFrom_of_ofLinesFrom, fun h => ?_⟩
  induction h generalizing number with
  | nil => rfl
  | cons hf _ ih =>
    unfold ofLinesFrom
    rw [hf.ofLine_eq number, ih]
    rfl

/-- **The first line that is no filter** is the complaint, with its number and as it stands. -/
theorem ofLinesFrom_eq_error_iff :
    ofLinesFrom number lines = .error e ↔
      ∃ before line after, lines = before ++ line :: after ∧ (∀ l ∈ before, ∃ f, ReadFrom l f) ∧
        (∀ f, ¬ReadFrom line f) ∧ e = .malformedLine (number + before.length) line := by
  induction lines generalizing number with
  | nil =>
    constructor
    · intro h
      cases h
    · rintro ⟨before, line, after, hsplit, -⟩
      simp at hsplit
  | cons line lines ih =>
    -- the filter in front is put before those of the other lines, which cannot fail
    have hrest (f : Filter) : (ofLinesFrom (number + 1) lines >>= fun fs => pure (f :: fs)) =
        .error e ↔ ofLinesFrom (number + 1) lines = .error e :=
      bind_eq_error_iff_of_ne_error fun fs h => by cases h
    have hnumber (n : Nat) : number + 1 + n = number + (n + 1) := by omega
    rw [ofLinesFrom, bind_eq_error_iff]
    constructor
    · rintro (h | ⟨f, hf, h⟩)
      · exact ⟨[], line, lines, rfl, by simp, not_readFrom_of_eq_error h,
          (ofLine_eq_error_iff.mp h).2⟩
      · obtain ⟨before, line', after, rfl, hbefore, hline', rfl⟩ := ih.mp ((hrest f).mp h)
        refine ⟨line :: before, line', after, rfl, ?_, hline', ?_⟩
        · exact List.forall_mem_cons.mpr ⟨⟨f, number, hf⟩, hbefore⟩
        · rw [hnumber, List.length_cons]
    · rintro ⟨before, line', after, hsplit, hbefore, hline', rfl⟩
      cases before with
      | nil =>
        obtain ⟨rfl, -⟩ := List.cons.inj hsplit
        exact .inl (ofLine_of_not_readFrom hline' number)
      | cons l before =>
        obtain ⟨rfl, rfl⟩ := List.cons.inj hsplit
        obtain ⟨⟨f, hf⟩, hbefore⟩ := List.forall_mem_cons.mp hbefore
        refine .inr ⟨f, hf.ofLine_eq number, (hrest f).mpr (ih.mpr ?_)⟩
        refine ⟨before, line', after, rfl, hbefore, hline', ?_⟩
        rw [hnumber, List.length_cons]

/-- **All or nothing.** Lines are read iff each of them is a filter. -/
theorem exists_ofLines_iff :
    (∃ filters, ofLines lines = .ok filters) ↔ ∀ line ∈ lines, ∃ f, ReadFrom line f := by
  constructor
  · rintro ⟨filters, h⟩
    -- the filter of each line is forgotten, and that there is one is kept
    have hread := (readFrom_of_ofLinesFrom h).imp
      fun line f hf => (⟨⟨f, hf⟩, hf⟩ : (∃ f, ReadFrom line f) ∧ ReadFrom line f)
    exact ((List.forall₂_and_left lines filters).mp hread).1
  · intro hall
    cases h : ofLines lines with
    | ok filters => exact ⟨filters, rfl⟩
    | error e =>
      obtain ⟨before, line, after, rfl, -, hline, -⟩ := ofLinesFrom_eq_error_iff.mp h
      obtain ⟨f, hf⟩ := hall line (by simp)
      exact absurd hf (hline f)

end FilterQuery.Filter

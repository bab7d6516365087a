import FilterQuery.Criteria.Text
import FilterQuery.Proofs.Filter.Lines

/-!
# Criteria are read as a whole

Criteria are written as filter lines, a sort expression and parts of a page request. There are
criteria iff all three can be read (`Criteria.ofText_eq_ok_iff`); else the first of the three that
cannot is the complaint (`Criteria.ofText_eq_error_iff`), and within the lines it is the first line
that is no filter (`Criteria.ofText_all_or_nothing`).
-/

namespace FilterQuery.Criteria

variable {lines : List String} {sort : String} {parts : List String}

/-- **All three parts** make the criteria, as they are. -/
theorem ofText_eq_ok_iff {c : Criteria} :
    ofText lines sort parts = .ok c ↔ Filter.ofLines lines = .ok c.filters ∧
      SortKey.ofExpression sort = .ok c.sorts ∧ Page.ofParts parts = .ok c.page := by
  unfold ofText
  rw [bind_eq_ok_iff]
  constructor
  · rintro ⟨filters, hfilters, h⟩
    obtain ⟨sorts, hsorts, h⟩ := bind_eq_ok_iff.mp h
    obtain ⟨page, hpage, h⟩ := bind_eq_ok_iff.mp h
    cases h
    exact ⟨hfilters, hsorts, hpage⟩
  · rintro ⟨hfilters, hsorts, hpage⟩
    refine ⟨c.filters, hfilters, bind_eq_ok_iff.mpr ⟨c.sorts, hsorts, ?_⟩⟩
    exact bind_eq_ok_iff.mpr ⟨c.page, hpage, rfl⟩

/-- **The first part that cannot be read** is the complaint. -/
theorem ofText_eq_error_iff {e : Error} :
    ofText lines sort parts = .error e ↔ Filter.ofLines lines = .error e ∨
      (∃ filters, Filter.ofLines lines = .ok filters) ∧ (SortKey.ofExpression sort = .error e ∨
        (∃ sorts, SortKey.ofExpression sort = .ok sorts) ∧ Page.ofParts parts = .error e) := by
  unfold ofText
  simp only [bind_eq_error_iff]
  constructor
  · rintro (h | ⟨filters, hfilters, h | ⟨sorts, hsorts, h | ⟨page, -, h⟩⟩⟩)
    · exact .inl h
    · exact .inr ⟨⟨filters, hfilters⟩, .inl h⟩
    · exact .inr ⟨⟨filters, hfilters⟩, .inr ⟨⟨sorts, hsorts⟩, h⟩⟩
    · cases h
  · rintro (h | ⟨⟨filters, hfilters⟩, h | ⟨⟨sorts, hsorts⟩, h⟩⟩)
    · exact .inl h
    · exact .inr ⟨filters, hfilters, .inl h⟩
    · exact .inr ⟨filters, hfilters, .inr ⟨sorts, hsorts, .inl h⟩⟩

/-- **Reading is all or nothing.** Lines are read iff each of them is a filter, and then there is
one filter for each line, in order. Otherwise the complaint has the number and the text of the first
line that is none; nothing else is ever complained of in lines. Criteria take all they are written
with as it was read, and else there is the complaint about the first part that cannot be. -/
theorem ofText_all_or_nothing (lines : List String) (sort : String) (parts : List String) :
    ((∃ filters, Filter.ofLines lines = .ok filters) ↔
      ∀ line ∈ lines, ∃ f, ∀ number, Filter.ofLine number line = .ok f) ∧
    (∀ filters, Filter.ofLines lines = .ok filters ↔
      List.Forall₂ (fun line f => ∀ number, Filter.ofLine number line = .ok f) lines filters) ∧
    (∀ e, Filter.ofLines lines = .error e ↔ ∃ before line after,
      lines = before ++ line :: after ∧
        (∀ l ∈ before, ∃ f, ∀ number, Filter.ofLine number l = .ok f) ∧
        (∀ number f, Filter.ofLine number line ≠ .ok f) ∧
        e = .malformedLine (before.length + 1) line) ∧
    (∀ number line e, Filter.ofLine number line = .error e → e = .malformedLine number line) ∧
    (∀ c, ofText lines sort parts = .ok c ↔ Filter.ofLines lines = .ok c.filters ∧
      SortKey.ofExpression sort = .ok c.sorts ∧ Page.ofParts parts = .ok c.page) ∧
    ∀ e, ofText lines sort parts = .error e ↔ Filter.ofLines lines = .error e ∨
      (∃ filters, Filter.ofLines lines = .ok filters) ∧ (SortKey.ofExpression sort = .error e ∨
        (∃ sorts, SortKey.ofExpression sort = .ok sorts) ∧ Page.ofParts parts = .error e) := by
  -- that a line is a filter does not hang on its number, which only the complaint shows
  simp only [← Filter.readFrom_iff]
  refine ⟨Filter.exists_ofLines_iff, fun filters => Filter.ofLinesFrom_eq_ok_iff, ?_, ?_,
    fun c => ofText_eq_ok_iff, fun e => ofText_eq_error_iff⟩
  · intro e
    rw [Filter.ofLines, Filter.ofLinesFrom_eq_error_iff]
    simp only [Filter.forall_not_readFrom_iff, Nat.add_comm 1]
  · intro number line e h
    exact (Filter.ofLine_eq_error_iff.mp h).2

/-- Two lines are no filters, and neither are the other two parts what they should be. -/
theorem ofText_all_or_nothing_at_second :
    let lines := ["( @a IN [1, x] AND", " @b ~ [2] ) ", "@c"]
    Filter.ofLines lines = .error (.malformedLine 2 " @b ~ [2] ) ") ∧
      ofText lines ":" ["page"] = .error (.malformedLine 2 " @b ~ [2] ) ") ∧
      ∃ e, Filter.ofLine 7 " @b ~ [2] ) " = .error e ∧ e = .malformedLine 7 " @b ~ [2] ) " := by
  intro lines
  obtain ⟨-, -, hlines, hline, -, htext⟩ := ofText_all_or_nothing lines ":" ["page"]
  have hcomplaint : Filter.ofLines lines = .error (.malformedLine 2 " @b ~ [2] ) ") := by
    refine (hlines _).mpr ⟨["( @a IN [1, x] AND"], " @b ~ [2] ) ", ["@c"], rfl, ?_, ?_, rfl⟩
    · exact List.forall_mem_singleton.mpr ⟨_, fun number => rfl⟩
    · intro number f h
      cases h
  exact ⟨hcomplaint, (htext _).mpr (.inl hcomplaint), _, rfl, hline 7 _ _ rfl⟩

end FilterQuery.Criteria

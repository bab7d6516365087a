import FilterQuery.Proofs.Query.Walk

/-!
# Which queries are refused

The walk over the filters may fail at any filter, but only for the filter itself and never for the
state that the walk is in: the one thing to complain about is a list under an operator for single
values (`Filter.IsMisfit`). Left-out filters, groups and connectives do not come into it.

* `Walk.step_eq_error_iff` is the step and `Walk.foldlM_step_eq_error_iff` the run: a walk fails
  with the first complaint that there is about the filters one by one (`Filter.complaint?`).
* `Query.ofCriteria_eq_error_iff_ofFilters`: behind the walk nothing fails, be it in the clauses or
  in their text.
* `Query.ofCriteria_eq_error_iff_misfit` says when a query is refused, and for what.
-/

namespace FilterQuery

/-! ## One filter -/

theorem Operator.takesList_eq_false_iff {op : Operator} :
    op.takesList = false ↔ op ≠ .isIn ∧ op ≠ .notIn := by
  cases op <;> decide

namespace Filter

/-- The value of the filter is the list, and its operator is one for single values. -/
def IsMisfit (f : Filter) (xs : ValueList) : Prop :=
  f.operator ≠ .isIn ∧ f.operator ≠ .notIn ∧ f.value = .list xs

/-- What there is to complain about in a filter, whatever stands around it. -/
def complaint? (f : Filter) : Option Error :=
  match f.operator.takesList, f.value with
  | false, .list xs => some (.listForSingle f.operator f.field xs.kind)
  | _, _ => none

variable {f : Filter} {e : Error}

theorem isMisfit_iff {xs : ValueList} :
    f.IsMisfit xs ↔ f.operator.takesList = false ∧ f.value = .list xs := by
  unfold IsMisfit
  rw [Operator.takesList_eq_false_iff, and_assoc]

theorem complaint?_eq_some_iff :
    f.complaint? = some e ↔
      ∃ xs, f.IsMisfit xs ∧ e = .listForSingle f.operator f.field xs.kind := by
  simp only [isMisfit_iff, complaint?]
  cases f.operator.takesList <;> cases f.value <;> simp [eq_comm]

theorem complaint?_eq_none_iff : f.complaint? = none ↔ ∀ xs, ¬f.IsMisfit xs := by
  simp only [isMisfit_iff, complaint?]
  cases f.operator.takesList <;> cases f.value <;> simp

theorem isSome_complaint?_iff : f.complaint?.isSome = true ↔ ∃ xs, f.IsMisfit xs := by
  rw [Option.isSome_iff_ne_none, Ne, complaint?_eq_none_iff, not_forall_not]

theorem complaint?_eq_none_iff_fits : f.complaint? = none ↔ f.fits = true := by
  unfold complaint? fits Value.isList
  cases f.operator.takesList <;> cases f.value <;> simp

theorem operand?_eq_error_iff : f.operand? = .error e ↔ f.complaint? = some e := by
  unfold operand? complaint?
  cases f.operator.takesList <;> cases f.value <;> simp

/-- The first complaint is known from the complaints, whatever else the filters are. -/
theorem findSome?_complaint?_congr {filters filters' : List Filter}
    (h : List.Forall₂ (fun f g => f.complaint? = g.complaint?) filters filters') :
    filters.findSome? complaint? = filters'.findSome? complaint? := by
  -- the first complaint is looked for filter by filter in both lists
  induction h with
  | nil => rfl
  | cons hf _ ih => rw [List.findSome?_cons, List.findSome?_cons, hf, ih]

end Filter

/-! ## The walk -/

namespace Walk

variable {w : Walk} {filters : List Filter} {e : Error}

/-- **One step** fails for the filter alone. -/
theorem step_eq_error_iff {f : Filter} : w.step f = .error e ↔ f.complaint? = some e := by
  unfold step
  rw [bind_eq_error_iff_of_ne_error, Filter.operand?_eq_error_iff]
  -- behind the operand the walk goes on, with or without a predicate
  intro o h
  cases o <;> cases h

/-- **The whole walk** fails with the first complaint. Induction on the filters, with the state of
the walk left open. -/
theorem foldlM_step_eq_error_iff :
    filters.foldlM step w = .error e ↔ filters.findSome? Filter.complaint? = some e := by
  induction filters generalizing w with
  | nil =>
    rw [List.foldlM_nil, List.findSome?_nil]
    constructor <;> intro h <;> cases h
  | cons f fs ih =>
    rw [List.foldlM_cons, List.findSome?_cons, bind_eq_error_iff, step_eq_error_iff]
    cases hf : f.complaint? with
    | some e' =>
      constructor
      · rintro (h | ⟨w', hstep, -⟩)
        · exact h
        · -- a filter that was complained of is not walked past
          rw [step_eq_error_iff.mpr hf] at hstep
          cases hstep
      · exact .inl
    | none =>
      have hstep : w.step f = .ok (w.advance f) :=
        step_eq_ok_iff.mpr ⟨Filter.complaint?_eq_none_iff_fits.mp hf, rfl⟩
      constructor
      · rintro (h | ⟨w', -, hrest⟩)
        · cases h
        · exact ih.mp hrest
      · intro h
        exact .inr ⟨_, hstep, ih.mpr h⟩

end Walk

/-- **The predicates fail** with the first complaint about the filters. -/
theorem Predicate.ofFilters_eq_error_iff {filters : List Filter} {e : Error} :
    ofFilters filters = .error e ↔ filters.findSome? Filter.complaint? = some e := by
  unfold ofFilters
  rw [bind_eq_error_iff_of_ne_error, Walk.foldlM_step_eq_error_iff]
  intro w h
  cases h

/-- **The first filter that does not fit is the complaint**, whatever the filters behind it are. -/
theorem Predicate.ofFilters_of_not_fits {before after : List Filter} {f : Filter} {xs : ValueList}
    (hbefore : ∀ g ∈ before, g.fits = true) (hop : f.operator.takesList = false)
    (hvalue : f.value = .list xs) :
    ofFilters (before ++ f :: after) = .error (.listForSingle f.operator f.field xs.kind) := by
  rw [ofFilters_eq_error_iff, List.findSome?_eq_some_iff]
  refine ⟨before, f, after, rfl, ?_, fun g hg => ?_⟩
  · exact Filter.complaint?_eq_some_iff.mpr ⟨xs, Filter.isMisfit_iff.mpr ⟨hop, hvalue⟩, rfl⟩
  · exact Filter.complaint?_eq_none_iff_fits.mpr (hbefore g hg)

/-- What keeps a filter from fitting is a list under an operator for single values. -/
theorem Filter.exists_list_of_not_fits {f : Filter} (h : f.fits = false) :
    f.operator.takesList = false ∧ ∃ xs, f.value = .list xs := by
  -- what does not fit is complained of, and the complaint names the list
  cases hcomplaint : f.complaint? with
  | none =>
    rw [complaint?_eq_none_iff_fits.mp hcomplaint] at h
    cases h
  | some e =>
    obtain ⟨xs, hmisfit, -⟩ := complaint?_eq_some_iff.mp hcomplaint
    obtain ⟨hop, hvalue⟩ := isMisfit_iff.mp hmisfit
    exact ⟨hop, xs, hvalue⟩

namespace Query

variable {criteria : Criteria} {e : Error}

/-! ## The query -/

/-- **A query fails iff its filters do.** The clauses are made of what is there already. -/
theorem ofCriteria_eq_error_iff_ofFilters (defaultSize : UInt64) :
    ofCriteria defaultSize criteria = .error e ↔
      Predicate.ofFilters criteria.filters = .error e := by
  unfold ofCriteria
  refine bind_eq_error_iff_of_ne_error fun ps h => ?_
  cases h

theorem ofCriteria_eq_error_iff_complaint? {defaultSize : UInt64} :
    ofCriteria defaultSize criteria = .error e ↔
      criteria.filters.findSome? Filter.complaint? = some e := by
  rw [ofCriteria_eq_error_iff_ofFilters, Predicate.ofFilters_eq_error_iff]

/-- The complaint about the filters is the one about the query. -/
theorem ofCriteria_eq_error (h : Predicate.ofFilters criteria.filters = .error e)
    (defaultSize : UInt64) : ofCriteria defaultSize criteria = .error e :=
  (ofCriteria_eq_error_iff_ofFilters defaultSize).mpr h

/-- **A query is refused iff one of its filters has a list under an operator for single values**, an
empty list as well, and the complaint is about the first such filter. The predicates are refused in
the same cases and for the same reason. So all other filters may be replaced, and so may the sort
keys, the page and the default size of pages: the complaint stays what it was, or is still none. -/
theorem ofCriteria_eq_error_iff_misfit (defaultSize : UInt64) (c : Criteria) :
    ((∃ e, ofCriteria defaultSize c = .error e) ↔ ∃ f ∈ c.filters, ∃ xs, f.IsMisfit xs) ∧
    (∀ e, ofCriteria defaultSize c = .error e ↔ ∃ before f after xs,
      c.filters = before ++ f :: after ∧ (∀ g ∈ before, ∀ ys, ¬g.IsMisfit ys) ∧ f.IsMisfit xs ∧
        e = .listForSingle f.operator f.field xs.kind ∧
        e.message = "invalid value: " ++ f.operator.token ++ " on '" ++ f.field ++
          "' takes a single value, got a " ++ xs.kind.name ++ " list") ∧
    (∀ e, Predicate.ofFilters c.filters = .error e ↔ ofCriteria defaultSize c = .error e) ∧
    ∀ (defaultSize' : UInt64) (d : Criteria),
      List.Forall₂ (fun f g => f = g ∨ (∀ xs, ¬f.IsMisfit xs) ∧ ∀ xs, ¬g.IsMisfit xs)
        c.filters d.filters →
      ∀ e, ofCriteria defaultSize c = .error e ↔ ofCriteria defaultSize' d = .error e := by
  refine ⟨?_, fun e => ?_, fun e => (ofCriteria_eq_error_iff_ofFilters defaultSize).symm, ?_⟩
  · simp only [ofCriteria_eq_error_iff_complaint?, ← Option.isSome_iff_exists,
      List.findSome?_isSome_iff, Filter.isSome_complaint?_iff]
  · rw [ofCriteria_eq_error_iff_complaint?, List.findSome?_eq_some_iff]
    -- in front of the first complaint there are none, and a complaint is one about a misfit
    simp only [Filter.complaint?_eq_some_iff, Filter.complaint?_eq_none_iff]
    constructor
    · rintro ⟨before, f, after, hsplit, ⟨xs, hmisfit, rfl⟩, hbefore⟩
      exact ⟨before, f, after, xs, hsplit, hbefore, hmisfit, rfl, rfl⟩
    · rintro ⟨before, f, after, xs, hsplit, hbefore, hmisfit, he, -⟩
      exact ⟨before, f, after, hsplit, ⟨xs, hmisfit, he⟩, hbefore⟩
  · intro defaultSize' d h e
    rw [ofCriteria_eq_error_iff_complaint?, ofCriteria_eq_error_iff_complaint?,
      Filter.findSome?_complaint?_congr (h.imp ?_)]
    -- nothing is complained of in either of two filters that are no misfits
    rintro f g (rfl | ⟨hf, hg⟩)
    · rfl
    · rw [Filter.complaint?_eq_none_iff.mpr hf, Filter.complaint?_eq_none_iff.mpr hg]

/-- An empty list is no less of a misfit, and neither the left-out filter in front of it nor the
list behind it has a say. -/
theorem ofCriteria_eq_error_iff_misfit_of_empty :
    let f : Filter := { field := "b", operator := .less, value := .list (.strings []), closes := 2 }
    let g : Filter := { field := "c", operator := .equal, value := .list (.ints [1]) }
    let before (x : Value) : Filter := { field := "a", operator := .isIn, value := x, opens := 1 }
    let after (x : Value) : Filter := { field := "d", operator := .is, value := x }
    let c : Criteria := { filters := [before .null] ++ f :: [g, after (.bool true)] }
    let d : Criteria :=
      { filters := [before (.list (.floats [])), f, g, after .null], sorts := [{ field := "e" }] }
    let e : Error := .listForSingle .less "b" .string
    ofCriteria 0 c = .error e ∧ ofCriteria 20 d = .error e ∧
      Predicate.ofFilters c.filters = .error e ∧
      e.message = "invalid value: < on 'b' takes a single value, got a string list" := by
  intro f g before after c d e
  obtain ⟨-, hfirst, hpredicates, hother⟩ := ofCriteria_eq_error_iff_misfit 0 c
  have hbefore (x ys) : ¬(before x).IsMisfit ys := fun h => h.1 rfl
  have hafter (x ys) (hx : x.isList = false) : ¬(after x).IsMisfit ys := by
    rintro ⟨-, -, hlist⟩
    cases hlist
    cases hx
  have hc : ofCriteria 0 c = .error e := by
    refine (hfirst e).mpr ⟨[before .null], f, [g, after (.bool true)], .strings [], rfl,
      List.forall_mem_singleton.mpr (hbefore .null), ⟨by decide, by decide, rfl⟩, rfl, rfl⟩
  have hd : List.Forall₂ (fun f g => f = g ∨ (∀ xs, ¬f.IsMisfit xs) ∧ ∀ xs, ¬g.IsMisfit xs)
      c.filters d.filters :=
    .cons (.inr ⟨hbefore _, hbefore _⟩) <| .cons (.inl rfl) <| .cons (.inl rfl) <|
      .cons (.inr ⟨(hafter _ · rfl), (hafter _ · rfl)⟩) .nil
  exact ⟨hc, (hother 20 d hd e).mp hc, (hpredicates e).mpr hc, rfl⟩

end Query

end FilterQuery

import FilterQuery.Proofs.Query.Complaint

/-!
# The text does not depend on the values

Two lists of filters that differ in their values alone run through the same walk: the same filters
are left out, the same parentheses are handed on and back, and the same connectives survive. Of a
value only its shape matters, that is how many alternatives it offers to a list operator, and
whether it is a list for any other one (`Filter.SameShape`).

* `Walk.Alike.advance` is the step and `Walk.Alike.foldl_advance` the run: two walks over filters of
  the same shape stay alike.
* `Predicate.joined_eq_of_similar` says that predicates that differ in their values alone have one
  text.
* `Query.ofCriteria_of_sameShape` puts this together for whole queries, failures included.
-/

namespace FilterQuery

/-- The filters differ in their values at most, and their values have the same shape. -/
structure Filter.SameShape (f g : Filter) : Prop where
  field : f.field = g.field
  operator : f.operator = g.operator
  opens : f.opens = g.opens
  closes : f.closes = g.closes
  connective : f.connective = g.connective
  value : if f.operator.takesList = true then f.value.elements.length = g.value.elements.length
    else f.value.isList = g.value.isList

namespace Filter.SameShape

variable {f g : Filter}

/-- Whether a filter fits is told by its shape. -/
theorem fits_eq (h : f.SameShape g) : f.fits = g.fits := by
  have hvalue := h.value
  unfold fits
  rw [← h.operator]
  cases hop : f.operator.takesList with
  | true => rfl
  | false =>
    rw [hop, if_neg Bool.false_ne_true] at hvalue
    rw [hvalue]

/-- Whether a filter is left out is told by its shape. -/
theorem leftOut_eq (h : f.SameShape g) : f.leftOut = g.leftOut := by
  have hvalue := h.value
  unfold leftOut
  rw [← h.operator]
  cases hop : f.operator.takesList with
  | false => rfl
  | true =>
    rw [hop, if_pos rfl] at hvalue
    -- a list is empty iff it has no length
    rw [Bool.true_and, Bool.true_and, Bool.eq_iff_iff, List.isEmpty_iff, List.isEmpty_iff,
      ← List.length_eq_zero_iff, ← List.length_eq_zero_iff, hvalue]

end Filter.SameShape

/-! ## Predicates with one text -/

/-- The operands are of one kind and bind as many values. -/
inductive Operand.Alike : Operand → Operand → Prop where
  | single (v w : Value) : Alike (.single v) (.single w)
  | alternatives {vs ws : List Value} (h : vs.length = ws.length) :
    Alike (.alternatives vs) (.alternatives ws)

theorem Operand.Alike.text_eq {a b : Operand} (h : a.Alike b) (first : Nat) :
    a.text first = b.text first := by
  cases h with
  | single v w => rfl
  | alternatives hlength => simp only [Operand.text, hlength]

theorem Operand.Alike.length_values {a b : Operand} (h : a.Alike b) :
    a.values.length = b.values.length := by
  cases h with
  | single v w => rfl
  | alternatives hlength => exact hlength

theorem Filter.SameShape.operand_alike {f g : Filter} (h : f.SameShape g) :
    f.operand.Alike g.operand := by
  have hvalue := h.value
  unfold Filter.operand
  rw [← h.operator]
  cases hop : f.operator.takesList with
  | true =>
    rw [hop, if_pos rfl] at hvalue
    exact .alternatives hvalue
  | false => exact .single f.value g.value

/-- The predicates are written alike, whatever joins them to their neighbours. -/
structure Predicate.Similar (p q : Predicate) : Prop where
  field : p.field = q.field
  operator : p.operator = q.operator
  operand : p.operand.Alike q.operand
  opens : p.opens = q.opens
  closes : p.closes = q.closes

/-- The predicates differ in the values of their operands at most. -/
structure Predicate.Alike (p q : Predicate) : Prop extends Predicate.Similar p q where
  connective : p.connective = q.connective
  depth : p.depth = q.depth

namespace Predicate

variable {p q : Predicate} {ps qs : List Predicate}

theorem Similar.text_eq (h : p.Similar q) (first : Nat) : p.text first = q.text first := by
  unfold text
  rw [h.field, h.operator, h.opens, h.closes, h.operand.text_eq]

theorem Similar.length_arguments (h : p.Similar q) : p.arguments.length = q.arguments.length :=
  h.operand.length_values

/-- **Similar predicates have one text** as soon as they are joined alike. As they bind as many
values each, the placeholders behind them have the same numbers, too. -/
theorem joined_eq_of_similar (h : List.Forall₂ Similar ps qs)
    (hjoins : ps.dropLast.map connective = qs.dropLast.map connective) (first : Nat) :
    joined first ps = joined first qs := by
  induction h generalizing first with
  | nil => rfl
  | cons hp hrest ih =>
    cases hrest with
    | nil => exact hp.text_eq first
    | cons hq hrest =>
      rw [List.dropLast_cons_cons, List.dropLast_cons_cons, List.map_cons, List.map_cons] at hjoins
      obtain ⟨hjoin, hjoins⟩ := List.cons.inj hjoins
      rw [joined, joined, hp.text_eq, hjoin, hp.length_arguments, ih hjoins]

theorem clause_eq_of_similar (h : List.Forall₂ Similar ps qs)
    (hjoins : ps.dropLast.map connective = qs.dropLast.map connective) :
    clause ps = clause qs := by
  unfold clause
  rw [joined_eq_of_similar h hjoins]
  cases h with
  | nil => rfl
  | cons hp hrest => rfl

theorem clause_eq_of_alike (h : List.Forall₂ Alike ps qs) : clause ps = clause qs := by
  have hjoins : ps.map connective = qs.map connective := by
    induction h with
    | nil => rfl
    | cons hp _ ih => rw [List.map_cons, List.map_cons, hp.connective, ih]
  -- the connective of the last predicate is not written, so that it may be dropped on both sides
  refine clause_eq_of_similar (h.imp fun _ _ hp => hp.toSimilar) ?_
  rw [List.map_dropLast, List.map_dropLast, hjoins]

theorem length_flatMap_arguments_of_similar (h : List.Forall₂ Similar ps qs) :
    (ps.flatMap arguments).length = (qs.flatMap arguments).length := by
  induction h with
  | nil => rfl
  | cons hp _ ih =>
    rw [List.flatMap_cons, List.flatMap_cons, List.length_append, List.length_append,
      hp.length_arguments, ih]

end Predicate

/-! ## Two walks side by side -/

namespace Walk

/-- The walks differ in the values of their predicates at most. -/
structure Alike (w w' : Walk) : Prop where
  predicates : List.Forall₂ Predicate.Alike w.predicates w'.predicates
  pending : w.pending = w'.pending
  depth : w.depth = w'.depth

theorem alike_handBack {ps qs : List Predicate} (h : List.Forall₂ Predicate.Alike ps qs)
    (closes : UInt64) (connective : Connective) (depth : Int64) :
    List.Forall₂ Predicate.Alike (handBack closes connective depth ps)
      (handBack closes connective depth qs) := by
  cases h with
  | nil => exact .nil
  | @cons p q ps qs hp hrest =>
    unfold handBack
    have hcloses : p.closes + closes = q.closes + closes := by rw [hp.closes]
    -- the depths are the same, so both give up their connective or neither does
    by_cases hdepth : depth < q.depth
    · have hdepth' : depth < p.depth := by rw [hp.depth]; exact hdepth
      simp only [if_pos hdepth, if_pos hdepth']
      exact .cons ⟨⟨hp.field, hp.operator, hp.operand, hp.opens, hcloses⟩, rfl, rfl⟩ hrest
    · have hdepth' : ¬depth < p.depth := by rw [hp.depth]; exact hdepth
      simp only [if_neg hdepth, if_neg hdepth']
      exact .cons ⟨⟨hp.field, hp.operator, hp.operand, hp.opens, hcloses⟩, hp.connective, hp.depth⟩
        hrest

/-- **One step keeps two walks alike.** -/
theorem Alike.advance {w w' : Walk} {f g : Filter} (h : w.Alike w') (hf : f.SameShape g) :
    (w.advance f).Alike (w'.advance g) := by
  -- the counters run through the same numbers in both walks, wrapping around or not
  have hdepth : w.depthBehind f = w'.depthBehind g := by
    unfold depthBehind
    rw [h.depth, hf.opens, hf.closes]
  have hwaiting : w.pending + f.opens = w'.pending + g.opens := by
    rw [h.pending, hf.opens]
  by_cases hleft : f.leftOut = true
  · have hleft' : g.leftOut = true := hf.leftOut_eq ▸ hleft
    rw [advance_of_leftOut w hleft, advance_of_leftOut w' hleft']
    refine ⟨?_, ?_, hdepth⟩
    · show List.Forall₂ Predicate.Alike
        (handBack (f.closes - min (w.pending + f.opens) f.closes) f.connective (w.depthBehind f)
          w.predicates) _
      rw [hdepth, hwaiting, hf.closes, hf.connective]
      exact alike_handBack h.predicates _ _ _
    · show w.pending + f.opens - min (w.pending + f.opens) f.closes = _
      rw [hwaiting, hf.closes]
      rfl
  · -- both filters become predicates, which differ in their values at most
    have hleft' : ¬g.leftOut = true := hf.leftOut_eq ▸ hleft
    rw [advance_of_not_leftOut w hleft, advance_of_not_leftOut w' hleft']
    exact ⟨.cons ⟨⟨hf.field, hf.operator, hf.operand_alike, hwaiting, hf.closes⟩, hf.connective,
      hdepth⟩ h.predicates, rfl, hdepth⟩

/-- **A whole run keeps two walks alike.** -/
theorem Alike.foldl_advance {filters filters' : List Filter}
    (hfilters : List.Forall₂ Filter.SameShape filters filters') {w w' : Walk} (h : w.Alike w') :
    (filters.foldl Walk.advance w).Alike (filters'.foldl Walk.advance w') := by
  induction hfilters generalizing w w' with
  | nil => exact h
  | cons hf _ ih => exact ih (h.advance hf)

end Walk

namespace Predicate

theorem alike_emitted {filters filters' : List Filter}
    (h : List.Forall₂ Filter.SameShape filters filters') :
    List.Forall₂ Alike (emitted filters) (emitted filters') := by
  have hstart : Walk.Alike {} {} := ⟨.nil, rfl, rfl⟩
  exact List.rel_reverse (hstart.foldl_advance h).predicates

end Predicate

/-! ## Failures -/

/-- Filters of the same shape all fit, or the first ones that do not stand in the same place. -/
theorem Filter.fits_or_first_misfit {filters filters' : List Filter}
    (h : List.Forall₂ SameShape filters filters') :
    ((∀ f ∈ filters, f.fits = true) ∧ ∀ g ∈ filters', g.fits = true) ∨
      ∃ before f after before' g after', filters = before ++ f :: after ∧
        filters' = before' ++ g :: after' ∧ before.length = before'.length ∧
        (∀ e ∈ before, e.fits = true) ∧ (∀ e ∈ before', e.fits = true) ∧
        f.fits = false ∧ g.fits = false := by
  induction h with
  | nil => exact .inl ⟨by simp, by simp⟩
  | @cons f g fs gs hf _ ih =>
    cases hfits : f.fits with
    | false =>
      exact .inr ⟨[], f, fs, [], g, gs, rfl, rfl, rfl, by simp, by simp, hfits,
        hf.fits_eq ▸ hfits⟩
    | true =>
      have hfits' : g.fits = true := hf.fits_eq ▸ hfits
      -- both lists fit so far, and what comes behind is known
      rcases ih with ⟨hall, hall'⟩ | ⟨before, e, after, before', e', after', rfl, rfl, hlength,
        hbefore, hbefore', he, he'⟩
      · exact .inl ⟨List.forall_mem_cons.mpr ⟨hfits, hall⟩,
          List.forall_mem_cons.mpr ⟨hfits', hall'⟩⟩
      · exact .inr ⟨f :: before, e, after, g :: before', e', after', rfl, rfl,
          by rw [List.length_cons, List.length_cons, hlength],
          List.forall_mem_cons.mpr ⟨hfits, hbefore⟩, List.forall_mem_cons.mpr ⟨hfits', hbefore'⟩,
          he, he'⟩

namespace Query

/-- **Values never influence the text.** Criteria whose filters have the same shape, with the same
sort keys and the same page, both fail, on filters in the same place, or make queries with one text
and as many arguments. -/
theorem ofCriteria_of_sameShape (defaultSize : UInt64) {c d : Criteria}
    (hfilters : List.Forall₂ Filter.SameShape c.filters d.filters) (hsorts : c.sorts = d.sorts)
    (hpage : c.page = d.page) :
    (∃ (i : Nat) (f g : Filter) (xs ys : ValueList),
      c.filters[i]? = some f ∧ d.filters[i]? = some g ∧ f.value = .list xs ∧ g.value = .list ys ∧
        ofCriteria defaultSize c = .error (.listForSingle f.operator f.field xs.kind) ∧
        ofCriteria defaultSize d = .error (.listForSingle g.operator g.field ys.kind)) ∨
      ∃ q r, ofCriteria defaultSize c = .ok q ∧ ofCriteria defaultSize d = .ok r ∧
        q.sql = r.sql ∧ q.arguments.length = r.arguments.length := by
  rcases Filter.fits_or_first_misfit hfilters with ⟨hfits, hfits'⟩ | ⟨before, f, after, before', g,
    after', hc, hd, hlength, hbefore, hbefore', hf, hg⟩
  · right
    have halike := Predicate.alike_emitted hfilters
    have hq := ofCriteria_eq_ok (Predicate.ofFilters_eq_ok_iff.mpr ⟨hfits, rfl⟩) defaultSize
    have hr := ofCriteria_eq_ok (Predicate.ofFilters_eq_ok_iff.mpr ⟨hfits', rfl⟩) defaultSize
    refine ⟨_, _, hq, hr, ?_, ?_⟩
    · rw [Predicate.clause_eq_of_alike halike, hsorts, hpage]
    · exact Predicate.length_flatMap_arguments_of_similar (halike.imp fun _ _ hp => hp.toSimilar)
  · left
    obtain ⟨hop, xs, hxs⟩ := Filter.exists_list_of_not_fits hf
    obtain ⟨hop', ys, hys⟩ := Filter.exists_list_of_not_fits hg
    refine ⟨before.length, f, g, xs, ys, ?_, ?_, hxs, hys, ?_, ?_⟩
    · simp [hc]
    · simp [hd, hlength]
    · exact ofCriteria_eq_error (hc ▸ Predicate.ofFilters_of_not_fits hbefore hop hxs) defaultSize
    · exact ofCriteria_eq_error (hd ▸ Predicate.ofFilters_of_not_fits hbefore' hop' hys) defaultSize

/-- The first filter takes its alternatives from a list or from the pieces of a string, and the
second one is left out or not, with a parenthesis that moves. -/
theorem ofCriteria_of_sameShape_moved :
    let criteria (alternatives single : Value) : Criteria :=
      { filters := [{ field := "a", operator := .isIn, value := alternatives, opens := 1 },
          { field := "b", operator := .notIn, closes := 1, key := some .or },
          { field := "c", operator := .equal, value := single }] }
    let c := criteria (.list (.ints [7, 8])) (.string "x")
    let d := criteria (.string "u,'; drop table t") (.bool true)
    List.Forall₂ Filter.SameShape c.filters d.filters ∧ c.sorts = d.sorts ∧ c.page = d.page ∧
      ∃ q r, ofCriteria 0 c = .ok q ∧ ofCriteria 0 d = .ok r ∧ q.sql = r.sql ∧
        q.sql = "WHERE (a IN ($1, $2)) OR c = $3" := by
  intro criteria c d
  have hfilters : List.Forall₂ Filter.SameShape c.filters d.filters :=
    .cons ⟨rfl, rfl, rfl, rfl, rfl, by decide⟩ <| .cons ⟨rfl, rfl, rfl, rfl, rfl, by decide⟩ <|
      .cons ⟨rfl, rfl, rfl, rfl, rfl, by decide⟩ .nil
  refine ⟨hfilters, rfl, rfl, ?_⟩
  rcases ofCriteria_of_sameShape 0 hfilters rfl rfl with ⟨_, _, _, _, _, _, _, _, _, hfail, _⟩ |
    ⟨q, r, hq, hr, hsql, -⟩
  · cases hfail
  · refine ⟨q, r, hq, hr, hsql, ?_⟩
    cases hq
    rfl

end Query

end FilterQuery

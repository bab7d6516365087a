import FilterQuery.Proofs.Outcome
import FilterQuery.Query.Basic
import Mathlib.Data.List.Forall2

/-!
# The walk over the filters

`Predicate.ofFilters` walks over the filters with a step that may fail. The only failure is a filter
that compares with what its operator does not take (`Filter.fits`), and it does not depend on the
state of the walk. So a walk that succeeds is a plain fold:

* `Filter.operand?_eq_ok_iff` says what a single filter compares with,
* `Walk.step_eq_ok_iff` what one step does (`Walk.advance`),
* `Predicate.ofFilters_eq_ok_iff` what the whole walk yields (`Predicate.emitted`).

Later modules argue about `Walk.advance` and never about the failing steps again.
-/

namespace FilterQuery

def Value.isList : Value → Bool
  | list _ => true
  | _ => false

namespace Filter

/-- The operator takes the value: only a list operator takes a list. -/
def fits (f : Filter) : Bool := f.operator.takesList || !f.value.isList

/-- The filter makes no predicate: a list operator without any alternative. -/
def leftOut (f : Filter) : Bool := f.operator.takesList && f.value.elements.isEmpty

/-- What a filter compares with, if it fits and is not left out. -/
def operand (f : Filter) : Operand :=
  if f.operator.takesList then .alternatives f.value.elements else .single f.value

/-- The values that the filter contributes to the arguments: its alternatives under a list
operator, else its value. -/
def bound (f : Filter) : List Value :=
  if f.operator.takesList then f.value.elements else [f.value]

theorem values_operand (f : Filter) : f.operand.values = f.bound := by
  unfold operand bound
  split <;> rfl

/-- The filters that are left out are those that contribute nothing. -/
theorem leftOut_iff {f : Filter} : f.leftOut = true ↔ f.bound = [] := by
  unfold leftOut bound
  cases f.operator.takesList <;> simp

/-- **What a filter compares with.** The answer is there iff the filter fits, and then it is `none`
for a filter that is left out. -/
theorem operand?_eq_ok_iff {f : Filter} {o : Option Operand} :
    f.operand? = .ok o ↔ f.fits = true ∧ o = if f.leftOut then none else some f.operand := by
  cases hop : f.operator.takesList with
  | true =>
    have hanswer : f.operand? = .ok (if f.leftOut then none else some f.operand) := by
      simp [operand?, leftOut, operand, hop]
    have hfits : f.fits = true := by simp [fits, hop]
    rw [hanswer]
    exact ⟨fun h => ⟨hfits, (Except.ok.inj h).symm⟩, fun h => h.2 ▸ rfl⟩
  | false =>
    have hleft : f.leftOut = false := by simp [leftOut, hop]
    -- without a list operator the shape of the value decides
    cases hvalue : f.value with
    | list xs => simp [operand?, fits, Value.isList, hop, hvalue]
    | null | bool | int | float | string =>
      have hanswer : f.operand? = .ok (some f.operand) := by simp [operand?, operand, hop, hvalue]
      have hfits : f.fits = true := by simp [fits, Value.isList, hvalue]
      rw [hanswer, hleft]
      exact ⟨fun h => ⟨hfits, (Except.ok.inj h).symm⟩, fun h => h.2 ▸ rfl⟩

end Filter

/-! ## The walk as a fold -/

namespace Walk

/-- One more filter that fits. -/
def advance (w : Walk) (f : Filter) : Walk :=
  if f.leftOut then w.skip f else w.keep f f.operand

/-- The two kinds of steps have an equation each, so that nobody has to look at the branch again. -/
theorem advance_of_leftOut {f : Filter} (w : Walk) (h : f.leftOut = true) :
    w.advance f = w.skip f := by
  rw [advance, if_pos h]

theorem advance_of_not_leftOut {f : Filter} (w : Walk) (h : ¬f.leftOut = true) :
    w.advance f = w.keep f f.operand := by
  rw [advance, if_neg h]

/-- **One step.** Whether it succeeds is up to the filter alone. -/
theorem step_eq_ok_iff {w w' : Walk} {f : Filter} :
    w.step f = .ok w' ↔ f.fits = true ∧ w' = w.advance f := by
  unfold step
  -- the operand decides, and of the operand it is known when it is there
  rw [bind_eq_ok_iff]
  constructor
  · rintro ⟨o, ho, hw⟩
    obtain ⟨hfits, rfl⟩ := Filter.operand?_eq_ok_iff.mp ho
    refine ⟨hfits, ?_⟩
    by_cases hleft : f.leftOut = true
    · rw [if_pos hleft] at hw
      rw [advance_of_leftOut w hleft]
      exact (Except.ok.inj hw).symm
    · rw [if_neg hleft] at hw
      rw [advance_of_not_leftOut w hleft]
      exact (Except.ok.inj hw).symm
  · rintro ⟨hfits, rfl⟩
    refine ⟨_, Filter.operand?_eq_ok_iff.mpr ⟨hfits, rfl⟩, ?_⟩
    by_cases hleft : f.leftOut = true
    · rw [if_pos hleft, advance_of_leftOut w hleft]
      rfl
    · rw [if_neg hleft, advance_of_not_leftOut w hleft]
      rfl

/-- **The whole walk.** Induction on the filters, with the state of the walk left open. -/
theorem foldlM_step_eq_ok_iff {w w' : Walk} {filters : List Filter} :
    filters.foldlM step w = .ok w' ↔
      (∀ f ∈ filters, f.fits = true) ∧ w' = filters.foldl advance w := by
  -- whether a step succeeds does not depend on the state, so the conditions simply add up
  induction filters generalizing w with
  | nil =>
    rw [List.foldlM_nil, List.foldl_nil]
    constructor
    · intro h
      exact ⟨by simp, (Except.ok.inj h).symm⟩
    · rintro ⟨_, rfl⟩
      rfl
  | cons f fs ih =>
    rw [List.foldlM_cons, List.foldl_cons, bind_eq_ok_iff, List.forall_mem_cons]
    constructor
    · rintro ⟨w₁, hstep, hrest⟩
      obtain ⟨hfits, rfl⟩ := step_eq_ok_iff.mp hstep
      obtain ⟨hall, hw⟩ := ih.mp hrest
      exact ⟨⟨hfits, hall⟩, hw⟩
    · rintro ⟨⟨hfits, hall⟩, hw⟩
      exact ⟨w.advance f, step_eq_ok_iff.mpr ⟨hfits, rfl⟩, ih.mpr ⟨hall, hw⟩⟩

end Walk

namespace Predicate

/-- The predicates of filters that all fit. -/
def emitted (filters : List Filter) : List Predicate :=
  (filters.foldl Walk.advance {}).predicates.reverse

/-- **The predicates of the filters** are there iff every filter fits. -/
theorem ofFilters_eq_ok_iff {filters : List Filter} {ps : List Predicate} :
    ofFilters filters = .ok ps ↔ (∀ f ∈ filters, f.fits = true) ∧ ps = emitted filters := by
  unfold ofFilters
  rw [bind_eq_ok_iff]
  constructor
  · rintro ⟨w, hwalk, hps⟩
    obtain ⟨hfits, rfl⟩ := Walk.foldlM_step_eq_ok_iff.mp hwalk
    exact ⟨hfits, (Except.ok.inj hps).symm⟩
  · rintro ⟨hfits, rfl⟩
    exact ⟨_, Walk.foldlM_step_eq_ok_iff.mpr ⟨hfits, rfl⟩, rfl⟩

/-! ## Predicates and the filters they come from

Of the filter a predicate takes field, operator and operand as they are; only parentheses and the
connective are subject to what stands around it. -/

/-- What a predicate has from its filter alone. -/
def content (p : Predicate) : String × Operator × Operand := (p.field, p.operator, p.operand)

end Predicate

/-- What a filter hands on to its predicate whatever stands around it. -/
def Filter.content (f : Filter) : String × Operator × Operand := (f.field, f.operator, f.operand)

namespace Walk

/-- Handing back changes parentheses and connectives, but no content. -/
@[simp] theorem map_content_handBack (closes : UInt64) (connective : Connective) (depth : Int64)
    (ps : List Predicate) :
    (handBack closes connective depth ps).map Predicate.content = ps.map Predicate.content := by
  cases ps with
  | nil => rfl
  | cons p ps =>
    unfold handBack
    by_cases h : depth < p.depth
    · simp [h, Predicate.content]
    · simp [h, Predicate.content]

/-- A step adds what the filter hands on, if it is kept, and leaves what was there. -/
theorem map_content_advance (w : Walk) (f : Filter) :
    (w.advance f).predicates.map Predicate.content =
      (if f.leftOut then [] else [f.content]) ++ w.predicates.map Predicate.content := by
  by_cases hleft : f.leftOut = true
  · rw [advance_of_leftOut w hleft, if_pos hleft]
    exact map_content_handBack _ _ _ _
  · rw [advance_of_not_leftOut w hleft, if_neg hleft]
    rfl

/-- The same for a run. Induction on the filters with the start left open. -/
theorem map_content_foldl_advance (filters : List Filter) (w : Walk) :
    ((filters.foldl advance w).predicates.map Predicate.content).reverse =
      (w.predicates.map Predicate.content).reverse ++
        (filters.filter (!·.leftOut)).map Filter.content := by
  -- the predicates of the walk come last to first, so a filter that is kept is added at the end
  induction filters generalizing w with
  | nil => simp
  | cons f fs ih =>
    rw [List.foldl_cons, ih, map_content_advance]
    by_cases hleft : f.leftOut = true <;> simp [hleft]

end Walk

/-- **Nothing is lost and nothing is moved.** The predicates stand for the filters that are not left
out, in their order. -/
theorem Predicate.map_content_emitted (filters : List Filter) :
    (emitted filters).map content = (filters.filter (!·.leftOut)).map Filter.content := by
  unfold emitted
  rw [List.map_reverse, Walk.map_content_foldl_advance]
  rfl

/-! ## Filters that are all kept

Parentheses and connectives move only where a filter is left out. -/

/-- The predicate is the filter as it stands. -/
structure Predicate.Copies (f : Filter) (p : Predicate) : Prop where
  content : p.content = f.content
  opens : p.opens = f.opens
  closes : p.closes = f.closes
  connective : p.connective = f.connective

namespace Predicate.Copies

variable {f : Filter} {p : Predicate}

theorem field (h : Copies f p) : p.field = f.field := congrArg Prod.fst h.content

theorem operator (h : Copies f p) : p.operator = f.operator :=
  congrArg (fun c => c.2.1) h.content

theorem operand (h : Copies f p) : p.operand = f.operand := congrArg (fun c => c.2.2) h.content

end Predicate.Copies

/-- Without parentheses that wait, filters that are kept are added one by one as they stand. -/
theorem Walk.exists_copies {filters : List Filter} (hkept : ∀ f ∈ filters, f.leftOut = false)
    {w : Walk} (hpending : w.pending = 0) :
    ∃ ps, (filters.foldl advance w).predicates.reverse = w.predicates.reverse ++ ps ∧
      List.Forall₂ Predicate.Copies filters ps := by
  induction filters generalizing w with
  | nil => exact ⟨[], (List.append_nil _).symm, .nil⟩
  | cons f fs ih =>
    have hf : w.advance f = w.keep f f.operand :=
      advance_of_not_leftOut w (by simp [hkept f (by simp)])
    -- keeping a filter leaves no parenthesis waiting
    have hnext : (w.keep f f.operand).pending = 0 := rfl
    obtain ⟨ps, hps, hcopies⟩ := ih (fun g hg => hkept g (by simp [hg])) hnext
    let p : Predicate :=
      { field := f.field, operator := f.operator, operand := f.operand,
        opens := w.pending + f.opens, closes := f.closes, connective := f.connective,
        depth := w.depthBehind f }
    have hp : Predicate.Copies f p := ⟨rfl, by simp [p, hpending], rfl, rfl⟩
    refine ⟨p :: ps, ?_, .cons hp hcopies⟩
    rw [List.foldl_cons, hf, hps]
    show (p :: w.predicates).reverse ++ ps = _
    rw [List.reverse_cons, List.append_assoc, List.singleton_append]

/-- **Without left-out filters every filter becomes a predicate as it stands.** -/
theorem Predicate.copies_emitted {filters : List Filter}
    (hkept : ∀ f ∈ filters, f.leftOut = false) :
    List.Forall₂ Copies filters (emitted filters) := by
  obtain ⟨ps, hps, hcopies⟩ := Walk.exists_copies (w := {}) hkept rfl
  unfold emitted
  rw [hps]
  exact hcopies

/-- The query of criteria fails only where their filters do. -/
theorem Query.ofCriteria_eq_ok {criteria : Criteria} {ps : List Predicate}
    (hps : Predicate.ofFilters criteria.filters = .ok ps) (defaultSize : UInt64) :
    ofCriteria defaultSize criteria = .ok
      { sql := String.ofList (joinClauses
          [Predicate.clause ps, SortKey.clause criteria.sorts, criteria.page.clause defaultSize])
        arguments := ps.flatMap Predicate.arguments } := by
  unfold ofCriteria
  rw [bind_eq_ok_iff]
  exact ⟨ps, hps, rfl⟩

end FilterQuery

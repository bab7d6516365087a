import FilterQuery.Proofs.Query.Erasure

/-!
# Insertion

Left-out filters that are balanced among themselves leave the walk as it was, so that they may stand
anywhere between other filters (`Predicate.ofFilters_insert`). This does not ask how the others fit
together, not even whether something wraps around while they are counted. It only asks that nothing
does while the inserted ones are.

* `Walk.Ideal.foldl_advance_of_nonneg` is about ideal walks: nothing is handed back as long as no
  group is closed that the inserted filters have not opened.
* `Walk.depth_le_foldl_advance` is what it takes of the walk before them: the latest predicate knows
  how far out the walk has been. That holds of machine words that wrap around, too.
-/

namespace FilterQuery

/-- A value offers no alternative iff it is null or an empty list. -/
theorem Value.elements_eq_nil_iff {v : Value} :
    v.elements = [] ↔ v = .null ∨ ∃ xs, v = .list xs ∧ xs.toValues = [] := by
  cases v with
  | string s => simp [elements, List.splitOn_ne_nil]
  | null => simp [elements]
  | bool b => simp [elements]
  | int n => simp [elements]
  | float x => simp [elements]
  | list xs => simp [elements]

namespace Walk

/-! ## Balanced left-out filters -/

/-- Left-out filters that never close more groups than they have opened hand nothing back. Induction
from the end, since the groups that wait are those opened by all the filters before. -/
theorem Ideal.foldl_advance_of_nonneg {u : Ideal}
    (h : ∀ p ∈ u.predicates.head?, p.depth ≤ u.depth) {block : List Filter}
    (hleft : ∀ f ∈ block, f.leftOut = true)
    (hnonneg : ∀ before ∈ block.inits, 0 ≤ Filter.level before) :
    (block.foldl advance u).predicates = u.predicates ∧
      ((block.foldl advance u).pending : Int) = u.pending + Filter.level block := by
  induction block using List.reverseRecOn with
  | nil => exact ⟨rfl, (Int.add_zero _).symm⟩
  | append_singleton fs f ih =>
    obtain ⟨hpredicates, hpending⟩ := ih (fun g hg => hleft g (by simp [hg]))
      fun before hbefore => hnonneg before (by simp_all)
    have hlevel : 0 ≤ Filter.level (fs ++ [f]) := hnonneg _ (by simp)
    have hdepth := depth_foldl_advance u fs
    rw [Filter.level_append, Filter.level, Filter.level] at hlevel ⊢
    rw [List.foldl_append, List.foldl_cons, List.foldl_nil,
      advance_of_leftOut _ (hleft f (by simp))]
    -- all groups that the filter closes are among those that wait
    have hcloses :
        f.closes.toNat - ((fs.foldl advance u).pending + f.opens.toNat) = 0 := by omega
    have hknown : ∀ p ∈ u.predicates.head?,
        p.depth ≤ (fs.foldl advance u).depthBehind f := by
      intro p hp
      have := h p hp
      unfold depthBehind
      omega
    unfold skip
    constructor
    · show handBack _ _ _ _ = _
      rw [hcloses, hpredicates, handBack_zero _ hknown]
    · show (((fs.foldl advance u).pending + f.opens.toNat - f.closes.toNat : Nat) : Int) = _
      omega

/-- Balanced left-out filters leave an ideal walk as it was. -/
theorem Ideal.foldl_advance_of_balanced {u : Ideal}
    (h : ∀ p ∈ u.predicates.head?, p.depth ≤ u.depth) {block : List Filter}
    (hleft : ∀ f ∈ block, f.leftOut = true) (hbalanced : Filter.Balanced block) :
    block.foldl advance u = u := by
  obtain ⟨hpredicates, hpending⟩ := foldl_advance_of_nonneg h hleft hbalanced.nonneg
  have hdepth := depth_foldl_advance u block
  rw [hbalanced.closed] at hpending hdepth
  generalize block.foldl advance u = u' at hpredicates hpending hdepth
  obtain ⟨predicates, pending, depth⟩ := u
  obtain ⟨predicates', pending', depth'⟩ := u'
  simp only [Int.add_zero, Int.natCast_inj] at hpredicates hpending hdepth
  rw [hpredicates, hpending, hdepth]

/-! ## In machine words -/

/-- The latest predicate stands as far out as the walk does, whatever has been counted: a filter
that leads further out takes it along. -/
theorem depth_le_advance (w : Walk) (f : Filter) :
    ∀ p ∈ (w.advance f).predicates.head?, p.depth ≤ (w.advance f).depth := by
  by_cases hleft : f.leftOut = true
  · rw [advance_of_leftOut w hleft]
    cases hpredicates : w.predicates with
    | nil =>
      intro q hq
      rw [skip, hpredicates] at hq
      cases hq
    | cons p ps =>
      intro q hq
      simp only [skip, hpredicates, handBack, List.head?_cons, Option.mem_some_iff] at hq
      -- a predicate further in than the walk is taken out to where the walk is
      by_cases hdepth : w.depthBehind f < p.depth
      · rw [if_pos hdepth] at hq
        subst hq
        exact Int64.le_refl _
      · rw [if_neg hdepth] at hq
        subst hq
        exact Int64.not_lt.mp hdepth
  · rw [advance_of_not_leftOut w hleft]
    intro p hp
    obtain rfl := Option.some.inj hp
    exact Int64.le_refl _

theorem depth_le_foldl_advance {w : Walk} (h : ∀ p ∈ w.predicates.head?, p.depth ≤ w.depth)
    (filters : List Filter) :
    ∀ p ∈ (filters.foldl advance w).predicates.head?,
      p.depth ≤ (filters.foldl advance w).depth := by
  induction filters generalizing w with
  | nil => exact h
  | cons f fs ih =>
    rw [List.foldl_cons]
    exact ih (depth_le_advance w f)

/-- **Balanced left-out filters leave the walk as it was** if nothing wraps around while they are
counted. -/
theorem foldl_advance_of_balanced {w : Walk} (h : ∀ p ∈ w.predicates.head?, p.depth ≤ w.depth)
    {block : List Filter} (hleft : ∀ f ∈ block, f.leftOut = true)
    (hbalanced : Filter.Balanced block) (hexact : w.ExactOver block) :
    block.foldl advance w = w := by
  -- both walks are compared as the ideal walks that they stand for
  apply ideal_inj.mp
  rw [ideal_foldl_advance hexact]
  apply Ideal.foldl_advance_of_balanced _ hleft hbalanced
  intro p hp
  rw [ideal, List.head?_map] at hp
  obtain ⟨q, hq, rfl⟩ := Option.map_eq_some_iff.mp hp
  exact Int64.le_iff_toInt_le.mp (h q hq)

end Walk

theorem Filter.fits_of_leftOut {f : Filter} (h : f.leftOut = true) : f.fits = true := by
  unfold leftOut at h
  unfold fits
  rw [(Bool.and_eq_true_iff.mp h).1, Bool.true_or]

namespace Predicate

/-- **Empty list filters may stand anywhere.** Left-out filters that are balanced among themselves
can be put in between any other filters, and nothing changes, be it the predicates or the complaint:
not even where groups are left open or are closed by other left-out filters nearby. Only the
counters must have room for the groups that are put in, where the walk comes to them at all. -/
theorem ofFilters_insert {block : List Filter}
    (hempty : ∀ f ∈ block, f.operator.takesList = true ∧
      (f.value = .null ∨ ∃ xs, f.value = .list xs ∧ xs.toValues = []))
    (hbalanced : Filter.Balanced block) (before after : List Filter)
    (hexact : ∀ w, before.foldlM Walk.step {} = .ok w → w.ExactOver block) :
    ofFilters (before ++ block ++ after) = ofFilters (before ++ after) ∧
      ∀ defaultSize sorts page,
        Query.ofCriteria defaultSize { filters := before ++ block ++ after, sorts, page } =
          Query.ofCriteria defaultSize { filters := before ++ after, sorts, page } := by
  have hleft : ∀ f ∈ block, f.leftOut = true := by
    intro f hf
    obtain ⟨hop, hvalue⟩ := hempty f hf
    rw [Filter.leftOut, hop, Value.elements_eq_nil_iff.mpr hvalue]
    rfl
  have hpredicates : ofFilters (before ++ block ++ after) = ofFilters (before ++ after) := by
    unfold ofFilters
    rw [List.append_assoc, List.foldlM_append, List.foldlM_append]
    -- a complaint about the filters before comes first in both cases
    cases hwalk : before.foldlM Walk.step {} with
    | error e => rfl
    | ok w =>
      have hroom := hexact w hwalk
      obtain ⟨-, rfl⟩ := Walk.foldlM_step_eq_ok_iff.mp hwalk
      have hstart : ∀ p ∈ ({} : Walk).predicates.head?, p.depth ≤ ({} : Walk).depth := by
        intro p hp
        cases hp
      -- the walk behind the other filters is one that knows how far out it has been
      have hknown := Walk.depth_le_foldl_advance hstart before
      have hblock : block.foldlM Walk.step (before.foldl Walk.advance {}) =
          .ok (before.foldl Walk.advance {}) := by
        rw [Walk.foldlM_step_eq_ok_iff,
          Walk.foldl_advance_of_balanced hknown hleft hbalanced hroom]
        exact ⟨fun f hf => Filter.fits_of_leftOut (hleft f hf), rfl⟩
      show (List.foldlM Walk.step _ (block ++ after) >>= _) = _
      rw [List.foldlM_append, hblock]
  refine ⟨hpredicates, ?_⟩
  intro defaultSize sorts page
  unfold Query.ofCriteria
  rw [hpredicates]

/-- The block stands inside a group that a left-out filter has opened and another one closes. -/
theorem ofFilters_insert_between_leftOut :
    let before : List Filter :=
      [{ field := "a", operator := .equal, value := .int 1, key := some .or },
        { field := "s", operator := .isIn, opens := 1, key := some .and }]
    let block : List Filter :=
      [{ field := "u", operator := .isIn, opens := 2, closes := 1, key := some .or },
        { field := "v", operator := .notIn, value := .list (.strings []), closes := 1 }]
    let after : List Filter :=
      [{ field := "t", operator := .isIn, closes := 1, key := some .and },
        { field := "b", operator := .less, value := .string "z" }]
    Filter.Balanced block ∧ (∀ w, before.foldlM Walk.step {} = .ok w → w.ExactOver block) ∧
      ofFilters (before ++ block ++ after) = ofFilters (before ++ after) ∧
      ∃ ps, ofFilters (before ++ after) = .ok ps ∧ clause ps = "WHERE a = $1 OR b < $2".toList := by
  intro before block after
  have hempty : ∀ f ∈ block, f.operator.takesList = true ∧
      (f.value = .null ∨ ∃ xs, f.value = .list xs ∧ xs.toValues = []) := by
    intro f hf
    simp only [block, List.mem_cons, List.not_mem_nil, or_false] at hf
    rcases hf with rfl | rfl
    · exact ⟨rfl, .inl rfl⟩
    · exact ⟨rfl, .inr ⟨_, rfl, rfl⟩⟩
  have hbalanced : Filter.Balanced block := by decide
  have hexact : ∀ w, before.foldlM Walk.step {} = .ok w → w.ExactOver block := by
    intro w hw
    obtain ⟨-, rfl⟩ := Walk.foldlM_step_eq_ok_iff.mp hw
    decide
  exact ⟨hbalanced, hexact, (ofFilters_insert hempty hbalanced before after hexact).1, _, rfl,
    by decide⟩

/-- Without room the filters that are put in do leave a trace. As a signed number the greatest count
of groups that a word can hold is `-1`: the depth falls between the two filters of the block, and
the predicate in front of them takes the connective that stands there. -/
theorem ofFilters_insert_ne_of_overflow :
    let before : List Filter := [{ field := "a", operator := .equal, value := .int 1 }]
    let block : List Filter :=
      [{ field := "b", operator := .isIn, opens := 18446744073709551615, key := some .or },
        { field := "c", operator := .notIn, closes := 18446744073709551615 }]
    let after : List Filter := [{ field := "d", operator := .equal, value := .int 4 }]
    (∀ f ∈ block, f.operator.takesList = true ∧ f.value = .null) ∧ Filter.Balanced block ∧
      (∃ ps, ofFilters (before ++ after) = .ok ps ∧
        clause ps = "WHERE a = $1 AND d = $2".toList) ∧
      ∃ ps, ofFilters (before ++ block ++ after) = .ok ps ∧
        clause ps = "WHERE a = $1 OR d = $2".toList := by
  intro before block after
  refine ⟨?_, by decide, ⟨_, rfl, by decide⟩, ⟨_, rfl, by decide⟩⟩
  intro f hf
  simp only [block, List.mem_cons, List.not_mem_nil, or_false] at hf
  rcases hf with rfl | rfl
  · exact ⟨rfl, rfl⟩
  · exact ⟨rfl, rfl⟩

end Predicate

end FilterQuery

import FilterQuery.Proofs.Query.Erasure

/-!
# Gaps

Filters that are left out make gaps between the predicates. What is written in a gap depends on how
the number of open groups runs through it. A *place* is a number of filters, and stands for the
place behind that many of them; `Filter.depthAt` counts the groups that are open there, whether or
not they fit together. The walk remembers nothing but the outermost place of a gap, and of several
such places the first one (`Filter.IsOutermost`):

* `Walk.Ideal.exists_gap` is the run through a gap, with `Walk.Ideal.Gap.step` for one more left-out
  filter: the groups opened since the outermost place are waiting, and those closed up to it have
  been handed back together with the connective that stands there.
* `Predicate.Ideal.exists_both_sides` says what this makes of the predicates at both sides of a gap,
  `exists_first` of the one behind the first gap, and `exists_last` of the one in front of the last.
* `Predicate.gaps_ofFilters` takes these over to the predicates that the filters make, if nothing
  wraps around.
-/

namespace FilterQuery

/-! ## Places -/

namespace Filter

/-- How many groups are open at a place. The number is negative where more groups have been closed
than opened. -/
def depthAt (filters : List Filter) (place : Nat) : Int := level (filters.take place)

/-- The place `i` is the first one of those from `a` to `b` where the least number of groups is
open. -/
structure IsOutermost (filters : List Filter) (a b i : Nat) : Prop where
  le_place : a ≤ i
  place_le : i ≤ b
  least : ∀ j, a ≤ j → j ≤ b → depthAt filters i ≤ depthAt filters j
  first : ∀ j, a ≤ j → j < i → depthAt filters i < depthAt filters j

/-- The filters between two places are all left out. -/
def LeftOutBetween (filters : List Filter) (a b : Nat) : Prop :=
  ∀ j, a ≤ j → j < b → ∀ f ∈ filters[j]?, f.leftOut = true

/-- How many of the filters in front of a place are not left out. -/
def keptBefore (filters : List Filter) (place : Nat) : Nat :=
  ((filters.take place).filter (!·.leftOut)).length

variable {filters : List Filter} {a b i n : Nat} {f : Filter}

theorem depthAt_succ (h : filters[n]? = some f) :
    depthAt filters (n + 1) = depthAt filters n + f.opens.toNat - f.closes.toNat := by
  unfold depthAt
  rw [List.take_add_one, h, Option.toList_some, level_append, level, level]
  omega

theorem isOutermost_self (filters : List Filter) (a : Nat) : IsOutermost filters a a a where
  le_place := Nat.le_refl a
  place_le := Nat.le_refl a
  least := by
    intro j haj hja
    obtain rfl := Nat.le_antisymm hja haj
    exact Int.le_refl _
  first := by
    intro j haj hja
    omega

/-- A place further out than all before it is the outermost one. -/
theorem IsOutermost.succ_of_lt (h : IsOutermost filters a b i)
    (hlt : depthAt filters (b + 1) < depthAt filters i) :
    IsOutermost filters a (b + 1) (b + 1) where
  le_place := Nat.le_succ_of_le (Nat.le_trans h.le_place h.place_le)
  place_le := Nat.le_refl _
  least := by
    intro j haj hjb
    -- every other place is one of the old range, where nothing is further out
    rcases Nat.lt_succ_iff_lt_or_eq.mp (Nat.lt_succ_of_le hjb) with hj | rfl
    · exact Int.le_of_lt (Int.lt_of_lt_of_le hlt (h.least j haj (Nat.le_of_lt_succ hj)))
    · exact Int.le_refl _
  first := by
    intro j haj hjb
    exact Int.lt_of_lt_of_le hlt (h.least j haj (Nat.le_of_lt_succ hjb))

/-- A place that is not further out changes nothing. -/
theorem IsOutermost.succ_of_le (h : IsOutermost filters a b i)
    (hle : depthAt filters i ≤ depthAt filters (b + 1)) : IsOutermost filters a (b + 1) i where
  le_place := h.le_place
  place_le := Nat.le_succ_of_le h.place_le
  least := by
    intro j haj hjb
    rcases Nat.lt_succ_iff_lt_or_eq.mp (Nat.lt_succ_of_le hjb) with hj | rfl
    · exact h.least j haj (Nat.le_of_lt_succ hj)
    · exact hle
  first := h.first

end Filter

namespace Walk.Ideal

open FilterQuery.Filter (depthAt IsOutermost LeftOutBetween keptBefore)

/-! ## The walk at a place -/

/-- The state of the walk at a place. -/
def behind (filters : List Filter) (place : Nat) : Ideal := (filters.take place).foldl advance {}

variable {filters : List Filter} {a n p q : Nat} {f g : Filter}

theorem behind_zero (filters : List Filter) : behind filters 0 = {} := by
  unfold behind
  rw [List.take_zero, List.foldl_nil]

theorem behind_succ (h : filters[n]? = some f) :
    behind filters (n + 1) = (behind filters n).advance f := by
  unfold behind
  rw [List.take_add_one, h, Option.toList_some, List.foldl_append, List.foldl_cons, List.foldl_nil]

theorem settled_foldl_advance (filters : List Filter) :
    Settled (filters.foldl advance {}) := by
  -- the signs of the filters one by one keep the walk settled
  rw [← foldl_read_flatMap_marks settled_start]
  exact settled_start.foldl_read _

/-- The depth of the walk is that of the place. -/
theorem depth_behind (filters : List Filter) (place : Nat) :
    (behind filters place).depth = depthAt filters place := by
  unfold behind depthAt
  rw [depth_foldl_advance]
  exact Int.zero_add _

theorem length_predicates_advance (u : Ideal) (f : Filter) :
    (u.advance f).predicates.length =
      u.predicates.length + if f.leftOut then 0 else 1 := by
  by_cases hleft : f.leftOut = true
  · rw [advance_of_leftOut u hleft, if_pos hleft]
    show (handBack _ _ _ u.predicates).length = _
    cases u.predicates <;> rfl
  · rw [advance_of_not_leftOut u hleft, if_neg hleft]
    rfl

theorem length_predicates_foldl_advance (u : Ideal) (filters : List Filter) :
    (filters.foldl advance u).predicates.length =
      u.predicates.length + (filters.filter (!·.leftOut)).length := by
  -- every filter that is kept adds one predicate
  induction filters generalizing u with
  | nil => rfl
  | cons f fs ih =>
    rw [List.foldl_cons, ih, length_predicates_advance]
    by_cases hleft : f.leftOut = true
    · simp [hleft]
    · simp [hleft, Nat.add_assoc, Nat.add_comm]

/-- The predicates at a place stand for the filters in front of it that are kept. -/
theorem length_predicates_behind (filters : List Filter) (place : Nat) :
    (behind filters place).predicates.length = keptBefore filters place := by
  unfold behind keptBefore
  rw [length_predicates_foldl_advance]
  exact Nat.zero_add _

/-! ## Through a gap -/

/-- What the walk has come to at the place `n`, with nothing waiting at the place `a` and all
filters in between left out: `i` is the outermost place since then, and `joint` is the connective
there. -/
structure Gap (filters : List Filter) (a n i : Nat) (joint : Connective) : Prop where
  outermost : IsOutermost filters a n i
  joint_eq : ∀ j, a ≤ j → i = j + 1 → filters[j]?.map Filter.connective = some joint
  pending : ((behind filters n).pending : Int) = depthAt filters n - depthAt filters i
  predicates : (behind filters n).predicates =
    handBack (depthAt filters a - depthAt filters i).toNat joint (depthAt filters i)
      (behind filters a).predicates

theorem gap_start (h : (behind filters a).pending = 0) : Gap filters a a a .and where
  outermost := Filter.isOutermost_self filters a
  joint_eq := by
    intro j haj hja
    omega
  pending := by
    rw [h]
    omega
  predicates := by
    have hdepth : ∀ p ∈ (behind filters a).predicates.head?, p.depth ≤ depthAt filters a := by
      intro p hp
      have hsettled := settled_foldl_advance (filters.take a) p hp
      have hbehind := depth_behind filters a
      unfold behind at hbehind
      omega
    rw [Int.sub_self, Int.toNat_zero, handBack_zero _ hdepth]

/-- **One more left-out filter** either leads to a new outermost place, whose connective it has, or
leaves everything as it was but for what is waiting. -/
theorem Gap.step {i : Nat} {joint : Connective} (h : Gap filters a n i joint)
    (hf : filters[n]? = some f) (hleft : f.leftOut = true) :
    ∃ i' joint', Gap filters a (n + 1) i' joint' := by
  have hdepth := Filter.depthAt_succ hf
  have hnext : behind filters (n + 1) = (behind filters n).skip f := by
    rw [behind_succ hf, advance_of_leftOut _ hleft]
  have hpredicates : (behind filters (n + 1)).predicates =
      handBack (f.closes.toNat - ((behind filters n).pending + f.opens.toNat)) f.connective
        (depthAt filters (n + 1)) (behind filters n).predicates := by
    rw [hnext, hdepth, ← depth_behind filters n]
    rfl
  have hwaiting : (behind filters (n + 1)).pending =
      (behind filters n).pending + f.opens.toNat - f.closes.toNat := by
    rw [hnext]
    rfl
  have hpending := h.pending
  by_cases hlt : depthAt filters (n + 1) < depthAt filters i
  · refine ⟨n + 1, f.connective, h.outermost.succ_of_lt hlt, ?_, ?_, ?_⟩
    · intro j _ hj
      obtain rfl : n = j := by omega
      rw [hf]
      rfl
    · rw [hwaiting]
      omega
    · -- the groups closed beyond the old outermost place are handed back on top of the others
      have hle := h.outermost.least a (Nat.le_refl a)
        (Nat.le_trans h.outermost.le_place h.outermost.place_le)
      have hcloses : (depthAt filters a - depthAt filters i).toNat +
          (f.closes.toNat - ((behind filters n).pending + f.opens.toNat)) =
          (depthAt filters a - depthAt filters (n + 1)).toNat := by
        omega
      rw [hpredicates, h.predicates, handBack_handBack _ _ (.inl hlt), hcloses]
  · have hle : depthAt filters i ≤ depthAt filters (n + 1) := Int.not_lt.mp hlt
    refine ⟨i, joint, h.outermost.succ_of_le hle, h.joint_eq, ?_, ?_⟩
    · rw [hwaiting]
      omega
    · have hcloses : f.closes.toNat - ((behind filters n).pending + f.opens.toNat) = 0 := by omega
      have hknown : ∀ p ∈ (behind filters n).predicates.head?,
          p.depth ≤ depthAt filters (n + 1) := by
        intro p hp
        have hsettled := settled_foldl_advance (filters.take n) p hp
        have hbehind := depth_behind filters n
        unfold behind at hbehind hpending
        omega
      rw [hpredicates, hcloses, handBack_zero _ hknown, h.predicates]

/-- **A whole gap.** -/
theorem exists_gap (hstart : (behind filters a).pending = 0) (han : a ≤ n)
    (hn : n ≤ filters.length) (hgap : LeftOutBetween filters a n) :
    ∃ i joint, Gap filters a n i joint := by
  -- the gap grows by one place at a time, from an empty one on
  induction n, han using Nat.le_induction with
  | base => exact ⟨a, .and, gap_start hstart⟩
  | succ n han ih =>
    have hf : filters[n]? = some filters[n] := List.getElem?_eq_getElem hn
    obtain ⟨i, joint, hi⟩ := ih (by omega) fun j haj hjn => hgap j haj (by omega)
    exact hi.step hf (hgap n han (by omega) _ hf)

/-! ## A predicate and the gap behind it -/

theorem behind_succ_of_kept (hf : filters[p]? = some f) (hkept : f.leftOut = false) :
    behind filters (p + 1) = (behind filters p).keep f := by
  rw [behind_succ hf, advance_of_not_leftOut _ (by simp [hkept])]

/-- The predicate `p` of the filter `f` at the place `p` when the gap behind it reaches to the place
`n`. The connective and the depth are those of the filter in front of the outermost place. -/
structure AtGap (filters : List Filter) (p n : Nat) (f : Filter) (i : Nat) (P : Predicate.Ideal) :
    Prop where
  outermost : IsOutermost filters (p + 1) n (i + 1)
  content : P.content = f.content
  opens : P.opens = (behind filters p).pending + f.opens.toNat
  closes : (P.closes : Int) = f.closes.toNat + (depthAt filters (p + 1) - depthAt filters (i + 1))
  connective : filters[i]?.map Filter.connective = some P.connective
  pending : ((behind filters n).pending : Int) = depthAt filters n - depthAt filters (i + 1)
  predicates : (behind filters n).predicates = P :: (behind filters p).predicates

theorem exists_atGap (hf : filters[p]? = some f) (hkept : f.leftOut = false) (hpn : p < n)
    (hn : n ≤ filters.length) (hgap : LeftOutBetween filters (p + 1) n) :
    ∃ i P, AtGap filters p n f i P := by
  have hkeep := behind_succ_of_kept hf hkept
  have hstart : (behind filters (p + 1)).pending = 0 := by
    rw [hkeep]
    rfl
  obtain ⟨i, joint, houtermost, hjoint, hpending, hpredicates⟩ := exists_gap hstart hpn hn hgap
  obtain ⟨i, rfl⟩ : ∃ j, i = j + 1 := ⟨i - 1, by have := houtermost.le_place; omega⟩
  have hdepth : (behind filters p).depthBehind f = depthAt filters (p + 1) := by
    rw [depthBehind, depth_behind, Filter.depthAt_succ hf]
  have hle := houtermost.least (p + 1) (Nat.le_refl _) hpn
  rw [hkeep] at hpredicates
  unfold keep handBack at hpredicates
  simp only [hdepth] at hpredicates
  by_cases hlt : depthAt filters (i + 1) < depthAt filters (p + 1)
  · -- the predicate has given up its connective somewhere in the gap
    have hne : p ≠ i := by
      rintro rfl
      omega
    have hpi : p + 1 ≤ i := by
      have := houtermost.le_place
      omega
    rw [if_pos hlt] at hpredicates
    refine ⟨i, _, houtermost, rfl, rfl, ?_, hjoint i hpi rfl, hpending, hpredicates⟩
    show ((f.closes.toNat + _ : Nat) : Int) = _
    omega
  · have heq : depthAt filters (i + 1) = depthAt filters (p + 1) := by omega
    have hplace : p = i := by
      by_contra hne
      have hlt' := houtermost.first (p + 1) (Nat.le_refl _)
        (by have := houtermost.le_place; omega)
      omega
    subst hplace
    rw [if_neg hlt] at hpredicates
    refine ⟨p, _, houtermost, rfl, rfl, ?_, ?_, hpending, hpredicates⟩
    · show ((f.closes.toNat + _ : Nat) : Int) = _
      omega
    · rw [hf]
      rfl

/-! ## What comes later -/

/-- Only the latest predicate changes later on, and of that one only how it is closed and joined. -/
theorem exists_foldl_advance (filters : List Filter) {u : Ideal} {P : Predicate.Ideal}
    {ps : List Predicate.Ideal} (h : u.predicates = P :: ps) :
    ∃ P' more, (filters.foldl advance u).predicates.reverse = ps.reverse ++ P' :: more ∧
      P'.content = P.content ∧ P'.opens = P.opens := by
  induction filters generalizing u P ps with
  | nil =>
    refine ⟨P, [], ?_, rfl, rfl⟩
    rw [List.foldl_nil, h, List.reverse_cons]
  | cons f fs ih =>
    rw [List.foldl_cons]
    by_cases hleft : f.leftOut = true
    · obtain ⟨P₁, hP₁, hcontent, hopens⟩ : ∃ P₁, (u.advance f).predicates = P₁ :: ps ∧
          P₁.content = P.content ∧ P₁.opens = P.opens := by
        rw [advance_of_leftOut u hleft]
        unfold skip handBack
        rw [h]
        simp only
        split
        · exact ⟨_, rfl, rfl, rfl⟩
        · exact ⟨_, rfl, rfl, rfl⟩
      obtain ⟨P', more, hreverse, hcontent', hopens'⟩ := ih hP₁
      exact ⟨P', more, hreverse, hcontent'.trans hcontent, hopens'.trans hopens⟩
    · -- a new predicate comes on top, and this one is out of reach
      obtain ⟨Q, hnext⟩ : ∃ Q, (u.advance f).predicates = Q :: u.predicates := by
        rw [advance_of_not_leftOut u hleft]
        exact ⟨_, rfl⟩
      obtain ⟨Q', more, hreverse, -, -⟩ := ih hnext
      refine ⟨P, Q' :: more, ?_, rfl, rfl⟩
      rw [hreverse, h, List.reverse_cons, List.append_assoc, List.singleton_append]

/-- The predicates are those of the walk that is cut at a place and goes on there. -/
theorem emitted_eq_foldl_drop (filters : List Filter) (place : Nat) :
    Predicate.Ideal.emitted filters =
      ((filters.drop place).foldl advance (behind filters place)).predicates.reverse := by
  unfold Predicate.Ideal.emitted behind
  rw [← List.foldl_append, List.take_append_drop]

/-- The predicate of a filter that is kept stands behind those that were there before. -/
theorem exists_emitted_eq (hf : filters[p]? = some f) (hkept : f.leftOut = false) :
    ∃ P more, Predicate.Ideal.emitted filters = (behind filters p).predicates.reverse ++ P :: more ∧
      P.content = f.content ∧ P.opens = (behind filters p).pending + f.opens.toNat := by
  have hpredicates := congrArg Ideal.predicates (behind_succ_of_kept hf hkept)
  obtain ⟨P, more, hreverse, hcontent, hopens⟩ :=
    exists_foldl_advance (filters.drop (p + 1)) hpredicates
  rw [emitted_eq_foldl_drop filters (p + 1)]
  exact ⟨P, more, hreverse, hcontent, hopens⟩

end Walk.Ideal

namespace Predicate

open FilterQuery.Filter (depthAt IsOutermost LeftOutBetween keptBefore)

variable {filters : List Filter} {p q : Nat} {f g : Filter}

/-! ## The gap law -/

/-- **Around a gap** the first predicate closes as many groups more as lead to the outermost place,
and is joined by the connective of the first filter there; the second one opens as many groups more
as lead back. -/
theorem Ideal.exists_around_gap (hf : filters[p]? = some f) (hkeptf : f.leftOut = false)
    (hg : filters[q]? = some g) (hkeptg : g.leftOut = false) (hpq : p < q)
    (hgap : LeftOutBetween filters (p + 1) q) :
    ∃ i P Q, (emitted filters)[keptBefore filters p]? = some P ∧
      (emitted filters)[keptBefore filters p + 1]? = some Q ∧
      P.content = f.content ∧ Q.content = g.content ∧ IsOutermost filters (p + 1) q (i + 1) ∧
      filters[i]?.map Filter.connective = some P.connective ∧
      (P.closes : Int) =
        f.closes.toNat + (depthAt filters (p + 1) - depthAt filters (i + 1)) ∧
      (Q.opens : Int) = (depthAt filters q - depthAt filters (i + 1)) + g.opens.toNat := by
  have hq : q < filters.length := (List.getElem?_eq_some_iff.mp hg).1
  obtain ⟨i, P, hP⟩ := Walk.Ideal.exists_atGap hf hkeptf hpq (Nat.le_of_lt hq) hgap
  -- the place `q` is the end of the gap behind `f`, and what waits there is opened in front of `g`
  obtain ⟨Q, more, hemitted, hcontent, hopens⟩ := Walk.Ideal.exists_emitted_eq hg hkeptg
  have hpending := hP.pending
  have hlength := Walk.Ideal.length_predicates_behind filters p
  rw [hP.predicates, List.reverse_cons, List.append_assoc, List.singleton_append] at hemitted
  refine ⟨i, P, Q, ?_, ?_, hP.content, hcontent, hP.outermost, hP.connective, hP.closes, ?_⟩
  · rw [hemitted, ← hlength]
    simp
  · rw [hemitted, ← hlength]
    simp
  · rw [hopens]
    omega

/-- **Behind the first gap** the predicate opens the groups that left-out filters in front of it
have opened since the outermost place. -/
theorem Ideal.exists_head (hg : filters[q]? = some g) (hkept : g.leftOut = false)
    (hgap : LeftOutBetween filters 0 q) :
    ∃ i Q, (emitted filters).head? = some Q ∧ Q.content = g.content ∧ IsOutermost filters 0 q i ∧
      (Q.opens : Int) = g.opens.toNat + (depthAt filters q - depthAt filters i) := by
  have hq : q < filters.length := (List.getElem?_eq_some_iff.mp hg).1
  have hstart : (Walk.Ideal.behind filters 0).pending = 0 := by
    rw [Walk.Ideal.behind_zero]
  obtain ⟨i, joint, hi⟩ :=
    Walk.Ideal.exists_gap hstart (Nat.zero_le q) (Nat.le_of_lt hq) hgap
  obtain ⟨Q, more, hemitted, hcontent, hopens⟩ := Walk.Ideal.exists_emitted_eq hg hkept
  -- in front of the first predicate there is none to hand anything back to
  have hnone : (Walk.Ideal.behind filters q).predicates = [] := by
    rw [hi.predicates, Walk.Ideal.behind_zero]
    rfl
  -- with none to hand back to, all that counts is what waits
  have hpending := hi.pending
  refine ⟨i, Q, ?_, hcontent, hi.outermost, ?_⟩
  · rw [hemitted, hnone]
    rfl
  · rw [hopens]
    omega

/-- **In front of the last gap** the predicate closes the groups that left-out filters behind it
close down to the outermost place. What still waits in the end is dropped. -/
theorem Ideal.exists_last (hf : filters[p]? = some f) (hkept : f.leftOut = false)
    (hgap : LeftOutBetween filters (p + 1) filters.length) :
    ∃ i P, (emitted filters).getLast? = some P ∧ P.content = f.content ∧
      IsOutermost filters (p + 1) filters.length i ∧
      (P.closes : Int) = f.closes.toNat + (depthAt filters (p + 1) - depthAt filters i) := by
  have hp : p < filters.length := (List.getElem?_eq_some_iff.mp hf).1
  obtain ⟨i, P, hP⟩ := Walk.Ideal.exists_atGap hf hkept hp (Nat.le_refl _) hgap
  refine ⟨i + 1, P, ?_, hP.content, hP.outermost, hP.closes⟩
  rw [Walk.Ideal.emitted_eq_foldl_drop filters filters.length, List.drop_length, List.foldl_nil,
    hP.predicates, List.reverse_cons, List.getLast?_append_cons, List.getLast?_singleton]

/-- **The gap law.** The predicates are those of the filters that are kept, in their order. If
nothing wraps around, then between two that follow each other the first one closes as many groups
more as lead to the outermost place of the gap, and is joined by the connective of the first filter
there; the second one opens as many groups more as lead back. The first predicate opens the groups
that left-out filters in front of it have opened since the outermost place, and the last predicate
closes those that left-out filters behind it close down to the outermost place. -/
theorem gaps_ofFilters {filters : List Filter} {ps : List Predicate}
    (h : ofFilters filters = .ok ps) :
    ps.map content = (filters.filter (!·.leftOut)).map Filter.content ∧
    (Walk.ExactOver {} filters →
      (∀ p q f g, filters[p]? = some f → f.leftOut = false → filters[q]? = some g →
        g.leftOut = false → p < q → LeftOutBetween filters (p + 1) q →
        ∃ i P Q, ps[keptBefore filters p]? = some P ∧ ps[keptBefore filters p + 1]? = some Q ∧
          P.content = f.content ∧ Q.content = g.content ∧
          IsOutermost filters (p + 1) q (i + 1) ∧
          filters[i]?.map Filter.connective = some P.connective ∧
          (P.closes.toNat : Int) =
            f.closes.toNat + (depthAt filters (p + 1) - depthAt filters (i + 1)) ∧
          (Q.opens.toNat : Int) =
            (depthAt filters q - depthAt filters (i + 1)) + g.opens.toNat) ∧
      (∀ q g, filters[q]? = some g → g.leftOut = false → LeftOutBetween filters 0 q →
        ∃ i Q, ps.head? = some Q ∧ Q.content = g.content ∧ IsOutermost filters 0 q i ∧
          (Q.opens.toNat : Int) = g.opens.toNat + (depthAt filters q - depthAt filters i)) ∧
      (∀ p f, filters[p]? = some f → f.leftOut = false →
        LeftOutBetween filters (p + 1) filters.length →
        ∃ i P, ps.getLast? = some P ∧ P.content = f.content ∧
          IsOutermost filters (p + 1) filters.length i ∧
          (P.closes.toNat : Int) =
            f.closes.toNat + (depthAt filters (p + 1) - depthAt filters i))) := by
  obtain ⟨-, rfl⟩ := ofFilters_eq_ok_iff.mp h
  refine ⟨map_content_emitted filters, fun hexact => ?_⟩
  have hideal := map_ideal_emitted hexact
  refine ⟨?_, ?_, ?_⟩
  · intro p q f g hf hkeptf hg hkeptg hpq hgap
    obtain ⟨i, P', Q', hP, hQ, hrest⟩ :=
      Ideal.exists_around_gap hf hkeptf hg hkeptg hpq hgap
    rw [← hideal, List.getElem?_map] at hP hQ
    obtain ⟨P, hP', rfl⟩ := Option.map_eq_some_iff.mp hP
    obtain ⟨Q, hQ', rfl⟩ := Option.map_eq_some_iff.mp hQ
    exact ⟨i, P, Q, hP', hQ', hrest⟩
  · intro q g hg hkept hgap
    obtain ⟨i, Q', hQ, hrest⟩ := Ideal.exists_head hg hkept hgap
    rw [← hideal, List.head?_map] at hQ
    obtain ⟨Q, hQ', rfl⟩ := Option.map_eq_some_iff.mp hQ
    exact ⟨i, Q, hQ', hrest⟩
  · intro p f hf hkept hgap
    obtain ⟨i, P', hP, hrest⟩ := Ideal.exists_last hf hkept hgap
    rw [← hideal, List.getLast?_map] at hP
    obtain ⟨P, hP', rfl⟩ := Option.map_eq_some_iff.mp hP
    exact ⟨i, P, hP', hrest⟩

/-- The groups do not fit together here. The gap between `a` and `b` has its outermost place twice,
behind `u` and behind `w`, and then leads further in again. -/
theorem gaps_ofFilters_of_unbalanced :
    let filters : List Filter :=
      [{ field := "s", operator := .isIn, opens := 2, closes := 3 },
        { field := "t", operator := .notIn, opens := 1 },
        { field := "a", operator := .equal, value := .int 1, opens := 1, key := some .and },
        { field := "u", operator := .isIn, closes := 3, key := some .or },
        { field := "v", operator := .isIn, opens := 1, key := some .and },
        { field := "w", operator := .notIn, closes := 1, key := some .and },
        { field := "x", operator := .notIn, opens := 2, key := some .and },
        { field := "b", operator := .isIn, value := .string "p,q", opens := 1, closes := 1 },
        { field := "y", operator := .isIn, opens := 1, closes := 4 }]
    Walk.ExactOver {} filters ∧
    ∃ P Q, ofFilters filters = .ok [P, Q] ∧ P.opens = 2 ∧ P.closes = 3 ∧ P.connective = .or ∧
      Q.opens = 3 ∧ Q.closes = 4 ∧
      ∃ i, IsOutermost filters 3 7 (i + 1) ∧
        filters[i]?.map Filter.connective = some P.connective ∧
        (P.closes.toNat : Int) = depthAt filters 3 - depthAt filters (i + 1) := by
  intro filters
  have hexact : Walk.ExactOver {} filters := by decide
  obtain ⟨P, Q, hps, hfacts⟩ : ∃ P Q, ofFilters filters = .ok [P, Q] ∧ P.opens = 2 ∧ P.closes = 3 ∧
      P.connective = .or ∧ Q.opens = 3 ∧ Q.closes = 4 := ⟨_, _, rfl, by decide⟩
  have hgap : LeftOutBetween filters 3 7 := by
    intro j hj hj' f hf
    obtain rfl | rfl | rfl | rfl : j = 3 ∨ j = 4 ∨ j = 5 ∨ j = 6 := by omega
    all_goals
      cases hf
      rfl
  obtain ⟨i, P', Q', hP', -, -, -, houtermost, hconnective, hcloses, -⟩ :=
    ((gaps_ofFilters hps).2 hexact).1 2 7 _ _ rfl (by decide) rfl (by decide) (by decide) hgap
  obtain rfl : P = P' := Option.some.inj hP'
  refine ⟨hexact, P, Q, hps, hfacts.1, hfacts.2.1, hfacts.2.2.1, hfacts.2.2.2.1, hfacts.2.2.2.2, i,
    houtermost, hconnective, ?_⟩
  rw [hcloses]
  exact Int.zero_add _

end Predicate

end FilterQuery

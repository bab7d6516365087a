import FilterQuery.Proofs.Query.Formula
import FilterQuery.Proofs.Query.Walk
import Mathlib.Algebra.Group.Int.Defs
import Mathlib.Algebra.Group.Nat.Defs

/-!
# Counting without bound

The walk counts in machine words that wrap around. What it is meant to do is said more easily of
numbers without bound, and `Walk.Ideal` is the walk that counts with those. Every walk stands for an
ideal one (`Walk.ideal`), and both do the same as long as nothing wraps around:

* `Walk.Exact` says that nothing wraps around in a step, `Walk.ExactOver` that nothing does in a
  run.
* `Walk.ideal_advance` takes an exact step over to the ideal walk, and `Walk.ideal_foldl_advance` an
  exact run. `Predicate.map_ideal_emitted` is what follows for the predicates.
* `Filter.Balanced.exactOver` is for filters whose groups fit together: there it is enough that
  their depth has room in the machine words (`Filter.HasRoom`).

A step that is not exact may be far off. Read as a signed number, a count above `2 ^ 63` is
negative, so that a group that opens seems to close.
-/

namespace FilterQuery

/-! ## Ideal predicates and ideal walks -/

/-- A predicate whose parentheses and whose depth are counted without bound. -/
structure Predicate.Ideal where
  content : String × Operator × Operand
  opens : Nat
  closes : Nat
  connective : Connective
  depth : Int

/-- The ideal predicate that a predicate stands for. -/
def Predicate.ideal (p : Predicate) : Predicate.Ideal :=
  { content := p.content, opens := p.opens.toNat, closes := p.closes.toNat,
    connective := p.connective, depth := p.depth.toInt }

/-- Machine words are known from the numbers that they stand for. -/
theorem Predicate.ideal_inj {p q : Predicate} : p.ideal = q.ideal ↔ p = q := by
  constructor
  · intro h
    obtain ⟨field, operator, operand, opens, closes, connective, depth⟩ := p
    obtain ⟨field', operator', operand', opens', closes', connective', depth'⟩ := q
    -- the content is the same in both, and equal numbers come from equal words
    simp only [ideal, content, Ideal.mk.injEq, Prod.mk.injEq, UInt64.toNat_inj,
      Int64.toInt_inj] at h
    obtain ⟨⟨rfl, rfl, rfl⟩, rfl, rfl, rfl, rfl⟩ := h
    rfl
  · intro h
    rw [h]

/-- The state of a walk that counts without bound. -/
structure Walk.Ideal where
  predicates : List Predicate.Ideal := []
  pending : Nat := 0
  depth : Int := 0

namespace Walk.Ideal

/-- The depth of the groups behind one more filter. -/
def depthBehind (u : Ideal) (f : Filter) : Int := u.depth + f.opens.toNat - f.closes.toNat

/-- A filter becomes a predicate, as `Walk.keep` has it. -/
def keep (u : Ideal) (f : Filter) : Ideal :=
  { predicates :=
      { content := f.content, opens := u.pending + f.opens.toNat, closes := f.closes.toNat,
        connective := f.connective, depth := u.depthBehind f } :: u.predicates
    pending := 0
    depth := u.depthBehind f }

/-- The latest predicate closes what is left to close, as `Walk.handBack` has it. -/
def handBack (closes : Nat) (connective : Connective) (depth : Int) :
    List Predicate.Ideal → List Predicate.Ideal
  | [] => []
  | p :: ps =>
    let p := { p with closes := p.closes + closes }
    (if depth < p.depth then { p with connective, depth } else p) :: ps

/-- A filter is left out, as `Walk.skip` has it. -/
def skip (u : Ideal) (f : Filter) : Ideal :=
  let waiting := u.pending + f.opens.toNat
  { predicates :=
      handBack (f.closes.toNat - waiting) f.connective (u.depthBehind f) u.predicates
    pending := waiting - f.closes.toNat
    depth := u.depthBehind f }

/-- One more filter that fits. -/
def advance (u : Ideal) (f : Filter) : Ideal := if f.leftOut then u.skip f else u.keep f

theorem advance_of_leftOut {f : Filter} (u : Ideal) (h : f.leftOut = true) :
    u.advance f = u.skip f := by
  rw [advance, if_pos h]

theorem advance_of_not_leftOut {f : Filter} (u : Ideal) (h : ¬f.leftOut = true) :
    u.advance f = u.keep f := by
  rw [advance, if_neg h]

/-- Left out or not, the filter opens and closes its groups. -/
theorem depth_advance (u : Ideal) (f : Filter) : (u.advance f).depth = u.depthBehind f := by
  by_cases hleft : f.leftOut = true
  · rw [advance_of_leftOut u hleft]
    rfl
  · rw [advance_of_not_leftOut u hleft]
    rfl

theorem depth_foldl_advance (u : Ideal) (filters : List Filter) :
    (filters.foldl advance u).depth = u.depth + Filter.level filters := by
  induction filters generalizing u with
  | nil => simp [Filter.level]
  | cons f fs ih =>
    rw [List.foldl_cons, ih, depth_advance, depthBehind, Filter.level]
    omega

end Walk.Ideal

/-! ## Exact steps -/

namespace Walk

/-- The ideal walk that a walk stands for. -/
def ideal (w : Walk) : Ideal :=
  { predicates := w.predicates.map Predicate.ideal, pending := w.pending.toNat
    depth := w.depth.toInt }

theorem ideal_inj {w w' : Walk} : w.ideal = w'.ideal ↔ w = w' := by
  constructor
  · intro h
    obtain ⟨predicates, pending, depth⟩ := w
    obtain ⟨predicates', pending', depth'⟩ := w'
    simp only [ideal, Ideal.mk.injEq, UInt64.toNat_inj, Int64.toInt_inj] at h
    obtain ⟨hpredicates, rfl, rfl⟩ := h
    have hinj : Function.Injective Predicate.ideal := fun p q hpq => Predicate.ideal_inj.mp hpq
    rw [List.map_injective_iff.mpr hinj hpredicates]
  · intro h
    rw [h]

/-- Nothing wraps around in the step over a filter: neither the parentheses that wait, nor the depth
behind the filter, nor what the latest predicate closes when the filter is left out. -/
structure Exact (w : Walk) (f : Filter) : Prop where
  waiting : w.pending.toNat + f.opens.toNat < 2 ^ 64
  depth_ge : -2 ^ 63 ≤ w.depth.toInt + f.opens.toNat - f.closes.toNat
  depth_lt : w.depth.toInt + f.opens.toNat - f.closes.toNat < 2 ^ 63
  closes : f.leftOut = true → ∀ p ∈ w.predicates.head?,
    p.closes.toNat + (f.closes.toNat - (w.pending.toNat + f.opens.toNat)) < 2 ^ 64

/-- Nothing wraps around in the run over the filters. -/
def ExactOver : Walk → List Filter → Prop
  | _, [] => True
  | w, f :: filters => w.Exact f ∧ (w.advance f).ExactOver filters

instance (w : Walk) (f : Filter) : Decidable (w.Exact f) :=
  decidable_of_iff
    (w.pending.toNat + f.opens.toNat < 2 ^ 64 ∧
      -2 ^ 63 ≤ w.depth.toInt + f.opens.toNat - f.closes.toNat ∧
      w.depth.toInt + f.opens.toNat - f.closes.toNat < 2 ^ 63 ∧
      (f.leftOut = true → ∀ p ∈ w.predicates.head?,
        p.closes.toNat + (f.closes.toNat - (w.pending.toNat + f.opens.toNat)) < 2 ^ 64))
    ⟨fun ⟨h₁, h₂, h₃, h₄⟩ => ⟨h₁, h₂, h₃, h₄⟩, fun ⟨h₁, h₂, h₃, h₄⟩ => ⟨h₁, h₂, h₃, h₄⟩⟩

instance decidableExactOver : (w : Walk) → (filters : List Filter) →
    Decidable (w.ExactOver filters)
  | _, [] => .isTrue trivial
  | w, f :: filters =>
    have := decidableExactOver (w.advance f) filters
    inferInstanceAs (Decidable (w.Exact f ∧ (w.advance f).ExactOver filters))

variable {w : Walk} {f : Filter}

theorem Exact.toNat_waiting (h : w.Exact f) :
    (w.pending + f.opens).toNat = w.pending.toNat + f.opens.toNat := by
  rw [UInt64.toNat_add]
  exact Nat.mod_eq_of_lt h.waiting

/-- The counts are read as signed numbers one by one, but sums of such numbers are right as soon as
the result is in range. -/
theorem Exact.toInt_depthBehind (h : w.Exact f) :
    (w.depthBehind f).toInt = w.ideal.depthBehind f := by
  have hsigned : ∀ n : UInt64, n.toInt64.toInt = (n.toNat : Int).bmod (2 ^ 64) :=
    fun n => BitVec.toInt_eq_toNat_bmod n.toBitVec
  have hge := h.depth_ge
  have hlt := h.depth_lt
  unfold depthBehind Ideal.depthBehind ideal
  -- all reductions modulo `2 ^ 64` are taken together in the end
  rw [Int64.toInt_add, Int64.toInt_sub, hsigned, hsigned, Int.bmod_sub_bmod, Int.sub_bmod_bmod,
    Int.add_bmod_bmod, ← Int.add_sub_assoc]
  exact Int.bmod_eq_of_le (by omega) (by omega)

theorem toNat_min (a b : UInt64) : (min a b).toNat = min a.toNat b.toNat := by
  show (if a ≤ b then a else b).toNat = _
  rw [Nat.min_def]
  simp only [UInt64.le_iff_toNat_le]
  split <;> rfl

/-- What is cancelled is part of both, so neither difference wraps around. -/
theorem toNat_sub_min (a b : UInt64) : (a - min a b).toNat = a.toNat - b.toNat := by
  have hmin := toNat_min a b
  rw [UInt64.toNat_sub_of_le _ _ (UInt64.le_iff_toNat_le.mpr (by omega))]
  omega

theorem toNat_sub_min' (a b : UInt64) : (b - min a b).toNat = b.toNat - a.toNat := by
  have hmin := toNat_min a b
  rw [UInt64.toNat_sub_of_le _ _ (UInt64.le_iff_toNat_le.mpr (by omega))]
  omega

theorem map_ideal_handBack {closes : UInt64} {ps : List Predicate}
    (h : ∀ p ∈ ps.head?, p.closes.toNat + closes.toNat < 2 ^ 64) (connective : Connective)
    (depth : Int64) :
    (handBack closes connective depth ps).map Predicate.ideal =
      Ideal.handBack closes.toNat connective depth.toInt (ps.map Predicate.ideal) := by
  cases ps with
  | nil => rfl
  | cons p ps =>
    have hcloses : (p.closes + closes).toNat = p.closes.toNat + closes.toNat := by
      rw [UInt64.toNat_add]
      exact Nat.mod_eq_of_lt (h p rfl)
    unfold handBack Ideal.handBack
    simp only [List.map_cons, Int64.lt_iff_toInt_lt]
    -- the depths are compared as signed numbers on both sides
    by_cases hdepth : depth.toInt < p.depth.toInt
    · simp [hdepth, Predicate.ideal, Predicate.content, hcloses]
    · simp [hdepth, Predicate.ideal, Predicate.content, hcloses]

/-- **An exact step** is the step of the ideal walk. -/
theorem ideal_advance (h : w.Exact f) : (w.advance f).ideal = w.ideal.advance f := by
  have hdepth := h.toInt_depthBehind
  have hwaiting := h.toNat_waiting
  by_cases hleft : f.leftOut = true
  · rw [advance_of_leftOut w hleft, Ideal.advance_of_leftOut _ hleft]
    -- the parentheses that wait and those that close cancel each other without wrapping
    have hback : (f.closes - min (w.pending + f.opens) f.closes).toNat =
        f.closes.toNat - (w.pending.toNat + f.opens.toNat) := by
      rw [toNat_sub_min', hwaiting]
    have hpending : (w.pending + f.opens - min (w.pending + f.opens) f.closes).toNat =
        w.pending.toNat + f.opens.toNat - f.closes.toNat := by
      rw [toNat_sub_min, hwaiting]
    have hcloses := h.closes hleft
    rw [← hback] at hcloses
    have hpredicates := map_ideal_handBack hcloses f.connective (w.depthBehind f)
    rw [hback, hdepth] at hpredicates
    simp only [ideal, skip, Ideal.skip, Ideal.mk.injEq]
    exact ⟨hpredicates, hpending, hdepth⟩
  · rw [advance_of_not_leftOut w hleft, Ideal.advance_of_not_leftOut _ hleft]
    simp only [ideal, keep, Ideal.keep, List.map_cons, Ideal.mk.injEq, List.cons.injEq, and_true]
    exact ⟨by simp [Predicate.ideal, Predicate.content, Filter.content, hwaiting, hdepth, ideal],
      rfl, hdepth⟩

/-- **An exact run** is the run of the ideal walk. -/
theorem ideal_foldl_advance {filters : List Filter} (h : w.ExactOver filters) :
    (filters.foldl advance w).ideal = filters.foldl Ideal.advance w.ideal := by
  induction filters generalizing w with
  | nil => rfl
  | cons f fs ih =>
    obtain ⟨hstep, hrest⟩ := h
    -- the first step is exact, and so is the run behind it
    rw [List.foldl_cons, List.foldl_cons, ← ideal_advance hstep]
    exact ih hrest

end Walk

/-- The predicates that an ideal walk over the filters makes. -/
def Predicate.Ideal.emitted (filters : List Filter) : List Predicate.Ideal :=
  (filters.foldl Walk.Ideal.advance {}).predicates.reverse

/-- **The predicates of the filters**, if nothing wraps around. -/
theorem Predicate.map_ideal_emitted {filters : List Filter} (h : Walk.ExactOver {} filters) :
    (emitted filters).map ideal = Ideal.emitted filters := by
  have hrun := congrArg Walk.Ideal.predicates (Walk.ideal_foldl_advance h)
  unfold emitted Ideal.emitted
  rw [List.map_reverse]
  exact congrArg List.reverse hrun

/-! ## Balanced filters -/

/-- The groups of the filters can be counted: their depth behind each filter in a signed word, and
their depth where a filter has opened its groups in an unsigned one. -/
structure Filter.HasRoom (filters : List Filter) : Prop where
  behind : ∀ i, i ≤ filters.length → level (filters.take i) < 2 ^ 63
  inside : ∀ i, (h : i < filters.length) →
    level (filters.take i) + filters[i].opens.toNat < 2 ^ 64

instance (filters : List Filter) : Decidable (Filter.HasRoom filters) :=
  decidable_of_iff
    ((∀ i, i ≤ filters.length → Filter.level (filters.take i) < 2 ^ 63) ∧
      ∀ i, (h : i < filters.length) →
        Filter.level (filters.take i) + filters[i].opens.toNat < 2 ^ 64)
    ⟨fun h => ⟨h.1, h.2⟩, fun h => ⟨h.behind, h.inside⟩⟩

namespace Walk

/-- No group was closed that had not been opened. So the groups that wait are among those that are
open, and the latest predicate has closed at most those that were open around it. -/
structure Ideal.Sound (u : Ideal) : Prop where
  pending_le : (u.pending : Int) ≤ u.depth
  latest : ∀ p ∈ u.predicates.head?, p.depth + u.pending = u.depth ∧ p.closes + p.depth < 2 ^ 64

variable {w : Walk} {f : Filter}

/-- A step that has room is exact. -/
theorem Ideal.Sound.exact (h : w.ideal.Sound)
    (hopened : w.depth.toInt + f.opens.toNat < 2 ^ 64) (hnonneg : 0 ≤ w.ideal.depthBehind f)
    (hbehind : w.ideal.depthBehind f < 2 ^ 63) : w.Exact f := by
  have hpending : (w.pending.toNat : Int) ≤ w.depth.toInt := h.pending_le
  change 0 ≤ w.depth.toInt + f.opens.toNat - f.closes.toNat at hnonneg
  change w.depth.toInt + f.opens.toNat - f.closes.toNat < 2 ^ 63 at hbehind
  -- the depth is never negative, so it has room in a signed word if it is not too large
  refine ⟨by omega, by omega, hbehind, ?_⟩
  intro _ p hp
  have hlatest : p.depth.toInt + w.pending.toNat = w.depth.toInt ∧
      p.closes.toNat + p.depth.toInt < 2 ^ 64 := by
    apply h.latest p.ideal
    rw [ideal, List.head?_map]
    exact Option.mem_map_of_mem Predicate.ideal hp
  omega

/-- A step that has room keeps the groups sound. -/
theorem Ideal.Sound.advance {u : Ideal} (h : u.Sound) (hopened : u.depth + f.opens.toNat < 2 ^ 64)
    (hnonneg : 0 ≤ u.depthBehind f) : (u.advance f).Sound := by
  have hpending := h.pending_le
  unfold depthBehind at hnonneg
  by_cases hleft : f.leftOut = true
  · rw [Ideal.advance_of_leftOut _ hleft]
    constructor
    · show ((u.pending + f.opens.toNat - f.closes.toNat : Nat) : Int) ≤ u.depthBehind f
      unfold depthBehind
      omega
    · -- the latest predicate takes over what was closed beyond the groups that wait
      intro q hq
      cases hpredicates : u.predicates with
      | nil =>
        rw [skip, hpredicates] at hq
        cases hq
      | cons p ps =>
        obtain ⟨hdepth, hcloses⟩ := h.latest p (by rw [hpredicates]; rfl)
        simp only [skip, hpredicates, handBack, List.head?_cons, Option.mem_some_iff] at hq
        -- more groups are closed than wait iff that leads further out than the latest predicate
        by_cases hlt : u.depthBehind f < p.depth
        · rw [if_pos hlt] at hq
          subst hq
          simp only [skip, depthBehind] at hlt ⊢
          omega
        · rw [if_neg hlt] at hq
          subst hq
          simp only [skip, depthBehind] at hlt ⊢
          omega
  · rw [Ideal.advance_of_not_leftOut _ hleft]
    constructor
    · show ((0 : Nat) : Int) ≤ u.depthBehind f
      unfold depthBehind
      omega
    · intro q hq
      obtain rfl := Option.some.inj hq
      simp only [keep, depthBehind]
      omega

/-- A run that has room is exact. Induction on the filters; the walk may start anywhere, with its
depth added to that of the filters. -/
theorem Ideal.Sound.exactOver {filters : List Filter} (h : w.ideal.Sound)
    (hnonneg : ∀ i ≤ filters.length, 0 ≤ w.depth.toInt + Filter.level (filters.take i))
    (hbehind : ∀ i ≤ filters.length, w.depth.toInt + Filter.level (filters.take i) < 2 ^ 63)
    (hinside : ∀ i, (hi : i < filters.length) →
      w.depth.toInt + Filter.level (filters.take i) + filters[i].opens.toNat < 2 ^ 64) :
    w.ExactOver filters := by
  induction filters generalizing w with
  | nil => trivial
  | cons f fs ih =>
    have hlevel : Filter.level [f] = f.opens.toNat - f.closes.toNat := Int.add_zero _
    have hopened : w.depth.toInt + f.opens.toNat < 2 ^ 64 := by
      have := hinside 0 (Nat.succ_pos _)
      rwa [List.take_zero, Filter.level, Int.add_zero] at this
    have hdepth : w.depth.toInt + Filter.level [f] = w.ideal.depthBehind f := by
      rw [hlevel, ← Int.add_sub_assoc]
      rfl
    have hfirst := hnonneg 1 (Nat.succ_le_succ (Nat.zero_le _))
    have hfirst' := hbehind 1 (Nat.succ_le_succ (Nat.zero_le _))
    rw [List.take_succ_cons, List.take_zero, hdepth] at hfirst hfirst'
    have hexact := h.exact hopened hfirst hfirst'
    have hnext : (w.advance f).depth.toInt = w.depth.toInt + Filter.level [f] := by
      have hideal := congrArg Ideal.depth (ideal_advance hexact)
      rw [Ideal.depth_advance] at hideal
      rw [hdepth]
      exact hideal
    -- behind the first filter the depth of the others is added to its own
    have hshift : ∀ i, (w.advance f).depth.toInt + Filter.level (fs.take i) =
        w.depth.toInt + Filter.level ((f :: fs).take (i + 1)) := by
      intro i
      rw [hnext, hlevel, List.take_succ_cons, Filter.level]
      omega
    -- the step is exact, and behind it the same holds of the rest with the depth moved along
    refine ⟨hexact, ih ?_ ?_ ?_ ?_⟩
    · rw [ideal_advance hexact]
      exact h.advance hopened hfirst
    · intro i hi
      rw [hshift]
      exact hnonneg (i + 1) (Nat.succ_le_succ hi)
    · intro i hi
      rw [hshift]
      exact hbehind (i + 1) (Nat.succ_le_succ hi)
    · intro i hi
      rw [hshift]
      exact hinside (i + 1) (Nat.succ_lt_succ hi)

end Walk

/-- **Over balanced filters nothing wraps around** if the depth of their groups has room. -/
theorem Filter.Balanced.exactOver {filters : List Filter} (h : Balanced filters)
    (hroom : HasRoom filters) : Walk.ExactOver {} filters := by
  have hstart : (Walk.ideal {}).Sound := ⟨Int.le_refl _, nofun⟩
  have hzero : (0 : Int64).toInt = 0 := Int64.toInt_zero
  refine hstart.exactOver ?_ ?_ ?_
  · intro i _
    rw [hzero, Int.zero_add]
    exact h.nonneg _ ((List.mem_inits _ _).mpr (List.take_prefix i filters))
  · intro i hi
    rw [hzero, Int.zero_add]
    exact hroom.behind i hi
  · intro i hi
    rw [hzero, Int.zero_add]
    exact hroom.inside i hi

end FilterQuery

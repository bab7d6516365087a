import FilterQuery.Page
import Mathlib.Algebra.Group.Nat.Defs
import Mathlib.Order.Nat

/-!
# Pages tile the rows

A page shows the rows from its offset on, as many as its size says (`Page.Shows`). The offset is a
product that may not fit 64 bits; as long as it does, it is the exact product
(`Page.toNat_offset_of_lt`).

* `Page.effective_eq_some_iff`, `Page.effective_effective`: what a request leaves open is filled in
  once, and nothing is left to be filled in after that.
* `Page.toNat_offset_succ`: a page starts where the page before it ends.
* `Page.existsUnique_shows`: of all pages up to some page, exactly one shows a row.
* `Page.clause_windows` says this of the pages that clauses ask for.
-/

namespace FilterQuery.Page

open Text

/-- The page shows the row. Rows are counted from zero. -/
def Shows (p : Page) (row : Nat) : Prop :=
  p.offset.toNat ≤ row ∧ row < p.offset.toNat + p.size.toNat

variable {p q : Page} {d s n : UInt64}

/-! ## The page that is fetched -/

theorem hasSize_iff : p.hasSize = true ↔ p.size ≠ 0 := by
  unfold hasSize
  rw [decide_eq_true_eq, UInt64.pos_iff_ne_zero]

theorem hasNumber_iff : p.hasNumber = true ↔ p.number ≠ 0 := by
  unfold hasNumber
  rw [decide_eq_true_eq, UInt64.pos_iff_ne_zero]

/-- **What is fetched** is what was asked for, with the default size and the first page where
nothing was. -/
theorem effective_eq_some_iff :
    p.effective d = some q ↔ q.size = (if p.size = 0 then d else p.size) ∧
      q.number = (if p.number = 0 then 1 else p.number) ∧ q.size ≠ 0 := by
  have hsize : (if p.hasSize then p.size else d) = if p.size = 0 then d else p.size := by
    simp only [hasSize_iff, ne_eq, ite_not]
  have hnumber : (if p.hasNumber then p.number else 1) = if p.number = 0 then 1 else p.number := by
    simp only [hasNumber_iff, ne_eq, ite_not]
  obtain ⟨size, number⟩ := q
  unfold effective
  rw [hsize, hnumber]
  -- what matters of the size is only whether it is zero
  generalize (if p.size = 0 then d else p.size) = filledSize
  constructor
  · intro h
    by_cases hzero : filledSize = 0
    · rw [if_pos hzero] at h
      cases h
    · rw [if_neg hzero] at h
      cases h
      exact ⟨rfl, rfl, hzero⟩
  · rintro ⟨rfl, rfl, hne⟩
    exact if_neg hne

theorem effective_eq_none_iff : p.effective d = none ↔ p.size = 0 ∧ d = 0 := by
  unfold effective
  simp only [hasSize_iff, ne_eq, ite_not]
  by_cases hsize : p.size = 0
  · simp [hsize]
  · simp [hsize]

/-- **Nothing is left to be filled in** behind that, whatever the default is then. -/
theorem effective_effective (h : p.effective d = some q) (d' : UInt64) :
    q.effective d' = some q := by
  obtain ⟨-, hnumber, hne⟩ := effective_eq_some_iff.mp h
  -- neither number is zero any more: the size was checked, and pages are counted from one
  have hnumber_ne : q.number ≠ 0 := by
    rw [hnumber]
    split
    · decide
    · next hne => exact hne
  exact effective_eq_some_iff.mpr ⟨(if_neg hne).symm, (if_neg hnumber_ne).symm, hne⟩

theorem clause_eq (h : p.effective d = some q) :
    p.clause d = "LIMIT ".toList ++ decimal q.size.toNat ++ " OFFSET ".toList ++
      decimal q.offset.toNat := by
  unfold clause
  rw [h]

theorem clause_eq_nil_iff : p.clause d = [] ↔ p.size = 0 ∧ d = 0 := by
  rw [← effective_eq_none_iff]
  cases h : p.effective d with
  | none => simp [clause, h]
  | some q => simp [clause_eq h]

/-! ## Offsets -/

/-- The offset is the product, or the greatest number if that is smaller. -/
theorem toNat_offset (p : Page) :
    p.offset.toNat = min (p.size.toNat * (p.number.toNat - 1)) (2 ^ 64 - 1) := by
  -- the minimum fits, so that nothing is cut off when it is stored
  have hlt : min (p.size.toNat * (p.number.toNat - 1)) (UInt64.size - 1) < UInt64.size :=
    lt_of_le_of_lt (Nat.min_le_right _ _) (by decide)
  exact UInt64.toNat_ofNat_of_lt' hlt

theorem toNat_offset_of_lt (h : p.size.toNat * (p.number.toNat - 1) < 2 ^ 64) :
    p.offset.toNat = p.size.toNat * (p.number.toNat - 1) := by
  rw [toNat_offset]
  -- below the bound the minimum is the product
  omega

/-- Larger pages and later ones start later, or at the same row. -/
theorem offset_le_offset (hsize : p.size ≤ q.size) (hnumber : p.number ≤ q.number) :
    p.offset ≤ q.offset := by
  rw [UInt64.le_iff_toNat_le] at hsize hnumber ⊢
  have hproduct : p.size.toNat * (p.number.toNat - 1) ≤ q.size.toNat * (q.number.toNat - 1) :=
    Nat.mul_le_mul hsize (Nat.sub_le_sub_right hnumber 1)
  rw [toNat_offset, toNat_offset]
  omega

/-- **A page starts where the page before it ends.** -/
theorem toNat_offset_succ (hn : 1 ≤ n) (hnext : n.toNat + 1 < 2 ^ 64)
    (hfits : s.toNat * n.toNat < 2 ^ 64) :
    (Page.mk s (n + 1)).offset.toNat = (Page.mk s n).offset.toNat + s.toNat := by
  have hsucc : (n + 1).toNat = n.toNat + 1 := by
    rw [UInt64.toNat_add, UInt64.toNat_one, Nat.mod_eq_of_lt hnext]
  have hpos : 1 ≤ n.toNat := UInt64.le_iff_toNat_le.mp hn
  have hproduct : s.toNat * n.toNat = s.toNat * (n.toNat - 1) + s.toNat := by
    rw [← Nat.mul_succ, Nat.succ_eq_add_one, Nat.sub_add_cancel hpos]
  -- the page before has an exact offset because the next one has
  have hoffset : (Page.mk s n).offset.toNat = s.toNat * (n.toNat - 1) :=
    toNat_offset_of_lt (show s.toNat * (n.toNat - 1) < 2 ^ 64 by omega)
  have hoffset_succ : (Page.mk s (n + 1)).offset.toNat = s.toNat * n.toNat := by
    rw [toNat_offset_of_lt] <;> rw [hsucc, Nat.add_sub_cancel]
    exact hfits
  omega

/-! ## Windows -/

/-- While offsets are exact, the page that shows a row is found by division. -/
theorem shows_iff_of_lt (hrow : 0 < s.toNat) (hfits : s.toNat * (n.toNat - 1) < 2 ^ 64)
    (row : Nat) : (Page.mk s n).Shows row ↔ row / s.toNat = n.toNat - 1 := by
  have hoffset : (Page.mk s n).offset.toNat = s.toNat * (n.toNat - 1) := toNat_offset_of_lt hfits
  unfold Shows
  rw [hoffset, Nat.div_eq_iff hrow, Nat.mul_comm (n.toNat - 1)]
  show s.toNat * (n.toNat - 1) ≤ row ∧ row < s.toNat * (n.toNat - 1) + s.toNat ↔ _
  omega

/-- **Exactly one page shows a row**, of the pages up to one that still has an exact offset. -/
theorem existsUnique_shows (hfits : s.toNat * (n.toNat - 1) < 2 ^ 64) {row : Nat}
    (hrow : row < s.toNat * n.toNat) :
    ∃! k : UInt64, 1 ≤ k ∧ k ≤ n ∧ (Page.mk s k).Shows row := by
  have hpos : 0 < s.toNat := Nat.pos_of_mul_pos_right (Nat.zero_lt_of_lt hrow)
  -- a page up to the last one starts no later than that, so its offset is exact as well
  have hshows : ∀ k : UInt64, k ≤ n → ((Page.mk s k).Shows row ↔ row / s.toNat = k.toNat - 1) := by
    intro k hk
    have hle : k.toNat - 1 ≤ n.toNat - 1 := Nat.sub_le_sub_right (UInt64.le_iff_toNat_le.mp hk) 1
    exact shows_iff_of_lt hpos (lt_of_le_of_lt (Nat.mul_le_mul_left _ hle) hfits) row
  have hquotient : row / s.toNat < n.toNat := by
    rw [Nat.div_lt_iff_lt_mul hpos, Nat.mul_comm]
    exact hrow
  -- pages are counted from one and quotients from zero
  generalize row / s.toNat = quotient at hshows hquotient
  have hlt : quotient + 1 < 2 ^ 64 := lt_of_le_of_lt hquotient n.toNat_lt
  have htoNat : (UInt64.ofNat (quotient + 1)).toNat = quotient + 1 := UInt64.toNat_ofNat_of_lt' hlt
  have hle : UInt64.ofNat (quotient + 1) ≤ n := by
    rw [UInt64.le_iff_toNat_le, htoNat]
    exact hquotient
  refine ⟨UInt64.ofNat (quotient + 1), ⟨?_, hle, ?_⟩, ?_⟩
  · rw [UInt64.le_iff_toNat_le, htoNat, UInt64.toNat_one]
    omega
  · rw [hshows _ hle, htoNat, Nat.add_sub_cancel]
  · rintro k ⟨hk, hkn, hkshows⟩
    have hk_toNat : 1 ≤ k.toNat := UInt64.le_iff_toNat_le.mp hk
    rw [hshows k hkn] at hkshows
    rw [← UInt64.toNat_inj, htoNat]
    omega

/-- **Clauses ask for windows that tile the rows.** There is no clause iff neither side says a size.
Otherwise it has the size and the exact number of rows before the page, or the greatest number of 64
bits if that does not fit. Offsets grow with the size and the number of the page. A page starts
where the one before it ends, so that two pages in a row neither overlap nor leave a gap, and
exactly one of many pages shows a row. The page that is fetched is not changed by another default
size, and the clause has its offset. -/
theorem clause_windows :
    (∀ (p : Page) d, p.clause d = [] ↔ p.size = 0 ∧ d = 0) ∧
    (∀ (p : Page) d, ¬(p.size = 0 ∧ d = 0) →
      let s := if p.size = 0 then d else p.size
      p.clause d = "LIMIT ".toList ++ decimal s.toNat ++ " OFFSET ".toList ++
        decimal (min (s.toNat * (max p.number.toNat 1 - 1)) (2 ^ 64 - 1))) ∧
    (∀ p q : Page, p.size ≤ q.size → p.number ≤ q.number → p.offset ≤ q.offset) ∧
    (∀ s n : UInt64, 1 ≤ n → n.toNat + 1 < 2 ^ 64 → s.toNat * n.toNat < 2 ^ 64 →
      (Page.mk s (n + 1)).offset.toNat = (Page.mk s n).offset.toNat + s.toNat ∧
      ∀ row, ¬((Page.mk s n).Shows row ∧ (Page.mk s (n + 1)).Shows row) ∧
        ((Page.mk s n).Shows row ∨ (Page.mk s (n + 1)).Shows row ↔
          (Page.mk s n).offset.toNat ≤ row ∧
            row < (Page.mk s (n + 1)).offset.toNat + s.toNat)) ∧
    (∀ s n : UInt64, s.toNat * (n.toNat - 1) < 2 ^ 64 → ∀ row < s.toNat * n.toNat,
      ∃! k : UInt64, 1 ≤ k ∧ k ≤ n ∧ (Page.mk s k).Shows row) ∧
    ∀ (p : Page) d q, p.effective d = some q → (∀ d', q.effective d' = some q) ∧
      p.clause d = "LIMIT ".toList ++ decimal q.size.toNat ++ " OFFSET ".toList ++
        decimal q.offset.toNat := by
  refine ⟨fun p d => clause_eq_nil_iff, ?_, fun p q => offset_le_offset, ?_, ?_, ?_⟩
  · intro p d hne s
    obtain ⟨q, hq⟩ : ∃ q, p.effective d = some q := by
      rw [← Option.ne_none_iff_exists', ne_eq, effective_eq_none_iff]
      exact hne
    obtain ⟨hsize, hnumber, -⟩ := effective_eq_some_iff.mp hq
    -- a page that nobody asked for is the first one
    have hpages : q.number.toNat - 1 = max p.number.toNat 1 - 1 := by
      rw [hnumber]
      split
      · next hzero => simp [hzero]
      · omega
    rw [clause_eq hq, toNat_offset, hpages, hsize]
  · intro s n hn hnext hfits
    have hoffset := toNat_offset_succ hn hnext hfits
    refine ⟨hoffset, fun row => ?_⟩
    unfold Shows
    simp only [hoffset]
    omega
  · intro s n hfits row hrow
    exact existsUnique_shows hfits hrow
  · intro p d q hq
    exact ⟨effective_effective hq, clause_eq hq⟩

/-- The last two pages of which offsets are exact, and a page of which the offset is not. -/
theorem clause_windows_at_limit :
    let s : UInt64 := 4294967296
    let n : UInt64 := 4294967295
    let far : Page := { size := 9223372036854775808, number := 4294967296 }
    let q : Page := { size := 10, number := 3 }
    (Page.mk s (n + 1)).offset.toNat = (Page.mk s n).offset.toNat + s.toNat ∧
      (∃! k : UInt64, 1 ≤ k ∧ k ≤ n ∧ (Page.mk s k).Shows 4294967296) ∧
      (Page.mk s n).offset ≤ far.offset ∧
      far.clause 5 = "LIMIT 9223372036854775808 OFFSET 18446744073709551615".toList ∧
      ({ number := 3 } : Page).effective 10 = some q ∧ q.effective 7 = some q ∧
      ({ number := 3 } : Page).clause 10 = "LIMIT 10 OFFSET 20".toList := by
  intro s n far q
  obtain ⟨-, hclause, hmono, hnext, hunique, hfilled⟩ := clause_windows
  have hq : ({ number := 3 } : Page).effective 10 = some q := rfl
  obtain ⟨hstable, hq_clause⟩ := hfilled _ _ _ hq
  refine ⟨(hnext s n (by decide) (by decide) (by decide)).1, ?_, ?_, ?_, hq, hstable 7, ?_⟩
  · exact hunique s n (by decide) 4294967296 (by decide)
  · exact hmono _ _ (by decide) (by decide)
  · rw [hclause far 5 (by decide)]
    decide +kernel
  · rw [hq_clause]
    decide

end FilterQuery.Page

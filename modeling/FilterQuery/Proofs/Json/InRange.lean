import FilterQuery.Json.Scan
import FilterQuery.Proofs.Json.Numeral

/-!
# Scanned numbers are in range

Whatever the text is, and wherever it goes wrong: a whole number in its scan fits 64 bits, and a
floating-point number is finite (`Scan.numbersInRange_ofText`).
-/

namespace FilterQuery.Json.Scan

open Text

mutual

/-- All numbers of a scan are in range, those aside out of which nothing can be read. -/
def NumbersInRange : Scan → Prop
  | number n => ∀ v ∈ n, v.InRange
  | array xs _ => NumbersInRangeItems xs
  | object ms _ => NumbersInRangeMembers ms
  | _ => True

def NumbersInRangeItems : List Scan → Prop
  | [] => True
  | x :: xs => NumbersInRange x ∧ NumbersInRangeItems xs

def NumbersInRangeMembers : List (Option String × Scan) → Prop
  | [] => True
  | (_, x) :: ms => NumbersInRange x ∧ NumbersInRangeMembers ms

end

/-- Every item counts on its own. -/
theorem numbersInRangeItems_iff {xs : List Scan} :
    NumbersInRangeItems xs ↔ ∀ x ∈ xs, x.NumbersInRange := by
  induction xs with
  | nil => simp [NumbersInRangeItems]
  | cons x xs ih => simp [NumbersInRangeItems, ih]

theorem numbersInRangeMembers_iff {ms : List (Option String × Scan)} :
    NumbersInRangeMembers ms ↔ ∀ m ∈ ms, m.2.NumbersInRange := by
  induction ms with
  | nil => simp [NumbersInRangeMembers]
  | cons m ms ih => simp [NumbersInRangeMembers, ih]

/-- With this much fuel only numbers in range are scanned. -/
structure ScansInRange (fuel : Nat) : Prop where
  value : ∀ s, (value fuel s).1.NumbersInRange
  items : ∀ s, NumbersInRangeItems (items fuel s).1
  members : ∀ s, NumbersInRangeMembers (members fuel s).1

section Step

variable {fuel : Nat} (ih : ScansInRange fuel) (s : List Char)

include ih

/-- A value goes back to its items or members, or it is a numeral, and what a numeral is read as is
in range. -/
theorem numbersInRange_value_step : (value (fuel + 1) s).1.NumbersInRange := by
  rw [value]
  split
  · trivial
  · trivial
  · trivial
  · split <;> trivial
  · split
    · trivial
    · exact ih.items _
  · split
    · trivial
    · exact ih.members _
    · trivial
  · split
    · -- the one place where a number comes from
      intro v hv
      exact Numeral.inRange_number? hv
    · trivial

/-- What was scanned before a fault stays scanned, so the items count wherever the text goes
wrong. -/
theorem numbersInRange_items_step : NumbersInRangeItems (items (fuel + 1) s).1 := by
  have hvalue := ih.value s
  rw [items]
  split
  · next heq =>
    rw [heq] at hvalue
    exact ⟨hvalue, trivial⟩
  · next heq =>
    rw [heq] at hvalue
    split
    · exact ⟨hvalue, trivial⟩
    · exact ⟨hvalue, ih.items _⟩
    · exact ⟨hvalue, trivial⟩

/-- A member counts by its value. A fault in front of the value leaves none to count. -/
theorem numbersInRange_members_step : NumbersInRangeMembers (members (fuel + 1) s).1 := by
  rw [members]
  split
  · trivial
  · split
    · next s' _ =>
      have hvalue := ih.value s'
      split
      · next heq =>
        rw [heq] at hvalue
        exact ⟨hvalue, trivial⟩
      · next heq =>
        rw [heq] at hvalue
        split
        · exact ⟨hvalue, trivial⟩
        · split
          · exact ⟨hvalue, ih.members _⟩
          · exact ⟨hvalue, trivial⟩
        · exact ⟨hvalue, trivial⟩
    · exact ⟨trivial, trivial⟩

end Step

/-- Induction on the fuel, for all three functions of the scanner at once. -/
theorem scansInRange (fuel : Nat) : ScansInRange fuel := by
  induction fuel with
  | zero => exact ⟨fun _ => trivial, fun _ => trivial, fun _ => trivial⟩
  | succ fuel ih =>
    exact ⟨numbersInRange_value_step ih, numbersInRange_items_step ih,
      numbersInRange_members_step ih⟩

/-- **Every scanned number is in range.** -/
theorem numbersInRange_ofText (s : List Char) : (ofText s).1.NumbersInRange :=
  (scansInRange _).value s

end FilterQuery.Json.Scan

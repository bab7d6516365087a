import FilterQuery.Proofs.Json.Exact
import FilterQuery.Proofs.Json.Quote

/-!
# Documents read back

A document that is written without spacing is scanned as what it is: scalars by their first
character, containers item by item, every number up to the character that ends it. Only numbers may
be lost: one that is not finite has become null, and a finite one is whatever its notation is read
as (`Json.rescan`, `Scan.ofText_compact`). Where numbers are known to be read back
(`Json.NumbersReadBack`), so is the document (`rescan_eq_toScan`).
-/

namespace FilterQuery.Json

open Text

/-! ## What is to be scanned -/

/-- The notation of the number, if it has one, is read as the number. -/
def Number.Scannable : Number → Prop
  | whole n => (whole n).ReadsBack
  | float x => x.isFinite = true → (float x).ReadsBack

/-- What a number is scanned as. -/
def Number.toScan : Number → Scan
  | whole n => .number (some (whole n))
  | float x => if x.isFinite then .number (some (float x)) else .null

mutual

/-- What a document is scanned as. -/
def toScan : Json → Scan
  | null => .null
  | bool b => .bool b
  | number n => n.toScan
  | string s => .string (some s)
  | array xs => .array (toScanItems xs) true
  | object ms => .object (toScanMembers ms) true

def toScanItems : List Json → List Scan
  | [] => []
  | x :: xs => toScan x :: toScanItems xs

def toScanMembers : List (String × Json) → List (Option String × Scan)
  | [] => []
  | (key, x) :: ms => (some key, toScan x) :: toScanMembers ms

end

mutual

/-- All numbers of a document are read back, those without a notation aside. -/
def NumbersReadBack : Json → Prop
  | number n => n.Scannable
  | array xs => NumbersReadBackItems xs
  | object ms => NumbersReadBackMembers ms
  | _ => True

def NumbersReadBackItems : List Json → Prop
  | [] => True
  | x :: xs => NumbersReadBack x ∧ NumbersReadBackItems xs

def NumbersReadBackMembers : List (String × Json) → Prop
  | [] => True
  | (_, x) :: ms => NumbersReadBack x ∧ NumbersReadBackMembers ms

end

/-- The items are scanned one by one. -/
theorem toScanItems_eq (xs : List Json) : toScanItems xs = xs.map toScan := by
  induction xs with
  | nil => rfl
  | cons x xs ih => rw [toScanItems, ih, List.map_cons]

/-- The members are scanned one by one, their keys as they are. -/
theorem toScanMembers_eq (ms : List (String × Json)) :
    toScanMembers ms = ms.map fun (key, x) => (some key, toScan x) := by
  induction ms with
  | nil => rfl
  | cons m ms ih => rw [toScanMembers, ih, List.map_cons]

/-- The recursion over the items is there for termination only. -/
theorem numbersReadBackItems_iff {xs : List Json} :
    NumbersReadBackItems xs ↔ ∀ x ∈ xs, x.NumbersReadBack := by
  induction xs with
  | nil => simp [NumbersReadBackItems]
  | cons x xs ih => simp [NumbersReadBackItems, ih]

theorem numbersReadBackMembers_iff {ms : List (String × Json)} :
    NumbersReadBackMembers ms ↔ ∀ m ∈ ms, m.2.NumbersReadBack := by
  induction ms with
  | nil => simp [NumbersReadBackMembers]
  | cons m ms ih => simp [NumbersReadBackMembers, ih]

/-! ## What is scanned -/

/-- What the notation of a number is scanned as. -/
def Number.rescan (n : Number) : Scan :=
  match Numeral.split? n.text with
  | some (numeral, _) => .number numeral.number?
  | none => .null

mutual

/-- What the compact notation of a document is scanned as, whatever becomes of its numbers. -/
def rescan : Json → Scan
  | null => .null
  | bool b => .bool b
  | number n => n.rescan
  | string s => .string (some s)
  | array xs => .array (rescanItems xs) true
  | object ms => .object (rescanMembers ms) true

def rescanItems : List Json → List Scan
  | [] => []
  | x :: xs => rescan x :: rescanItems xs

def rescanMembers : List (String × Json) → List (Option String × Scan)
  | [] => []
  | (key, x) :: ms => (some key, rescan x) :: rescanMembers ms

end

theorem rescanItems_eq (xs : List Json) : rescanItems xs = xs.map rescan := by
  induction xs with
  | nil => rfl
  | cons x xs ih => rw [rescanItems, ih, List.map_cons]

theorem rescanMembers_eq (ms : List (String × Json)) :
    rescanMembers ms = ms.map fun (key, x) => (some key, rescan x) := by
  induction ms with
  | nil => rfl
  | cons m ms ih => rw [rescanMembers, ih, List.map_cons]

/-- A notation is null or one numeral. -/
theorem Number.text_cases (n : Number) :
    n.text = "null".toList ∨ ∃ numeral, Numeral.split? n.text = some (numeral, []) := by
  -- only a floating-point number without a notation of its own becomes null
  by_cases h : ∀ x, n = .float x → x.isFinite = true
  · obtain ⟨numeral, hsplit, -⟩ := n.exists_split?_text h
    exact .inr ⟨numeral, hsplit⟩
  · simp only [not_forall] at h
    obtain ⟨x, rfl, hinfinite⟩ := h
    exact .inl (text_of_not_isFinite hinfinite)

/-- A number that is read back is scanned as itself, and one that is not finite as null. -/
theorem Number.rescan_eq_toScan {n : Number} (h : n.Scannable) : n.rescan = n.toScan := by
  have hread : ∀ n : Number, n.ReadsBack → n.rescan = .number (some n) := by
    rintro n ⟨numeral, hsplit, hnumber⟩
    unfold rescan
    rw [hsplit]
    exact congrArg Scan.number hnumber
  cases n with
  | whole n => exact hread _ h
  | float x =>
    unfold toScan
    simp only
    split
    · next hfinite => exact hread _ (h hfinite)
    · next hinfinite =>
      unfold rescan
      rw [text_of_not_isFinite hinfinite]
      rfl

mutual

/-- Numbers that are read back are scanned as what they are. -/
theorem rescan_eq_toScan (j : Json) (h : j.NumbersReadBack) : j.rescan = j.toScan := by
  match j with
  | null => rfl
  | bool b => rfl
  | string s => rfl
  | number n => exact Number.rescan_eq_toScan h
  | array xs => exact congrArg (Scan.array · true) (rescanItems_eq_toScanItems xs h)
  | object ms => exact congrArg (Scan.object · true) (rescanMembers_eq_toScanMembers ms h)

theorem rescanItems_eq_toScanItems (xs : List Json) (h : NumbersReadBackItems xs) :
    rescanItems xs = toScanItems xs := by
  match xs with
  | [] => rfl
  | x :: xs => rw [rescanItems, toScanItems, rescan_eq_toScan x h.1,
      rescanItems_eq_toScanItems xs h.2]

theorem rescanMembers_eq_toScanMembers (ms : List (String × Json))
    (h : NumbersReadBackMembers ms) : rescanMembers ms = toScanMembers ms := by
  match ms with
  | [] => rfl
  | (key, x) :: ms => rw [rescanMembers, toScanMembers, rescan_eq_toScan x h.1,
      rescanMembers_eq_toScanMembers ms h.2]

end

/-! ## Scanning one value -/

namespace Scan

/-- A text that starts with a sign has no spacing to skip. -/
theorem skipSpacing_cons {c : Char} (hc : isSpacing c = false) (s : List Char) :
    skipSpacing (c :: s) = c :: s :=
  dropWhile_of_stopsAt (stopsAt_cons.mpr hc)

theorem skipSpacing_skipSpacing (s : List Char) : skipSpacing (skipSpacing s) = skipSpacing s :=
  dropWhile_of_stopsAt (stopsAt_dropWhile isSpacing s)

/-- The spacing in front of a value does not count. -/
theorem value_skipSpacing (fuel : Nat) (s : List Char) :
    value fuel (skipSpacing s) = value fuel s := by
  cases fuel with
  | zero => rfl
  | succ fuel => rw [value, value, skipSpacing_skipSpacing]

theorem items_skipSpacing (fuel : Nat) (s : List Char) :
    items fuel (skipSpacing s) = items fuel s := by
  cases fuel with
  | zero => rfl
  | succ fuel => rw [items, items, value_skipSpacing]

/-- A numeral is scanned as its number. -/
theorem value_of_split? {s rest : List Char} {n : Numeral} (h : Numeral.split? s = some (n, rest))
    (fuel : Nat) : value (fuel + 1) s = (number n.number?, some rest) := by
  obtain ⟨c, t, rfl, hc⟩ := Numeral.exists_cons_of_split? h
  have hne : ∀ d : Char, d ≠ '-' → d.isDigit = false → c ≠ d := by
    rintro d hminus hdigit rfl
    rcases hc with hc | hc
    · exact hminus hc
    · rw [hdigit] at hc
      cases hc
  -- The scanner looks at the first character. The numeral starts with a minus sign or a digit, so
  -- it is none of those that start a value of another kind.
  rw [value, skipSpacing_cons (Numeral.not_isSpacing_of_split? h)]
  split
  case h_7 => rw [h]
  all_goals
    next heq => exact absurd (List.cons.inj heq).1 (hne _ (by decide) (by decide))

/-- A number is scanned up to a character that it cannot go on with. -/
theorem value_number (n : Number) {rest : List Char} (hrest : StopsAt Numeral.goesOn rest)
    (fuel : Nat) : value (fuel + 1) (n.text ++ rest) = (n.rescan, some rest) := by
  unfold Number.rescan
  rcases n.text_cases with hnull | ⟨numeral, hsplit⟩
  · rw [hnull]
    rfl
  · rw [hsplit, value_of_split? (Numeral.split?_append hrest hsplit) fuel]
    rfl

/-- A quoted text is scanned as the text. -/
theorem value_quote (s : String) (rest : List Char) (fuel : Nat) :
    value (fuel + 1) (quote s ++ rest) = (string (some s), some rest) := by
  rw [quote_append, value, skipSpacing_cons rfl]
  simp only [splitQuoted?_quote]

end Scan

/-- A document starts with a character that is neither spacing nor the end of an array. -/
theorem exists_compact_eq_cons (j : Json) :
    ∃ c t, j.compact = c :: t ∧ isSpacing c = false ∧ c ≠ ']' := by
  cases j with
  | null => exact ⟨_, _, rfl, by decide, by decide⟩
  | bool b => cases b <;> exact ⟨_, _, rfl, by decide, by decide⟩
  | string s => exact ⟨_, _, rfl, by decide, by decide⟩
  | array xs => cases xs <;> exact ⟨_, _, rfl, by decide, by decide⟩
  | object ms => rcases ms with _ | ⟨⟨key, x⟩, ms⟩ <;> exact ⟨_, _, rfl, by decide, by decide⟩
  | number n =>
    show ∃ c t, n.text = c :: t ∧ isSpacing c = false ∧ c ≠ ']'
    rcases n.text_cases with hnull | ⟨numeral, hsplit⟩
    · exact ⟨'n', "ull".toList, hnull, by decide, by decide⟩
    · obtain ⟨c, t, htext, hc⟩ := Numeral.exists_cons_of_split? hsplit
      rw [htext] at hsplit
      refine ⟨c, t, htext, Numeral.not_isSpacing_of_split? hsplit, ?_⟩
      -- the bracket is no minus sign and no digit
      rintro rfl
      rcases hc with hc | hc <;> cases hc

/-- What stands behind an item ends any number. -/
theorem stopsAt_compactItems (xs : List Json) (rest : List Char) :
    StopsAt Numeral.goesOn (compactItems xs ++ ']' :: rest) := by
  cases xs with
  | nil => exact stopsAt_cons.mpr rfl
  | cons x xs => exact stopsAt_cons.mpr rfl

/-- What stands behind the value of a member ends any number. -/
theorem stopsAt_compactMembers (ms : List (String × Json)) (rest : List Char) :
    StopsAt Numeral.goesOn (compactMembers ms ++ '\x7d' :: rest) := by
  rcases ms with _ | ⟨⟨key, x⟩, ms⟩
  · exact stopsAt_cons.mpr rfl
  · exact stopsAt_cons.mpr rfl

namespace Scan

section Containers

variable {fuel : Nat} {s s₁ s₂ s₃ s₄ rest : List Char} {x : Scan} {xs : List Scan}
  {key : Option String} {ms : List (Option String × Scan)}

/-- The closing bracket may stand behind spacing. -/
theorem value_empty_array (hopen : skipSpacing s = '[' :: s₁)
    (hclose : skipSpacing s₁ = ']' :: rest) :
    value (fuel + 1) s = (array [] true, some rest) := by
  rw [value, hopen]
  simp only [hclose]

/-- An array is scanned by its items. -/
theorem value_array (hopen : skipSpacing s = '[' :: s₁) (hfirst : ∀ t, skipSpacing s₁ ≠ ']' :: t)
    (hitems : items fuel s₁ = (xs, some rest)) :
    value (fuel + 1) s = (array xs true, some rest) := by
  rw [value, hopen]
  simp only [items_skipSpacing, hitems]
  rfl

theorem value_empty_object (hopen : skipSpacing s = '\x7b' :: s₁)
    (hclose : skipSpacing s₁ = '\x7d' :: rest) :
    value (fuel + 1) s = (object [] true, some rest) := by
  rw [value, hopen]
  simp only [hclose]

/-- An object is scanned by its members. -/
theorem value_object (hopen : skipSpacing s = '\x7b' :: s₁) (hquote : skipSpacing s₁ = '"' :: s₂)
    (hmembers : members fuel s₂ = (ms, some rest)) :
    value (fuel + 1) s = (object ms true, some rest) := by
  rw [value, hopen]
  simp only [hquote, hmembers]
  rfl

/-- The last item is followed by the closing bracket. -/
theorem items_last (hvalue : value fuel s = (x, some s₁)) (hclose : skipSpacing s₁ = ']' :: rest) :
    items (fuel + 1) s = ([x], some rest) := by
  rw [items, hvalue]
  simp only [hclose]

/-- An item that is followed by a comma is not the last one. -/
theorem items_cons (hvalue : value fuel s = (x, some s₁)) (hcomma : skipSpacing s₁ = ',' :: s₂)
    (hitems : items fuel s₂ = (xs, some rest)) :
    items (fuel + 1) s = (x :: xs, some rest) := by
  rw [items, hvalue]
  simp only [hcomma, hitems]

/-- The last member is followed by the closing brace. -/
theorem members_last (hkey : splitQuoted? s = some (key, s₁)) (hcolon : skipSpacing s₁ = ':' :: s₂)
    (hvalue : value fuel s₂ = (x, some s₃)) (hclose : skipSpacing s₃ = '\x7d' :: rest) :
    members (fuel + 1) s = ([(key, x)], some rest) := by
  rw [members, hkey]
  simp only [hcolon, hvalue, hclose]

/-- A member that is followed by a comma is not the last one, and a key must come next. -/
theorem members_cons (hkey : splitQuoted? s = some (key, s₁)) (hcolon : skipSpacing s₁ = ':' :: s₂)
    (hvalue : value fuel s₂ = (x, some s₃)) (hcomma : skipSpacing s₃ = ',' :: s₄)
    {s₅ : List Char} (hquote : skipSpacing s₄ = '"' :: s₅)
    (hmembers : members fuel s₅ = (ms, some rest)) :
    members (fuel + 1) s = ((key, x) :: ms, some rest) := by
  rw [members, hkey]
  simp only [hcolon, hvalue, hcomma, hquote, hmembers]

end Containers

/-- With this much fuel, documents are scanned in front of everything that no number goes on with.
The length of a text is fuel enough for it. -/
structure ReadsCompact (fuel : Nat) : Prop where
  value : ∀ j : Json, j.compact.length < fuel →
    ∀ rest, StopsAt Numeral.goesOn rest → value fuel (j.compact ++ rest) = (j.rescan, some rest)
  items : ∀ (x : Json) (xs : List Json),
    x.compact.length + (compactItems xs).length + 1 < fuel → ∀ rest,
    items fuel (x.compact ++ (compactItems xs ++ ']' :: rest)) =
      (x.rescan :: rescanItems xs, some rest)
  members : ∀ (key : String) (x : Json) (ms : List (String × Json)),
    x.compact.length + (compactMembers ms).length + 1 < fuel → ∀ rest,
    members fuel (key.toList.flatMap escape ++ '"' :: ':' ::
        (x.compact ++ (compactMembers ms ++ '\x7d' :: rest))) =
      ((some key, x.rescan) :: rescanMembers ms, some rest)

section Step

variable {fuel : Nat} (ih : ReadsCompact fuel)

include ih

/-- With more fuel than its items and members need, a document is scanned. One case for each
constructor; containers without content have an equation of their own in the scanner. -/
theorem value_step (j : Json) (hfuel : j.compact.length < fuel + 1)
    (rest : List Char) (hrest : StopsAt Numeral.goesOn rest) :
    value (fuel + 1) (j.compact ++ rest) = (j.rescan, some rest) := by
  match j with
  | .null => rfl
  | .bool true => rfl
  | .bool false => rfl
  | .number n => exact value_number n hrest fuel
  | .string s => exact value_quote s rest fuel
  | .array [] => rfl
  | .object [] => rfl
  | .array (x :: xs) =>
    have hlength : x.compact.length + (compactItems xs).length + 1 < fuel := by
      simp [compact] at hfuel
      omega
    have hcompact : (Json.array (x :: xs)).compact ++ rest =
        '[' :: (x.compact ++ (compactItems xs ++ ']' :: rest)) := by
      simp [compact]
    obtain ⟨c, t, hc, hspacing, hbracket⟩ := exists_compact_eq_cons x
    rw [hcompact]
    refine value_array (skipSpacing_cons rfl _) ?_ (ih.items x xs hlength rest)
    -- what the first item starts with does not close the array
    intro u
    rw [hc, List.cons_append, skipSpacing_cons hspacing]
    exact fun heq => hbracket (List.cons.inj heq).1
  | .object ((key, x) :: ms) =>
    have hlength : x.compact.length + (compactMembers ms).length + 1 < fuel := by
      simp [compact, quote] at hfuel
      omega
    have hcompact : (Json.object ((key, x) :: ms)).compact ++ rest =
        '\x7b' :: '"' :: (key.toList.flatMap escape ++ '"' :: ':' ::
          (x.compact ++ (compactMembers ms ++ '\x7d' :: rest))) := by
      simp [compact, quote]
    rw [hcompact]
    exact value_object (skipSpacing_cons rfl _) (skipSpacing_cons rfl _)
      (ih.members key x ms hlength rest)

/-- The items from one on: the first is scanned as a value, the others with one unit of fuel
less. -/
theorem items_step (x : Json) (xs : List Json)
    (hfuel : x.compact.length + (compactItems xs).length + 1 < fuel + 1) (rest : List Char) :
    items (fuel + 1) (x.compact ++ (compactItems xs ++ ']' :: rest)) =
      (x.rescan :: rescanItems xs, some rest) := by
  have hvalue := ih.value x (by omega) _ (stopsAt_compactItems xs rest)
  cases xs with
  | nil => exact items_last hvalue (skipSpacing_cons rfl _)
  | cons y ys =>
    have hlength : y.compact.length + (compactItems ys).length + 1 < fuel := by
      simp [compactItems] at hfuel
      omega
    have htail : compactItems (y :: ys) ++ ']' :: rest =
        ',' :: (y.compact ++ (compactItems ys ++ ']' :: rest)) := by
      simp [compactItems]
    rw [htail] at hvalue ⊢
    exact items_cons hvalue (skipSpacing_cons rfl _) (ih.items y ys hlength rest)

/-- The members from one on, behind the quotation mark that starts the key of the first. -/
theorem members_step (key : String) (x : Json) (ms : List (String × Json))
    (hfuel : x.compact.length + (compactMembers ms).length + 1 < fuel + 1) (rest : List Char) :
    members (fuel + 1) (key.toList.flatMap escape ++ '"' :: ':' ::
        (x.compact ++ (compactMembers ms ++ '\x7d' :: rest))) =
      ((some key, x.rescan) :: rescanMembers ms, some rest) := by
  have hkey := splitQuoted?_quote key
    (':' :: (x.compact ++ (compactMembers ms ++ '\x7d' :: rest)))
  have hvalue := ih.value x (by omega) _ (stopsAt_compactMembers ms rest)
  rcases ms with _ | ⟨⟨key', y⟩, ms⟩
  · exact members_last hkey (skipSpacing_cons rfl _) hvalue (skipSpacing_cons rfl _)
  · have hlength : y.compact.length + (compactMembers ms).length + 1 < fuel := by
      simp [compactMembers, quote] at hfuel
      omega
    have htail : compactMembers ((key', y) :: ms) ++ '\x7d' :: rest =
        ',' :: '"' :: (key'.toList.flatMap escape ++ '"' :: ':' ::
          (y.compact ++ (compactMembers ms ++ '\x7d' :: rest))) := by
      simp [compactMembers, quote]
    rw [htail] at hkey hvalue ⊢
    exact members_cons hkey (skipSpacing_cons rfl _) hvalue (skipSpacing_cons rfl _)
      (skipSpacing_cons rfl _) (ih.members key' y ms hlength rest)

end Step

/-- Induction on the fuel. The three functions of the scanner call each other with one unit less. -/
theorem readsCompact (fuel : Nat) : ReadsCompact fuel := by
  induction fuel with
  -- no text is shorter than nothing
  | zero => exact ⟨fun _ h => absurd h (by omega), fun _ _ h => absurd h (by omega),
      fun _ _ _ h => absurd h (by omega)⟩
  | succ fuel ih => exact ⟨value_step ih, items_step ih, members_step ih⟩

/-- **A document is scanned as what it is**, its numbers aside. -/
theorem ofText_compact (j : Json) : ofText j.compact = (j.rescan, some []) := by
  unfold ofText
  -- the scanner takes two units for every character, since an item and its value take one each
  have hvalue := (readsCompact (2 * j.compact.length + 2)).value j (by omega) [] stopsAt_nil
  rw [List.append_nil] at hvalue
  exact hvalue

end Scan

end FilterQuery.Json

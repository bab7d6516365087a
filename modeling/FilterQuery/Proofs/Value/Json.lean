import FilterQuery.Proofs.Json.Decoding
import FilterQuery.Value.Json

/-!
# Values read back from JSON

JSON tells the types of values by their notation alone. What becomes of a value when it is written
and read again is `Value.reread`: numbers that are not finite are lost, and so is the type of an
empty list. The values that come back as they are (`Value.reread_eq_some_self_iff`) are called
lossless, and every value that is read from JSON is one of them (`Value.ensures_lossless`).
-/

namespace FilterQuery

open Json (Number Scan)
open Json.Decoder (Ensures alternatives orNoAlternative)

/-! ## What comes back -/

/-- The list as which a list comes back. There is none if an element is not a finite number, for
such an element is written as null. -/
def ValueList.reread : ValueList → Option ValueList
  | ints ns => some (ints ns)
  | floats xs =>
    if xs.all Float64.isFinite then some (if xs.isEmpty then ints [] else floats xs) else none
  | bools bs => some (if bs.isEmpty then ints [] else bools bs)
  | strings ss => some (if ss.isEmpty then ints [] else strings ss)

/-- The value as which a value comes back, if it is read at all. -/
def Value.reread : Value → Option Value
  | float x => some (if x.isFinite then float x else null)
  | list xs => xs.reread.map list
  | v => some v

/-- The list keeps its elements and its kind. -/
def ValueList.Lossless : ValueList → Prop
  | ints _ => True
  | floats xs => xs ≠ [] ∧ ∀ x ∈ xs, x.isFinite = true
  | bools bs => bs ≠ []
  | strings ss => ss ≠ []

/-- The value is written as what it is. -/
def Value.Lossless : Value → Prop
  | float x => x.isFinite = true
  | list xs => xs.Lossless
  | _ => True

/-- The floating-point numbers that a value holds. -/
def Value.floats : Value → List Float64
  | float x => [x]
  | list (.floats xs) => xs
  | _ => []

/-- A list comes back as it is iff it is lossless. -/
theorem ValueList.reread_eq_some_self_iff {xs : ValueList} :
    xs.reread = some xs ↔ xs.Lossless := by
  cases xs with
  | ints ns => simp [reread, Lossless]
  | floats xs =>
    unfold reread Lossless
    cases xs with
    | nil => simp
    | cons x xs => simp
  | bools bs => cases bs <;> simp [reread, Lossless]
  | strings ss => cases ss <;> simp [reread, Lossless]

/-- **A value comes back as it is iff it is lossless.** -/
theorem Value.reread_eq_some_self_iff {v : Value} : v.reread = some v ↔ v.Lossless := by
  cases v with
  | float x =>
    show some (if x.isFinite then float x else null) = some (float x) ↔ x.isFinite = true
    cases x.isFinite <;> simp
  | list xs =>
    show xs.reread.map list = some (list xs) ↔ xs.Lossless
    rw [← ValueList.reread_eq_some_self_iff]
    simp
  | null => simp [reread, Lossless]
  | bool b => simp [reread, Lossless]
  | int n => simp [reread, Lossless]
  | string s => simp [reread, Lossless]

/-! ## Lists of scans -/

section Items

variable {α β : Type} {f : α → β} {g : β → Option α}

/-- A reader that takes back what was written takes back a list. -/
theorem mapM_map_eq_some {as : List α} (h : ∀ a ∈ as, g (f a) = some a) :
    (as.map f).mapM g = some as := by
  rw [mapM_eq_some_iff, List.forall₂_map_left_iff, List.forall₂_same]
  exact h

/-- A list comes back as it is iff all its elements do. -/
theorem mapM_eq_some_self_iff {g : α → Option α} {as : List α} :
    as.mapM g = some as ↔ ∀ a ∈ as, g a = some a :=
  mapM_eq_some_iff.trans List.forall₂_same

/-- One item that cannot be read is enough for a list not to be. -/
theorem mapM_eq_none {bs : List β} {b : β} (hb : b ∈ bs) (h : g b = none) : bs.mapM g = none :=
  mapM_eq_none_iff.mpr ⟨b, hb, h⟩

end Items

namespace Json.Scan

/-- The items of an array are scanned one by one. -/
theorem toScan_array_map {α : Type} (f : α → Json) (as : List α) :
    toScan (.array (as.map f)) = .array (as.map fun a => (f a).toScan) true := by
  rw [toScan, toScanItems_eq, List.map_map]
  rfl

/-- A finite number is scanned as itself, and all others as null, which they are written as. -/
theorem toScan_float {x : Float64} (hx : x.isFinite = true) :
    toScan (.number (.float x)) = .number (some (.float x)) := by
  rw [toScan, Number.toScan, if_pos hx]

theorem toScan_float_of_not {x : Float64} (hx : ¬ x.isFinite = true) :
    toScan (.number (.float x)) = .null := by
  rw [toScan, Number.toScan, if_neg hx]

/-- The first kind that fits is the kind of the list. -/
theorem valueList?_of_floats {items : List Scan} {xs : List Float64}
    (hints : items.mapM int64? = none) (hfloats : items.mapM float? = some xs) :
    valueList? items = some (.floats xs) := by
  unfold valueList?
  rw [hints, hfloats]
  rfl

theorem valueList?_of_bools {items : List Scan} {bs : List Bool}
    (hints : items.mapM int64? = none) (hfloats : items.mapM float? = none)
    (hbools : items.mapM bool? = some bs) : valueList? items = some (.bools bs) := by
  unfold valueList?
  rw [hints, hfloats, hbools]
  rfl

theorem valueList?_of_strings {items : List Scan} {ss : Option (List String)}
    (hints : items.mapM int64? = none) (hfloats : items.mapM float? = none)
    (hbools : items.mapM bool? = none) (hstrings : items.mapM string? = ss) :
    valueList? items = ss.map .strings := by
  unfold valueList?
  rw [hints, hfloats, hbools, hstrings]
  rfl

/-- A list of numbers is read as what comes back, which is nothing if one of them is not finite. -/
theorem valueList?_floats (xs : List Float64) :
    valueList? (xs.map fun x => toScan (.number (.float x))) = (ValueList.floats xs).reread := by
  cases xs with
  | nil => rfl
  | cons y ys =>
    show _ = if _ then _ else none
    by_cases hall : (y :: ys).all Float64.isFinite = true
    · have hfinite := List.all_eq_true.mp hall
      have hfirst : toScan (.number (.float y)) ∈
          (y :: ys).map fun x => toScan (.number (.float x)) := List.mem_cons_self
      rw [if_pos hall]
      -- with its point or exponent the first element rules out whole numbers
      refine valueList?_of_floats (mapM_eq_none hfirst ?_) (mapM_map_eq_some fun x hx => ?_)
      · rw [toScan_float (hfinite y List.mem_cons_self)]
        rfl
      · rw [toScan_float (hfinite x hx)]
        rfl
    · -- an element that is null fits no kind of list
      have hnull : Scan.null ∈ (y :: ys).map fun x => toScan (.number (.float x)) := by
        rw [List.all_eq_true] at hall
        simp only [not_forall] at hall
        obtain ⟨x, hx, hinfinite⟩ := hall
        exact List.mem_map.mpr ⟨x, hx, toScan_float_of_not hinfinite⟩
      rw [if_neg hall]
      exact valueList?_of_strings (mapM_eq_none hnull rfl) (mapM_eq_none hnull rfl)
        (mapM_eq_none hnull rfl) (mapM_eq_none hnull rfl)

/-- Truth values are no numbers, so the first of them rules out the kinds that are tried before. -/
theorem valueList?_bools (bs : List Bool) :
    valueList? (bs.map fun b => toScan (.bool b)) = (ValueList.bools bs).reread := by
  cases bs with
  | nil => rfl
  | cons b bs =>
    have hfirst : toScan (.bool b) ∈ (b :: bs).map fun b => toScan (.bool b) :=
      List.mem_cons_self
    exact valueList?_of_bools (mapM_eq_none hfirst rfl) (mapM_eq_none hfirst rfl)
      (mapM_map_eq_some fun _ _ => rfl)

/-- Strings are tried last, and the first of them rules out all other kinds. -/
theorem valueList?_strings (ss : List String) :
    valueList? (ss.map fun s => toScan (.string s)) = (ValueList.strings ss).reread := by
  cases ss with
  | nil => rfl
  | cons s ss =>
    have hfirst : toScan (.string s) ∈ (s :: ss).map fun s => toScan (.string s) :=
      List.mem_cons_self
    exact valueList?_of_strings (mapM_eq_none hfirst rfl) (mapM_eq_none hfirst rfl)
      (mapM_eq_none hfirst rfl) (mapM_map_eq_some fun _ _ => rfl)

/-- **A list that was written is read as what comes back.** -/
theorem listAlone?_toScan (xs : ValueList) : listAlone? xs.json.toScan = xs.reread := by
  unfold ValueList.json
  cases xs with
  | ints ns =>
    have hints : (ns.map fun n => toScan (.int n.toInt)).mapM int64? = some ns := by
      -- whole numbers are tried first, and those that fit a signed word are read as they are
      refine mapM_map_eq_some fun n _ => ?_
      exact Text.signedOfInt?_eq_some_iff.mpr rfl
    rw [toScan_array_map]
    show valueList? _ = some _
    unfold valueList?
    rw [hints]
    rfl
  | floats xs =>
    rw [toScan_array_map]
    exact valueList?_floats xs
  | bools bs =>
    rw [toScan_array_map]
    exact valueList?_bools bs
  | strings ss =>
    rw [toScan_array_map]
    exact valueList?_strings ss

/-- **A value that was written is read as what comes back.** -/
theorem value?_toScan (v : Value) : value? v.json.toScan = v.reread := by
  cases v with
  | null => rfl
  | bool b => rfl
  | string s => rfl
  | int n =>
    have hint : int64? (number (some (.whole n.toInt))) = some n :=
      Text.signedOfInt?_eq_some_iff.mpr rfl
    show ((int64? (number (some (.whole n.toInt)))).map Value.int <|> _) = _
    rw [hint]
    rfl
  | float x =>
    show value? (toScan (.number (.float x))) = some (if x.isFinite then .float x else .null)
    by_cases hx : x.isFinite = true
    · rw [toScan_float hx, if_pos hx]
      rfl
    · rw [toScan_float_of_not hx, if_neg hx]
      rfl
  | list xs =>
    show value? xs.json.toScan = xs.reread.map .list
    rw [← listAlone?_toScan]
    -- an array is a value iff it is a list on its own, whatever is in it
    cases xs <;> (unfold ValueList.json; rw [toScan_array_map]; rfl)

/-! ## Readability -/

/-- The recursion over the items is there for termination only. -/
theorem readableItems_iff {depth : Nat} {xs : List Scan} :
    readableItems depth xs = true ↔ ∀ x ∈ xs, x.isReadable depth = true := by
  induction xs with
  | nil => simp [readableItems]
  | cons x xs ih => simp [readableItems, ih]

/-- An array can be read one level further out than its items. -/
theorem isReadable_toScan_array {α : Type} {f : α → Json} {depth : Nat}
    (h : ∀ a, ((f a).toScan).isReadable depth = true) (as : List α) :
    (toScan (.array (as.map f))).isReadable (depth + 1) = true := by
  have hitems : readableItems depth (as.map fun a => (f a).toScan) = true := by
    refine readableItems_iff.mpr fun x hx => ?_
    obtain ⟨a, -, rfl⟩ := List.mem_map.mp hx
    exact h a
  rw [toScan_array_map, isReadable]
  simp [hitems]

theorem isReadable_toScan_float (depth : Nat) (x : Float64) :
    (toScan (.number (.float x))).isReadable depth = true := by
  by_cases hx : x.isFinite = true
  · rw [toScan_float hx]
    rfl
  · rw [toScan_float_of_not hx]
    rfl

/-- All of a value can be read: a list is one level of nesting. -/
theorem isReadable_toScan (depth : Nat) (v : Value) :
    v.json.toScan.isReadable (depth + 1) = true := by
  cases v with
  | null => rfl
  | bool b => rfl
  | int n => rfl
  | string s => rfl
  | float x => exact isReadable_toScan_float _ x
  | list xs =>
    cases xs with
    | ints ns => exact isReadable_toScan_array (fun _ => rfl) ns
    | floats xs => exact isReadable_toScan_array (isReadable_toScan_float depth) xs
    | bools bs => exact isReadable_toScan_array (fun _ => rfl) bs
    | strings ss => exact isReadable_toScan_array (fun _ => rfl) ss

end Json.Scan

/-- A count that fits 64 bits is read back. -/
theorem Json.numbersReadBack_natural {n : Nat} (h : n < UInt64.size) :
    (Json.int n).NumbersReadBack :=
  Number.readsBack_whole ⟨by omega, Int.ofNat_lt.mpr h⟩

/-- A count that fits 64 bits is read as itself, whatever the type is called. -/
theorem Json.natural_rescan (type : String) (depth : Nat) {n : Nat} (h : n < UInt64.size) :
    Json.Decoder.natural type depth (Json.int n).rescan = .ok n := by
  rw [rescan_eq_toScan _ (numbersReadBack_natural h)]
  rfl

namespace Value

/-- A value that does not come back fits no type of value. -/
theorem decoder_toScan (depth : Nat) (v : Value) :
    decoder (depth + 1) v.json.toScan = orNoAlternative "Value" v.reread := by
  simp only [decoder, alternatives, Scan.isReadable_toScan, Scan.value?_toScan]
  cases v.reread <;> rfl

/-- All numbers of a value are read back if its finite floating-point numbers are. -/
theorem numbersReadBack_json {v : Value}
    (h : ∀ x ∈ v.floats, x.isFinite = true → (Number.float x).ReadsBack) :
    v.json.NumbersReadBack := by
  have hint : ∀ n : Int64, (Json.int n.toInt).NumbersReadBack := fun n =>
    Number.readsBack_whole ⟨n.le_toInt, Int.lt_trans n.toInt_lt (by decide)⟩
  cases v with
  | null => trivial
  | bool b => trivial
  | string s => trivial
  | int n => exact hint n
  | float x => exact h x List.mem_cons_self
  | list xs =>
    -- only numbers are to be looked at among the items
    cases xs <;> refine Json.numbersReadBackItems_iff.mpr fun j hj => ?_
    case ints ns =>
      obtain ⟨n, -, rfl⟩ := List.mem_map.mp hj
      exact hint n
    case floats xs =>
      obtain ⟨x, hx, rfl⟩ := List.mem_map.mp hj
      exact h x hx
    case bools bs =>
      obtain ⟨b, -, rfl⟩ := List.mem_map.mp hj
      trivial
    case strings ss =>
      obtain ⟨s, -, rfl⟩ := List.mem_map.mp hj
      trivial

end Value

/-! ## What is read is lossless -/

namespace Json.Scan

/-- A whole number in range is small enough for a finite number, and a fraction in range is one. -/
theorem isFinite_of_float? {s : Scan} (hrange : s.NumbersInRange) {x : Float64}
    (h : float? s = some x) : x.isFinite = true := by
  unfold float? at h
  split at h
  · next n =>
    obtain rfl := Option.some.inj h
    obtain ⟨hlow, hhigh⟩ : -2 ^ 63 ≤ n ∧ n < 2 ^ 64 := hrange _ rfl
    exact Float64.isFinite_ofRatio_of_lt (e := 64) _ (by decide) (by omega)
  · next y =>
    obtain rfl := Option.some.inj h
    exact hrange _ rfl
  · cases h

/-- An empty list is taken for one of whole numbers before any other kind is tried. -/
theorem ne_nil_of_mapM {α : Type} {f : Scan → Option α} {items : List Scan} {as : List α}
    (hints : items.mapM int64? = none) (h : items.mapM f = some as) : as ≠ [] := by
  rintro rfl
  cases items with
  | nil => cases hints
  | cons s items =>
    rw [List.mapM_cons] at h
    obtain ⟨a, -, h⟩ := Option.bind_eq_some_iff.mp h
    obtain ⟨as, -, h⟩ := Option.bind_eq_some_iff.mp h
    cases h

/-- The kinds are tried in turn, and what is not a list of whole numbers has an element of its own
kind. -/
theorem lossless_of_valueList? {items : List Scan} (hrange : NumbersInRangeItems items)
    {xs : ValueList} (h : valueList? items = some xs) : xs.Lossless := by
  unfold valueList? at h
  cases hints : items.mapM int64? with
  | some ns =>
    rw [hints] at h
    cases h
    trivial
  | none =>
    -- any other kind is tried only after whole numbers, which every empty array is
    have hne {α : Type} {f : Scan → Option α} {as : List α} (h : items.mapM f = some as) :
        as ≠ [] := ne_nil_of_mapM hints h
    rw [hints] at h
    cases hfloats : items.mapM float? with
    | some fs =>
      rw [hfloats] at h
      cases h
      refine ⟨hne hfloats, fun x hx => ?_⟩
      obtain ⟨s, hs, hx⟩ := exists_of_forall₂ (mapM_eq_some_iff.mp hfloats) x hx
      exact isFinite_of_float? (numbersInRangeItems_iff.mp hrange s hs) hx
    | none =>
      rw [hfloats] at h
      cases hbools : items.mapM bool? with
      | some bs =>
        rw [hbools] at h
        cases h
        exact hne hbools
      | none =>
        rw [hbools] at h
        obtain ⟨ss, hstrings, rfl⟩ := Option.map_eq_some_iff.mp h
        exact hne hstrings

/-- The same for a value. A number that is no signed word is read as a finite one. -/
theorem lossless_of_value? {s : Scan} (hrange : s.NumbersInRange) {v : Value}
    (h : value? s = some v) : v.Lossless := by
  cases s with
  | null =>
    cases h
    trivial
  | bool b =>
    cases h
    trivial
  | string s =>
    obtain ⟨s, -, rfl⟩ := Option.map_eq_some_iff.mp h
    trivial
  | array items closed =>
    obtain ⟨xs, hxs, rfl⟩ := Option.map_eq_some_iff.mp h
    exact lossless_of_valueList? hrange hxs
  | number n =>
    change ((int64? (number n)).map Value.int <|> (float? (number n)).map Value.float) = _ at h
    cases hint : int64? (number n) with
    | some i =>
      rw [hint] at h
      cases h
      trivial
    | none =>
      rw [hint] at h
      obtain ⟨x, hx, rfl⟩ := Option.map_eq_some_iff.mp h
      exact isFinite_of_float? hrange hx
  -- nothing else is a value
  | broken => cases h
  | object ms closed => cases h
  | badKey key => cases h

end Json.Scan

/-- **Every value that is read comes back.** -/
theorem Value.ensures_lossless : Ensures Value.decoder Value.Lossless := by
  intro depth s v hrange h
  unfold decoder alternatives at h
  obtain ⟨-, -, h⟩ := bind_eq_ok_iff.mp h
  split at h
  · next w hw =>
    cases h
    exact Scan.lossless_of_value? hrange hw
  · cases h

end FilterQuery

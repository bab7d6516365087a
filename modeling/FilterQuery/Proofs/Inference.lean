import FilterQuery.Proofs.Kind
import FilterQuery.Proofs.Outcome
import FilterQuery.Proofs.Text.Pieces
import FilterQuery.Proofs.Text.Unsigned

/-!
# Inference never fails

The kind of a list is found in one pass over its tokens and the elements are read in another one,
with a reader that may refuse. The two passes agree: a token that has a kind reads as that kind, and
a whole number also reads as a floating-point one (`Float64.isSome_ofText?_of_signed64?`), which is
what it is taken for among floating-point numbers. So tokens always make a list, and it has one
element for each of them (`ValueList.Reads`).

* `ValueList.exists_ofTokens` is this for any tokens, `ValueList.exists_ofText` for any text.
* `ValueList.exists_ofTokens_by_kind` says what becomes of the tokens, kind by kind.
-/

namespace FilterQuery

open Text

/-! ## A whole number is a floating-point number -/

/-- A signed whole number is a sign that a floating-point number may have, too, and digits. -/
theorem Text.natural?_of_signed64? {s : List Char} (h : (signed64? s).isSome = true) :
    (natural? (Float64.splitSign s).2).isSome = true := by
  unfold signed64? at h
  split at h
  · next digits =>
    show (natural? digits).isSome = true
    cases hn : natural? digits with
    | none => simp [hn] at h
    | some n => rfl
  · next digits =>
    show (natural? digits).isSome = true
    cases hn : natural? digits with
    | none => simp [hn] at h
    | some n => rfl
  · next hminus hplus =>
    have hsign : Float64.splitSign s = (false, s) := by
      unfold Float64.splitSign
      split
      · exact absurd rfl (hminus _)
      · exact absurd rfl (hplus _)
      · rfl
    rw [hsign]
    show (natural? s).isSome = true
    cases hn : natural? s with
    | none => simp [hn] at h
    | some n => rfl

namespace Float64

/-- Digits alone are an unsigned numeral. -/
theorem isSome_decimal?_of_digits {s : List Char} (hne : s ≠ [])
    (hdigits : ∀ c ∈ s, c.isDigit = true) : (decimal? s).isSome = true := by
  have htake := takeWhile_append_of_stopsAt hdigits stopsAt_nil
  have hdrop := dropWhile_append_of_stopsAt hdigits stopsAt_nil
  rw [List.append_nil] at htake hdrop
  simp [decimal?, htake, hdrop, hne, exponent?]

/-- **A whole number reads as a floating-point number, too.** It may lose digits, but it is never
refused. -/
theorem isSome_ofText?_of_signed64? {s : List Char} (h : (signed64? s).isSome = true) :
    (ofText? s).isSome = true := by
  obtain ⟨n, hn⟩ := Option.isSome_iff_exists.mp (natural?_of_signed64? h)
  obtain ⟨hne, hdigits, -⟩ := natural?_eq_some_iff.mp hn
  have hdecimal := isSome_decimal?_of_digits hne hdigits
  unfold ofText?
  simp only
  -- neither of the words for numbers that are not finite has to be excluded: they would be read as
  -- well
  split
  · rfl
  · split
    · rfl
    · rw [Option.isSome_map]
      exact hdecimal

end Float64

/-! ## The common kind in terms of the readers -/

namespace Kind

/-- The tokens that read as floating-point numbers are the numbers of either kind. -/
theorem admits_float_ofToken_iff {t : List Char} :
    Admits float (ofToken t) ↔ (Float64.ofText? t).isSome = true := by
  rw [admits_float_iff, ofToken_eq_int_iff, ofToken_eq_float_iff,
    ← Option.not_isSome_iff_eq_none]
  constructor
  · rintro (hint | ⟨-, hfloat⟩)
    · exact Float64.isSome_ofText?_of_signed64? hint
    · exact hfloat
  · intro hfloat
    by_cases hint : (signed64? t).isSome = true
    · exact .inl hint
    · exact .inr ⟨hint, hfloat⟩

variable {tokens : List (List Char)}

/-- The common kind is that of whole numbers iff all tokens read as such. -/
theorem common?_eq_int_iff_signed64? :
    common? tokens = some int ↔ tokens ≠ [] ∧ ∀ t ∈ tokens, (signed64? t).isSome = true := by
  rw [common?_eq_some_iff_of_ne_float (by decide)]
  simp only [ofToken_eq_int_iff]

/-- It is that of floating-point numbers iff all tokens read as such and one of them is no whole
number. -/
theorem common?_eq_float_iff_ofText? :
    common? tokens = some float ↔ (∀ t ∈ tokens, (Float64.ofText? t).isSome = true) ∧
      ∃ t ∈ tokens, signed64? t = none := by
  simp only [common?_eq_float_iff, admits_float_ofToken_iff, ofToken_eq_float_iff]
  constructor
  · rintro ⟨hnumeric, t, ht, hnone, -⟩
    exact ⟨hnumeric, t, ht, hnone⟩
  · rintro ⟨hnumeric, t, ht, hnone⟩
    exact ⟨hnumeric, t, ht, hnone, hnumeric t ht⟩

/-- Any other tokens count as strings, and so does no token at all. -/
theorem getD_common?_eq_string
    (hint : ¬(tokens ≠ [] ∧ ∀ t ∈ tokens, (signed64? t).isSome = true))
    (hfloat : ¬((∀ t ∈ tokens, (Float64.ofText? t).isSome = true) ∧
      ∃ t ∈ tokens, signed64? t = none))
    (hbool : ¬(tokens ≠ [] ∧ ∀ t ∈ tokens, ofToken t = bool)) :
    (common? tokens).getD string = string := by
  cases hkind : common? tokens with
  | none => rfl
  | some k =>
    cases k with
    | int => exact absurd (common?_eq_int_iff_signed64?.mp hkind) hint
    | float => exact absurd (common?_eq_float_iff_ofText?.mp hkind) hfloat
    | bool => exact absurd ((common?_eq_some_iff_of_ne_float (by decide)).mp hkind) hbool
    | string => rfl

end Kind

/-! ## Reading all tokens -/

namespace ValueList

/-- A reader that takes every token reads all of them, one element for each. -/
theorem exists_readAll {α : Type} (kind : Kind) {read : List Char → Option α}
    {tokens : List (List Char)} (h : ∀ t ∈ tokens, (read t).isSome = true) :
    ∃ xs, readAll kind read tokens = .ok xs ∧ tokens.map read = xs.map some := by
  induction tokens with
  | nil => exact ⟨[], rfl, rfl⟩
  | cons t ts ih =>
    -- the reader takes the first token, and the rest is read already
    obtain ⟨x, hx⟩ := Option.isSome_iff_exists.mp (h t (by simp))
    obtain ⟨xs, hxs, hmap⟩ := ih fun u hu => h u (by simp [hu])
    refine ⟨x :: xs, ?_, ?_⟩
    · unfold readAll at hxs ⊢
      rw [List.mapM_cons, hxs]
      simp only [hx]
      rfl
    · rw [List.map_cons, hx, hmap, List.map_cons]

/-- The list has one element for each token, in their order: what a list of its kind reads the
token as. -/
def Reads (tokens : List (List Char)) : ValueList → Prop
  | ints ns => tokens.map signed64? = ns.map some
  | floats xs => tokens.map Float64.ofText? = xs.map some
  | bools bs => tokens.map truthValue? = bs.map some
  | strings ss => ss = tokens.map String.ofList

/-- There are as many elements as tokens, whatever they are read as. -/
theorem Reads.length_toValues {tokens : List (List Char)} {xs : ValueList} (h : Reads tokens xs) :
    xs.toValues.length = tokens.length := by
  have hlength : ∀ {α : Type} {read : List Char → Option α} {as : List α},
      tokens.map read = as.map some → as.length = tokens.length := by
    intro α read as hread
    simpa using (congrArg List.length hread).symm
  cases xs with
  | ints ns => exact List.length_map _ |>.trans (hlength h)
  | floats xs => exact List.length_map _ |>.trans (hlength h)
  | bools bs => exact List.length_map _ |>.trans (hlength h)
  | strings ss =>
    rw [show ss = tokens.map String.ofList from h]
    simp [toValues]

/-- **Tokens always make a list** of their common kind. -/
theorem exists_ofTokens (tokens : List (List Char)) :
    ∃ xs, ofTokens tokens = .ok xs ∧ xs.Reads tokens ∧
      xs.kind = (Kind.common? tokens).getD .string := by
  unfold ofTokens
  cases hkind : Kind.common? tokens with
  | none => exact ⟨_, rfl, rfl, rfl⟩
  | some k =>
    -- in each case the common kind is what makes the reader take every token
    cases k with
    | int =>
      obtain ⟨ns, hns, hmap⟩ := exists_readAll .int (Kind.common?_eq_int_iff_signed64?.mp hkind).2
      exact ⟨ints ns, map_eq_ok_iff.mpr ⟨ns, hns, rfl⟩, hmap, rfl⟩
    | float =>
      obtain ⟨xs, hxs, hmap⟩ := exists_readAll .float (Kind.common?_eq_float_iff_ofText?.mp hkind).1
      exact ⟨floats xs, map_eq_ok_iff.mpr ⟨xs, hxs, rfl⟩, hmap, rfl⟩
    | bool =>
      have hkinds := ((Kind.common?_eq_some_iff_of_ne_float (by decide)).mp hkind).2
      obtain ⟨bs, hbs, hmap⟩ := exists_readAll .bool fun t ht =>
        Kind.isSome_truthValue?_of_ofToken (hkinds t ht)
      exact ⟨bools bs, map_eq_ok_iff.mpr ⟨bs, hbs, rfl⟩, hmap, rfl⟩
    | string => exact ⟨_, rfl, rfl, rfl⟩

/-- A list of strings keeps the tokens as they are. -/
theorem Reads.eq_strings {tokens : List (List Char)} {xs : ValueList} (h : Reads tokens xs)
    (hkind : xs.kind = .string) : xs = .strings (tokens.map String.ofList) := by
  cases xs with
  | strings ss => exact congrArg strings h
  | ints _ | floats _ | bools _ => cases hkind

/-- **Every text denotes a list**, with one element more than it has commas. -/
theorem exists_ofText (s : List Char) :
    ∃ xs, ofText s = .ok xs ∧ xs.toValues.length = s.count ',' + 1 := by
  obtain ⟨xs, hxs, hreads, -⟩ := exists_ofTokens ((s.splitOn ',').map trim)
  refine ⟨xs, hxs, ?_⟩
  rw [hreads.length_toValues, List.length_map]
  exact length_splitOn ',' s

/-- A text is never read as less or more than its pieces. -/
theorem length_of_ofText {s : List Char} {xs : ValueList} (h : ofText s = .ok xs) :
    xs.toValues.length = s.count ',' + 1 := by
  obtain ⟨xs', hxs, hlength⟩ := exists_ofText s
  rw [h] at hxs
  cases hxs
  exact hlength

/-- What the tokens of a list were read as. -/
theorem reads_of_ofTokens {tokens : List (List Char)} {xs : ValueList}
    (h : ofTokens tokens = .ok xs) : xs.Reads tokens := by
  obtain ⟨xs', hxs, hreads, -⟩ := exists_ofTokens tokens
  rw [h] at hxs
  cases hxs
  exact hreads

/-- The strings that a text was read as are its trimmed pieces. -/
theorem strings_of_ofText {s : List Char} {ss : List String} (h : ofText s = .ok (.strings ss)) :
    ss.map String.toList = (s.splitOn ',').map trim := by
  rw [show ss = ((s.splitOn ',').map trim).map String.ofList from reads_of_ofTokens h,
    List.map_map]
  exact List.map_id'' (fun t => String.toList_ofList) _

/-- What a list keeps as a string is a trimmed piece of the text. -/
theorem trimmed_of_mem_ofText {s : List Char} {xs : ValueList} (h : ofText s = .ok xs) {t : String}
    (ht : .string t ∈ xs.toValues) : ',' ∉ t.toList ∧ trim t.toList = t.toList := by
  cases xs with
  | ints _ | floats _ | bools _ => simp [toValues] at ht
  | strings ss =>
    have hmem : t ∈ ss := by simpa [toValues] using ht
    have hpiece : t.toList ∈ ss.map String.toList := List.mem_map_of_mem hmem
    rw [strings_of_ofText h] at hpiece
    exact trimmed_of_mem_map_splitOn hpiece

/-! ## What becomes of the tokens -/

/-- **Inference neither fails nor loses an element.** Tokens that are all whole numbers make a list
of these, tokens that are all numbers otherwise a list of floating-point numbers, and tokens of the
kind of truth values a list of truth values: one element for each token, in their order, what the
token reads as. Any other tokens are kept as they are, and no token at all makes an empty list of
strings. So a text always denotes a list, with one element more than it has commas, and what it
keeps as a string has neither a comma nor a blank at its ends. -/
theorem exists_ofTokens_by_kind (tokens : List (List Char)) (s : List Char) :
    (∃ xs, ofTokens tokens = .ok xs ∧ xs.toValues.length = tokens.length ∧
      (tokens ≠ [] → (∀ t ∈ tokens, (signed64? t).isSome = true) →
        ∃ ns, xs = .ints ns ∧ tokens.map signed64? = ns.map some) ∧
      ((∀ t ∈ tokens, (Float64.ofText? t).isSome = true) → (∃ t ∈ tokens, signed64? t = none) →
        ∃ fs, xs = .floats fs ∧ tokens.map Float64.ofText? = fs.map some) ∧
      (tokens ≠ [] → (∀ t ∈ tokens, Kind.ofToken t = .bool) →
        ∃ bs, xs = .bools bs ∧ tokens.map truthValue? = bs.map some) ∧
      (¬(tokens ≠ [] ∧ ∀ t ∈ tokens, (signed64? t).isSome = true) →
        ¬((∀ t ∈ tokens, (Float64.ofText? t).isSome = true) ∧ ∃ t ∈ tokens, signed64? t = none) →
        ¬(tokens ≠ [] ∧ ∀ t ∈ tokens, Kind.ofToken t = .bool) →
        xs = .strings (tokens.map String.ofList))) ∧
    ∃ xs, ofText s = .ok xs ∧ xs.toValues.length = s.count ',' + 1 ∧
      ∀ t : String, .string t ∈ xs.toValues → ',' ∉ t.toList ∧ trim t.toList = t.toList := by
  constructor
  · obtain ⟨xs, hxs, hreads, hkind⟩ := exists_ofTokens tokens
    refine ⟨xs, hxs, hreads.length_toValues, ?_, ?_, ?_, ?_⟩
    · intro hne hint
      rw [Kind.common?_eq_int_iff_signed64?.mpr ⟨hne, hint⟩] at hkind
      cases xs with
      | ints ns => exact ⟨ns, rfl, hreads⟩
      | floats _ | bools _ | strings _ => cases hkind
    · intro hnumeric hfraction
      rw [Kind.common?_eq_float_iff_ofText?.mpr ⟨hnumeric, hfraction⟩] at hkind
      cases xs with
      | floats fs => exact ⟨fs, rfl, hreads⟩
      | ints _ | bools _ | strings _ => cases hkind
    · intro hne hbool
      rw [Kind.common?_of_forall hne hbool] at hkind
      cases xs with
      | bools bs => exact ⟨bs, rfl, hreads⟩
      | ints _ | floats _ | strings _ => cases hkind
    · intro hint hnumeric hbool
      exact hreads.eq_strings (hkind.trans (Kind.getD_common?_eq_string hint hnumeric hbool))
  · obtain ⟨xs, hxs, hlength⟩ := exists_ofText s
    exact ⟨xs, hxs, hlength, fun t ht => trimmed_of_mem_ofText hxs ht⟩

/-- Whole numbers are read as floating-point ones beside a fraction, and a word keeps all pieces of
a text as strings. -/
theorem exists_ofTokens_by_kind_of_mixed :
    let tokens := ["007".toList, "+1".toList, ".5".toList]
    let s := " yes, 1\t,".toList
    (∃ fs, ofTokens tokens = .ok (.floats fs) ∧ tokens.map Float64.ofText? = fs.map some) ∧
      ∃ xs, ofText s = .ok xs ∧ xs = .strings ["yes", "1", ""] ∧
        ∀ t ∈ ["yes", "1", ""], ',' ∉ t.toList ∧ trim t.toList = t.toList := by
  intro tokens s
  obtain ⟨⟨xs, hxs, -, -, hfloats, -⟩, ys, hys, -, htrimmed⟩ := exists_ofTokens_by_kind tokens s
  have hnumeric : ∀ t ∈ tokens, (Float64.ofText? t).isSome = true := by
    refine List.forall_mem_cons.mpr ⟨rfl, List.forall_mem_cons.mpr ⟨rfl, ?_⟩⟩
    exact List.forall_mem_singleton.mpr rfl
  obtain ⟨fs, rfl, hread⟩ := hfloats hnumeric ⟨".5".toList, by simp [tokens], rfl⟩
  obtain rfl : ys = .strings ["yes", "1", ""] := by
    cases hys
    rfl
  refine ⟨⟨fs, hxs, hread⟩, _, hys, rfl, fun t ht => htrimmed t ?_⟩
  exact List.mem_map_of_mem ht

/-- No token is anything but a whole number where there is none at all, and yet the list is one of
strings. -/
theorem not_forall_ofTokens_ints :
    ofTokens [] = .ok (.strings []) ∧
      ¬∀ tokens : List (List Char), (∀ t ∈ tokens, (signed64? t).isSome = true) →
        ∃ ns, ofTokens tokens = .ok (.ints ns) ∧ tokens.map signed64? = ns.map some := by
  refine ⟨rfl, fun h => ?_⟩
  obtain ⟨ns, hns, -⟩ := h [] (by simp)
  cases hns

end ValueList

end FilterQuery

import FilterQuery.Proofs.Float64.Whole
import FilterQuery.Proofs.Filter.Token
import FilterQuery.Proofs.Text.Pieces
import Mathlib.Data.List.Forall2

/-!
# Lists read back

The text of a list between the brackets of a line carries no kind, so that reading it infers the
kind anew. Integers, truth values and the pieces that a list of strings was read from get the kind
they had (`ofText_bracketText_ints`, `_bools`, `_strings`). Floating-point numbers do so unless all
of them are written as integers (`ofText_bracketText_floats`,
`ofText_bracketText_floats_of_integers`).
-/

namespace FilterQuery

open Text

/-! ## Texts of elements -/

/-- A character that neither ends an element nor is trimmed from it. -/
def Text.isElementChar (c : Char) : Bool := !isBlank c && c != ',' && c != ']'

namespace Text

/-- What an element is written with is not trimmed. -/
theorem not_isBlank_of_isElementChar {c : Char} (h : isElementChar c = true) :
    isBlank c = false := by
  unfold isElementChar at h
  rw [Bool.and_eq_true, Bool.and_eq_true, Bool.not_eq_true'] at h
  exact h.1.1

/-- What an element is written with does not end it. -/
theorem notMem_of_isElementChar {s : List Char} (h : ∀ c ∈ s, isElementChar c = true) :
    ',' ∉ s ∧ ']' ∉ s := by
  constructor <;>
    · intro hmem
      have hc := h _ hmem
      cases hc

/-- Elements may be written with digits. -/
theorem isElementChar_of_isDigit {c : Char} (h : c.isDigit = true) : isElementChar c = true := by
  have hrange := Char.isDigit_iff_toNat.mp h
  have hlow : 48 ≤ c.toNat := hrange.1
  have hhigh : c.toNat ≤ 57 := hrange.2
  -- the comma and the bracket are outside of the range of digits
  have hne : ∀ d : Char, d.toNat < 48 ∨ 57 < d.toNat → (c != d) = true := by
    rintro d hd
    rw [bne_iff_ne]
    rintro rfl
    omega
  unfold isElementChar
  rw [not_isBlank_of_isDigit h, hne ',' (by decide), hne ']' (by decide)]
  rfl

/-- Elements may be written with a minus sign. -/
theorem isElementChar_of_mem_signed {negative : Bool} {s : List Char}
    (h : ∀ c ∈ s, isElementChar c = true) :
    ∀ c ∈ Float64.signed negative s, isElementChar c = true := by
  cases negative with
  | false => exact h
  | true =>
    intro c hc
    rcases List.mem_cons.mp hc with rfl | hc
    · rfl
    · exact h c hc

/-- The notation of an integer can stand in a list. -/
theorem isElementChar_of_mem_signedDecimal (n : Int) :
    ∀ c ∈ signedDecimal n, isElementChar c = true := by
  rw [signedDecimal_eq]
  refine isElementChar_of_mem_signed fun c hc => isElementChar_of_isDigit ?_
  exact List.all_eq_true.mp (all_isDigit_decimal _) c hc

end Text

/-- The notation of a floating-point number can stand in a list, be the number finite or not. -/
theorem Float64.isElementChar_of_mem_plain (x : Float64) :
    ∀ c ∈ x.plain, isElementChar c = true := by
  have hall : ∀ s : List Char, s.all isElementChar = true → ∀ c ∈ s, isElementChar c = true :=
    fun s hs => List.all_eq_true.mp hs
  cases hx : x with
  | nan => exact hall _ (by decide)
  | infinity negative => cases negative <;> exact hall _ (by decide)
  | finite negative rank =>
    rw [plain_of_eq_finite rfl]
    -- a finite number is digits, possibly with a point and more digits behind it, and a sign in
    -- front
    obtain ⟨whole, fraction, -, hpositional, -, hwhole, hfraction, -, -⟩ :=
      exists_positional_eq (isDigit_of_mem_significant (shortest .up rank))
        (significant (shortest .up rank)).2
    rw [hpositional]
    refine isElementChar_of_mem_signed fun c hc => ?_
    rcases List.mem_append.mp hc with hc | hc
    · exact isElementChar_of_isDigit (hwhole c hc)
    · cases fraction with
      | nil => cases hc
      | cons d fraction =>
        rcases List.mem_cons.mp hc with rfl | hc
        · rfl
        · exact isElementChar_of_isDigit (hfraction c hc)

/-! ## Reading the texts of a list -/

namespace Value

/-- The elements of a list of integers are written in decimal. -/
theorem bracketText_ints (ns : List Int64) :
    (list (.ints ns)).bracketText = commaSeparated (ns.map fun n => signedDecimal n.toInt) :=
  congrArg commaSeparated List.map_map

theorem bracketText_floats (xs : List Float64) :
    (list (.floats xs)).bracketText = commaSeparated (xs.map Float64.plain) :=
  congrArg commaSeparated List.map_map

theorem bracketText_bools (bs : List Bool) :
    (list (.bools bs)).bracketText = commaSeparated (bs.map fun b => (bool b).bare) :=
  congrArg commaSeparated List.map_map

theorem bracketText_strings (ss : List String) :
    (list (.strings ss)).bracketText = commaSeparated (ss.map String.toList) :=
  congrArg commaSeparated List.map_map

end Value

namespace ValueList

section Texts

variable {α : Type} {text : α → List Char} {read : List Char → Option α}

/-- A reader that inverts a notation reads all elements from their texts. -/
theorem readAll_texts (kind : Kind) (hread : ∀ a, read (text a) = some a) (elements : List α) :
    readAll kind read (elements.map text) = .ok elements := by
  induction elements with
  | nil => rfl
  | cons a elements ih =>
    unfold readAll at ih ⊢
    rw [List.map_cons, List.mapM_cons, ih, hread]
    rfl

/-- Elements are read from a text that shows them with commas in between. -/
theorem ofText_commaSeparated {tokens : List (List Char)} (hne : tokens ≠ [])
    (hcomma : ∀ t ∈ tokens, ',' ∉ t) (htrim : ∀ t ∈ tokens, trim t = t) :
    ofText (Value.commaSeparated tokens) = ofTokens tokens := by
  unfold ofText
  rw [Value.map_trim_splitOn_commaSeparated hne hcomma, List.map_congr_left htrim, List.map_id']

/-- The same for a notation that uses element characters only. -/
theorem ofText_texts {elements : List α} (hne : elements ≠ [])
    (hchars : ∀ a, ∀ c ∈ text a, isElementChar c = true) :
    ofText (Value.commaSeparated (elements.map text)) = ofTokens (elements.map text) := by
  refine ofText_commaSeparated (by simpa using hne) ?_ ?_
  · exact List.forall_mem_map.mpr fun a _ => (notMem_of_isElementChar (hchars a)).1
  · refine List.forall_mem_map.mpr fun a _ => trim_of_not_isBlank fun c hc => ?_
    exact not_isBlank_of_isElementChar (hchars a c hc)

end Texts

/-- Integers are read as integers: each of their texts is one, so that this is the kind of the
list. -/
theorem ofText_bracketText_ints {ns : List Int64} (hne : ns ≠ []) :
    ofText (Value.list (.ints ns)).bracketText = .ok (.ints ns) := by
  have hread : ∀ n : Int64, signed64? (signedDecimal n.toInt) = some n := signed64?_signedDecimal
  have hkind := Kind.common?_eq_int_iff_signed64?.mpr ⟨mt List.map_eq_nil_iff.mp hne,
    List.forall_mem_map.mpr fun n (_ : n ∈ ns) => Option.isSome_of_eq_some (hread n)⟩
  rw [Value.bracketText_ints, ofText_texts hne fun n => isElementChar_of_mem_signedDecimal n.toInt]
  unfold ofTokens
  rw [hkind, readAll_texts .int hread ns]
  rfl

/-- Truth values are read as truth values, since their words are no numbers. -/
theorem ofText_bracketText_bools {bs : List Bool} (hne : bs ≠ []) :
    ofText (Value.list (.bools bs)).bracketText = .ok (.bools bs) := by
  have hread : ∀ b : Bool, truthValue? (Value.bool b).bare = some b := by decide
  have hkinds : ∀ b : Bool, Kind.ofToken (Value.bool b).bare = .bool := by decide
  have hchars : ∀ b : Bool, ∀ c ∈ (Value.bool b).bare, isElementChar c = true := by
    intro b
    refine List.all_eq_true.mp ?_
    cases b <;> decide
  have hkind := Kind.common?_of_forall (mt List.map_eq_nil_iff.mp hne)
    (List.forall_mem_map.mpr fun b (_ : b ∈ bs) => hkinds b)
  rw [Value.bracketText_bools, ofText_texts hne hchars]
  unfold ofTokens
  rw [hkind, readAll_texts .bool hread bs]
  rfl

/-- Floating-point numbers are read as such if one of them is not written as an integer. -/
theorem ofText_bracketText_floats {xs : List Float64}
    (h : ∃ x ∈ xs, signed64? x.plain = none) :
    ofText (Value.list (.floats xs)).bracketText = .ok (.floats xs) := by
  obtain ⟨x, hx, hnone⟩ := h
  -- every notation reads as a number, and the one of `x` makes the kind of the list
  have hkind := Kind.common?_eq_float_iff_ofText?.mpr
    ⟨List.forall_mem_map.mpr fun x (_ : x ∈ xs) => Option.isSome_of_eq_some x.ofText?_plain,
      x.plain, List.mem_map_of_mem hx, hnone⟩
  rw [Value.bracketText_floats,
    ofText_texts (List.ne_nil_of_mem hx) Float64.isElementChar_of_mem_plain]
  unfold ofTokens
  rw [hkind, readAll_texts .float Float64.ofText?_plain xs]
  rfl

/-- **Floating-point numbers that are all written as integers are read as integers.** -/
theorem ofText_bracketText_floats_of_integers {xs : List Float64} (hne : xs ≠ [])
    (h : ∀ x ∈ xs, (signed64? x.plain).isSome = true) :
    ∃ ns, ofText (Value.list (.floats xs)).bracketText = .ok (.ints ns) ∧
      List.Forall₂ (fun x n => signed64? x.plain = some n) xs ns := by
  have hkind := Kind.common?_eq_int_iff_signed64?.mpr
    ⟨mt List.map_eq_nil_iff.mp hne, List.forall_mem_map.mpr h⟩
  obtain ⟨ns, hns, hmap⟩ := exists_readAll .int (List.forall_mem_map.mpr h)
  refine ⟨ns, ?_, ?_⟩
  · rw [Value.bracketText_floats, ofText_texts hne Float64.isElementChar_of_mem_plain]
    unfold ofTokens
    rw [hkind, hns]
    rfl
  · rw [List.map_map, ← List.forall₂_eq_eq_eq, List.forall₂_map_left_iff,
      List.forall₂_map_right_iff] at hmap
    exact hmap

/-- Strings that were read from a text are read from theirs. They cannot be given another kind,
since they are the pieces of the first text and have been found to have none. -/
theorem ofText_bracketText_strings {s : List Char} {ss : List String}
    (h : ofText s = .ok (.strings ss)) :
    ofText (Value.list (.strings ss)).bracketText = .ok (.strings ss) := by
  have hne : (s.splitOn ',').map trim ≠ [] :=
    mt List.map_eq_nil_iff.mp (List.splitOn_ne_nil ',' s)
  rw [Value.bracketText_strings, strings_of_ofText h, ofText_commaSeparated hne]
  · exact h
  · exact fun t ht => (trimmed_of_mem_map_splitOn ht).1
  · exact fun t ht => (trimmed_of_mem_map_splitOn ht).2

/-- **A list that was read is read again from its text**, unless its elements are floating-point
numbers that are all written as integers. -/
theorem ofText_bracketText {s : List Char} {xs : ValueList} (h : ofText s = .ok xs)
    (hfloats : ∀ fs, xs = .floats fs → ∃ x ∈ fs, signed64? x.plain = none) :
    ofText (Value.list xs).bracketText = .ok xs := by
  -- a text has at least one piece, so nothing is read as a list without elements
  have hlength := length_of_ofText h
  have hne : xs.toValues ≠ [] := by
    intro hnil
    rw [hnil] at hlength
    cases hlength
  cases xs with
  | ints ns => exact ofText_bracketText_ints fun hnil => hne (by rw [hnil]; rfl)
  | floats fs => exact ofText_bracketText_floats (hfloats fs rfl)
  | bools bs => exact ofText_bracketText_bools fun hnil => hne (by rw [hnil]; rfl)
  | strings ss => exact ofText_bracketText_strings h

/-! ## Brackets -/

/-- The text of a list has a closing bracket only if the text that it was read from has one. -/
theorem notMem_bracketText {s : List Char} {xs : ValueList} (h : ofText s = .ok xs)
    (hs : ']' ∉ s) : ']' ∉ (Value.list xs).bracketText := by
  have hseparated : ∀ texts : List (List Char), (∀ t ∈ texts, ']' ∉ t) →
      ']' ∉ Value.commaSeparated texts := by
    intro texts htexts hmem
    rcases mem_intercalate hmem with hmem | ⟨t, ht, hmem⟩
    · simp at hmem
    · exact htexts t ht hmem
  -- numbers and truth values never show a bracket, and strings are pieces of the text they were
  -- read from
  cases xs with
  | ints ns =>
    rw [Value.bracketText_ints]
    refine hseparated _ (List.forall_mem_map.mpr fun n _ => ?_)
    exact (notMem_of_isElementChar (isElementChar_of_mem_signedDecimal n.toInt)).2
  | floats fs =>
    rw [Value.bracketText_floats]
    refine hseparated _ (List.forall_mem_map.mpr fun x _ => ?_)
    exact (notMem_of_isElementChar x.isElementChar_of_mem_plain).2
  | bools bs =>
    rw [Value.bracketText_bools]
    exact hseparated _ (List.forall_mem_map.mpr fun b _ => by cases b <;> decide)
  | strings ss =>
    rw [Value.bracketText_strings, strings_of_ofText h]
    refine hseparated _ (List.forall_mem_map.mpr fun t ht hmem => hs ?_)
    exact mem_of_mem_splitOn ht ((trim_isInfix t).subset hmem)

/-- **Only the list of one empty string has no text at all.** -/
theorem bracketText_eq_nil_iff {s : List Char} {xs : ValueList} (h : ofText s = .ok xs) :
    (Value.list xs).bracketText = [] ↔ xs = .strings [""] := by
  have hlength := length_of_ofText h
  -- with two elements there is a comma
  have hseparated : ∀ texts : List (List Char), Value.commaSeparated texts = [] →
      texts = [] ∨ texts = [[]] := by
    intro texts hnil
    match texts with
    | [] => exact .inl rfl
    | [t] =>
      unfold Value.commaSeparated at hnil
      rw [List.intercalate_singleton] at hnil
      exact .inr (by rw [hnil])
    | t :: u :: texts =>
      unfold Value.commaSeparated at hnil
      rw [List.intercalate_cons_cons] at hnil
      simp at hnil
  constructor
  · intro hnil
    -- Only a string may have an empty text. Numbers and truth values are read back from theirs, and
    -- from an empty text they are not read.
    rcases hseparated _ hnil with hnone | hone
    · rw [List.map_eq_nil_iff] at hnone
      rw [hnone] at hlength
      cases hlength
    · cases xs with
      | strings ss =>
        obtain ⟨v, hv, hbare⟩ := List.map_eq_singleton_iff.mp hone
        obtain ⟨t, rfl, rfl⟩ := List.map_eq_singleton_iff.mp hv
        rw [String.toList_eq_nil_iff.mp hbare]
      | ints ns =>
        obtain ⟨v, hv, hbare⟩ := List.map_eq_singleton_iff.mp hone
        obtain ⟨n, rfl, rfl⟩ := List.map_eq_singleton_iff.mp hv
        have hread := signed64?_signedDecimal n
        rw [show signedDecimal n.toInt = [] from hbare] at hread
        cases hread
      | floats fs =>
        obtain ⟨v, hv, hbare⟩ := List.map_eq_singleton_iff.mp hone
        obtain ⟨x, rfl, rfl⟩ := List.map_eq_singleton_iff.mp hv
        have hread := x.ofText?_plain
        rw [show x.plain = [] from hbare] at hread
        cases hread
      | bools bs =>
        obtain ⟨v, hv, hbare⟩ := List.map_eq_singleton_iff.mp hone
        obtain ⟨b, rfl, rfl⟩ := List.map_eq_singleton_iff.mp hv
        cases b <;> cases hbare
  · rintro rfl
    rfl

end ValueList

end FilterQuery

import FilterQuery.Json.Scan

/-!
# Strings in JSON texts

Escaping is inverted character by character, whatever the string holds (`splitQuoted?_quote`): the
characters that are escaped are read as themselves, all others stand for themselves, and no
character of a string is a surrogate.
-/

namespace FilterQuery.Json

namespace Scan

/-! ## Single characters -/

/-- A unit in front of what the rest of the string holds. -/
def consUnit (unit : Nat) (cut : Option (List Nat × List Char)) : Option (List Nat × List Char) :=
  cut.map fun (units, rest) => (unit :: units, rest)

/-- A character that stands for itself. -/
theorem splitString?_cons {c : Char} (hquote : c ≠ '"') (hbackslash : c ≠ '\\')
    (hcontrol : ¬ c < ' ') (s : List Char) :
    splitString? (c :: s) = consUnit c.toNat (splitString? s) := by
  rw [splitString?.eq_def]
  split
  · -- 4) the case of a plain character: neither control character nor backslash
    next heq => exact absurd (List.cons.inj heq).1 hquote
  · next heq => exact absurd (List.cons.inj heq).1 hbackslash
  · next heq => exact absurd (List.cons.inj heq).1 hbackslash
  · next heq =>
    obtain ⟨rfl, rfl⟩ := List.cons.inj heq
    have hplain : (decide (c < ' ') || c == '\\') = false := by simp [hcontrol, hbackslash]
    rw [hplain, if_neg Bool.false_ne_true]
    cases splitString? s <;> rfl
  · next heq => cases heq

/-- A character with an escape of its own. -/
theorem splitString?_backslash {c d : Char} (hu : c ≠ 'u') (hd : unescape? c = some d)
    (s : List Char) : splitString? ('\\' :: c :: s) = consUnit d.toNat (splitString? s) := by
  rw [splitString?.eq_def]
  split
  · next heq => cases heq
  · next heq => exact absurd (List.cons.inj (List.cons.inj heq).2).1 hu
  · next heq =>
    obtain ⟨rfl, rfl⟩ := List.cons.inj (List.cons.inj heq).2
    rw [hd]
    cases splitString? s <;> rfl
  · next _ hshort heq =>
    obtain ⟨rfl, rfl⟩ := List.cons.inj heq
    exact (hshort _ _ rfl rfl).elim
  · next heq => cases heq

/-- A unit in hexadecimal notation. -/
theorem splitString?_unit {a b c d : Char} {unit : Nat} (h : hexUnit? a b c d = some unit)
    (s : List Char) :
    splitString? ('\\' :: 'u' :: a :: b :: c :: d :: s) = consUnit unit (splitString? s) := by
  rw [splitString?, h]
  cases splitString? s <;> rfl

/-- The characters that are escaped by their code point need two digits of it, and the two in front
are zeros. -/
theorem hexUnit?_hexDigit :
    ∀ n < 32, hexUnit? '0' '0' (hexDigit (n / 16)) (hexDigit n) = some n := by
  decide

/-- **An escaped character is read as the character.** -/
theorem splitString?_escape (c : Char) (s : List Char) :
    splitString? (escape c ++ s) = consUnit c.toNat (splitString? s) := by
  unfold escape
  split
  · next h =>
    rw [h]
    exact splitString?_backslash (by decide) rfl s
  split
  · next h =>
    rw [h]
    exact splitString?_backslash (by decide) rfl s
  -- From here on the character is neither quotation mark nor backslash. Those that are printable
  -- stand for themselves; of the others five have an escape of their own.
  next hquote hbackslash =>
  split
  · next hprintable =>
    exact splitString?_cons hquote hbackslash (Nat.not_lt.mpr hprintable) s
  next hcontrol =>
  split
  · next h =>
    rw [h]
    exact splitString?_backslash (by decide) rfl s
  split
  · next h =>
    rw [h]
    exact splitString?_backslash (by decide) rfl s
  split
  · next h =>
    rw [h]
    exact splitString?_backslash (by decide) rfl s
  split
  · next h =>
    rw [h]
    exact splitString?_backslash (by decide) rfl s
  split
  · next h =>
    rw [h]
    exact splitString?_backslash (by decide) rfl s
  · have hlt : c.toNat < 32 := Nat.not_le.mp hcontrol
    exact splitString?_unit (hexUnit?_hexDigit c.toNat hlt) s

/-! ## Whole strings -/

/-- The units of an escaped text are the code points of its characters, up to the quotation mark
behind. -/
theorem splitString?_flatMap_escape (cs rest : List Char) :
    splitString? (cs.flatMap escape ++ '"' :: rest) = some (cs.map Char.toNat, rest) := by
  induction cs with
  | nil => rfl
  | cons c cs ih =>
    rw [List.flatMap_cons, List.append_assoc, splitString?_escape, ih]
    rfl

/-- No character is half of a pair of surrogates. -/
theorem pairSurrogates?_map_toNat (cs : List Char) :
    pairSurrogates? (cs.map Char.toNat) = some cs := by
  induction cs with
  | nil => rfl
  | cons c cs ih =>
    -- a character is a code point outside of the range of surrogates
    have hvalid : c.toNat < 0xD800 ∨ 0xDFFF < c.toNat ∧ c.toNat < 0x110000 := c.valid
    have hhigh : isHighSurrogate c.toNat = false := by
      unfold isHighSurrogate
      simp only [Bool.and_eq_false_imp, decide_eq_true_eq, decide_eq_false_iff_not]
      omega
    have hlow : isLowSurrogate c.toNat = false := by
      unfold isLowSurrogate
      simp only [Bool.and_eq_false_imp, decide_eq_true_eq, decide_eq_false_iff_not]
      omega
    rw [List.map_cons, pairSurrogates?.eq_def]
    simp only [hhigh, hlow, Bool.false_eq_true, if_false]
    rw [ih, Option.map_some, Char.ofNat_toNat]

/-- **A string is read back**, whatever it holds. -/
theorem splitQuoted?_quote (s : String) (rest : List Char) :
    splitQuoted? (s.toList.flatMap escape ++ '"' :: rest) = some (some s, rest) := by
  unfold splitQuoted?
  rw [splitString?_flatMap_escape, Option.map_some]
  simp only
  rw [pairSurrogates?_map_toNat, Option.map_some, String.ofList_toList]

/-- A string takes up some of the text, if only the quotes that end it. -/
theorem length_splitString?_lt {s rest : List Char} {units : List Nat}
    (h : splitString? s = some (units, rest)) : rest.length < s.length := by
  fun_induction splitString? s generalizing units with
  | case1 =>
    cases h
    exact Nat.lt_succ_self _
  | case2 a b c d s ih =>
    obtain ⟨unit, -, h⟩ := Option.bind_eq_some_iff.mp h
    obtain ⟨⟨units', rest'⟩, hs, h⟩ := Option.bind_eq_some_iff.mp h
    cases h
    have hlt := ih hs
    simp only [List.length_cons]
    omega
  | case3 c s _ ih =>
    obtain ⟨d, -, h⟩ := Option.bind_eq_some_iff.mp h
    obtain ⟨⟨units', rest'⟩, hs, h⟩ := Option.bind_eq_some_iff.mp h
    cases h
    have hlt := ih hs
    simp only [List.length_cons]
    omega
  | case4 => cases h
  | case5 c s _ _ _ _ ih =>
    obtain ⟨⟨units', rest'⟩, hs, h⟩ := Option.bind_eq_some_iff.mp h
    cases h
    exact Nat.lt_succ_of_lt (ih hs)
  | case6 => cases h

/-- What stands behind a quoted text is shorter than the text that starts inside of its quotation
marks. -/
theorem length_splitQuoted?_lt {s rest : List Char} {content : Option String}
    (h : splitQuoted? s = some (content, rest)) : rest.length < s.length := by
  obtain ⟨⟨units, rest'⟩, hs, heq⟩ := Option.map_eq_some_iff.mp h
  cases heq
  exact length_splitString?_lt hs

end Scan

/-- Written so, a quoted text is a quotation mark in front of what `splitQuoted?` reads. -/
theorem quote_append (s : String) (rest : List Char) :
    quote s ++ rest = '"' :: (s.toList.flatMap escape ++ '"' :: rest) := by
  unfold quote
  simp

end FilterQuery.Json

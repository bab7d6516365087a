import FilterQuery.Proofs.Filter.Grammar
import FilterQuery.Proofs.Rereading

/-!
# Filters read back from their lines

A filter that was read from a line is written on a line again (`Filter.line`), in one fixed layout.
Whatever was read, that line has at most one cut, since a blank stands behind the field, and its
parts are those of the filter (`Filter.ofLine_line_eq`). So it is read as the same filter up to the
value, and the value is the same up to two exceptions (`Filter.ofLine_line`):

* the list of one empty string leaves nothing between the brackets, and the line is refused;
* floating-point numbers that are all written as integers become integers.
-/

namespace FilterQuery

open Text

namespace Line

/-- A cut with nothing but the first bracket behind `before`. -/
theorem IsCutOf.exists_before {line : Line} {s : List Char} (h : line.IsCutOf s) :
    ∃ before after, '[' ∉ before ∧ s = before ++ '[' :: (line.value ++ ']' :: after) := by
  obtain ⟨s₁, s₂, s₃, s₄, s₅, hspacing, hs⟩ := h.layout
  obtain ⟨op, hop⟩ := h.operator
  -- spacing has no bracket, so that the first one is that of the value
  have hnone : ∀ t ∈ [s₁, s₂, s₃, s₄, s₅], '[' ∉ t := by
    intro t ht hmem
    have hc := hspacing t ht _ hmem
    cases hc
  refine ⟨List.replicate line.opens '(' ++ s₁ ++ '@' :: line.field ++ s₂ ++ line.operator ++ s₃,
    s₄ ++ List.replicate line.closes ')' ++ s₅ ++ line.key.getD [], ?_, ?_⟩
  · have hfield : '[' ∉ line.field := by
      intro hmem
      have hc := h.isFieldChar _ hmem
      cases hc
    simp [hnone s₁, hnone s₂, hnone s₃, hfield, hop.not_bracket]
  · rw [hs]
    simp only [List.append_assoc, List.cons_append]

end Line

namespace Filter

open Line

/-- The parts that a filter is written with. -/
def lineParts (f : Filter) : Line :=
  { opens := f.opens.toNat, field := f.field.toList, operator := f.operator.token.toList,
    value := f.value.bracketText, closes := f.closes.toNat,
    key := f.key.map (·.word.toList) }

/-- The connective at the end of the line and the blank in front of it. -/
def lineKey (f : Filter) : List Char :=
  match f.key with
  | some key => ' ' :: key.word.toList
  | none => []

theorem line_eq (f : Filter) :
    f.line = List.replicate f.opens.toNat '(' ++ '@' :: f.field.toList ++
      ' ' :: (f.operator.token.toList ++ ' ' :: '[' :: (f.value.bracketText ++
        ']' :: (List.replicate f.closes.toNat ')' ++ f.lineKey))) := by
  unfold line
  simp only [List.append_assoc, List.cons_append, List.nil_append,
    show " [".toList = [' ', '['] from rfl]
  rfl

/-- There are no blanks around the line. -/
theorem trim_line (f : Filter) : trim f.line = f.line := by
  have hopens : ∀ n, StopsAt isBlank (List.replicate n '(') := by
    intro n
    cases n with
    | zero => exact stopsAt_nil
    | succ n => exact stopsAt_cons.mpr rfl
  have hcloses : ∀ n, StopsAt isBlank (List.replicate n ')') := by
    intro n
    cases n with
    | zero => exact stopsAt_nil
    | succ n => exact stopsAt_cons.mpr rfl
  have hkey : StopsAt isBlank f.lineKey.reverse := by
    unfold lineKey
    cases f.key with
    | none => exact stopsAt_nil
    | some key => cases key <;> exact stopsAt_cons.mpr rfl
  -- a parenthesis or the at sign is in front, and a connective, a parenthesis or the bracket behind
  rw [line_eq]
  refine trim_of_stopsAt ?_ ?_
  · rw [List.append_assoc]
    exact (hopens f.opens.toNat).append (stopsAt_cons.mpr rfl)
  · simp only [List.reverse_append, List.reverse_cons, List.reverse_replicate, List.append_assoc]
    exact hkey.append ((hcloses f.closes.toNat).append (stopsAt_cons.mpr rfl))

variable {f : Filter}

/-- The line of a filter with a value between its brackets is laid out as its parts are. -/
theorem isCutOf_line (hfield : f.field.toList ≠ [])
    (hchars : ∀ c ∈ f.field.toList, isFieldChar c = true) (hvalue : f.value.bracketText ≠ [])
    (hbracket : ']' ∉ f.value.bracketText) : f.lineParts.IsCutOf f.line where
  field_ne_nil := hfield
  isFieldChar := hchars
  operator := ⟨f.operator, rfl⟩
  value_ne_nil := hvalue
  not_bracket := hbracket
  key := by
    intro s hs
    obtain ⟨key, -, rfl⟩ := Option.map_eq_some_iff.mp hs
    exact ⟨key, rfl⟩
  layout := by
    have hblank : ∀ c ∈ [' '], isSpacing c = true := by simp [isSpacing]
    -- the line has a blank on both sides of the operator, and one in front of the connective
    refine ⟨[], [' '], [' '], [], if f.key.isSome then [' '] else [], ?_, ?_⟩
    · intro t ht c hc
      simp only [List.mem_cons, List.not_mem_nil, or_false] at ht
      rcases ht with rfl | rfl | rfl | rfl | rfl
      · cases hc
      · exact hblank c hc
      · exact hblank c hc
      · cases hc
      · split at hc
        · exact hblank c hc
        · cases hc
    · have hkey : f.lineKey = (if f.key.isSome then [' '] else []) ++ f.lineParts.key.getD [] := by
        unfold lineKey lineParts
        cases f.key <;> rfl
      rw [line_eq, hkey]
      simp [lineParts]

/-- The field ends at the blank behind it, so that no other cut is read. -/
theorem ofText?_line (hfield : f.field.toList ≠ [])
    (hchars : ∀ c ∈ f.field.toList, isFieldChar c = true) (hvalue : f.value.bracketText ≠ [])
    (hbracket : ']' ∉ f.value.bracketText) : ofText? f.line = some f.lineParts := by
  obtain ⟨longest, hread, hlonger, -⟩ :=
    ofText?_longest (isCutOf_line hfield hchars hvalue hbracket)
  rcases hlonger with heq | hlt
  · rw [heq]
    exact hread
  · -- a longer field would have to take in the blank
    have hcut := ofText?_sound hread
    rw [line_eq] at hcut
    have hat : '@' ∉ List.replicate f.opens.toNat '(' := by
      intro hmem
      cases List.eq_of_mem_replicate hmem
    have hle := hcut.length_field_le hat
    exact absurd hlt (Nat.not_lt.mpr hle)

/-- With a value between its brackets the line is read as the filter, with the value that its text
stands for. -/
theorem ofLine_line_eq (hfield : f.field.toList ≠ [])
    (hchars : ∀ c ∈ f.field.toList, isFieldChar c = true) (hvalue : f.value.bracketText ≠ [])
    (hbracket : ']' ∉ f.value.bracketText) (number : Nat) :
    ofLine number (String.ofList f.line) =
      (fun value => { f with value }) <$> lineValue f.operator f.value.bracketText := by
  have hkey : f.lineParts.key.mapM Connective.ofText = .ok f.key := by
    unfold lineParts
    cases f.key with
    | none => rfl
    | some key => cases key <;> rfl
  unfold ofLine
  rw [String.toList_ofList, trim_line, ofText?_line hfield hchars hvalue hbracket]
  show ofParts f.lineParts = _
  unfold ofParts
  rw [hkey, show f.lineParts.operator = f.operator.token.toList from rfl, Operator.ofText_token]
  show (lineValue f.operator f.value.bracketText >>= _) = _
  -- the value is the only part that may be read differently
  cases lineValue f.operator f.value.bracketText with
  | error e => rfl
  | ok value =>
    show Except.ok _ = Except.ok _
    rw [show f.lineParts.field = f.field.toList from rfl, String.ofList_toList,
      show UInt64.ofNat f.lineParts.opens = f.opens from UInt64.ofNat_toNat,
      show UInt64.ofNat f.lineParts.closes = f.closes from UInt64.ofNat_toNat]

/-- With nothing between its brackets the line is refused. -/
theorem ofLine_line_of_nil (hchars : ∀ c ∈ f.field.toList, isFieldChar c = true)
    (hvalue : f.value.bracketText = []) (number : Nat) :
    ofLine number (String.ofList f.line) =
      .error (.malformedLine number (String.ofList f.line)) := by
  have hnone : ofText? f.line = none := by
    refine Option.eq_none_iff_forall_ne_some.mpr fun parts hread => ?_
    have hcut := ofText?_sound hread
    obtain ⟨before, after, hbefore, hs⟩ := hcut.exists_before
    -- both cuts put the value behind the first bracket of the line
    have hfield : '[' ∉ f.field.toList := by
      intro hmem
      have hc := hchars _ hmem
      cases hc
    have hoperator : '[' ∉ f.operator.token.toList := by
      cases f.operator <;> decide
    have hline : f.line = (List.replicate f.opens.toNat '(' ++ '@' :: f.field.toList ++
        ' ' :: (f.operator.token.toList ++ [' '])) ++
          '[' :: ']' :: (List.replicate f.closes.toNat ')' ++ f.lineKey) := by
      rw [line_eq, hvalue]
      simp
    have hfront : '[' ∉ List.replicate f.opens.toNat '(' ++ '@' :: f.field.toList ++
        ' ' :: (f.operator.token.toList ++ [' ']) := by
      simp [hfield, hoperator]
    obtain ⟨-, hrest⟩ := append_cons_inj hfront hbefore (hline.symm.trans hs)
    cases hparts : parts.value with
    | nil => exact hcut.value_ne_nil hparts
    | cons c value =>
      rw [hparts] at hrest
      obtain ⟨rfl, -⟩ := List.cons.inj hrest
      exact hcut.not_bracket (by simp [hparts])
  unfold ofLine
  rw [String.toList_ofList, trim_line, hnone]

/-! ## Lines of filters that were read -/

/-- What is known of a filter that was read from a line. -/
structure WasRead (f : Filter) : Prop where
  field_ne_nil : f.field.toList ≠ []
  isFieldChar : ∀ c ∈ f.field.toList, isFieldChar c = true
  /-- The value was read from a text without a closing bracket. -/
  value : ∃ s, s ≠ [] ∧ ']' ∉ s ∧ lineValue f.operator s = .ok f.value

theorem wasRead_of_ofLine {number : Nat} {line : String} (h : ofLine number line = .ok f) :
    f.WasRead := by
  obtain ⟨parts, hread, hmeans⟩ := exists_means_of_ofLine h
  have hcut := ofText?_sound hread
  have hfield : f.field.toList = parts.field := by rw [hmeans.field, String.toList_ofList]
  refine ⟨hfield ▸ hcut.field_ne_nil, hfield ▸ hcut.isFieldChar, parts.value,
    hcut.value_ne_nil, hcut.not_bracket, ?_⟩
  unfold lineValue
  split
  · next hop =>
    obtain ⟨xs, hxs, hvalue⟩ := hmeans.list_value hop
    exact map_eq_ok_iff.mpr ⟨xs, hxs, hvalue.symm⟩
  · next hop => rw [hmeans.single_value (Bool.eq_false_iff.mpr hop)]

theorem wasRead_cases (h : f.WasRead) :
    (∃ s, s ≠ [] ∧ ']' ∉ s ∧ f.operator.takesList = false ∧ f.value = .string (String.ofList s)) ∨
      ∃ s xs, ']' ∉ s ∧ f.operator.takesList = true ∧ f.value = .list xs ∧
        ValueList.ofText s = .ok xs := by
  obtain ⟨s, hne, hbracket, hvalue⟩ := h.value
  -- a single value is the text itself, and may be anything but empty
  unfold lineValue at hvalue
  split at hvalue
  · next hop =>
    obtain ⟨xs, hxs, hlist⟩ := map_eq_ok_iff.mp hvalue
    exact .inr ⟨s, xs, hbracket, hop, hlist.symm, hxs⟩
  · next hop =>
    exact .inl ⟨s, hne, hbracket, Bool.eq_false_iff.mpr hop, (Except.ok.inj hvalue).symm⟩

/-- The line of a filter that was read is that of another value, unless there is no value. -/
theorem WasRead.ofLine_line_eq (h : f.WasRead) (hvalue : f.value ≠ .list (.strings [""]))
    (number : Nat) :
    ofLine number (String.ofList f.line) =
      (fun value => { f with value }) <$> lineValue f.operator f.value.bracketText := by
  rcases wasRead_cases h with ⟨s, hne, hbracket, -, hs⟩ | ⟨s, xs, hbracket, -, hxs, htext⟩
  · have hbare : f.value.bracketText = s := by
      rw [hs]
      exact String.toList_ofList
    exact Filter.ofLine_line_eq h.field_ne_nil h.isFieldChar (hbare ▸ hne) (hbare ▸ hbracket) number
  · refine Filter.ofLine_line_eq h.field_ne_nil h.isFieldChar ?_ ?_ number
    · intro hnil
      rw [hxs, ValueList.bracketText_eq_nil_iff htext] at hnil
      exact hvalue (by rw [hxs, hnil])
    · rw [hxs]
      exact ValueList.notMem_bracketText htext hbracket

/-- Some number of the list is not written as an integer. -/
theorem exists_signed64?_eq_none {xs : List Float64} (h : ¬ ∀ x ∈ xs, x.WholeBelow (2 ^ 63)) :
    ∃ x ∈ xs, signed64? x.plain = none := by
  simp only [not_forall] at h
  obtain ⟨x, hx, hnot⟩ := h
  rw [← Float64.isSome_signed64?_plain_iff, Bool.not_eq_true, Option.isSome_eq_false_iff,
    Option.isNone_iff_eq_none] at hnot
  exact ⟨x, hx, hnot⟩

/-- **A filter that was read from a line is read back from the line that it is written on**, with
two exceptions. The list of one empty string is refused. A list of floating-point numbers that are
whole and less than `2 ^ 63` in magnitude becomes the list of the integers that they are written
as. -/
theorem ofLine_line {number : Nat} {line : String} (h : ofLine number line = .ok f)
    (number' : Nat) :
    (ofLine number' (String.ofList f.line) = .ok f ↔
        f.value ≠ .list (.strings [""]) ∧
          ∀ xs, f.value = .list (.floats xs) → ¬ ∀ x ∈ xs, x.WholeBelow (2 ^ 63)) ∧
      (f.value = .list (.strings [""]) →
        ofLine number' (String.ofList f.line) =
          .error (.malformedLine number' (String.ofList f.line))) ∧
      ∀ xs, f.value = .list (.floats xs) → (∀ x ∈ xs, x.WholeBelow (2 ^ 63)) →
        ∃ ns, ofLine number' (String.ofList f.line) = .ok { f with value := .list (.ints ns) } ∧
          List.Forall₂ Float64.SpelledAs xs ns := by
  have hread := wasRead_of_ofLine h
  have hrefused : f.value = .list (.strings [""]) →
      ofLine number' (String.ofList f.line) =
        .error (.malformedLine number' (String.ofList f.line)) := by
    intro hvalue
    exact ofLine_line_of_nil hread.isFieldChar (by rw [hvalue]; rfl) number'
  have hinteger : ∀ xs, f.value = .list (.floats xs) → (∀ x ∈ xs, x.WholeBelow (2 ^ 63)) →
      ∃ ns, ofLine number' (String.ofList f.line) = .ok { f with value := .list (.ints ns) } ∧
        List.Forall₂ Float64.SpelledAs xs ns := by
    intro xs hvalue hwhole
    rcases wasRead_cases hread with ⟨s, -, -, -, hs⟩ | ⟨s, ys, -, hop, hys, htext⟩
    · rw [hvalue] at hs
      cases hs
    · rw [hvalue] at hys
      cases hys
      -- a list that was read has an element for each piece, and there is one piece at least
      have hne : xs ≠ [] := by
        have hlength := ValueList.length_of_ofText htext
        rintro rfl
        cases hlength
      obtain ⟨ns, hns, hspelled⟩ := ValueList.ofText_bracketText_floats_of_integers hne
        fun x hx => Float64.isSome_signed64?_plain_iff.mpr (hwhole x hx)
      refine ⟨ns, ?_, hspelled.imp fun _ _ => Float64.spelledAs_of_signed64?_plain⟩
      rw [hread.ofLine_line_eq (by rw [hvalue]; simp) number', hvalue]
      unfold lineValue
      rw [if_pos hop, hns]
      rfl
  -- both exceptions give something else, so that they are the only ones to be looked at
  refine ⟨⟨?_, ?_⟩, hrefused, hinteger⟩
  · intro hback
    refine ⟨fun hvalue => ?_, fun xs hvalue hwhole => ?_⟩
    · rw [hrefused hvalue] at hback
      cases hback
    · obtain ⟨ns, hns, -⟩ := hinteger xs hvalue hwhole
      rw [hns] at hback
      have heq := congrArg Filter.value (Except.ok.inj hback)
      rw [hvalue] at heq
      cases heq
  · rintro ⟨hvalue, hfloats⟩
    have hback : lineValue f.operator f.value.bracketText = .ok f.value := by
      rcases wasRead_cases hread with ⟨s, -, -, hop, hs⟩ | ⟨s, xs, -, hop, hxs, htext⟩
      · unfold lineValue
        rw [hs, hop]
        exact congrArg (fun t => Except.ok (Value.string t)) String.ofList_toList
      · unfold lineValue
        rw [if_pos hop, hxs, ValueList.ofText_bracketText htext]
        · rfl
        · rintro fs rfl
          exact exists_signed64?_eq_none (hfloats fs hxs)
    rw [hread.ofLine_line_eq hvalue number', hback]
    rfl

/-- One number of the list has a fraction, so that both stay floating-point numbers. -/
theorem ofLine_line_of_fraction :
    let f : Filter :=
      { field := "price", operator := .notIn, opens := 1, closes := 1, key := some .or,
        value := .list (.floats [.ofBits 0x3FF8000000000000, .ofBits 0x4000000000000000]) }
    ofLine 1 "(@price NOT_IN[1.50, 2]) or" = .ok f ∧ ofLine 7 (String.ofList f.line) = .ok f := by
  intro f
  have hread : ofLine 1 "(@price NOT_IN[1.50, 2]) or" = .ok f := by decide +kernel
  refine ⟨hread, (ofLine_line hread 7).1.mpr ⟨by decide +kernel, ?_⟩⟩
  intro xs hxs hwhole
  obtain rfl : [Float64.ofBits 0x3FF8000000000000, .ofBits 0x4000000000000000] = xs := by
    simpa [f] using hxs
  obtain ⟨w, hw, -⟩ := hwhole (.ofBits 0x3FF8000000000000) (by simp)
  have hnone : (Float64.ofBits 0x3FF8000000000000).whole? = none := by decide +kernel
  rw [hnone] at hw
  cases hw

/-- Both bounds are sharp. The least integer of 64 bits stays a floating-point number, for the zeros
that it is written with are beyond the range, and `2 ^ 62` becomes the larger integer that is
written with zeros in its place. -/
theorem ofLine_line_of_two_pow :
    (∃ f x, ofLine 1 "@a IN [-9223372036854775808.0]" = .ok f ∧ f.value = .list (.floats [x]) ∧
      x.whole? = some Int64.minValue.toInt ∧ ofLine 1 (String.ofList f.line) = .ok f) ∧
    ∃ f x, ofLine 1 "@a IN [4611686018427387904.0]" = .ok f ∧ f.value = .list (.floats [x]) ∧
      x.whole? = some 4611686018427387904 ∧
      ofLine 1 (String.ofList f.line) =
        .ok { f with value := .list (.ints [4611686018427388000]) } := by
  constructor
  · let x : Float64 := .ofBits 0xC3E0000000000000
    refine ⟨{ field := "a", operator := .isIn, value := .list (.floats [x]) }, x,
      ?_, ?_, ?_, ?_⟩ <;> decide +kernel
  · let x : Float64 := .ofBits 0x43D0000000000000
    refine ⟨{ field := "a", operator := .isIn, value := .list (.floats [x]) }, x,
      ?_, ?_, ?_, ?_⟩ <;> decide +kernel

end Filter

end FilterQuery

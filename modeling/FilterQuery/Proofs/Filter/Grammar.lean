import FilterQuery.Proofs.Filter.Token
import FilterQuery.Proofs.Inference
import FilterQuery.Proofs.Outcome

/-!
# The grammar of filter lines

A line is a filter iff it can be cut into the parts of one (`Line.IsCutOf`):

    (( @ field operator [value] )) key

with spacing between the parts wherever it is not needed. The grammar is ambiguous, for an operator
that is a word may touch the field: `@aNOT_IN[1]` cuts behind `a` and behind `aNOT_`. All cuts of a
line agree on everything but the field and the operator, and the reader finds the one with the
longest field (`Line.ofText?_longest`).

The parts of a cut always have a meaning (`Line.IsCutOf.exists_means`), so that `Filter.ofLine`
refuses exactly the lines that have no cut.
-/

namespace FilterQuery

open Text

namespace Line

/-- The parts, laid out one behind the other with spacing between them, make up the text. -/
structure IsCutOf (line : Line) (s : List Char) : Prop where
  field_ne_nil : line.field ≠ []
  isFieldChar : ∀ c ∈ line.field, isFieldChar c = true
  operator : ∃ op : Operator, op.SpelledBy line.operator
  value_ne_nil : line.value ≠ []
  not_bracket : ']' ∉ line.value
  key : ∀ s ∈ line.key, ∃ key : Connective, key.SpelledBy s
  layout : ∃ s₁ s₂ s₃ s₄ s₅, (∀ t ∈ [s₁, s₂, s₃, s₄, s₅], ∀ c ∈ t, isSpacing c = true) ∧
    s = List.replicate line.opens '(' ++ s₁ ++ '@' :: line.field ++ s₂ ++ line.operator ++ s₃ ++
      '[' :: line.value ++ ']' :: s₄ ++ List.replicate line.closes ')' ++ s₅ ++ line.key.getD []

/-! ## The field -/

theorem splitField?_sound {s field operator rest : List Char}
    (h : splitField? s = some (field, operator, rest)) :
    field ≠ [] ∧ (∀ c ∈ field, isFieldChar c = true) ∧
      ∃ behind, s = field ++ behind ∧ IsOperatorCut behind operator rest := by
  induction s generalizing field with
  | nil => cases h
  | cons c s ih =>
    rw [splitField?] at h
    split at h
    · next hc =>
      split at h
      · next field' operator' rest' hrec =>
        simp only [Option.some.injEq, Prod.mk.injEq] at h
        obtain ⟨rfl, rfl, rfl⟩ := h
        obtain ⟨-, hchars, behind, hs, hcut⟩ := ih hrec
        refine ⟨List.cons_ne_nil _ _, ?_, behind, by rw [hs, List.cons_append], hcut⟩
        intro d hd
        rcases List.mem_cons.mp hd with rfl | hd
        · exact hc
        · exact hchars d hd
      · obtain ⟨⟨operator', rest'⟩, hread, heq⟩ := Option.map_eq_some_iff.mp h
        simp only [Prod.mk.injEq] at heq
        obtain ⟨rfl, rfl, rfl⟩ := heq
        refine ⟨List.cons_ne_nil _ _, ?_, s, rfl, operatorBeforeValue?_eq_some_iff.mp hread⟩
        intro d hd
        obtain rfl := List.mem_singleton.mp hd
        exact hc
    · cases h

/-- **A field that cuts is found**, or a longer one. -/
theorem splitField?_complete {field behind operator rest : List Char} (hne : field ≠ [])
    (hchars : ∀ c ∈ field, isFieldChar c = true) (hcut : IsOperatorCut behind operator rest) :
    ∃ field' operator' rest', splitField? (field ++ behind) = some (field', operator', rest') ∧
      (field' = field ∧ operator' = operator ∨ field.length < field'.length) := by
  induction field with
  | nil => exact absurd rfl hne
  | cons c field ih =>
    rw [List.cons_append, splitField?, if_pos (hchars c (by simp))]
    cases hrec : splitField? (field ++ behind) with
    | some cut =>
      obtain ⟨field', operator', rest'⟩ := cut
      refine ⟨c :: field', operator', rest', rfl, ?_⟩
      -- the induction hypothesis says nothing of a field that ends here
      by_cases hfield : field = []
      · have hpos := List.length_pos_iff.mpr (splitField?_sound hrec).1
        right
        rw [hfield, List.length_cons, List.length_cons]
        simpa using hpos
      · obtain ⟨_, _, _, heq, hlonger⟩ := ih hfield fun d hd => hchars d (by simp [hd])
        rw [hrec] at heq
        cases heq
        rcases hlonger with ⟨rfl, rfl⟩ | hlt
        · exact .inl ⟨rfl, rfl⟩
        · exact .inr (by simpa using hlt)
    | none =>
      -- with no longer field left, the operator has to stand right here
      have hfield : field = [] := by
        by_contra hfield
        obtain ⟨_, _, _, heq, -⟩ := ih hfield fun d hd => hchars d (by simp [hd])
        rw [hrec] at heq
        cases heq
      subst hfield
      refine ⟨[c], operator, rest, ?_, .inl ⟨rfl, rfl⟩⟩
      rw [List.nil_append, operatorBeforeValue?_eq_some_iff.mpr hcut]
      rfl

/-- Whatever the field is, the value starts at the first bracket. -/
theorem rest_eq_dropWhile {field behind operator rest : List Char}
    (hchars : ∀ c ∈ field, isFieldChar c = true) (hcut : IsOperatorCut behind operator rest) :
    rest = (field ++ behind).dropWhile (· != '[') := by
  have hfield : '[' ∉ field := by
    intro hmem
    cases hchars _ hmem
  rw [List.dropWhile_append_of_pos (bne_of_notMem hfield)]
  exact hcut.rest_eq

/-! ## The value -/

/-- The value goes from a bracket at the front to the first one that closes it. -/
theorem splitValue?_eq_some_iff {s value rest : List Char} :
    splitValue? s = some (value, rest) ↔
      s = '[' :: value ++ ']' :: rest ∧ value ≠ [] ∧ ']' ∉ value := by
  constructor
  · intro h
    unfold splitValue? at h
    split at h
    · next s =>
      split at h
      · next c value' rest' htake hdrop =>
        simp only [Option.some.injEq, Prod.mk.injEq] at h
        obtain ⟨rfl, rfl⟩ := h
        refine ⟨?_, List.cons_ne_nil _ _, ?_⟩
        · rw [List.cons_append, ← htake, ← hdrop, List.takeWhile_append_dropWhile]
        · intro hmem
          rw [← htake] at hmem
          have hnot := List.mem_takeWhile_imp hmem
          cases hnot
      · cases h
    · cases h
  · rintro ⟨rfl, hne, hvalue⟩
    have hstop : StopsAt (· != ']') (']' :: rest) := stopsAt_cons.mpr rfl
    have htake := takeWhile_append_of_stopsAt (bne_of_notMem hvalue) hstop
    have hdrop := dropWhile_append_of_stopsAt (bne_of_notMem hvalue) hstop
    cases value with
    | nil => exact absurd rfl hne
    | cons c value =>
      rw [List.cons_append]
      unfold splitValue?
      simp only [htake, hdrop]

/-! ## The end of the line -/

theorem key?_eq_some {s : List Char} {key : Option (List Char)} (h : key? s = some key) :
    s = key.getD [] ∧ ∀ t ∈ key, ∃ k : Connective, k.SpelledBy t := by
  unfold key? at h
  split at h
  · next hs =>
    obtain rfl := Option.some.inj h
    refine ⟨List.isEmpty_iff.mp hs, ?_⟩
    intro t ht
    cases ht
  · split at h
    · next hs =>
      obtain rfl := Option.some.inj h
      refine ⟨rfl, ?_⟩
      intro t ht
      obtain rfl := Option.mem_some_iff.mp ht
      rw [Bool.or_eq_true, caselessEq_iff, caselessEq_iff] at hs
      rcases hs with hs | hs
      · exact ⟨.and, hs⟩
      · exact ⟨.or, hs⟩
    · cases h

theorem key?_getD {key : Option (List Char)} (h : ∀ t ∈ key, ∃ k : Connective, k.SpelledBy t) :
    key? (key.getD []) = some key := by
  cases key with
  | none => rfl
  | some t =>
    obtain ⟨k, hk⟩ := h t rfl
    have hwords : (caselessEq t Connective.and.word.toList ||
        caselessEq t Connective.or.word.toList) = true := by
      rw [Bool.or_eq_true, caselessEq_iff, caselessEq_iff]
      cases k with
      | and => exact .inl hk
      | or => exact .inr hk
    have hne : t.isEmpty = false := by simpa using hk.ne_nil
    unfold key?
    rw [Option.getD_some, hne, if_neg Bool.false_ne_true, if_pos hwords]

/-- Neither spacing nor a parenthesis is at the front of a connective. -/
theorem stopsAt_key {key : Option (List Char)} (h : ∀ t ∈ key, ∃ k : Connective, k.SpelledBy t) :
    StopsAt isSpacing (key.getD []) ∧ StopsAt (· == ')') (key.getD []) := by
  cases key with
  | none => exact ⟨stopsAt_nil, stopsAt_nil⟩
  | some t =>
    obtain ⟨k, hk⟩ := h t rfl
    rw [Option.getD_some]
    cases t with
    | nil => exact absurd rfl hk.ne_nil
    | cons c t =>
      constructor
      · refine stopsAt_cons.mpr (Bool.eq_false_iff.mpr fun hc => ?_)
        have hblank := hk.not_isBlank c (by simp)
        rw [isBlank_of_isSpacing hc] at hblank
        cases hblank
      · refine stopsAt_cons.mpr (Bool.eq_false_iff.mpr fun hc => hk.not_paren ?_)
        rw [← eq_of_beq hc]
        simp

/-- Spacing is passed over by a run of any other character. -/
theorem stopsAt_of_isSpacing {s : List Char} (hs : ∀ c ∈ s, isSpacing c = true) {d : Char}
    (hd : isSpacing d = false) : StopsAt (· == d) s := by
  intro c hc
  refine Bool.eq_false_iff.mpr fun heq => ?_
  have hspacing := hs c (List.mem_of_mem_head? hc)
  rw [eq_of_beq heq, hd] at hspacing
  cases hspacing

/-- The closing parentheses and the connective are what they were written as. Without parentheses
there is one run of spacing only, which is skipped as a whole. -/
theorem tail_eq (closes : Nat) {s₄ s₅ key : List Char} (h₄ : ∀ c ∈ s₄, isSpacing c = true)
    (h₅ : ∀ c ∈ s₅, isSpacing c = true) (hkey : StopsAt isSpacing key)
    (hparen : StopsAt (· == ')') key) :
    let tail := skipSpacing (s₄ ++ List.replicate closes ')' ++ s₅ ++ key)
    tail.takeWhile (· == ')') = List.replicate closes ')' ∧
      skipSpacing (tail.dropWhile (· == ')')) = key := by
  intro tail
  have hskip : skipSpacing (s₅ ++ key) = key := dropWhile_append_of_stopsAt h₅ hkey
  cases closes with
  | zero =>
    -- the spacing on both sides of no parenthesis is one run, and the first skip takes all of it
    have hnone : ∀ c ∈ ([] : List Char), isSpacing c = true := by simp
    have hkeep : skipSpacing key = key := dropWhile_append_of_stopsAt hnone hkey
    have htail : tail = List.replicate 0 ')' ++ key := by
      show skipSpacing (s₄ ++ [] ++ s₅ ++ key) = key
      rw [List.append_nil, List.append_assoc]
      rw [show skipSpacing (s₄ ++ (s₅ ++ key)) = skipSpacing (s₅ ++ key) from
        List.dropWhile_append_of_pos h₄]
      exact hskip
    rw [htail, takeWhile_replicate_append hparen, dropWhile_replicate_append hparen]
    exact ⟨rfl, hkeep⟩
  | succ closes =>
    have htail : tail = List.replicate (closes + 1) ')' ++ (s₅ ++ key) := by
      show skipSpacing (s₄ ++ List.replicate (closes + 1) ')' ++ s₅ ++ key) = _
      rw [List.append_assoc, List.append_assoc]
      exact dropWhile_append_of_stopsAt h₄ (stopsAt_cons.mpr rfl)
    have hstop : StopsAt (· == ')') (s₅ ++ key) := (stopsAt_of_isSpacing h₅ rfl).append hparen
    rw [htail, takeWhile_replicate_append hstop, dropWhile_replicate_append hstop]
    exact ⟨rfl, hskip⟩

/-! ## The whole line -/

/-- What is read from a line is a cut of it. -/
theorem ofText?_sound {s : List Char} {line : Line} (h : ofText? s = some line) :
    line.IsCutOf s := by
  unfold ofText? at h
  simp only at h
  split at h
  · next behind hat =>
    obtain ⟨⟨field, operator, rest⟩, hfield, h⟩ := Option.bind_eq_some_iff.mp h
    obtain ⟨⟨value, rest'⟩, hvalue, h⟩ := Option.bind_eq_some_iff.mp h
    obtain ⟨key, hkey, h⟩ := Option.bind_eq_some_iff.mp h
    obtain rfl := Option.some.inj h
    obtain ⟨hne, hchars, before, hbehind, hcut⟩ := splitField?_sound hfield
    obtain ⟨hspelled, -, s₂, s₃, h₂, h₃, hbefore⟩ := hcut
    obtain ⟨hrest, hvalueNe, hbracket⟩ := splitValue?_eq_some_iff.mp hvalue
    simp only at hrest hbefore
    obtain ⟨hkeyText, hkeySpelled⟩ := key?_eq_some hkey
    refine ⟨hne, hchars, hspelled, hvalueNe, hbracket, hkeySpelled, ?_⟩
    have hspacing : ∀ (t : List Char), ∀ c ∈ t.takeWhile isSpacing, isSpacing c = true :=
      fun t c hc => List.mem_takeWhile_imp hc
    have hsplit : ∀ t : List Char, t.takeWhile isSpacing ++ skipSpacing t = t :=
      fun t => List.takeWhile_append_dropWhile
    -- the runs that were skipped are the spacing of the layout
    let inner := s.dropWhile (· == '(')
    let tail := skipSpacing rest'
    let last := tail.dropWhile (· == ')')
    refine ⟨inner.takeWhile isSpacing, s₂, s₃, rest'.takeWhile isSpacing,
      last.takeWhile isSpacing, ?_, ?_⟩
    · intro t ht
      simp only [List.mem_cons, List.not_mem_nil, or_false] at ht
      rcases ht with rfl | rfl | rfl | rfl | rfl
      · exact hspacing inner
      · exact h₂
      · exact h₃
      · exact hspacing rest'
      · exact hspacing last
    · have htail : List.replicate (tail.takeWhile (· == ')')).length ')' ++
          (last.takeWhile isSpacing ++ key.getD []) = tail := by
        rw [replicate_length_takeWhile, ← hkeyText, hsplit, List.takeWhile_append_dropWhile]
      have hinner : inner.takeWhile isSpacing ++ '@' :: behind = inner := by
        rw [← hat]
        exact hsplit inner
      calc s = s.takeWhile (· == '(') ++ inner := List.takeWhile_append_dropWhile.symm
        _ = List.replicate (s.takeWhile (· == '(')).length '(' ++ inner := by
          rw [replicate_length_takeWhile]
        _ = List.replicate (s.takeWhile (· == '(')).length '(' ++
            (inner.takeWhile isSpacing ++ '@' :: (field ++ (s₂ ++ operator ++ s₃ ++
              ('[' :: value ++ ']' :: (rest'.takeWhile isSpacing ++
                (List.replicate (tail.takeWhile (· == ')')).length ')' ++
                  (last.takeWhile isSpacing ++ key.getD []))))))) := by
          rw [htail, hsplit rest', ← hrest, ← hbefore, ← hbehind, hinner]
        _ = _ := by
          simp only [List.append_assoc, List.cons_append]
          rfl
  · cases h

/-- **The reader finds the longest field.** If there is a cut, the reader finds this one, or one
that has a longer field and is the same from the value on. -/
theorem ofText?_longest {s : List Char} {line : Line} (h : line.IsCutOf s) :
    ∃ longest : Line, ofText? s = some longest ∧
      (line = longest ∨ line.field.length < longest.field.length) ∧ line.opens = longest.opens ∧
      line.value = longest.value ∧ line.closes = longest.closes ∧ line.key = longest.key := by
  obtain ⟨hne, hchars, hoperator, hvalueNe, hbracket, hkey, s₁, s₂, s₃, s₄, s₅, hspacing, hs⟩ := h
  have h₁ := hspacing s₁ (by simp)
  have h₂ := hspacing s₂ (by simp)
  have h₃ := hspacing s₃ (by simp)
  have h₄ := hspacing s₄ (by simp)
  have h₅ := hspacing s₅ (by simp)
  -- the line from the value on, from behind the field on, and from the at sign on
  let tail := s₄ ++ List.replicate line.closes ')' ++ s₅ ++ line.key.getD []
  let rest := '[' :: line.value ++ ']' :: tail
  let behind := s₂ ++ line.operator ++ s₃ ++ rest
  let inner := s₁ ++ '@' :: (line.field ++ behind)
  have hs : s = List.replicate line.opens '(' ++ inner := by
    rw [hs]
    simp only [inner, behind, rest, tail, List.append_assoc, List.cons_append]
  have hstop : StopsAt (· == '(') inner :=
    (stopsAt_of_isSpacing h₁ rfl).append (stopsAt_cons.mpr rfl)
  have htake := takeWhile_replicate_append (n := line.opens) hstop
  have hdrop := dropWhile_replicate_append (n := line.opens) hstop
  have hat : skipSpacing inner = '@' :: (line.field ++ behind) :=
    dropWhile_append_of_stopsAt h₁ (stopsAt_cons.mpr rfl)
  have hcut : IsOperatorCut behind line.operator rest :=
    ⟨hoperator, ⟨_, rfl⟩, s₂, s₃, h₂, h₃, rfl⟩
  obtain ⟨field, operator, rest', hread, hlonger⟩ := splitField?_complete hne hchars hcut
  -- whichever field was found, the first bracket of the line starts the value
  have hrest : rest' = rest := by
    obtain ⟨-, hchars', behind', hbehind, hcut'⟩ := splitField?_sound hread
    rw [rest_eq_dropWhile hchars' hcut', ← hbehind, ← rest_eq_dropWhile hchars hcut]
  have hvalue := splitValue?_eq_some_iff.mpr ⟨(rfl : rest = _), hvalueNe, hbracket⟩
  obtain ⟨hkeySpacing, hkeyParen⟩ := stopsAt_key hkey
  obtain ⟨hcloses, hend⟩ := tail_eq line.closes h₄ h₅ hkeySpacing hkeyParen
  refine ⟨{ line with field, operator }, ?_, ?_, rfl, rfl, rfl, rfl⟩
  · unfold ofText?
    rw [hs]
    simp only [htake, hdrop, hat, hread, hrest, Option.bind_eq_bind, Option.bind_some, hvalue]
    simp only [tail, hcloses, hend, key?_getD hkey, Option.bind_some, List.length_replicate]
  · rcases hlonger with ⟨rfl, rfl⟩ | hlt
    · exact .inl rfl
    · exact .inr hlt

/-! ## Cuts of one text -/

section Cuts

variable {line : Line} {before behind field head rest : List Char}

/-- Every cut puts the field behind the first at sign. -/
theorem IsCutOf.exists_behind (hat : '@' ∉ before) (h : line.IsCutOf (before ++ '@' :: behind)) :
    ∃ s₂ s₃ value, (∀ c ∈ s₂, isSpacing c = true) ∧ (∀ c ∈ s₃, isSpacing c = true) ∧
      behind = line.field ++ s₂ ++ line.operator ++ s₃ ++ '[' :: value := by
  obtain ⟨s₁, s₂, s₃, s₄, s₅, hspacing, hs⟩ := h.layout
  have hfront : '@' ∉ List.replicate line.opens '(' ++ s₁ := by
    intro hmem
    rcases List.mem_append.mp hmem with hmem | hmem
    · cases List.eq_of_mem_replicate hmem
    · cases hspacing s₁ (by simp) _ hmem
  -- in front of the at sign of the cut there are parentheses and spacing only
  simp only [List.append_assoc, List.cons_append] at hs
  rw [← List.append_assoc] at hs
  obtain ⟨-, hbehind⟩ := append_cons_inj hat hfront hs
  refine ⟨s₂, s₃, line.value ++ ']' :: (s₄ ++ (List.replicate line.closes ')' ++
    (s₅ ++ line.key.getD []))), hspacing s₂ (by simp), hspacing s₃ (by simp), ?_⟩
  rw [hbehind]
  simp only [List.append_assoc]

/-- The field of a cut ends no later than the first blank behind the at sign. -/
theorem IsCutOf.length_field_le (hat : '@' ∉ before)
    (h : line.IsCutOf (before ++ '@' :: field ++ ' ' :: rest)) :
    line.field.length ≤ field.length := by
  rw [List.append_assoc, List.cons_append] at h
  obtain ⟨s₂, s₃, value, -, -, hbehind⟩ := h.exists_behind hat
  simp only [List.append_assoc] at hbehind
  refine Nat.not_lt.mp fun hlt => ?_
  -- a longer field has the blank in it
  have hblankPrefix : field ++ [' '] <+: field ++ ' ' :: rest := ⟨rest, by simp⟩
  have hlength : (field ++ [' ']).length ≤ line.field.length := by
    rw [List.length_append]
    exact hlt
  obtain ⟨more, hmore⟩ : field ++ [' '] <+: line.field :=
    List.prefix_of_prefix_length_le hblankPrefix ⟨_, hbehind.symm⟩ hlength
  have hblank := h.isFieldChar ' ' (by simp [← hmore])
  cases hblank

/-- With nothing but characters of a field up to the bracket, the operator touches the field. -/
theorem IsCutOf.field_append_operator (hat : '@' ∉ before)
    (hhead : ∀ c ∈ head, Line.isFieldChar c = true)
    (h : line.IsCutOf (before ++ '@' :: head ++ '[' :: rest)) :
    line.field ++ line.operator = head := by
  rw [List.append_assoc, List.cons_append] at h
  obtain ⟨s₂, s₃, value, h₂, h₃, hbehind⟩ := h.exists_behind hat
  obtain ⟨op, hop⟩ := h.operator
  have hnone : '[' ∉ head := by
    intro hmem
    cases hhead _ hmem
  have hfront : '[' ∉ line.field ++ s₂ ++ line.operator ++ s₃ := by
    intro hmem
    simp only [List.mem_append] at hmem
    rcases hmem with ((hmem | hmem) | hmem) | hmem
    · cases h.isFieldChar _ hmem
    · cases h₂ _ hmem
    · exact hop.not_bracket hmem
    · cases h₃ _ hmem
  obtain ⟨hparts, -⟩ := append_cons_inj hnone hfront hbehind
  -- spacing is no character of a field
  have hspacing : ∀ t : List Char, (∀ c ∈ t, isSpacing c = true) → (∀ c ∈ t, c ∈ head) →
      t = [] := by
    intro t ht hmem
    refine List.eq_nil_iff_forall_not_mem.mpr fun c hc => ?_
    have hnot : Line.isFieldChar c = false := eq_false_of_isSpacing (by decide) (ht c hc)
    rw [hhead c (hmem c hc)] at hnot
    cases hnot
  obtain rfl := hspacing s₂ h₂ fun c hc => by simp [hparts, hc]
  obtain rfl := hspacing s₃ h₃ fun c hc => by simp [hparts, hc]
  rw [hparts, List.append_nil, List.append_nil]

end Cuts

/-! ## What the parts mean -/

/-- The filter that the parts of a line stand for. Only a list operator looks into the value. -/
structure Means (line : Line) (f : Filter) : Prop where
  field : f.field = String.ofList line.field
  operator : f.operator.SpelledBy line.operator
  value : if f.operator.takesList = true then
      ∃ xs, ValueList.ofText line.value = .ok xs ∧ f.value = .list xs
    else f.value = .string (String.ofList line.value)
  opens : f.opens = UInt64.ofNat line.opens
  closes : f.closes = UInt64.ofNat line.closes
  key : line.key.map lower = f.key.map fun key => lower key.word.toList

theorem Means.list_value {line : Line} {f : Filter} (h : line.Means f)
    (hop : f.operator.takesList = true) :
    ∃ xs, ValueList.ofText line.value = .ok xs ∧ f.value = .list xs := by
  have hvalue := h.value
  rw [if_pos hop] at hvalue
  exact hvalue

theorem Means.single_value {line : Line} {f : Filter} (h : line.Means f)
    (hop : f.operator.takesList = false) : f.value = .string (String.ofList line.value) := by
  have hvalue := h.value
  rw [hop, if_neg Bool.false_ne_true] at hvalue
  exact hvalue

/-- The parts of a cut always have a meaning. -/
theorem IsCutOf.exists_means {line : Line} {s : List Char} (h : line.IsCutOf s) :
    ∃ f, Filter.ofParts line = .ok f ∧ line.Means f := by
  obtain ⟨op, hop⟩ := h.operator
  have hvalue : ∃ value, Filter.lineValue op line.value = .ok value ∧
      if op.takesList = true then ∃ xs, ValueList.ofText line.value = .ok xs ∧ value = .list xs
      else value = .string (String.ofList line.value) := by
    unfold Filter.lineValue
    split
    · obtain ⟨xs, hxs, -⟩ := ValueList.exists_ofText line.value
      exact ⟨.list xs, map_eq_ok_iff.mpr ⟨xs, hxs, rfl⟩, xs, hxs, rfl⟩
    · exact ⟨_, rfl, rfl⟩
  have hkey : ∃ key, line.key.mapM Connective.ofText = .ok key ∧
      line.key.map lower = key.map fun key => lower key.word.toList := by
    cases hline : line.key with
    | none => exact ⟨none, rfl, rfl⟩
    | some t =>
      obtain ⟨k, hk⟩ := h.key t hline
      refine ⟨some k, ?_, congrArg some hk⟩
      rw [Option.mapM_some, hk.ofText_eq]
      rfl
  obtain ⟨value, hread, hmeans⟩ := hvalue
  obtain ⟨key, hreadKey, hmeansKey⟩ := hkey
  refine ⟨{ field := String.ofList line.field, operator := op, value,
            opens := UInt64.ofNat line.opens, closes := UInt64.ofNat line.closes, key },
    ?_, rfl, hop, hmeans, rfl, rfl, hmeansKey⟩
  unfold Filter.ofParts
  rw [hop.ofText_eq]
  show (Filter.lineValue op line.value >>= _) = _
  rw [hread]
  show (line.key.mapM Connective.ofText >>= _) = _
  rw [hreadKey]
  rfl

end Line

namespace Filter

open Line

/-- A filter that is read is what the parts of its line mean. -/
theorem exists_means_of_ofLine {number : Nat} {line : String} {f : Filter}
    (h : ofLine number line = .ok f) :
    ∃ parts, ofText? (trim line.toList) = some parts ∧ parts.Means f := by
  unfold ofLine at h
  split at h
  · next parts hread =>
    obtain ⟨f', hf', hmeans⟩ := (ofText?_sound hread).exists_means
    rw [h] at hf'
    cases hf'
    exact ⟨parts, hread, hmeans⟩
  · cases h

/-- **The reader accepts exactly the grammar.** A line is read iff it has a cut, once the blanks
around it are gone. What is read is the meaning of the cut with the longest field; any other cut has
a shorter field, another operator, and nothing else of its own. -/
theorem ofLine_grammar (number : Nat) (line : String) :
    ((∃ f, ofLine number line = .ok f) ↔ ∃ parts : Line, parts.IsCutOf (trim line.toList)) ∧
      ∀ f, ofLine number line = .ok f →
        ∃ longest : Line, longest.IsCutOf (trim line.toList) ∧ longest.Means f ∧
          ∀ parts : Line, parts.IsCutOf (trim line.toList) →
            (parts = longest ∨ parts.field.length < longest.field.length) ∧
              parts.opens = longest.opens ∧ parts.value = longest.value ∧
              parts.closes = longest.closes ∧ parts.key = longest.key := by
  refine ⟨⟨?_, ?_⟩, ?_⟩
  · rintro ⟨f, hf⟩
    obtain ⟨longest, hread, -⟩ := exists_means_of_ofLine hf
    exact ⟨longest, ofText?_sound hread⟩
  · rintro ⟨parts, hparts⟩
    obtain ⟨longest, hread, -⟩ := ofText?_longest hparts
    obtain ⟨f, hf, -⟩ := (ofText?_sound hread).exists_means
    refine ⟨f, ?_⟩
    unfold ofLine
    rw [hread]
    exact hf
  · intro f hf
    obtain ⟨longest, hread, hmeans⟩ := exists_means_of_ofLine hf
    refine ⟨longest, ofText?_sound hread, hmeans, ?_⟩
    intro parts hparts
    obtain ⟨longest', hread', hlonger⟩ := ofText?_longest hparts
    rw [hread] at hread'
    cases hread'
    exact hlonger

/-- The operator touches the field, and the longest field takes a part of it. -/
theorem ofLine_grammar_glued :
    ofLine 1 "(( @aNOT_IN [1, 2] ) and" = .ok
        { field := "aNOT_", operator := .isIn, value := .list (.ints [1, 2]), opens := 2,
          closes := 1, key := some .and } ∧
      ∃ longest : Line, longest.IsCutOf "(( @aNOT_IN [1, 2] ) and".toList ∧
        longest.field = "aNOT_".toList ∧
        ∀ parts : Line, parts.IsCutOf "(( @aNOT_IN [1, 2] ) and".toList →
          parts = longest ∨ parts.field.length < longest.field.length := by
  have hread : ofLine 1 "(( @aNOT_IN [1, 2] ) and" = .ok
      { field := "aNOT_", operator := .isIn, value := .list (.ints [1, 2]), opens := 2,
        closes := 1, key := some .and } := by
    rfl
  obtain ⟨longest, hcut, hmeans, hlonger⟩ := (ofLine_grammar 1 "(( @aNOT_IN [1, 2] ) and").2 _ hread
  refine ⟨hread, longest, hcut, ?_, fun parts hparts => (hlonger parts hparts).1⟩
  have hfield : "aNOT_" = String.ofList longest.field := hmeans.field
  rw [hfield, String.toList_ofList]

end Filter

end FilterQuery

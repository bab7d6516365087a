import FilterQuery.Inference

/-!
# The common kind of tokens

A list takes elements of its own kind, and a list of floating-point numbers takes whole numbers as
well (`Kind.Admits`). This is a partial order of the kinds, in which `Kind.join?` finds the least
upper bound of two kinds that have one (`join?_eq_some_iff`).

* `foldlM_join?_eq_some_iff`: the pass over the kinds ends with the one among them that admits all
  of them, if there is one.
* `common?_eq_some_iff` says the same of the tokens. The order of the tokens is gone from it, and so
  is the number of times that each occurs.
* `common?_append` takes the tokens apart, and `common?_kinds` sums up.
-/

namespace FilterQuery.Kind

open Text

/-! ## The kind of a token -/

/-- The readers are tried in turn, so a whole number is told by its own reader alone. -/
theorem ofToken_eq_int_iff {t : List Char} : ofToken t = int ↔ (signed64? t).isSome = true := by
  unfold ofToken
  split
  · next hint => simp [hint]
  · next hint => split <;> (try split) <;> simp [hint]

/-- What both readers of numbers take counts as a whole number. -/
theorem ofToken_eq_float_iff {t : List Char} :
    ofToken t = float ↔ signed64? t = none ∧ (Float64.ofText? t).isSome = true := by
  unfold ofToken
  rw [← Option.not_isSome_iff_eq_none]
  split
  · next hint => simp [hint]
  · next hint =>
    split
    · next hfloat => simp [hint, hfloat]
    · next hfloat => split <;> simp [hfloat]

/-- The converse does not hold: a truth value may be written as a number, and then it counts as
one. -/
theorem isSome_truthValue?_of_ofToken {t : List Char} (h : ofToken t = bool) :
    (truthValue? t).isSome = true := by
  unfold ofToken at h
  split at h
  · cases h
  · split at h
    · cases h
    · split at h
      · next hbool => exact hbool
      · cases h

/-! ## Kinds that count as another one -/

/-- A list of kind `k` takes elements of kind `a`: those of its own kind, and whole numbers among
floating-point ones. -/
def Admits (k a : Kind) : Prop := a = k ∨ a = int ∧ k = float

/-- A list takes its own kind. -/
theorem admits_self (k : Kind) : Admits k k := .inl rfl

/-- What is taken for something that is taken for a third is taken for the third. -/
theorem Admits.trans {k c a : Kind} (hc : Admits k c) (ha : Admits c a) : Admits k a := by
  rcases ha with rfl | ⟨rfl, rfl⟩
  · exact hc
  · rcases hc with rfl | ⟨hfloat, -⟩
    · exact .inr ⟨rfl, rfl⟩
    · cases hfloat

/-- Kinds that take each other are the same. -/
theorem Admits.antisymm {a b : Kind} (h : Admits a b) (h' : Admits b a) : a = b := by
  rcases h with rfl | ⟨rfl, rfl⟩
  · rfl
  · rcases h' with h' | ⟨h', -⟩ <;> cases h'

/-- Only floating-point numbers are wider than another kind. -/
theorem Admits.eq_of_ne_float {k a : Kind} (h : Admits k a) (hk : k ≠ float) : a = k :=
  h.resolve_right fun hwider => hk hwider.2

/-- Among floating-point numbers all numbers are taken. -/
theorem admits_float_iff {a : Kind} : Admits float a ↔ a = int ∨ a = float := by
  cases a <;> simp [Admits]

/-- **The join of two kinds** is the one of them that admits the other. -/
theorem join?_eq_some_iff {a b c : Kind} :
    a.join? b = some c ↔ (c = a ∨ c = b) ∧ Admits c a ∧ Admits c b := by
  cases a <;> cases b <;> cases c <;> simp [join?, Admits]

/-- What admits two kinds admits their join, so that there is one. -/
theorem exists_join? {k a b : Kind} (ha : Admits k a) (hb : Admits k b) :
    ∃ c, a.join? b = some c ∧ Admits k c := by
  -- either the first kind is the wider one, or it is that of whole numbers
  rcases ha with rfl | ⟨rfl, rfl⟩
  · exact ⟨a, join?_eq_some_iff.mpr ⟨.inl rfl, admits_self a, hb⟩, admits_self a⟩
  · -- among numbers the other kind admits that of whole numbers
    have hint : Admits b int := by
      rcases hb with rfl | ⟨rfl, -⟩
      · exact .inr ⟨rfl, rfl⟩
      · exact admits_self int
    exact ⟨b, join?_eq_some_iff.mpr ⟨.inr rfl, hint, admits_self b⟩, hb⟩

/-! ## The pass over the kinds -/

/-- **The kind that was found** is the one among the kinds that admits all of them. -/
theorem foldlM_join?_eq_some_iff {kinds : List Kind} {first k : Kind} :
    kinds.foldlM join? first = some k ↔
      k ∈ first :: kinds ∧ ∀ a ∈ first :: kinds, Admits k a := by
  -- the kind so far stands for all kinds before it: what admits it admits them
  induction kinds generalizing first with
  | nil =>
    rw [List.foldlM_nil, List.mem_singleton, List.forall_mem_singleton]
    constructor
    · intro h
      obtain rfl := Option.some.inj h
      exact ⟨rfl, admits_self first⟩
    · rintro ⟨rfl, -⟩
      rfl
  | cons b kinds ih =>
    rw [List.foldlM_cons, Option.bind_eq_bind, Option.bind_eq_some_iff, List.forall_mem_cons,
      List.forall_mem_cons, List.mem_cons, List.mem_cons]
    constructor
    · rintro ⟨c, hjoin, hrest⟩
      obtain ⟨hc, hfirst, hb⟩ := join?_eq_some_iff.mp hjoin
      obtain ⟨hk, hall⟩ := ih.mp hrest
      obtain ⟨hadmits, hkinds⟩ := List.forall_mem_cons.mp hall
      refine ⟨?_, hadmits.trans hfirst, hadmits.trans hb, hkinds⟩
      rcases List.mem_cons.mp hk with rfl | hk
      · rcases hc with rfl | rfl
        · exact .inl rfl
        · exact .inr (.inl rfl)
      · exact .inr (.inr hk)
    · -- what admits all of them admits the first two, so that they have a join and the pass goes on
      rintro ⟨hk, hfirst, hb, hkinds⟩
      obtain ⟨c, hjoin, hadmits⟩ := exists_join? hfirst hb
      obtain ⟨-, hcfirst, hcb⟩ := join?_eq_some_iff.mp hjoin
      refine ⟨c, hjoin, ih.mpr ⟨List.mem_cons.mpr ?_, List.forall_mem_cons.mpr ⟨hadmits, hkinds⟩⟩⟩
      rcases hk with rfl | rfl | hk
      · exact .inl (hadmits.antisymm hcfirst)
      · exact .inl (hadmits.antisymm hcb)
      · exact .inr hk

variable {xs ys : List (List Char)} {k : Kind}

/-- **The common kind** is the one among the kinds of the tokens that admits all of them. -/
theorem common?_eq_some_iff :
    common? xs = some k ↔ k ∈ xs.map ofToken ∧ ∀ a ∈ xs.map ofToken, Admits k a := by
  unfold common?
  split
  · next hnil => simp [hnil]
  · next first kinds hkinds =>
    rw [hkinds]
    exact foldlM_join?_eq_some_iff

/-- Some token is of the common kind. -/
theorem exists_ofToken_of_common? (h : common? xs = some k) : ∃ t ∈ xs, ofToken t = k :=
  List.mem_map.mp (common?_eq_some_iff.mp h).1

/-- The common kind admits the kinds of all tokens. -/
theorem ofToken_of_common? (h : common? xs = some k) : ∀ t ∈ xs, Admits k (ofToken t) :=
  List.forall_mem_map.mp (common?_eq_some_iff.mp h).2

/-- Tokens that are all of one kind. -/
theorem common?_of_forall (hne : xs ≠ []) (h : ∀ t ∈ xs, ofToken t = k) : common? xs = some k := by
  obtain ⟨t, ht⟩ := List.exists_mem_of_ne_nil xs hne
  refine common?_eq_some_iff.mpr ⟨List.mem_map.mpr ⟨t, ht, h t ht⟩, List.forall_mem_map.mpr ?_⟩
  intro u hu
  exact .inl (h u hu)

/-- A kind that admits no other is common to tokens that are all of it. -/
theorem common?_eq_some_iff_of_ne_float (hk : k ≠ float) :
    common? xs = some k ↔ xs ≠ [] ∧ ∀ t ∈ xs, ofToken t = k := by
  constructor
  · intro h
    obtain ⟨t, ht, -⟩ := exists_ofToken_of_common? h
    exact ⟨List.ne_nil_of_mem ht, fun u hu => (ofToken_of_common? h u hu).eq_of_ne_float hk⟩
  · rintro ⟨hne, hall⟩
    exact common?_of_forall hne hall

/-- Numbers count as floating-point ones if one of them does. -/
theorem common?_eq_float_iff :
    common? xs = some float ↔
      (∀ t ∈ xs, Admits float (ofToken t)) ∧ ∃ t ∈ xs, ofToken t = float := by
  rw [common?_eq_some_iff, List.forall_mem_map, List.mem_map, and_comm]

/-- Tokens that one kind admits have a common kind, and it is no wider than that one. -/
theorem exists_common? (hne : xs ≠ []) (h : ∀ a ∈ xs.map ofToken, Admits k a) :
    ∃ a, common? xs = some a ∧ Admits k a := by
  by_cases hk : k ∈ xs.map ofToken
  · exact ⟨k, common?_eq_some_iff.mpr ⟨hk, h⟩, admits_self k⟩
  · -- then the kind is wider than all of theirs, and they are all whole numbers
    have hint : ∀ a ∈ xs.map ofToken, a = int ∧ k = float := by
      intro a ha
      rcases h a ha with rfl | hwider
      · exact absurd ha hk
      · exact hwider
    have hkinds := common?_of_forall hne fun t ht => (hint _ (List.mem_map_of_mem ht)).1
    refine ⟨int, hkinds, h int (common?_eq_some_iff.mp hkinds).1⟩

/-! ## What the common kind depends on -/

/-- Only the kinds that occur matter. -/
theorem common?_congr (h : ∀ k, k ∈ xs.map ofToken ↔ k ∈ ys.map ofToken) :
    common? xs = common? ys := by
  refine Option.ext fun k => ?_
  rw [common?_eq_some_iff, common?_eq_some_iff]
  simp only [h]

/-- **Tokens with no common kind** have none among any others, either. -/
theorem common?_eq_none_of_subset (hne : xs ≠ []) (hnone : common? xs = none) (hsub : xs ⊆ ys) :
    common? ys = none := by
  refine Option.eq_none_iff_forall_not_mem.mpr fun k hk => ?_
  obtain ⟨-, hadmits⟩ := common?_eq_some_iff.mp hk
  -- a kind that admits all of the others admits these tokens, and so they would have one
  obtain ⟨a, ha, -⟩ := exists_common? hne fun a ha => hadmits a (List.map_subset ofToken hsub ha)
  rw [hnone] at ha
  cases ha

/-- **The common kind of two runs of tokens** is the join of theirs. -/
theorem common?_append (hxs : xs ≠ []) (hys : ys ≠ []) :
    common? (xs ++ ys) = (common? xs).bind fun a => (common? ys).bind (join? a) := by
  refine Option.ext fun k => ?_
  rw [common?_eq_some_iff, List.map_append, List.mem_append, List.forall_mem_append]
  simp only [Option.bind_eq_some_iff]
  constructor
  · rintro ⟨hk, hkxs, hkys⟩
    -- a kind that admits all tokens admits those of either run
    obtain ⟨a, ha, hka⟩ := exists_common? hxs hkxs
    obtain ⟨b, hb, hkb⟩ := exists_common? hys hkys
    obtain ⟨c, hjoin, hkc⟩ := exists_join? hka hkb
    -- the kind itself is among those that were joined
    obtain ⟨-, hca, hcb⟩ := join?_eq_some_iff.mp hjoin
    have hck : Admits c k := by
      rcases hk with hk | hk
      · exact hca.trans ((common?_eq_some_iff.mp ha).2 k hk)
      · exact hcb.trans ((common?_eq_some_iff.mp hb).2 k hk)
    obtain rfl := hkc.antisymm hck
    exact ⟨a, ha, b, hb, hjoin⟩
  · rintro ⟨a, ha, b, hb, hjoin⟩
    obtain ⟨hk, hka, hkb⟩ := join?_eq_some_iff.mp hjoin
    obtain ⟨haxs, hxs⟩ := common?_eq_some_iff.mp ha
    obtain ⟨hbys, hys⟩ := common?_eq_some_iff.mp hb
    refine ⟨?_, fun d hd => hka.trans (hxs d hd), fun d hd => hkb.trans (hys d hd)⟩
    rcases hk with rfl | rfl
    · exact .inl haxs
    · exact .inr hbys

/-- **The common kind is a matter of which kinds occur.** There is one iff all tokens are of it, or
it is that of floating-point numbers and there are such, with nothing but whole numbers between
them. Neither the order of the tokens nor their repetition matters, no further token makes up for a
mismatch, and two runs of tokens bring nothing but their common kinds together. -/
theorem common?_kinds (xs ys : List (List Char)) :
    (∀ k, common? xs = some k ↔ xs ≠ [] ∧ ((∀ t ∈ xs, ofToken t = k) ∨
      k = float ∧ (∀ t ∈ xs, ofToken t = int ∨ ofToken t = float) ∧
        ∃ t ∈ xs, ofToken t = float)) ∧
    ((∀ k, k ∈ xs.map ofToken ↔ k ∈ ys.map ofToken) → common? xs = common? ys) ∧
    (xs ⊆ ys → ys ⊆ xs → common? xs = common? ys) ∧
    (xs ≠ [] → common? xs = none → ∀ before after, common? (before ++ xs ++ after) = none) ∧
    (xs ≠ [] → ys ≠ [] → common? (xs ++ ys) =
      match common? xs, common? ys with
      | some int, some float | some float, some int => some float
      | some a, some b => if a = b then some a else none
      | _, _ => none) := by
  refine ⟨fun k => ⟨?_, ?_⟩, common?_congr, ?_, ?_, ?_⟩
  · intro h
    obtain ⟨t, ht, hkind⟩ := exists_ofToken_of_common? h
    refine ⟨List.ne_nil_of_mem ht, ?_⟩
    by_cases hfloat : k = float
    · subst hfloat
      exact .inr ⟨rfl, fun u hu => admits_float_iff.mp (ofToken_of_common? h u hu), t, ht, hkind⟩
    · exact .inl ((common?_eq_some_iff_of_ne_float hfloat).mp h).2
  · rintro ⟨hne, hall | ⟨rfl, hnumeric, hfloat⟩⟩
    · exact common?_of_forall hne hall
    · exact common?_eq_float_iff.mpr ⟨fun t ht => admits_float_iff.mpr (hnumeric t ht), hfloat⟩
  · intro hxs hys
    refine common?_congr fun k => ⟨?_, ?_⟩
    · exact fun hk => List.map_subset ofToken hxs hk
    · exact fun hk => List.map_subset ofToken hys hk
  · intro hne hnone before after
    exact common?_eq_none_of_subset hne hnone (by simp)
  · intro hxs hys
    rw [common?_append hxs hys]
    cases common? xs with
    | none => rfl
    | some a =>
      cases common? ys with
      | none => cases a <;> rfl
      | some b => cases a <;> cases b <;> rfl

/-- A word among numbers is a mismatch for good, and numbers in two runs come together as
floating-point ones. -/
theorem common?_kinds_of_mixed :
    let whole := ["1".toList, "-20".toList]
    let mixed := ["7".toList, "x".toList]
    let fractions := ["2.5".toList, "1e3".toList]
    common? fractions = some float ∧ common? (whole ++ fractions) = some float ∧
      common? (whole ++ whole ++ whole) = common? whole ∧
      common? (whole ++ mixed ++ fractions) = none := by
  intro whole mixed fractions
  have hwhole : whole ≠ [] := List.cons_ne_nil _ _
  have hmixed : mixed ≠ [] := List.cons_ne_nil _ _
  have hfractions : fractions ≠ [] := List.cons_ne_nil _ _
  have hnone : common? mixed = none := by decide
  have hfloat : common? fractions = some float := by
    refine ((common?_kinds fractions []).1 float).mpr ⟨hfractions, .inl ?_⟩
    exact List.forall_mem_cons.mpr ⟨rfl, List.forall_mem_singleton.mpr rfl⟩
  refine ⟨hfloat, ?_, ?_, ?_⟩
  · rw [(common?_kinds whole fractions).2.2.2.2 hwhole hfractions, hfloat]
    rfl
  · exact (common?_kinds (whole ++ whole ++ whole) whole).2.2.1 (by simp) (by simp)
  · exact (common?_kinds mixed fractions).2.2.2.1 hmixed hnone whole fractions

end FilterQuery.Kind

import FilterQuery.Proofs.Json.Compact

/-!
# Texts described by their parts

One value can be written in many ways. A phrase describes such ways: it relates a text to the rest
behind what it describes (`Json.Phrase`). Phrases for the parts of a container make one for the
container, with any spacing in front of any token.

A phrase is scanned as something of which a property holds (`Phrase.Scans`). For containers this
comes down to their parts (`Scans.array`, `Scans.object`): the scanner goes through a text part by
part, and each part is scanned in front of everything that no number goes on with.
-/

namespace FilterQuery.Json

open Text

/-- A description of what stands at the front of a text. It relates the text to the rest. -/
abbrev Phrase := List Char → List Char → Prop

namespace Phrase

/-! ## Descriptions -/

/-- The document, character by character as it is written. -/
def written (j : Json) : Phrase
  | s, rest => skipSpacing s = j.compact ++ rest

/-- A key and its colon. A key with an unpaired surrogate is no string. -/
def key (k : Option String) : Phrase
  | s, rest => ∃ s₁ s₂, skipSpacing s = '"' :: s₁ ∧ Scan.splitQuoted? s₁ = some (k, s₂) ∧
      skipSpacing s₂ = ':' :: rest

/-- The further items of an array, up to its closing bracket. -/
def items : List Phrase → Phrase
  | [], s, rest => skipSpacing s = ']' :: rest
  | p :: ps, s, rest => ∃ s₁ s₂, skipSpacing s = ',' :: s₁ ∧ p s₁ s₂ ∧ items ps s₂ rest

def array : List Phrase → Phrase
  | [], s, rest => ∃ s₁, skipSpacing s = '[' :: s₁ ∧ skipSpacing s₁ = ']' :: rest
  | p :: ps, s, rest => ∃ s₁ s₂, skipSpacing s = '[' :: s₁ ∧ p s₁ s₂ ∧ items ps s₂ rest

/-- The further members of an object, up to its closing brace. -/
def members : List (Option String × Phrase) → Phrase
  | [], s, rest => skipSpacing s = '\x7d' :: rest
  | m :: ms, s, rest =>
    ∃ s₁ s₂ s₃, skipSpacing s = ',' :: s₁ ∧ key m.1 s₁ s₂ ∧ m.2 s₂ s₃ ∧ members ms s₃ rest

def object : List (Option String × Phrase) → Phrase
  | [], s, rest => ∃ s₁, skipSpacing s = '\x7b' :: s₁ ∧ skipSpacing s₁ = '\x7d' :: rest
  | m :: ms, s, rest =>
    ∃ s₁ s₂ s₃, skipSpacing s = '\x7b' :: s₁ ∧ key m.1 s₁ s₂ ∧ m.2 s₂ s₃ ∧ members ms s₃ rest

/-- Any JSON value, nested to whatever depth, with numbers of any size and strings that may have
unpaired surrogates. -/
inductive Any : Phrase
  | null {s rest : List Char} : skipSpacing s = "null".toList ++ rest → Any s rest
  | bool {s rest : List Char} (b : Bool) : skipSpacing s = truth b ++ rest → Any s rest
  | number {s rest : List Char} (n : Numeral) :
    Numeral.split? (skipSpacing s) = some (n, rest) → Any s rest
  | string {s s₁ rest : List Char} (content : Option String) :
    skipSpacing s = '"' :: s₁ → Scan.splitQuoted? s₁ = some (content, rest) → Any s rest
  | array {s rest : List Char} (ps : List Phrase) :
    (∀ p ∈ ps, ∀ s rest, p s rest → Any s rest) → array ps s rest → Any s rest
  | object {s rest : List Char} (ms : List (Option String × Phrase)) :
    (∀ m ∈ ms, ∀ s rest, m.2 s rest → Any s rest) → object ms s rest → Any s rest

/-! ## What is scanned -/

/-- The text is scanned as something of which `X` holds. Fuel beyond twice the length of the text
is enough. -/
structure ScansAt (X : Scan → Prop) (s rest : List Char) : Prop where
  shorter : rest.length < s.length
  value : StopsAt Numeral.goesOn rest →
    ∀ fuel, 2 * s.length < fuel → ∃ x, X x ∧ Scan.value fuel s = (x, some rest)

/-- All texts that the phrase describes are scanned as something of which `X` holds. -/
def Scans (p : Phrase) (X : Scan → Prop) : Prop := ∀ s rest, p s rest → ScansAt X s rest

variable {s s₁ s₂ s₃ rest : List Char} {c : Char} {X : Scan → Prop}

theorem ScansAt.imp {X' : Scan → Prop} (h : ScansAt X s rest) (himp : ∀ x, X x → X' x) :
    ScansAt X' s rest := by
  refine ⟨h.shorter, fun hrest fuel hfuel => ?_⟩
  obtain ⟨x, hx, hvalue⟩ := h.value hrest fuel hfuel
  exact ⟨x, himp x hx, hvalue⟩

theorem Scans.imp {X' : Scan → Prop} {p : Phrase} (h : Scans p X) (himp : ∀ x, X x → X' x) :
    Scans p X' :=
  fun s rest hp => (h s rest hp).imp himp

/-! ### Tokens -/

theorem length_skipSpacing_le (s : List Char) : (skipSpacing s).length ≤ s.length :=
  (List.dropWhile_suffix isSpacing).length_le

theorem length_lt_of_token (h : skipSpacing s = c :: rest) : rest.length < s.length := by
  have hle := length_skipSpacing_le s
  rw [h, List.length_cons] at hle
  omega

/-- In front of a token, with or without spacing, a number ends. -/
theorem stopsAt_of_token (h : skipSpacing s = c :: rest) (hc : Numeral.goesOn c = false) :
    StopsAt Numeral.goesOn s := by
  cases s with
  | nil => exact stopsAt_nil
  | cons d s =>
    apply stopsAt_cons.mpr
    by_cases hd : isSpacing d = true
    · exact eq_false_of_isSpacing (by decide) hd
    · rw [Scan.skipSpacing_cons (Bool.eq_false_iff.mpr hd)] at h
      rw [(List.cons.inj h).1]
      exact hc

/-- What is scanned as one and the same scan whatever the fuel. -/
theorem ScansAt.of_value {x : Scan} (hx : X x) (hshorter : rest.length < s.length)
    (hvalue : ∀ fuel, Scan.value (fuel + 1) (skipSpacing s) = (x, some rest)) :
    ScansAt X s rest := by
  refine ⟨hshorter, fun _ fuel hfuel => ⟨x, hx, ?_⟩⟩
  obtain ⟨fuel, rfl⟩ := Nat.exists_eq_add_of_lt hfuel
  rw [← Scan.value_skipSpacing]
  exact hvalue _

/-- **A document that is written is scanned as it always is.** -/
theorem Scans.written (j : Json) : Scans (written j) (· = j.rescan) := by
  intro s rest h
  have h : skipSpacing s = j.compact ++ rest := h
  have hle := length_skipSpacing_le s
  rw [h, List.length_append] at hle
  obtain ⟨c, t, hj, -⟩ := exists_compact_eq_cons j
  have hpos : 0 < j.compact.length := by
    rw [hj]
    exact Nat.succ_pos _
  refine ⟨by omega, fun hrest fuel hfuel => ⟨_, rfl, ?_⟩⟩
  rw [← Scan.value_skipSpacing, h]
  exact (Scan.readsCompact fuel).value j (by omega) rest hrest

/-! ### Arrays -/

/-- No item starts where an array ends. -/
theorem items_bracket (h : skipSpacing s = ']' :: rest) (fuel : Nat) :
    (Scan.items fuel s).2 = none := by
  have hvalue : ∀ fuel, (Scan.value fuel s).2 = none := by
    intro fuel
    cases fuel with
    | zero => rfl
    | succ fuel =>
      rw [Scan.value, h]
      rfl
  cases fuel with
  | zero => rfl
  | succ fuel =>
    rw [Scan.items]
    have hnone := hvalue fuel
    split
    · rfl
    · next heq =>
      rw [heq] at hnone
      cases hnone

section Arrays

variable {α : Type} {p : α → Phrase} {Y : α → Scan → Prop}

/-- The items behind the bracket that opens an array. -/
theorem items_of_scans {a : α} {as : List α} (has : ∀ b ∈ a :: as, Scans (p b) (Y b))
    (ha : p a s s₁) (hitems : items (as.map p) s₁ rest) :
    rest.length < s.length ∧ ∀ fuel, 2 * s.length + 1 < fuel →
      ∃ xs, List.Forall₂ Y (a :: as) xs ∧ Scan.items fuel s = (xs, some rest) := by
  induction as generalizing a s s₁ with
  | nil =>
    have hclose : skipSpacing s₁ = ']' :: rest := hitems
    obtain ⟨hshorter, hvalue⟩ := has a List.mem_cons_self s s₁ ha
    have hrest := length_lt_of_token hclose
    refine ⟨by omega, fun fuel hfuel => ?_⟩
    obtain ⟨fuel, rfl⟩ := Nat.exists_eq_succ_of_ne_zero (Nat.ne_zero_of_lt hfuel)
    obtain ⟨x, hx, hscan⟩ := hvalue (stopsAt_of_token hclose rfl) fuel (by omega)
    exact ⟨[x], .cons hx .nil, Scan.items_last hscan hclose⟩
  | cons b as ih =>
    obtain ⟨s₂, s₃, hcomma, hb, hbs⟩ := hitems
    obtain ⟨hshorter, hvalue⟩ := has a List.mem_cons_self s s₁ ha
    have hlt := length_lt_of_token hcomma
    obtain ⟨hrest, hxs⟩ := ih (fun b' hb' => has b' (List.mem_cons_of_mem a hb')) hb hbs
    refine ⟨by omega, fun fuel hfuel => ?_⟩
    obtain ⟨fuel, rfl⟩ := Nat.exists_eq_succ_of_ne_zero (Nat.ne_zero_of_lt hfuel)
    obtain ⟨x, hx, hscan⟩ := hvalue (stopsAt_of_token hcomma rfl) fuel (by omega)
    obtain ⟨xs, hall, hscans⟩ := hxs fuel (by omega)
    exact ⟨x :: xs, .cons hx hall, Scan.items_cons hscan hcomma hscans⟩

/-- **An array is scanned item by item.** -/
theorem Scans.array {as : List α} (has : ∀ a ∈ as, Scans (p a) (Y a)) :
    Scans (array (as.map p)) fun x => ∃ xs, List.Forall₂ Y as xs ∧ x = .array xs true := by
  intro s rest h
  cases as with
  | nil =>
    obtain ⟨s₁, hopen, hclose⟩ := h
    have h₁ := length_lt_of_token hopen
    have h₂ := length_lt_of_token hclose
    refine ⟨by omega, fun _ fuel hfuel => ⟨_, ⟨[], .nil, rfl⟩, ?_⟩⟩
    obtain ⟨fuel, rfl⟩ := Nat.exists_eq_succ_of_ne_zero (Nat.ne_zero_of_lt hfuel)
    exact Scan.value_empty_array hopen hclose
  | cons a as =>
    obtain ⟨s₁, s₂, hopen, ha, hitems⟩ := h
    have h₁ := length_lt_of_token hopen
    obtain ⟨hrest, hxs⟩ := items_of_scans has ha hitems
    refine ⟨by omega, fun _ fuel hfuel => ?_⟩
    obtain ⟨fuel, rfl⟩ := Nat.exists_eq_succ_of_ne_zero (Nat.ne_zero_of_lt hfuel)
    obtain ⟨xs, hall, hscans⟩ := hxs fuel (by omega)
    refine ⟨_, ⟨xs, hall, rfl⟩, Scan.value_array hopen (fun t ht => ?_) hscans⟩
    have hnone := items_bracket ht fuel
    rw [hscans] at hnone
    cases hnone

end Arrays

/-! ### Objects -/

/-- The member is scanned under its key, as something of which its property holds. -/
def Holds (Z : Option String × Phrase → Scan → Prop) (m : Option String × Phrase)
    (x : Option String × Scan) : Prop :=
  x.1 = m.1 ∧ Z m x.2

variable {Z : Option String × Phrase → Scan → Prop}

/-- The members behind the quotes that open the first key of an object. -/
theorem members_of_scans {m : Option String × Phrase} {ms : List (Option String × Phrase)}
    (hms : ∀ m' ∈ m :: ms, Scans m'.2 (Z m')) (hkey : Scan.splitQuoted? s = some (m.1, s₁))
    (hcolon : skipSpacing s₁ = ':' :: s₂) (hm : m.2 s₂ s₃) (hmembers : members ms s₃ rest) :
    rest.length < s.length ∧ ∀ fuel, 2 * s.length + 1 < fuel →
      ∃ xs, List.Forall₂ (Holds Z) (m :: ms) xs ∧ Scan.members fuel s = (xs, some rest) := by
  induction ms generalizing m s s₁ s₂ s₃ with
  | nil =>
    have hclose : skipSpacing s₃ = '\x7d' :: rest := hmembers
    obtain ⟨hshorter, hvalue⟩ := hms m List.mem_cons_self s₂ s₃ hm
    -- the fuel is enough because every part is shorter than the text
    have h₁ := Scan.length_splitQuoted?_lt hkey
    have h₂ := length_lt_of_token hcolon
    have h₃ := length_lt_of_token hclose
    refine ⟨by omega, fun fuel hfuel => ?_⟩
    obtain ⟨fuel, rfl⟩ := Nat.exists_eq_succ_of_ne_zero (Nat.ne_zero_of_lt hfuel)
    obtain ⟨x, hx, hscan⟩ := hvalue (stopsAt_of_token hclose rfl) fuel (by omega)
    exact ⟨[(m.1, x)], .cons ⟨rfl, hx⟩ .nil, Scan.members_last hkey hcolon hscan hclose⟩
  | cons m' ms ih =>
    obtain ⟨s₄, s₅, s₆, hcomma, ⟨s₇, s₈, hquote, hkey', hcolon'⟩, hm', hmembers⟩ := hmembers
    obtain ⟨hshorter, hvalue⟩ := hms m List.mem_cons_self s₂ s₃ hm
    have h₁ := Scan.length_splitQuoted?_lt hkey
    have h₂ := length_lt_of_token hcolon
    have h₃ := length_lt_of_token hcomma
    have h₄ := length_lt_of_token hquote
    obtain ⟨hrest, hxs⟩ := ih (fun m'' hm'' => hms m'' (List.mem_cons_of_mem m hm'')) hkey' hcolon'
      hm' hmembers
    refine ⟨by omega, fun fuel hfuel => ?_⟩
    obtain ⟨fuel, rfl⟩ := Nat.exists_eq_succ_of_ne_zero (Nat.ne_zero_of_lt hfuel)
    obtain ⟨x, hx, hscan⟩ := hvalue (stopsAt_of_token hcomma rfl) fuel (by omega)
    obtain ⟨xs, hall, hscans⟩ := hxs fuel (by omega)
    exact ⟨(m.1, x) :: xs, .cons ⟨rfl, hx⟩ hall,
      Scan.members_cons hkey hcolon hscan hcomma hquote hscans⟩

/-- **An object is scanned member by member.** -/
theorem Scans.object {ms : List (Option String × Phrase)} (hms : ∀ m ∈ ms, Scans m.2 (Z m)) :
    Scans (object ms) fun x => ∃ xs, List.Forall₂ (Holds Z) ms xs ∧ x = .object xs true := by
  intro s rest h
  cases ms with
  | nil =>
    obtain ⟨s₁, hopen, hclose⟩ := h
    have h₁ := length_lt_of_token hopen
    have h₂ := length_lt_of_token hclose
    refine ⟨by omega, fun _ fuel hfuel => ⟨_, ⟨[], .nil, rfl⟩, ?_⟩⟩
    obtain ⟨fuel, rfl⟩ := Nat.exists_eq_succ_of_ne_zero (Nat.ne_zero_of_lt hfuel)
    exact Scan.value_empty_object hopen hclose
  | cons m ms =>
    obtain ⟨s₁, s₂, s₃, hopen, ⟨s₄, s₅, hquote, hkey, hcolon⟩, hm, hmembers⟩ := h
    have h₁ := length_lt_of_token hopen
    have h₂ := length_lt_of_token hquote
    obtain ⟨hrest, hxs⟩ := members_of_scans hms hkey hcolon hm hmembers
    refine ⟨by omega, fun _ fuel hfuel => ?_⟩
    obtain ⟨fuel, rfl⟩ := Nat.exists_eq_succ_of_ne_zero (Nat.ne_zero_of_lt hfuel)
    obtain ⟨xs, hall, hscans⟩ := hxs fuel (by omega)
    exact ⟨_, ⟨xs, hall, rfl⟩, Scan.value_object hopen hquote hscans⟩

/-! ### Any value -/

/-- **Any JSON value is closed.** -/
theorem Scans.any : Scans Any fun x => x.isClosed = true := by
  intro s rest h
  induction h with
  | @null s rest hs =>
    have hle := length_skipSpacing_le s
    rw [hs] at hle
    refine .of_value (x := .null) rfl (by simp at hle; omega) fun fuel => ?_
    rw [hs]
    rfl
  | @bool s rest b hs =>
    have hle := length_skipSpacing_le s
    rw [hs] at hle
    refine .of_value (x := .bool b) rfl (by cases b <;> (simp [truth] at hle; omega)) fun fuel => ?_
    rw [hs]
    cases b <;> rfl
  | @number s rest n hs =>
    have hle := length_skipSpacing_le s
    have hlt := Numeral.length_split?_lt hs
    exact .of_value (x := .number n.number?) rfl (by omega) fun fuel => Scan.value_of_split? hs fuel
  | @string s s₁ rest content hquote hcontent =>
    have h₁ := length_lt_of_token hquote
    have h₂ := Scan.length_splitQuoted?_lt hcontent
    refine .of_value (x := .string content) rfl (by omega) fun fuel => ?_
    rw [hquote, Scan.value, Scan.skipSpacing_cons rfl]
    simp only [hcontent]
  | array ps _ harray ih =>
    rw [← List.map_id ps] at harray
    refine (Scans.array (p := id) (Y := fun _ x => x.isClosed = true) ih _ _ harray).imp ?_
    intro x hx
    obtain ⟨xs, -, rfl⟩ := hx
    rfl
  | object ms _ hobject ih =>
    refine (Scans.object (Z := fun _ x => x.isClosed = true) ih _ _ hobject).imp fun x hx => ?_
    obtain ⟨xs, -, rfl⟩ := hx
    rfl

/-! ## The compact notation -/

/-- The compact notation of the document is among the texts of the phrase. -/
def Describes (p : Phrase) (j : Json) : Prop := ∀ rest, p (j.compact ++ rest) rest

theorem skipSpacing_compact (j : Json) (rest : List Char) :
    skipSpacing (j.compact ++ rest) = j.compact ++ rest := by
  obtain ⟨c, t, hj, hspacing, -⟩ := exists_compact_eq_cons j
  rw [hj, List.cons_append, Scan.skipSpacing_cons hspacing]

theorem describes_written (j : Json) : (written j).Describes j := skipSpacing_compact j

theorem key_quote (k : String) (rest : List Char) :
    key (some k) (quote k ++ ':' :: rest) rest := by
  refine ⟨k.toList.flatMap escape ++ '"' :: ':' :: rest, ':' :: rest, ?_,
    Scan.splitQuoted?_quote k (':' :: rest), Scan.skipSpacing_cons rfl _⟩
  rw [quote_append]
  exact Scan.skipSpacing_cons rfl _

theorem items_compactItems {ps : List Phrase} {js : List Json} (h : List.Forall₂ Describes ps js)
    (rest : List Char) : items ps (compactItems js ++ ']' :: rest) rest := by
  induction h with
  | nil => exact Scan.skipSpacing_cons rfl _
  | @cons p j ps js hp _ ih =>
    have htext : compactItems (j :: js) ++ ']' :: rest =
        ',' :: (j.compact ++ (compactItems js ++ ']' :: rest)) := by
      simp [compactItems]
    rw [htext]
    exact ⟨_, _, Scan.skipSpacing_cons rfl _, hp _, ih⟩

theorem describes_array {ps : List Phrase} {js : List Json} (h : List.Forall₂ Describes ps js) :
    (array ps).Describes (.array js) := by
  intro rest
  cases h with
  | nil => exact ⟨_, Scan.skipSpacing_cons rfl _, Scan.skipSpacing_cons rfl _⟩
  | @cons p j ps js hp hps =>
    have htext : (Json.array (j :: js)).compact ++ rest =
        '[' :: (j.compact ++ (compactItems js ++ ']' :: rest)) := by
      simp [compact]
    rw [htext]
    exact ⟨_, _, Scan.skipSpacing_cons rfl _, hp _, items_compactItems hps rest⟩

theorem describes_array_map {α : Type} {p : α → Phrase} {j : α → Json} {as : List α}
    (has : ∀ a ∈ as, (p a).Describes (j a)) :
    (array (as.map p)).Describes (.array (as.map j)) := by
  apply describes_array
  -- both lists are made of the same elements
  rw [List.forall₂_map_left_iff, List.forall₂_map_right_iff, List.forall₂_same]
  exact has

/-- The phrase of the member describes the member. -/
def DescribesMember (m : Option String × Phrase) (j : String × Json) : Prop :=
  m.1 = some j.1 ∧ m.2.Describes j.2

theorem members_compactMembers {ms : List (Option String × Phrase)} {js : List (String × Json)}
    (h : List.Forall₂ DescribesMember ms js) (rest : List Char) :
    members ms (compactMembers js ++ '\x7d' :: rest) rest := by
  induction h with
  | nil => exact Scan.skipSpacing_cons rfl _
  | @cons m j ms js hm _ ih =>
    have htext : compactMembers (j :: js) ++ '\x7d' :: rest =
        ',' :: (quote j.1 ++ ':' :: (j.2.compact ++ (compactMembers js ++ '\x7d' :: rest))) := by
      simp [compactMembers]
    rw [htext]
    refine ⟨_, _, _, Scan.skipSpacing_cons rfl _, ?_, hm.2 _, ih⟩
    rw [hm.1]
    exact key_quote _ _

theorem describes_object {ms : List (Option String × Phrase)} {js : List (String × Json)}
    (h : List.Forall₂ DescribesMember ms js) : (object ms).Describes (.object js) := by
  intro rest
  cases h with
  | nil => exact ⟨_, Scan.skipSpacing_cons rfl _, Scan.skipSpacing_cons rfl _⟩
  | @cons m j ms js hm hms =>
    have htext : (Json.object (j :: js)).compact ++ rest =
        '\x7b' :: (quote j.1 ++ ':' :: (j.2.compact ++ (compactMembers js ++ '\x7d' :: rest))) := by
      simp [compact]
    rw [htext]
    refine ⟨_, _, _, Scan.skipSpacing_cons rfl _, ?_, hm.2 _, members_compactMembers hms rest⟩
    rw [hm.1]
    exact key_quote _ _

/-- What holds of all scans of the phrase holds of the scan of the document. -/
theorem Scans.rescan {p : Phrase} {j : Json} (h : Scans p X) (hj : p.Describes j) :
    X j.rescan := by
  have hvalue := (h _ _ (hj [])).value stopsAt_nil
  obtain ⟨x, hx, hscan⟩ := hvalue (2 * (j.compact ++ []).length + 1) (Nat.lt_succ_self _)
  -- the compact notation is scanned as the document itself
  have hsame := (Scan.readsCompact (2 * (j.compact ++ []).length + 1)).value j
    (by simp; omega) [] stopsAt_nil
  obtain rfl : x = j.rescan := congrArg Prod.fst (hscan.symm.trans hsame)
  exact hx

end Phrase

end FilterQuery.Json

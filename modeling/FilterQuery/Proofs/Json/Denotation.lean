import FilterQuery.Proofs.Json.Exact
import FilterQuery.Proofs.Json.Quote

/-!
# What a JSON text denotes

The grammar of JSON relates a text to the document at its front and to the rest behind it
(`Json.Denoted`). Spacing may stand in front of every token, and a number is what its numeral
denotes.

* A text denotes one document at most, and has one rest (`Denoted.unique`): the first character
  tells what sort of document it is, and the parts of a container follow one another.
* The pretty notation of a document denotes it, with null in the place of numbers that are not
  finite (`denoted_pretty`).
-/

namespace FilterQuery.Json

open Text

/-! ## The grammar -/

/-- The text starts with a key and a colon, and this is the rest. -/
def KeyDenoted (key : String) (s rest : List Char) : Prop :=
  ∃ s₁ s₂, skipSpacing s = '"' :: s₁ ∧ Scan.splitQuoted? s₁ = some (some key, s₂) ∧
    skipSpacing s₂ = ':' :: rest

mutual

/-- The text starts with the document, and this is the rest. -/
def Denoted : Json → List Char → List Char → Prop
  | null, s, rest => skipSpacing s = "null".toList ++ rest
  | bool b, s, rest => skipSpacing s = truth b ++ rest
  | number n, s, rest =>
    ∃ numeral : Numeral, Numeral.split? (skipSpacing s) = some (numeral, rest) ∧ numeral.denoted = n
  | string t, s, rest =>
    ∃ s', skipSpacing s = '"' :: s' ∧ Scan.splitQuoted? s' = some (some t, rest)
  | array [], s, rest => ∃ s', skipSpacing s = '[' :: s' ∧ skipSpacing s' = ']' :: rest
  | array (x :: xs), s, rest =>
    ∃ s' s'', skipSpacing s = '[' :: s' ∧ Denoted x s' s'' ∧ ItemsDenoted xs s'' rest
  | object [], s, rest => ∃ s', skipSpacing s = '\x7b' :: s' ∧ skipSpacing s' = '\x7d' :: rest
  | object ((key, x) :: ms), s, rest =>
    ∃ s₁ s₂ s₃, skipSpacing s = '\x7b' :: s₁ ∧ KeyDenoted key s₁ s₂ ∧ Denoted x s₂ s₃ ∧
      MembersDenoted ms s₃ rest

/-- The text starts with the further items of an array, up to its closing bracket. -/
def ItemsDenoted : List Json → List Char → List Char → Prop
  | [], s, rest => skipSpacing s = ']' :: rest
  | x :: xs, s, rest =>
    ∃ s' s'', skipSpacing s = ',' :: s' ∧ Denoted x s' s'' ∧ ItemsDenoted xs s'' rest

/-- The text starts with the further members of an object, up to its closing brace. -/
def MembersDenoted : List (String × Json) → List Char → List Char → Prop
  | [], s, rest => skipSpacing s = '\x7d' :: rest
  | (key, x) :: ms, s, rest =>
    ∃ s₁ s₂ s₃, skipSpacing s = ',' :: s₁ ∧ KeyDenoted key s₁ s₂ ∧ Denoted x s₂ s₃ ∧
      MembersDenoted ms s₃ rest

end

/-! ## One document at most -/

/-- What the first character of a document tells about it: one character for all numbers, and one
for both truth values. -/
def lead : Json → Char
  | null => 'n'
  | bool _ => 't'
  | number _ => '0'
  | string _ => '"'
  | array _ => '['
  | object _ => '\x7b'

/-- What a first character tells. -/
def leadOf (c : Char) : Char :=
  if c = '-' ∨ c.isDigit = true then '0' else if c = 'f' then 't' else c

variable {j j' : Json} {s rest rest' : List Char}

/-- The first character of the text is one that the document may start with. -/
theorem Denoted.lead_eq (h : j.Denoted s rest) :
    (skipSpacing s).head?.map leadOf = some j.lead := by
  cases j with
  | null =>
    rw [show skipSpacing s = _ from h]
    rfl
  | bool b =>
    rw [show skipSpacing s = _ from h]
    cases b <;> rfl
  | number n =>
    obtain ⟨numeral, hsplit, -⟩ := h
    obtain ⟨c, t, hs, hc⟩ := Numeral.exists_cons_of_split? hsplit
    rw [hs]
    exact congrArg some (if_pos hc)
  | string t =>
    obtain ⟨s', hs, -⟩ := h
    rw [hs]
    rfl
  | array xs =>
    -- with items or without, the bracket comes first
    have hs : ∃ s', skipSpacing s = '[' :: s' := by
      cases xs with
      | nil =>
        obtain ⟨s', hs, -⟩ := h
        exact ⟨s', hs⟩
      | cons x xs =>
        obtain ⟨s', -, hs, -⟩ := h
        exact ⟨s', hs⟩
    obtain ⟨s', hs⟩ := hs
    rw [hs]
    rfl
  | object ms =>
    have hs : ∃ s', skipSpacing s = '\x7b' :: s' := by
      rcases ms with _ | ⟨⟨key, x⟩, ms⟩
      · obtain ⟨s', hs, -⟩ := h
        exact ⟨s', hs⟩
      · obtain ⟨s', -, -, hs, -⟩ := h
        exact ⟨s', hs⟩
    obtain ⟨s', hs⟩ := hs
    rw [hs]
    rfl

/-- A text starts with one key at most. -/
theorem KeyDenoted.unique {key key' : String} (h : KeyDenoted key s rest)
    (h' : KeyDenoted key' s rest') : key = key' ∧ rest = rest' := by
  obtain ⟨s₁, s₂, hs, hkey, hrest⟩ := h
  obtain ⟨s₁', s₂', hs', hkey', hrest'⟩ := h'
  cases hs.symm.trans hs'
  cases hkey.symm.trans hkey'
  cases hrest.symm.trans hrest'
  exact ⟨rfl, rfl⟩

/-- No document starts like the end of a container. -/
theorem Denoted.ne_cons {c : Char} (h : j.Denoted s rest) (hc : c = ']' ∨ c = '\x7d')
    (t : List Char) : skipSpacing s ≠ c :: t := by
  intro hs
  have hlead := h.lead_eq
  rw [hs] at hlead
  have hlead : leadOf c = j.lead := Option.some.inj hlead
  rcases hc with rfl | rfl <;> cases j <;> cases hlead

/-- An array that is not empty goes on with its first item. -/
theorem not_denoted_nil_cons {x : Json} {xs : List Json} (h : (array []).Denoted s rest) :
    ¬(array (x :: xs)).Denoted s rest' := by
  rintro ⟨s₁', s₂', hs', hx, -⟩
  obtain ⟨s₁, hs, hclose⟩ := h
  cases hs.symm.trans hs'
  exact hx.ne_cons (.inl rfl) _ hclose

/-- An object that is not empty goes on with the quotes of its first key. -/
theorem not_denoted_nil_member {m : String × Json} {ms : List (String × Json)}
    (h : (object []).Denoted s rest) : ¬(object (m :: ms)).Denoted s rest' := by
  rintro ⟨s₁', s₂', s₃', hs', ⟨t, -, hquote, -⟩, -⟩
  obtain ⟨s₁, hs, hclose⟩ := h
  cases hs.symm.trans hs'
  cases hclose.symm.trans hquote

mutual

/-- **A text starts with one document at most**, and has one rest. -/
theorem Denoted.unique (j : Json) {j' : Json} {s rest rest' : List Char} (h : j.Denoted s rest)
    (h' : j'.Denoted s rest') : j = j' ∧ rest = rest' := by
  -- documents of different sorts have different first characters
  have hlead : j.lead = j'.lead := Option.some.inj (h.lead_eq.symm.trans h'.lead_eq)
  match j with
  | null =>
    cases j' with
    | null =>
      have heq := (show skipSpacing s = _ from h).symm.trans h'
      exact ⟨rfl, List.append_cancel_left heq⟩
    | _ => cases hlead
  | bool b =>
    cases j' with
    | bool b' =>
      have heq := (show skipSpacing s = _ from h).symm.trans h'
      cases b <;> cases b' <;> cases heq <;> exact ⟨rfl, rfl⟩
    | _ => cases hlead
  | number n =>
    cases j' with
    | number n' =>
      obtain ⟨numeral, hsplit, rfl⟩ := h
      obtain ⟨numeral', hsplit', rfl⟩ := h'
      cases hsplit.symm.trans hsplit'
      exact ⟨rfl, rfl⟩
    | _ => cases hlead
  | string t =>
    cases j' with
    | string t' =>
      obtain ⟨s₁, hs, ht⟩ := h
      obtain ⟨s₁', hs', ht'⟩ := h'
      cases hs.symm.trans hs'
      cases ht.symm.trans ht'
      exact ⟨rfl, rfl⟩
    | _ => cases hlead
  | array [] =>
    cases j' with
    | array ys =>
      cases ys with
      | nil =>
        obtain ⟨s₁, hs, hclose⟩ := h
        obtain ⟨s₁', hs', hclose'⟩ := h'
        cases hs.symm.trans hs'
        cases hclose.symm.trans hclose'
        exact ⟨rfl, rfl⟩
      | cons y ys => exact absurd h' (not_denoted_nil_cons h)
    | _ => cases hlead
  | array (x :: xs) =>
    cases j' with
    | array ys =>
      cases ys with
      | nil => exact absurd h (not_denoted_nil_cons h')
      | cons y ys =>
        obtain ⟨s₁, s₂, hs, hx, hxs⟩ := h
        obtain ⟨s₁', s₂', hs', hy, hys⟩ := h'
        cases hs.symm.trans hs'
        obtain ⟨rfl, rfl⟩ := Denoted.unique x hx hy
        obtain ⟨rfl, rfl⟩ := ItemsDenoted.unique xs hxs hys
        exact ⟨rfl, rfl⟩
    | _ => cases hlead
  | object [] =>
    cases j' with
    | object ms' =>
      cases ms' with
      | nil =>
        obtain ⟨s₁, hs, hclose⟩ := h
        obtain ⟨s₁', hs', hclose'⟩ := h'
        cases hs.symm.trans hs'
        cases hclose.symm.trans hclose'
        exact ⟨rfl, rfl⟩
      | cons m ms' => exact absurd h' (not_denoted_nil_member h)
    | _ => cases hlead
  | object ((key, x) :: ms) =>
    cases j' with
    | object ms' =>
      cases ms' with
      | nil => exact absurd h (not_denoted_nil_member h')
      | cons m ms' =>
        obtain ⟨key', x'⟩ := m
        obtain ⟨s₁, s₂, s₃, hs, hkey, hx, hms⟩ := h
        obtain ⟨s₁', s₂', s₃', hs', hkey', hx', hms'⟩ := h'
        cases hs.symm.trans hs'
        -- member by member: the key, the value, and then all others
        obtain ⟨rfl, rfl⟩ := hkey.unique hkey'
        obtain ⟨rfl, rfl⟩ := Denoted.unique x hx hx'
        obtain ⟨rfl, rfl⟩ := MembersDenoted.unique ms hms hms'
        exact ⟨rfl, rfl⟩
    | _ => cases hlead

theorem ItemsDenoted.unique (xs : List Json) {xs' : List Json} {s rest rest' : List Char}
    (h : ItemsDenoted xs s rest) (h' : ItemsDenoted xs' s rest') : xs = xs' ∧ rest = rest' := by
  match xs, xs' with
  | [], [] =>
    cases (show skipSpacing s = _ from h).symm.trans h'
    exact ⟨rfl, rfl⟩
  | [], x' :: xs' =>
    obtain ⟨s₁', s₂', hs', -⟩ := h'
    cases (show skipSpacing s = _ from h).symm.trans hs'
  | x :: xs, [] =>
    obtain ⟨s₁, s₂, hs, -⟩ := h
    cases hs.symm.trans h'
  | x :: xs, x' :: xs' =>
    obtain ⟨s₁, s₂, hs, hx, hxs⟩ := h
    obtain ⟨s₁', s₂', hs', hx', hxs'⟩ := h'
    cases hs.symm.trans hs'
    obtain ⟨rfl, rfl⟩ := Denoted.unique x hx hx'
    obtain ⟨rfl, rfl⟩ := ItemsDenoted.unique xs hxs hxs'
    exact ⟨rfl, rfl⟩

theorem MembersDenoted.unique (ms : List (String × Json)) {ms' : List (String × Json)}
    {s rest rest' : List Char} (h : MembersDenoted ms s rest) (h' : MembersDenoted ms' s rest') :
    ms = ms' ∧ rest = rest' := by
  match ms, ms' with
  | [], [] =>
    cases (show skipSpacing s = _ from h).symm.trans h'
    exact ⟨rfl, rfl⟩
  | [], (key', x') :: ms' =>
    obtain ⟨s₁', s₂', s₃', hs', -⟩ := h'
    cases (show skipSpacing s = _ from h).symm.trans hs'
  | (key, x) :: ms, [] =>
    obtain ⟨s₁, s₂, s₃, hs, -⟩ := h
    cases hs.symm.trans h'
  | (key, x) :: ms, (key', x') :: ms' =>
    obtain ⟨s₁, s₂, s₃, hs, hkey, hx, hms⟩ := h
    obtain ⟨s₁', s₂', s₃', hs', hkey', hx', hms'⟩ := h'
    cases hs.symm.trans hs'
    obtain ⟨rfl, rfl⟩ := hkey.unique hkey'
    obtain ⟨rfl, rfl⟩ := Denoted.unique x hx hx'
    obtain ⟨rfl, rfl⟩ := MembersDenoted.unique ms hms hms'
    exact ⟨rfl, rfl⟩

end

/-! ## The pretty notation -/

mutual

/-- The document with null in the place of numbers that are not finite. -/
def finite : Json → Json
  | number (.float x) => if x.isFinite then number (.float x) else null
  | array xs => array (finiteItems xs)
  | object ms => object (finiteMembers ms)
  | j => j

def finiteItems : List Json → List Json
  | [] => []
  | x :: xs => finite x :: finiteItems xs

def finiteMembers : List (String × Json) → List (String × Json)
  | [] => []
  | (key, x) :: ms => (key, finite x) :: finiteMembers ms

end

theorem finiteItems_eq (xs : List Json) : finiteItems xs = xs.map finite := by
  induction xs with
  | nil => rfl
  | cons x xs ih => rw [finiteItems, ih, List.map_cons]

/-- A line break and the blanks behind it are spacing. -/
theorem skipSpacing_newLine (depth : Nat) (s : List Char) :
    skipSpacing (newLine depth ++ s) = skipSpacing s := by
  have hspacing : ∀ c ∈ newLine depth, isSpacing c = true := by
    intro c hc
    rcases List.mem_cons.mp hc with rfl | hc
    · rfl
    · rw [List.eq_of_mem_replicate hc]
      rfl
  exact List.dropWhile_append_of_pos hspacing

/-- Only what is left behind the spacing counts. -/
theorem denoted_iff_of_skipSpacing_eq (j : Json) {s s' : List Char}
    (h : skipSpacing s = skipSpacing s') : j.Denoted s rest ↔ j.Denoted s' rest := by
  match j with
  | null => unfold Denoted; rw [h]
  | bool b => unfold Denoted; rw [h]
  | number n => unfold Denoted; rw [h]
  | string t => unfold Denoted; rw [h]
  | array [] => unfold Denoted; rw [h]
  | array (x :: xs) => unfold Denoted; rw [h]
  | object [] => unfold Denoted; rw [h]
  | object ((key, x) :: ms) => unfold Denoted; rw [h]

theorem denoted_newLine (j : Json) (depth : Nat) :
    j.Denoted (newLine depth ++ s) rest ↔ j.Denoted s rest :=
  denoted_iff_of_skipSpacing_eq j (skipSpacing_newLine depth s)

/-- A blank stands behind the colon of a member. -/
theorem denoted_blank (j : Json) : j.Denoted (' ' :: s) rest ↔ j.Denoted s rest :=
  denoted_iff_of_skipSpacing_eq j rfl

theorem keyDenoted_newLine (key : String) (depth : Nat) (s : List Char) :
    KeyDenoted key (newLine depth ++ (quote key ++ ':' :: s)) s := by
  refine ⟨key.toList.flatMap escape ++ '"' :: ':' :: s, ':' :: s, ?_, ?_, rfl⟩
  · rw [skipSpacing_newLine, quote_append]
    rfl
  · exact Scan.splitQuoted?_quote key (':' :: s)

theorem denoted_number (n : Number) (hrest : StopsAt Numeral.goesOn rest) :
    (number n).finite.Denoted (n.text ++ rest) rest := by
  -- a numeral starts with no spacing, so that all of it is there behind what is skipped
  have hnumeral : ∀ n : Number, (∀ x, n = .float x → x.isFinite = true) →
      (number n).Denoted (n.text ++ rest) rest := by
    intro n hn
    obtain ⟨numeral, hsplit, hdenoted⟩ := n.exists_split?_text hn
    obtain ⟨c, t, htext, -⟩ := Numeral.exists_cons_of_split? hsplit
    have hskip : skipSpacing (n.text ++ rest) = n.text ++ rest := by
      rw [htext] at hsplit ⊢
      exact dropWhile_of_stopsAt (stopsAt_cons.mpr (Numeral.not_isSpacing_of_split? hsplit))
    refine ⟨numeral, ?_, hdenoted⟩
    rw [hskip]
    exact Numeral.split?_append hrest hsplit
  cases n with
  | whole n => exact hnumeral _ fun x hx => nomatch hx
  | float x =>
    unfold finite
    split
    · next hfinite =>
      refine hnumeral _ fun y hy => ?_
      obtain rfl := Number.float.inj hy
      exact hfinite
    · -- a number that is not finite is written as null
      next hinfinite =>
      rw [Number.text_of_not_isFinite hinfinite]
      rfl

/-- What stands behind an item ends any number. -/
theorem stopsAt_prettyItems (depth outer : Nat) (xs : List Json) (s : List Char) :
    StopsAt Numeral.goesOn (prettyItems depth xs ++ (newLine outer ++ s)) := by
  cases xs with
  | nil => exact stopsAt_cons.mpr rfl
  | cons x xs => exact stopsAt_cons.mpr rfl

theorem stopsAt_prettyMembers (depth outer : Nat) (ms : List (String × Json)) (s : List Char) :
    StopsAt Numeral.goesOn (prettyMembers depth ms ++ (newLine outer ++ s)) := by
  rcases ms with _ | ⟨⟨key, x⟩, ms⟩
  · exact stopsAt_cons.mpr rfl
  · exact stopsAt_cons.mpr rfl

mutual

/-- **The pretty notation denotes the document**, in front of everything that no number goes on
with. -/
theorem denoted_pretty (j : Json) (depth : Nat) {rest : List Char}
    (hrest : StopsAt Numeral.goesOn rest) : j.finite.Denoted (j.pretty depth ++ rest) rest := by
  match j with
  | null => exact rfl
  | bool true => exact rfl
  | bool false => exact rfl
  | number n => exact denoted_number n hrest
  | string t =>
    refine ⟨t.toList.flatMap escape ++ '"' :: rest, ?_, Scan.splitQuoted?_quote t rest⟩
    show skipSpacing (quote t ++ rest) = _
    rw [quote_append]
    rfl
  | array [] => exact ⟨']' :: rest, rfl, rfl⟩
  | object [] => exact ⟨'\x7d' :: rest, rfl, rfl⟩
  | array (x :: xs) =>
    have htext : (array (x :: xs)).pretty depth ++ rest =
        '[' :: (newLine (depth + 1) ++ (x.pretty (depth + 1) ++
          (prettyItems (depth + 1) xs ++ (newLine depth ++ ']' :: rest)))) := by
      simp [pretty]
    rw [htext]
    refine ⟨_, _, rfl, ?_, itemsDenoted_pretty xs (depth + 1) depth rest⟩
    rw [denoted_newLine]
    exact denoted_pretty x (depth + 1) (stopsAt_prettyItems (depth + 1) depth xs _)
  | object ((key, x) :: ms) =>
    have htext : (object ((key, x) :: ms)).pretty depth ++ rest =
        '\x7b' :: (newLine (depth + 1) ++ (quote key ++ ':' :: (' ' :: (x.pretty (depth + 1) ++
          (prettyMembers (depth + 1) ms ++ (newLine depth ++ '\x7d' :: rest)))))) := by
      simp [pretty]
    rw [htext]
    refine ⟨_, _, _, rfl, keyDenoted_newLine key (depth + 1) _, ?_,
      membersDenoted_pretty ms (depth + 1) depth rest⟩
    rw [denoted_blank]
    exact denoted_pretty x (depth + 1) (stopsAt_prettyMembers (depth + 1) depth ms _)

/-- The further items of an array, up to the bracket on the line that closes it. -/
theorem itemsDenoted_pretty (xs : List Json) (depth outer : Nat) (rest : List Char) :
    ItemsDenoted (finiteItems xs) (prettyItems depth xs ++ (newLine outer ++ ']' :: rest))
      rest := by
  match xs with
  -- the bracket stands on a line of its own
  | [] => exact skipSpacing_newLine outer (']' :: rest)
  | x :: xs =>
    have htext : prettyItems depth (x :: xs) ++ (newLine outer ++ ']' :: rest) =
        ',' :: (newLine depth ++ (x.pretty depth ++
          (prettyItems depth xs ++ (newLine outer ++ ']' :: rest)))) := by
      simp [prettyItems]
    rw [htext]
    refine ⟨_, _, rfl, ?_, itemsDenoted_pretty xs depth outer rest⟩
    rw [denoted_newLine]
    exact denoted_pretty x depth (stopsAt_prettyItems depth outer xs _)

/-- The further members of an object, up to the brace on the line that closes it. -/
theorem membersDenoted_pretty (ms : List (String × Json)) (depth outer : Nat) (rest : List Char) :
    MembersDenoted (finiteMembers ms) (prettyMembers depth ms ++ (newLine outer ++ '\x7d' :: rest))
      rest := by
  match ms with
  | [] => exact skipSpacing_newLine outer ('\x7d' :: rest)
  | (key, x) :: ms =>
    have htext : prettyMembers depth ((key, x) :: ms) ++ (newLine outer ++ '\x7d' :: rest) =
        ',' :: (newLine depth ++ (quote key ++ ':' :: (' ' :: (x.pretty depth ++
          (prettyMembers depth ms ++ (newLine outer ++ '\x7d' :: rest)))))) := by
      simp [prettyMembers]
    rw [htext]
    refine ⟨_, _, _, rfl, keyDenoted_newLine key depth _, ?_,
      membersDenoted_pretty ms depth outer rest⟩
    rw [denoted_blank]
    exact denoted_pretty x depth (stopsAt_prettyMembers depth outer ms _)

end

/-! ## Whole texts -/

/-- The text denotes the document, with nothing but spacing behind it. -/
def Denotes (s : List Char) (j : Json) : Prop :=
  ∃ rest, j.Denoted s rest ∧ ∀ c ∈ rest, isSpacing c = true

/-- **The pretty notation denotes one document**, the one that was written. -/
theorem denotes_pretty_iff (j : Json) {spacing : List Char} (h : ∀ c ∈ spacing, isSpacing c = true)
    (j' : Json) : Denotes (j.pretty 0 ++ spacing) j' ↔ j' = j.finite := by
  have hstop : StopsAt Numeral.goesOn spacing := by
    intro c hc
    exact eq_false_of_isSpacing (by decide) (h c (List.mem_of_mem_head? hc))
  have hdenoted := denoted_pretty j 0 hstop
  constructor
  · rintro ⟨rest, hrest, -⟩
    exact (Denoted.unique j' hrest hdenoted).1
  · rintro rfl
    exact ⟨spacing, hdenoted, h⟩

end FilterQuery.Json

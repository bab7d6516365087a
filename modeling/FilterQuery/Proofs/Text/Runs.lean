import Mathlib.Data.List.TakeWhile

/-!
# Maximal runs

Readers take the longest run of characters of a class from the front of a text. What they take is
known as soon as the text is known as a run followed by something that does not go on with it.
-/

namespace FilterQuery.Text

/-- The text does not start with a character of the class. -/
def StopsAt (p : Char → Bool) (s : List Char) : Prop := ∀ c ∈ s.head?, p c = false

variable {p : Char → Bool}

theorem stopsAt_nil : StopsAt p [] := by
  intro c hc
  cases hc

/-- Whether a text goes on with a run is told by its first character. -/
theorem stopsAt_cons {c : Char} {s : List Char} : StopsAt p (c :: s) ↔ p c = false := by
  constructor
  · intro h
    exact h c rfl
  · intro h d hd
    cases hd
    exact h

/-- If neither text starts with a character of the class, what is made of both does not. -/
theorem StopsAt.append {s t : List Char} (hs : StopsAt p s) (ht : StopsAt p t) :
    StopsAt p (s ++ t) := by
  cases s with
  | nil => exact ht
  | cons c s => exact stopsAt_cons.mpr (stopsAt_cons.mp hs)

theorem StopsAt.of_isPrefix {s t : List Char} (h : StopsAt p t) (hs : s <+: t) :
    StopsAt p s := by
  obtain ⟨u, rfl⟩ := hs
  cases s with
  | nil => exact stopsAt_nil
  | cons c s => exact stopsAt_cons.mpr (stopsAt_cons.mp h)

/-- Behind the longest run nothing goes on with it. -/
theorem stopsAt_dropWhile (p : Char → Bool) (s : List Char) : StopsAt p (s.dropWhile p) := by
  induction s with
  | nil => exact stopsAt_nil
  | cons c s ih =>
    cases hc : p c with
    | true =>
      rw [List.dropWhile_cons_of_pos hc]
      exact ih
    | false =>
      rw [List.dropWhile_cons_of_neg (by simp [hc])]
      exact stopsAt_cons.mpr hc

/-- Nothing is dropped from a text that does not start with the class. -/
theorem dropWhile_of_stopsAt {s : List Char} (h : StopsAt p s) :
    s.dropWhile p = s := by
  cases s with
  | nil => rfl
  | cons c s => rw [List.dropWhile_cons_of_neg (by simp [stopsAt_cons.mp h])]

/-- The run that is taken. -/
theorem takeWhile_append_of_stopsAt {run rest : List Char} (hrun : ∀ c ∈ run, p c = true)
    (hrest : StopsAt p rest) : (run ++ rest).takeWhile p = run := by
  rw [List.takeWhile_append_of_pos hrun]
  cases rest with
  | nil => simp
  | cons c rest =>
    rw [List.takeWhile_cons_of_neg (by simp [stopsAt_cons.mp hrest]), List.append_nil]

/-- What is left behind the run. -/
theorem dropWhile_append_of_stopsAt {run rest : List Char} (hrun : ∀ c ∈ run, p c = true)
    (hrest : StopsAt p rest) : (run ++ rest).dropWhile p = rest := by
  rw [List.dropWhile_append_of_pos hrun]
  cases rest with
  | nil => rfl
  | cons c rest => rw [List.dropWhile_cons_of_neg (by simp [stopsAt_cons.mp hrest])]

/-- A text that does not go on with the run leaves the run in front of it as it is. -/
theorem takeWhile_append_left {s rest : List Char} (hrest : StopsAt p rest) :
    (s ++ rest).takeWhile p = s.takeWhile p := by
  induction s with
  | nil =>
    cases rest with
    | nil => rfl
    | cons c rest => simp [stopsAt_cons.mp hrest]
  | cons c s ih =>
    rw [List.cons_append, List.takeWhile_cons, List.takeWhile_cons, ih]

/-- A text that does not go on with the run is left behind it. -/
theorem dropWhile_append_left {s rest : List Char} (hrest : StopsAt p rest) :
    (s ++ rest).dropWhile p = s.dropWhile p ++ rest := by
  induction s with
  | nil => exact dropWhile_of_stopsAt hrest
  | cons c s ih =>
    rw [List.cons_append, List.dropWhile_cons, List.dropWhile_cons, ih]
    split <;> rfl

/-- A text is cut behind a run in one way only. -/
theorem append_inj_of_stopsAt {run run' rest rest' : List Char} (hrun : ∀ c ∈ run, p c = true)
    (hrun' : ∀ c ∈ run', p c = true) (hrest : StopsAt p rest) (hrest' : StopsAt p rest')
    (h : run ++ rest = run' ++ rest') : run = run' ∧ rest = rest' := by
  -- the run is what `takeWhile` takes on both sides, and the rest is what `dropWhile` leaves
  have htake := congrArg (List.takeWhile p) h
  have hdrop := congrArg (List.dropWhile p) h
  rw [takeWhile_append_of_stopsAt hrun hrest, takeWhile_append_of_stopsAt hrun' hrest'] at htake
  rw [dropWhile_append_of_stopsAt hrun hrest, dropWhile_append_of_stopsAt hrun' hrest'] at hdrop
  exact ⟨htake, hdrop⟩

/-! ## Runs up to a character -/

/-- A text without a character is a run of others. -/
theorem bne_of_notMem {c : Char} {s : List Char} (h : c ∉ s) : ∀ d ∈ s, (d != c) = true := by
  intro d hd
  rw [bne_iff_ne]
  rintro rfl
  exact h hd

/-- A text is cut in front of the first place of a character in one way only. -/
theorem append_cons_inj {c : Char} {before before' rest rest' : List Char} (h : c ∉ before)
    (h' : c ∉ before') (heq : before ++ c :: rest = before' ++ c :: rest') :
    before = before' ∧ rest = rest' := by
  have hstop : ∀ t : List Char, StopsAt (· != c) (c :: t) := by
    intro t
    exact stopsAt_cons.mpr (bne_self_eq_false c)
  obtain ⟨hbefore, hrest⟩ := append_inj_of_stopsAt (bne_of_notMem h) (bne_of_notMem h')
    (hstop rest) (hstop rest') heq
  exact ⟨hbefore, (List.cons.inj hrest).2⟩

/-! ## Runs of one character -/

variable {c : Char} {n : Nat} {rest : List Char}

theorem beq_of_mem_replicate : ∀ d ∈ List.replicate n c, (d == c) = true := by
  intro d hd
  rw [List.eq_of_mem_replicate hd]
  exact beq_self_eq_true c

/-- As many copies of a character are taken as stand in front. -/
theorem takeWhile_replicate_append (hrest : StopsAt (· == c) rest) :
    (List.replicate n c ++ rest).takeWhile (· == c) = List.replicate n c :=
  takeWhile_append_of_stopsAt beq_of_mem_replicate hrest

theorem dropWhile_replicate_append (hrest : StopsAt (· == c) rest) :
    (List.replicate n c ++ rest).dropWhile (· == c) = rest :=
  dropWhile_append_of_stopsAt beq_of_mem_replicate hrest

/-- A text tells how often a character stands in front of what is something else. -/
theorem replicate_append_inj {n' : Nat} {rest' : List Char} (hrest : StopsAt (· == c) rest)
    (hrest' : StopsAt (· == c) rest')
    (h : List.replicate n c ++ rest = List.replicate n' c ++ rest') : n = n' ∧ rest = rest' := by
  obtain ⟨hruns, hrests⟩ :=
    append_inj_of_stopsAt beq_of_mem_replicate beq_of_mem_replicate hrest hrest' h
  refine ⟨?_, hrests⟩
  simpa using congrArg List.length hruns

/-- A run is as many copies of its character as it is long. -/
theorem replicate_length_takeWhile (c : Char) (s : List Char) :
    List.replicate (s.takeWhile (· == c)).length c = s.takeWhile (· == c) := by
  refine (List.eq_replicate_of_mem fun d hd => ?_).symm
  exact eq_of_beq (List.mem_takeWhile_imp (p := (· == c)) hd)

end FilterQuery.Text

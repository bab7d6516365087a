import FilterQuery.Json.Decoding
import FilterQuery.Proofs.Json.Compact
import FilterQuery.Proofs.Json.InRange
import FilterQuery.Proofs.Outcome

/-!
# Decoders on what was written, and on anything

Two things are to be known of a decoder. On the scan of a document that was written it answers with
what was written; for containers this comes down to their parts (`list_toScan`, `members_object`).
And whatever it answers on the scan of any text has the properties that reading ensures
(`Ensures`); for a record they are an invariant of taking over its members
(`Record.ensures_members`).
-/

namespace FilterQuery.Json

namespace Decoder

variable {α β σ : Type} {depth : Nat}

/-! ## Answers of alternatives -/

/-- What reading one of several alternatives comes to, once it is known which of them fits. -/
def orNoAlternative (type : String) : Option α → Except Problem α
  | some a => .ok a
  | none => .error (.mismatch (.noAlternative type))

theorem orNoAlternative_eq_ok_iff {type : String} {o : Option α} {a : α} :
    orNoAlternative type o = .ok a ↔ o = some a := by
  cases o with
  | none => constructor <;> (intro h; cases h)
  | some b => constructor <;> (intro h; cases h; rfl)

/-- Which alternatives there are does not depend on what is done with the answer. -/
theorem map_orNoAlternative (type : String) (f : α → β) (o : Option α) :
    f <$> orNoAlternative type o = orNoAlternative type (o.map f) := by
  cases o <;> rfl

/-- A list fits an alternative if all its items do, and the complaint about it is the same wherever
an item does not. -/
theorem mapM_orNoAlternative (type : String) (f : α → Option β) (as : List α) :
    (as.mapM fun a => orNoAlternative type (f a)) = orNoAlternative type (as.mapM f) := by
  induction as with
  | nil => rfl
  | cons a as ih =>
    rw [List.mapM_cons, List.mapM_cons, ih]
    cases f a with
    | none => rfl
    | some b => cases as.mapM f <;> rfl

/-! ## What was written -/

/-- Reading a list that was written is reading its items, one level of nesting further in. -/
theorem list_toScan (decoder : Decoder β) (f : α → Json) (as : List α) :
    list decoder (depth + 1) (toScan (.array (as.map f))) =
      as.mapM fun a => decoder depth (f a).toScan := by
  rw [toScan, toScanItems_eq, List.map_map]
  show (do
      let xs ← (as.map _).mapM (decoder depth)
      require true
      return xs) = _
  rw [List.mapM_map]
  show (as.mapM fun a => decoder depth (f a).toScan) >>= pure = _
  rw [bind_pure]

/-- Reading a record that was written is taking over its members in the order in which they
stand. -/
theorem members_object (r : Record σ) (start : σ) (ms : List (Option String × Scan)) :
    r.members start (depth + 1) (.object ms true) =
      (fun s => (s, .object)) <$> ms.foldlM (r.addMember depth) start := rfl

/-! ## What is read -/

/-- Whatever the decoder reads in a text has the property, wherever the text goes wrong later. -/
def Ensures (decoder : Decoder α) (P : α → Prop) : Prop :=
  ∀ depth scan a, scan.NumbersInRange → decoder depth scan = .ok a → P a

/-- Reading a list ensures of each item what reading an item ensures. -/
theorem Ensures.list {decoder : Decoder α} {P : α → Prop} (hdecoder : Ensures decoder P) :
    Ensures (list decoder) fun as => ∀ a ∈ as, P a := by
  intro depth scan as hrange h a ha
  unfold Decoder.list at h
  split at h
  · next items closed =>
    obtain ⟨inner, -, h⟩ := bind_eq_ok_iff.mp h
    obtain ⟨as', has, h⟩ := bind_eq_ok_iff.mp h
    obtain ⟨-, -, h⟩ := bind_eq_ok_iff.mp h
    cases h
    -- every item that is read has a scan that it was read from
    obtain ⟨x, hx, hread⟩ := exists_of_forall₂ (mapM_eq_ok_iff.mp has) a ha
    exact hdecoder _ x a (Scan.numbersInRangeItems_iff.mp hrange x hx) hread
  · cases h

/-- A member that is there once is read as it would be anywhere else. -/
theorem once_eq_ok {name : String} {old : Option α} {value : Except Problem α} {a : α}
    (h : once name old value = .ok a) : value = .ok a := by
  unfold once at h
  split at h
  · cases h
  · exact h

/-- A member that is not there yet is taken over. -/
theorem map_once_eq {name : String} {f : α → σ} {old : Option α} {value : Except Problem α}
    {a : α} {s : σ} (hold : old = none) (hvalue : value = .ok a) (hs : f a = s) :
    some (f <$> once name old value) = some (.ok s) := by
  rw [hold, hvalue, ← hs]
  rfl

namespace Record

variable {r : Record σ} {P : σ → Prop}

/-- Taking over any known member preserves the invariant. -/
def Preserves (r : Record σ) (P : σ → Prop) : Prop :=
  ∀ depth s name x s', P s → Scan.NumbersInRange x → r.set depth s name x = some (.ok s') → P s'

theorem Preserves.addMember (h : r.Preserves P) {s s' : σ} {m : Option String × Scan} (hs : P s)
    (hm : m.2.NumbersInRange) (hadd : r.addMember depth s m = .ok s') : P s' := by
  -- a key that is no text ends the reading
  rcases m with ⟨_ | name, x⟩
  · cases hadd
  · unfold Record.addMember at hadd
    simp only at hadd
    cases hset : r.set depth s name x with
    | some result =>
      rw [hset] at hadd
      obtain rfl : result = .ok s' := hadd
      exact h depth s name x s' hs hm hset
    | none =>
      -- an unknown member is passed over
      rw [hset] at hadd
      obtain ⟨-, -, hadd⟩ := bind_eq_ok_iff.mp hadd
      cases hadd
      exact hs

/-- Induction on the members. What has been taken over so far carries the invariant on. -/
theorem Preserves.foldlM (h : r.Preserves P) {ms : List (Option String × Scan)} {s s' : σ}
    (hs : P s) (hms : ∀ m ∈ ms, m.2.NumbersInRange)
    (hfold : ms.foldlM (r.addMember depth) s = .ok s') : P s' := by
  induction ms generalizing s with
  | nil =>
    cases hfold
    exact hs
  | cons m ms ih =>
    rw [List.foldlM_cons] at hfold
    obtain ⟨s₁, hadd, hfold⟩ := bind_eq_ok_iff.mp hfold
    have hs₁ := h.addMember hs (hms m List.mem_cons_self) hadd
    exact ih hs₁ (fun m' hm' => hms m' (List.mem_cons_of_mem m hm')) hfold

/-- **An invariant of taking over members holds of every record that is read**, in whichever of the
two layouts it was written. -/
theorem ensures_members (h : r.Preserves P) {start : σ} (hstart : P start) :
    Ensures (r.members start) fun a => P a.1 := by
  intro depth scan a hrange hread
  unfold Record.members at hread
  split at hread
  · next ms closed =>
    obtain ⟨inner, -, hread⟩ := bind_eq_ok_iff.mp hread
    obtain ⟨s, hfold, hread⟩ := bind_eq_ok_iff.mp hread
    obtain ⟨-, -, hread⟩ := bind_eq_ok_iff.mp hread
    cases hread
    exact h.foldlM hstart (Scan.numbersInRangeMembers_iff.mp hrange) hfold
  · next items closed =>
    -- in an array the names come from the record, the values still from the text
    obtain ⟨inner, -, hread⟩ := bind_eq_ok_iff.mp hread
    obtain ⟨s, hfold, hread⟩ := bind_eq_ok_iff.mp hread
    obtain ⟨-, -, hread⟩ := bind_eq_ok_iff.mp hread
    cases hread
    refine h.foldlM hstart (fun m hm => ?_) hfold
    exact Scan.numbersInRangeItems_iff.mp hrange m.2 (List.of_mem_zip hm).2
  · obtain ⟨-, -, hread⟩ := bind_eq_ok_iff.mp hread
    cases hread
  · cases hread

end Record

end Decoder

/-! ## Whole texts -/

/-- A document that was written is decoded by its scan. -/
theorem decode_compact {α : Type} (decoder : Decoder α) (j : Json) :
    decode decoder (String.ofList j.compact) = decoder maxDepth j.rescan := by
  unfold decode
  rw [String.toList_ofList, Scan.ofText_compact]
  show decoder maxDepth j.rescan >>= pure = _
  rw [bind_pure]

/-- Reading a whole text ensures what reading its value does. -/
theorem of_decode {α : Type} {decoder : Decoder α} {P : α → Prop} (h : Decoder.Ensures decoder P)
    {text : String} {a : α} (hread : decode decoder text = .ok a) : P a := by
  unfold decode at hread
  obtain ⟨a', ha, hread⟩ := bind_eq_ok_iff.mp hread
  -- what stands behind the value only decides whether it is returned
  have hP := h _ _ _ (Scan.numbersInRange_ofText text.toList) ha
  simp only at hread
  split at hread
  · cases hread
    exact hP
  · cases hread

end FilterQuery.Json

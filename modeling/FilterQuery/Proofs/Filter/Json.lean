import FilterQuery.Filter.Json
import FilterQuery.Proofs.Value.Json

/-!
# Filters read back from JSON

Everything of a filter but its value comes back as it is (`Filter.decoder_toScan`): the members that
are left out when writing are those that have their defaults when reading.
-/

namespace FilterQuery

open Json (Number Scan)
open Json.Decoder

/-! ## Words -/

theorem Operator.decoder_toScan (depth : Nat) (op : Operator) :
    decoder depth op.json.toScan = .ok op := by
  cases op <;> rfl

namespace Filter

/-! ## What was written -/

/-- The filter as which a filter comes back, if it is read at all. -/
def reread (f : Filter) : Option Filter := f.value.reread.map fun v => { f with value := v }

theorem reread_eq_some_self_iff {f : Filter} : f.reread = some f ↔ f.value.Lossless := by
  rw [← Value.reread_eq_some_self_iff]
  unfold reread
  constructor
  · intro h
    obtain ⟨v, hv, heq⟩ := Option.map_eq_some_iff.mp h
    rw [hv, ← congrArg Filter.value heq]
  · intro h
    rw [h]
    rfl

/-- The members that every filter has, as they are scanned. -/
def scannedBasics (f : Filter) : List (Option String × Scan) :=
  [(some "field", .string (some f.field)), (some "operator", f.operator.json.toScan),
    (some "value", f.value.json.toScan)]

/-- The members that are left out if they have their defaults. -/
def scannedOptions (f : Filter) : List (Option String × Scan) :=
  (if f.opens = 0 then [] else [(some "group_open", .number (some (.whole f.opens.toNat)))]) ++
    (if f.closes = 0 then [] else [(some "group_close", .number (some (.whole f.closes.toNat)))]) ++
    match f.key with
    | some key => [(some "chaining_key", key.json.toScan)]
    | none => []

/-- The three members that every filter has come first, and the others behind them. -/
theorem toScan_json (f : Filter) :
    f.json.toScan = .object (f.scannedBasics ++ f.scannedOptions) true := by
  unfold json scannedOptions
  rw [Json.toScan, Json.toScanMembers_eq]
  cases f.key <;> (split <;> split <;> rfl)

/-- What is known of a filter before its optional members. -/
def Draft.ofBasics (f : Filter) (v : Value) : Draft :=
  { field := some f.field, operator := some f.operator, value := some v }

/-- Nothing but the value can fail among the first three members. -/
theorem foldlM_scannedBasics (depth : Nat) (f : Filter) :
    f.scannedBasics.foldlM (record.addMember (depth + 1)) {} =
      orNoAlternative "Value" (f.value.reread.map (Draft.ofBasics f)) := by
  -- the members are read one behind the other, each into the draft of those before it
  have hfield : record.addMember (depth + 1) {} (some "field", .string (some f.field)) =
      .ok { field := some f.field } := rfl
  have hoperator : record.addMember (depth + 1) { field := some f.field }
      (some "operator", f.operator.json.toScan) =
      .ok { field := some f.field, operator := some f.operator } := by
    show (fun op => ({ field := some f.field, operator := some op } : Draft)) <$>
      Operator.decoder (depth + 1) f.operator.json.toScan = _
    rw [Operator.decoder_toScan]
    rfl
  have hvalue : record.addMember (depth + 1)
      { field := some f.field, operator := some f.operator }
      (some "value", f.value.json.toScan) =
      orNoAlternative "Value" (f.value.reread.map (Draft.ofBasics f)) := by
    rw [← map_orNoAlternative, ← Value.decoder_toScan]
    rfl
  unfold scannedBasics
  rw [foldlM_cons_of_ok hfield, foldlM_cons_of_ok hoperator, List.foldlM_cons, hvalue]
  exact bind_pure _

theorem foldlM_scannedOptions (depth : Nat) (f : Filter) (v : Value) :
    f.scannedOptions.foldlM (record.addMember depth) (Draft.ofBasics f v) =
      .ok { Draft.ofBasics f v with
        opens := if f.opens = 0 then none else some f.opens.toNat
        closes := if f.closes = 0 then none else some f.closes.toNat
        key := f.key.map some } := by
  unfold scannedOptions
  cases f.key with
  | none => split <;> split <;> rfl
  | some key => cases key <;> (split <;> split <;> rfl)

/-- An operator is read back from its token. -/
theorem decoder_toScan (depth : Nat) (f : Filter) :
    decoder (depth + 2) f.json.toScan = orNoAlternative "Value" f.reread := by
  have hmembers : record.members {} (depth + 2) f.json.toScan =
      (fun d => (d, .object)) <$>
        (orNoAlternative "Value" (f.value.reread.map (Draft.ofBasics f)) >>= fun d =>
          f.scannedOptions.foldlM (record.addMember (depth + 1)) d) := by
    rw [toScan_json, members_object, List.foldlM_append, foldlM_scannedBasics]
  unfold decoder reread
  cases hvalue : f.value.reread with
  | none =>
    -- the value is in front of the optional members, so the answer is its fault
    rw [hvalue] at hmembers
    simp only [hmembers]
    rfl
  | some v =>
    have hread : record.members {} (depth + 2) f.json.toScan = .ok
        ({ Draft.ofBasics f v with
            opens := if f.opens = 0 then none else some f.opens.toNat
            closes := if f.closes = 0 then none else some f.closes.toNat
            key := f.key.map some }, .object) := by
      rw [hmembers, hvalue]
      show _ <$> f.scannedOptions.foldlM (record.addMember (depth + 1)) (Draft.ofBasics f v) = _
      rw [foldlM_scannedOptions]
      rfl
    -- what was left out is what a missing member stands for
    have hcount : ∀ n : UInt64,
        UInt64.ofNat ((if n = 0 then none else some n.toNat).getD 0) = n := by
      intro n
      split
      · next h => exact h.symm
      · exact UInt64.ofNat_toNat
    have hkey : (f.key.map some).getD none = f.key := by
      cases f.key <;> rfl
    simp only [hread]
    show Except.ok _ = Except.ok _
    simp only [hcount, hkey]
    rfl

theorem list_decoder_toScan (depth : Nat) (fs : List Filter) :
    list decoder (depth + 3) (Json.array (fs.map json)).toScan =
      orNoAlternative "Value" (fs.mapM reread) := by
  rw [list_toScan]
  simp only [decoder_toScan]
  exact mapM_orNoAlternative "Value" reread fs

/-- All numbers of a filter are read back if its finite floating-point numbers are. -/
theorem numbersReadBack_json {f : Filter}
    (h : ∀ x ∈ f.value.floats, x.isFinite = true → (Number.float x).ReadsBack) :
    f.json.NumbersReadBack := by
  refine Json.numbersReadBackMembers_iff.mpr (List.forall_mem_append.mpr
    ⟨List.forall_mem_append.mpr ⟨List.forall_mem_append.mpr ⟨?basics, ?opens⟩, ?closes⟩, ?key⟩)
  -- counts are whole numbers of 64 bits, so that only the value may have numbers that get lost
  case basics =>
    intro m hm
    simp only [List.mem_cons, List.not_mem_nil, or_false] at hm
    rcases hm with rfl | rfl | rfl
    · trivial
    · trivial
    · exact Value.numbersReadBack_json h
  case opens =>
    split
    · exact List.forall_mem_nil _
    · exact List.forall_mem_singleton.mpr (Json.numbersReadBack_natural f.opens.toNat_lt)
  case closes =>
    split
    · exact List.forall_mem_nil _
    · exact List.forall_mem_singleton.mpr (Json.numbersReadBack_natural f.closes.toNat_lt)
  case key =>
    cases f.key with
    | none => exact List.forall_mem_nil _
    | some key => exact List.forall_mem_singleton.mpr trivial

/-! ## What is read -/

/-- The value read so far can be written and read again. -/
def Draft.Lossless (d : Draft) : Prop := ∀ v ∈ d.value, v.Lossless

theorem preserves_lossless : record.Preserves Draft.Lossless := by
  intro depth d name x d' hd hx h
  have hset : Draft.set depth d name x = some (.ok d') := h
  unfold Draft.set at hset
  -- a member changes one part of the draft, and only one of them is the value
  split at hset
  case h_3 =>
    obtain ⟨v, hv, rfl⟩ := map_eq_ok_iff.mp (Option.some.inj hset)
    intro w hw
    obtain rfl := Option.some.inj hw
    exact Value.ensures_lossless _ _ _ hx (once_eq_ok hv)
  case h_7 => cases hset
  all_goals
    obtain ⟨v, -, rfl⟩ := map_eq_ok_iff.mp (Option.some.inj hset)
    exact hd

/-- **Every filter that is read can be written and read again.** -/
theorem ensures_lossless : Ensures decoder fun f => f.value.Lossless := by
  intro depth scan f hrange h
  unfold decoder at h
  obtain ⟨⟨d, layout⟩, hmembers, h⟩ := bind_eq_ok_iff.mp h
  obtain ⟨field, -, h⟩ := bind_eq_ok_iff.mp h
  obtain ⟨operator, -, h⟩ := bind_eq_ok_iff.mp h
  obtain rfl := Except.ok.inj h
  have hstart : ({} : Draft).Lossless := nofun
  have hd : d.Lossless :=
    Record.ensures_members preserves_lossless hstart _ _ _ hrange hmembers
  show (d.value.getD .null).Lossless
  cases hvalue : d.value with
  | none => trivial
  | some v => exact hd v hvalue

end Filter

end FilterQuery

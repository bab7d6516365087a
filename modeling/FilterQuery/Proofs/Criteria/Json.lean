import FilterQuery.Criteria.Json
import FilterQuery.Proofs.Filter.Json

/-!
# Criteria read back from JSON

Criteria that are written as JSON and read again are the same iff all their values are lossless, and
what has been read once is written and read without loss from then on (`Criteria.decode_json`).

Floating-point numbers are read back only as far as their notation is (`Json.Number.ReadsBack`):
reading takes two roundings, and those are not exact for all notations.
-/

namespace FilterQuery

open Json (Number Scan decode)
open Json.Decoder

/-! ## Sort keys and pages -/

/-- A sort key comes back as it is, with a direction or without. -/
theorem SortKey.decoder_toScan (depth : Nat) (k : SortKey) :
    decoder (depth + 1) k.json.toScan = .ok k := by
  obtain ⟨field, _ | direction⟩ := k
  · rfl
  · cases direction <;> rfl

/-- There is no number in a sort key. -/
theorem SortKey.numbersReadBack_json (k : SortKey) : k.json.NumbersReadBack := by
  obtain ⟨field, _ | direction⟩ := k
  · exact ⟨trivial, trivial⟩
  · exact ⟨trivial, trivial, trivial⟩

/-- Sort keys come back as they are, all of them. -/
theorem SortKey.list_decoder_toScan (depth : Nat) (ks : List SortKey) :
    list decoder (depth + 2) (Json.array (ks.map json)).toScan = .ok ks := by
  rw [list_toScan]
  simp only [decoder_toScan]
  show ks.mapM pure = _
  rw [List.mapM_pure, List.map_id']
  rfl

/-- A page comes back as it is: its numbers are words, and so fit the type they are read as. -/
theorem Page.decoder_toScan (depth : Nat) (p : Page) :
    decoder (depth + 1) p.json.toScan = .ok p := by
  show Except.ok (Page.mk (UInt64.ofNat p.size.toNat) (UInt64.ofNat p.number.toNat)) = _
  rw [UInt64.ofNat_toNat, UInt64.ofNat_toNat]

theorem Page.numbersReadBack_json (p : Page) : p.json.NumbersReadBack :=
  ⟨Json.numbersReadBack_natural p.size.toNat_lt, Json.numbersReadBack_natural p.number.toNat_lt,
    trivial⟩

namespace Criteria

/-! ## What was written -/

/-- The criteria as which criteria come back, if they are read at all. -/
def reread (c : Criteria) : Option Criteria :=
  (c.filters.mapM Filter.reread).map fun filters => { c with filters }

/-- The value of every filter is written as what it is. -/
def Lossless (c : Criteria) : Prop := ∀ f ∈ c.filters, f.value.Lossless

/-- The finite floating-point numbers of the criteria are read back from their notation. -/
def FloatsReadBack (c : Criteria) : Prop :=
  ∀ f ∈ c.filters, ∀ x ∈ f.value.floats, x.isFinite = true → (Number.float x).ReadsBack

/-- Criteria come back as they are iff every filter does. -/
theorem reread_eq_some_self_iff {c : Criteria} : c.reread = some c ↔ c.Lossless := by
  have hfilters : c.reread = some c ↔ c.filters.mapM Filter.reread = some c.filters := by
    unfold reread
    constructor
    · intro h
      obtain ⟨filters, hfilters, heq⟩ := Option.map_eq_some_iff.mp h
      rw [hfilters, ← congrArg Criteria.filters heq]
    · intro h
      rw [h]
      rfl
  rw [hfilters, mapM_eq_some_self_iff]
  exact forall₂_congr fun f _ => Filter.reread_eq_some_self_iff

/-- The members of criteria, as they are scanned. -/
def scannedMembers (c : Criteria) : List (Option String × Scan) :=
  [(some "filters", (Json.array (c.filters.map Filter.json)).toScan),
    (some "sorts", (Json.array (c.sorts.map SortKey.json)).toScan),
    (some "pagination", c.page.json.toScan)]

/-- The members of criteria are always written, even where they say nothing. -/
theorem toScan_json (c : Criteria) : c.json.toScan = .object c.scannedMembers true := by
  unfold json
  rw [Json.toScan, Json.toScanMembers_eq]
  rfl

/-- Taking over the members of written criteria. Only the filters may stop it, with a value that is
read as no value at all. -/
theorem foldlM_scannedMembers (depth : Nat) (c : Criteria) :
    c.scannedMembers.foldlM (record.addMember (depth + 3)) {} =
      orNoAlternative "Value" ((c.filters.mapM Filter.reread).map fun fs =>
        { filters := some fs, sorts := some c.sorts, page := some c.page }) := by
  have hfilters : record.addMember (depth + 3) {}
      (some "filters", (Json.array (c.filters.map Filter.json)).toScan) =
      orNoAlternative "Value" ((c.filters.mapM Filter.reread).map fun fs =>
        { filters := some fs }) := by
    show (fun fs => ({ filters := some fs } : Draft)) <$>
      list Filter.decoder (depth + 3) (Json.array (c.filters.map Filter.json)).toScan = _
    rw [Filter.list_decoder_toScan, map_orNoAlternative]
  have hsorts : ∀ fs, record.addMember (depth + 3) { filters := some fs }
      (some "sorts", (Json.array (c.sorts.map SortKey.json)).toScan) =
      .ok { filters := some fs, sorts := some c.sorts } := by
    intro fs
    show (fun ks => ({ filters := some fs, sorts := some ks } : Draft)) <$>
      list SortKey.decoder (depth + 3) (Json.array (c.sorts.map SortKey.json)).toScan = _
    rw [SortKey.list_decoder_toScan]
    rfl
  have hpage : ∀ fs, record.addMember (depth + 3) { filters := some fs, sorts := some c.sorts }
      (some "pagination", c.page.json.toScan) =
      .ok { filters := some fs, sorts := some c.sorts, page := some c.page } := by
    intro fs
    show (fun p => ({ filters := some fs, sorts := some c.sorts, page := some p } : Draft)) <$>
      Page.decoder (depth + 3) c.page.json.toScan = _
    rw [Page.decoder_toScan]
    rfl
  unfold scannedMembers
  rw [List.foldlM_cons, hfilters]
  -- behind filters that cannot be read the other members are not looked at
  cases c.filters.mapM Filter.reread with
  | none => rfl
  | some fs =>
    refine (foldlM_cons_of_ok (hsorts fs)).trans ?_
    rw [foldlM_cons_of_ok (hpage fs)]
    rfl

/-- Written criteria are read as what comes back, or the complaint is about a value. -/
theorem decoder_toScan (depth : Nat) (c : Criteria) :
    decoder (depth + 4) c.json.toScan = orNoAlternative "Value" c.reread := by
  have hmembers : record.members {} (depth + 4) c.json.toScan =
      (fun d => (d, .object)) <$>
        orNoAlternative "Value" ((c.filters.mapM Filter.reread).map fun fs =>
          ({ filters := some fs, sorts := some c.sorts, page := some c.page } : Draft)) := by
    rw [toScan_json, members_object, foldlM_scannedMembers]
  unfold decoder reread
  simp only [hmembers]
  cases c.filters.mapM Filter.reread <;> rfl

/-- The numbers of criteria are counts and sizes, which fit their words, and those of the values. -/
theorem numbersReadBack_json {c : Criteria} (h : c.FloatsReadBack) :
    c.json.NumbersReadBack := by
  have hfilters : ∀ j ∈ c.filters.map Filter.json, j.NumbersReadBack := by
    intro j hj
    obtain ⟨f, hf, rfl⟩ := List.mem_map.mp hj
    exact Filter.numbersReadBack_json (h f hf)
  have hsorts : ∀ j ∈ c.sorts.map SortKey.json, j.NumbersReadBack := by
    intro j hj
    obtain ⟨k, -, rfl⟩ := List.mem_map.mp hj
    exact k.numbersReadBack_json
  exact ⟨Json.numbersReadBackItems_iff.mpr hfilters, Json.numbersReadBackItems_iff.mpr hsorts,
    c.page.numbersReadBack_json, trivial⟩

/-- **What was written is read as what comes back.** -/
theorem decode_compact {c : Criteria} (h : c.FloatsReadBack) :
    decode decoder (String.ofList c.json.compact) = orNoAlternative "Value" c.reread := by
  rw [Json.decode_compact, Json.rescan_eq_toScan _ (numbersReadBack_json h)]
  -- four of the levels of nesting that a text may have are used by criteria
  exact decoder_toScan 123 c

/-! ## What is read -/

/-- The filters read so far can be written and read again. -/
def Draft.Lossless (d : Draft) : Prop := ∀ fs ∈ d.filters, ∀ f ∈ fs, f.value.Lossless

/-- What a decoder reads can be written and read again, so taking over a member keeps the draft
lossless. -/
theorem preserves_lossless : record.Preserves Draft.Lossless := by
  intro depth d name x d' hd hx h
  have hset : Draft.set depth d name x = some (.ok d') := h
  unfold Draft.set at hset
  split at hset
  · obtain ⟨fs, hfs, rfl⟩ := map_eq_ok_iff.mp (Option.some.inj hset)
    intro fs' hfs'
    obtain rfl := Option.some.inj hfs'
    exact Filter.ensures_lossless.list _ _ _ hx (once_eq_ok hfs)
  · obtain ⟨ks, -, rfl⟩ := map_eq_ok_iff.mp (Option.some.inj hset)
    exact hd
  · obtain ⟨p, -, rfl⟩ := map_eq_ok_iff.mp (Option.some.inj hset)
    exact hd
  · cases hset

/-- **All criteria that are read can be written and read again.** -/
theorem ensures_lossless : Ensures decoder Lossless := by
  intro depth scan c hrange h
  unfold decoder at h
  obtain ⟨⟨d, layout⟩, hmembers, h⟩ := bind_eq_ok_iff.mp h
  obtain rfl := Except.ok.inj h
  have hstart : ({} : Draft).Lossless := nofun
  have hd : d.Lossless :=
    Record.ensures_members preserves_lossless hstart _ _ _ hrange hmembers
  show ∀ f ∈ d.filters.getD [], f.value.Lossless
  cases hfilters : d.filters with
  | none => exact List.forall_mem_nil _
  | some fs => exact hd fs hfilters

/-- **Criteria and JSON.** What is written for criteria is read as the criteria with every value
replaced by what comes back of it, and not at all if nothing comes back of some value. So the
criteria come back as they are iff all their values are lossless; and those that have been read,
from whatever text, come back as they are.

Of the floating-point numbers it is assumed that their notation is read back. -/
theorem decode_json :
    (∀ c : Criteria, c.FloatsReadBack →
      decode decoder (String.ofList c.json.compact) = orNoAlternative "Value" c.reread ∧
      (decode decoder (String.ofList c.json.compact) = .ok c ↔ c.Lossless)) ∧
    ∀ text c, decode decoder text = .ok c → c.FloatsReadBack →
      decode decoder (String.ofList c.json.compact) = .ok c := by
  have hiff : ∀ c : Criteria, c.FloatsReadBack →
      (decode decoder (String.ofList c.json.compact) = .ok c ↔ c.Lossless) := by
    intro c hfloats
    rw [decode_compact hfloats, orNoAlternative_eq_ok_iff, reread_eq_some_self_iff]
  refine ⟨fun c hfloats => ⟨decode_compact hfloats, hiff c hfloats⟩, ?_⟩
  intro text c hread hfloats
  exact (hiff c hfloats).mpr (Json.of_decode ensures_lossless hread)

theorem decode_json_of_fraction :
    ∃ c : Criteria,
      decode decoder "\x7b\"filters\": [[\"price\", \"lt\", 1.50, 1, 1]]\x7d" = .ok c ∧
      c.filters.map Filter.value = [.float (.ofRatio false 3 2)] ∧ c.Lossless ∧
      decode decoder (String.ofList c.json.compact) = .ok c := by
  have hfraction : (Number.float (.ofRatio false 3 2)).ReadsBack :=
    ⟨⟨false, ['1'], ['5'], false, []⟩, by decide +kernel, by decide +kernel⟩
  obtain ⟨c, hread, hvalues, hfloats⟩ : ∃ c : Criteria,
      decode decoder "\x7b\"filters\": [[\"price\", \"lt\", 1.50, 1, 1]]\x7d" = .ok c ∧
      c.filters.map Filter.value = [.float (.ofRatio false 3 2)] ∧ c.FloatsReadBack := by
    refine ⟨{ filters := [{ field := "price", operator := .less, opens := 1, closes := 1
                            value := .float (.ofRatio false 3 2) }] },
      by decide +kernel, rfl, ?_⟩
    exact List.forall_mem_singleton.mpr (List.forall_mem_singleton.mpr fun _ => hfraction)
  have hagain := decode_json.2 _ c hread hfloats
  exact ⟨c, hread, hvalues, (decode_json.1 c hfloats).2.mp hagain, hagain⟩

end Criteria

end FilterQuery

import FilterQuery.Proofs.Filter.Json
import FilterQuery.Proofs.Filter.Token
import FilterQuery.Proofs.Json.Partial

/-!
# Filters that are partly written

A filter may be written with its members in any order, without those that have their defaults, and
with its operator in any spelling (`Filter.phrase`). It is read as if it had been written in full
(`Filter.reads_phrase`).
-/

namespace FilterQuery

open Text
open Json (Phrase Scan)
open Json.Decoder
open Json.Decoder.Record (Takes PassesOver scans_record)
open Json.Phrase (Reads Scans Slot Writes describes_written)

/-! ## Spellings of operators -/

namespace Operator

/-- The text is a spelling of the operator in any letter case, with any blanks around it. -/
def Spells (op : Operator) (s : List Char) : Prop :=
  ∃ lead word trail : List Char, s = lead ++ word ++ trail ∧
    (∀ c ∈ lead, isBlank c = true) ∧ (∀ c ∈ trail, isBlank c = true) ∧
    ∃ spelling, (spelling, op) ∈ spellings ∧ lower word = lower spelling.toList

theorem spells_token (op : Operator) : op.Spells op.token.toList := by
  refine ⟨[], op.token.toList, [], by simp, nofun, nofun, op.token, ?_, rfl⟩
  cases op <;> decide

/-- No spelling is listed with two operators, and none has blanks. -/
theorem spellings_consistent : ∀ p ∈ spellings,
    ofText? p.1.toList = some p.2 ∧ (lower p.1.toList).any isBlank = false := by
  decide +kernel

/-- **Every spelling of an operator is read as the operator.** -/
theorem Spells.ofText_eq {op : Operator} {s : List Char} (h : op.Spells s) :
    ofText s = .ok op := by
  obtain ⟨lead, word, trail, rfl, hlead, htrail, spelling, hmem, hword⟩ := h
  obtain ⟨hread, hsolid⟩ := spellings_consistent _ hmem
  have htrim : trim (lead ++ word ++ trail) = word := by
    rw [trim_padded hlead htrail]
    exact trim_of_not_isBlank (not_isBlank_of_lower_eq hsolid hword)
  have htrimSpelling : trim spelling.toList = spelling.toList :=
    trim_of_not_isBlank (not_isBlank_of_lower_eq hsolid rfl)
  -- the text and the listed spelling are compared with the same words
  have hsame : ofText? (lead ++ word ++ trail) = ofText? spelling.toList := by
    unfold ofText?
    rw [htrim, htrimSpelling]
    unfold caselessEq
    rw [hword]
  unfold ofText
  rw [hsame, hread]

/-- A string that spells the operator. -/
def phrase (op : Operator) : Phrase
  | s, rest => ∃ spelling : String,
      op.Spells spelling.toList ∧ Phrase.written (.string spelling) s rest

theorem describes_phrase (op : Operator) : op.phrase.Describes op.json :=
  fun rest => ⟨op.token, op.spells_token, describes_written _ rest⟩

theorem reads_phrase (op : Operator) (depth : Nat) : op.phrase.Reads decoder depth op := by
  rintro s rest ⟨spelling, hspells, hs⟩
  have hread : decoder depth (Json.string spelling).rescan = .ok op := by
    have hstring : string depth (Json.string spelling).rescan = .ok spelling := rfl
    unfold decoder
    simp only [hstring, bind, Except.bind, hspells.ofText_eq]
    rfl
  exact Reads.written hread s rest hs

end Operator

namespace Filter

/-! ## Members -/

/-- The members of a filter. A connective that is not said is null. -/
def slots (f : Filter) : List Slot :=
  [⟨"field", Phrase.written (.string f.field), False⟩,
    ⟨"operator", f.operator.phrase, False⟩,
    ⟨"value", Phrase.written f.value.json, f.value = .null⟩,
    ⟨"group_open", Phrase.written (.int f.opens.toNat), f.opens = 0⟩,
    ⟨"group_close", Phrase.written (.int f.closes.toNat), f.closes = 0⟩,
    ⟨"chaining_key", Phrase.written (f.key.elim .null Connective.json), f.key = none⟩]

/-- A filter that is partly written. -/
def phrase (f : Filter) : Phrase := Phrase.record f.slots

/-- What is known of the filter once the members with these names have been read. -/
def Draft.holding (f : Filter) (seen : List String) : Draft where
  field := if "field" ∈ seen then some f.field else none
  operator := if "operator" ∈ seen then some f.operator else none
  value := if "value" ∈ seen then some f.value else none
  opens := if "group_open" ∈ seen then some f.opens.toNat else none
  closes := if "group_close" ∈ seen then some f.closes.toNat else none
  key := if "chaining_key" ∈ seen then some f.key else none

theorem passesOver_record : record.PassesOver := by
  intro depth d name x hname
  simp only [record, List.mem_cons, List.not_mem_nil, or_false, not_or] at hname
  show Draft.set depth d name x = none
  unfold Draft.set
  split <;> simp_all

variable {depth : Nat} {f : Filter} {w : Value}

/-- Every member is taken over, the value as whatever it is read as. -/
theorem takes_slots (hvalue : Value.decoder depth f.value.json.rescan = .ok w) :
    ∀ slot ∈ f.slots, slot.value.Scans
      (record.Takes depth (Draft.holding { f with value := w }) slot.name) := by
  -- a connective that is null is one that is not said
  have hkey : optional Connective.decoder depth
      (f.key.elim Json.null Connective.json).rescan = .ok f.key := by
    rcases f.key with _ | _ | _ <;> rfl
  unfold slots
  simp only [List.forall_mem_cons, List.not_mem_nil, false_imp_iff, implies_true, and_true]
  refine ⟨?field, ?operator, ?value, ?opens, ?closes, ?key⟩
  case field =>
    have hread : (Phrase.written (.string f.field)).Reads string depth f.field := .written rfl
    exact hread.imp fun x hx seen hnew =>
      map_once_eq (if_neg hnew) hx (by simp [Draft.holding])
  case operator =>
    have hread := f.operator.reads_phrase depth
    exact hread.imp fun x hx seen hnew =>
      map_once_eq (if_neg hnew) hx (by simp [Draft.holding])
  case value =>
    have hread := Reads.written hvalue
    exact hread.imp fun x hx seen hnew =>
      map_once_eq (if_neg hnew) hx (by simp [Draft.holding])
  case opens =>
    have hread := Reads.written (Json.natural_rescan "usize" depth f.opens.toNat_lt)
    exact hread.imp fun x hx seen hnew =>
      map_once_eq (if_neg hnew) hx (by simp [Draft.holding])
  case closes =>
    have hread := Reads.written (Json.natural_rescan "usize" depth f.closes.toNat_lt)
    exact hread.imp fun x hx seen hnew =>
      map_once_eq (if_neg hnew) hx (by simp [Draft.holding])
  case key =>
    have hread := Reads.written hkey
    exact hread.imp fun x hx seen hnew =>
      map_once_eq (if_neg hnew) hx (by simp [Draft.holding])

/-- **A filter that is partly written is read as the whole filter.** -/
theorem reads_phrase (hvalue : Value.decoder depth f.value.json.rescan = .ok w) :
    f.phrase.Reads decoder (depth + 1) { f with value := w } := by
  have hscans := scans_record passesOver_record (by decide) rfl (takes_slots hvalue)
  refine hscans.imp fun x hx => ?_
  obtain ⟨seen, hmembers, hseen⟩ := hx
  unfold slots at hseen
  simp only [List.forall_mem_cons, List.not_mem_nil, false_imp_iff, implies_true, and_true,
    or_false] at hseen
  obtain ⟨hfield, hoperator, hnull, hopens, hcloses, hkey⟩ := hseen
  -- a member that was left out is the default that is read in its place
  have hnull : "value" ∈ seen ∨ w = .null := hnull.imp_right fun h => by
    rw [h] at hvalue
    exact (Except.ok.inj hvalue).symm
  have hopens : "group_open" ∈ seen ∨ f.opens.toNat = 0 := hopens.imp_right (congrArg _)
  have hcloses : "group_close" ∈ seen ∨ f.closes.toNat = 0 := hcloses.imp_right (congrArg _)
  -- a field and an operator are always written
  have hdraft : Draft.holding { f with value := w } seen =
      { field := some f.field, operator := some f.operator
        value := if "value" ∈ seen then some w else none
        opens := if "group_open" ∈ seen then some f.opens.toNat else none
        closes := if "group_close" ∈ seen then some f.closes.toNat else none
        key := if "chaining_key" ∈ seen then some f.key else none } := by
    unfold Draft.holding
    rw [if_pos hfield, if_pos hoperator]
  rw [hdraft] at hmembers
  have hread : record.members {} (depth + 1) x = _ := hmembers
  unfold decoder
  simp only [hread]
  show Except.ok _ = Except.ok _
  simp only [getD_ite hnull, getD_ite hopens, getD_ite hcloses, getD_ite hkey,
    UInt64.ofNat_toNat]

/-- A filter that is written is one of those that are partly written. -/
theorem describes_phrase (f : Filter) : f.phrase.Describes f.json := by
  -- the members in front of the connective, whatever becomes of that
  have hfront : ∀ js, Writes (f.slots.drop 5) js → Writes f.slots
      ([("field", .string f.field), ("operator", f.operator.json), ("value", f.value.json)] ++
        (if f.opens = 0 then [] else [("group_open", .int f.opens.toNat)]) ++
        (if f.closes = 0 then [] else [("group_close", .int f.closes.toNat)]) ++ js) := by
    intro js hkey
    have hcloses : Writes (f.slots.drop 4) _ := hkey.ite id (describes_written _)
    have hopens : Writes (f.slots.drop 3) _ := hcloses.ite id (describes_written _)
    simp only [List.append_assoc]
    exact .keep (describes_written _) (.keep f.operator.describes_phrase
      (.keep (describes_written _) hopens))
  unfold json
  cases hkey : f.key with
  | none =>
    have hlast : Writes (f.slots.drop 5) [] := Writes.nil.leave hkey
    exact (hfront _ hlast).describes
  | some key =>
    have hdescribes : (Phrase.written (f.key.elim .null Connective.json)).Describes key.json := by
      rw [hkey]
      exact describes_written _
    have hlast : Writes (f.slots.drop 5) [("chaining_key", key.json)] :=
      Writes.nil.keep hdescribes
    exact (hfront _ hlast).describes

/-- If a filter comes back from what is written for it, its value does. -/
theorem decoder_value_of_decoder (h : decoder (depth + 1) f.json.rescan = .ok f) :
    Value.decoder depth f.value.json.rescan = .ok f.value := by
  have hmembers : ∃ d, record.members {} (depth + 1) f.json.rescan = .ok d := by
    unfold decoder at h
    obtain ⟨d, hmembers, -⟩ := bind_eq_ok_iff.mp h
    exact ⟨d, hmembers⟩
  obtain ⟨d, hmembers⟩ := hmembers
  -- the value is read, as whatever it is
  have hvalue : ∃ w, Value.decoder depth f.value.json.rescan = .ok w := by
    unfold json at hmembers
    rw [Json.rescan, Json.rescanMembers_eq, members_object] at hmembers
    obtain ⟨s, hfold, -⟩ := map_eq_ok_iff.mp hmembers
    obtain ⟨s₁, s₂, hadd⟩ := exists_of_foldlM_eq_ok hfold (some "value", f.value.json.rescan)
      (by simp)
    have hset : (fun v => { s₁ with value := some v }) <$>
        once "value" s₁.value (Value.decoder depth f.value.json.rescan) = .ok s₂ := hadd
    obtain ⟨w, honce, -⟩ := map_eq_ok_iff.mp hset
    exact ⟨w, once_eq_ok honce⟩
  obtain ⟨w, hw⟩ := hvalue
  have hread := Scans.rescan (reads_phrase hw) f.describes_phrase
  -- the filter comes back with that value, and as it was
  have hsame : f = { f with value := w } := Except.ok.inj (h.symm.trans hread)
  have hvalue : f.value = w := congrArg Filter.value hsame
  exact hw.trans (congrArg Except.ok hvalue.symm)

end Filter

end FilterQuery

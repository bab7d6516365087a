import FilterQuery.Proofs.Criteria.Json
import FilterQuery.Proofs.Filter.Partial
import FilterQuery.Query.Statement

/-!
# Criteria that are partly written

The documents of criteria need not be written in full: members may stand in any order, those with
their defaults may be missing, others may be among them, and operators may be spelled in any way
(`Criteria.phrase`). If the criteria come back from what is written for them, they come back from
all of these documents (`Criteria.decode_of_isPartlyWritten`).
-/

namespace FilterQuery

open Text
open Json (Phrase Scan decode maxDepth)
open Json.Decoder
open Json.Decoder.Record (scans_record)
open Json.Phrase (Partial Reads Slot Writes describes_array describes_array_map describes_record
  describes_written)

/-! ## Sort keys -/

namespace SortKey

/-- The members of a sort key. A direction that is not said is null. -/
def slots (k : SortKey) : List Slot :=
  [⟨"field", Phrase.written (.string k.field), False⟩,
    ⟨"direction", Phrase.written (k.direction.elim .null Direction.json), k.direction = none⟩]

/-- A sort key that is partly written. -/
def phrase (k : SortKey) : Phrase := Phrase.record k.slots

/-- What is known of the sort key once the members with these names have been read. -/
def Draft.holding (k : SortKey) (seen : List String) : Draft where
  field := if "field" ∈ seen then some k.field else none
  direction := if "direction" ∈ seen then some k.direction else none

theorem passesOver_record : record.PassesOver := by
  intro depth d name x hname
  simp only [record, List.mem_cons, List.not_mem_nil, or_false, not_or] at hname
  show Draft.set depth d name x = none
  unfold Draft.set
  -- a name that is none of the members is passed over
  split <;> simp_all

theorem takes_slots (depth : Nat) (k : SortKey) : ∀ slot ∈ k.slots,
    slot.value.Scans (record.Takes depth (Draft.holding k) slot.name) := by
  have hdirection : optional Direction.decoder depth
      (k.direction.elim Json.null Direction.json).rescan = .ok k.direction := by
    rcases k.direction with _ | _ | _ <;> rfl
  unfold slots
  simp only [List.forall_mem_cons, List.not_mem_nil, false_imp_iff, implies_true, and_true]
  refine ⟨?field, ?direction⟩
  case field =>
    have hread : (Phrase.written (.string k.field)).Reads string depth k.field := .written rfl
    exact hread.imp fun x hx seen hnew =>
      map_once_eq (if_neg hnew) hx (by simp [Draft.holding])
  case direction =>
    have hread := Reads.written hdirection
    exact hread.imp fun x hx seen hnew =>
      map_once_eq (if_neg hnew) hx (by simp [Draft.holding])

/-- A sort key that is partly written is read as the sort key. -/
theorem reads_phrase (depth : Nat) (k : SortKey) : k.phrase.Reads decoder (depth + 1) k := by
  have hscans := scans_record passesOver_record (by decide) rfl (takes_slots depth k)
  refine hscans.imp fun x hx => ?_
  obtain ⟨seen, hmembers, hseen⟩ := hx
  unfold slots at hseen
  simp only [List.forall_mem_cons, List.not_mem_nil, false_imp_iff, implies_true, and_true,
    or_false] at hseen
  obtain ⟨hfield, hdirection⟩ := hseen
  have hdraft : Draft.holding k seen =
      { field := some k.field
        direction := if "direction" ∈ seen then some k.direction else none } := by
    unfold Draft.holding
    rw [if_pos hfield]
  rw [hdraft] at hmembers
  have hread : record.members {} (depth + 1) x = _ := hmembers
  -- a direction that was left out is the default
  unfold decoder
  simp only [hread]
  show Except.ok _ = Except.ok _
  simp only [getD_ite hdirection]

theorem describes_phrase (k : SortKey) : k.phrase.Describes k.json := by
  obtain ⟨field, direction⟩ := k
  cases direction with
  | none =>
    have hslots : Writes (slots ⟨field, none⟩) [("field", .string field)] :=
      .keep (describes_written _) (Writes.nil.leave rfl)
    exact hslots.describes
  | some direction =>
    have hslots : Writes (slots ⟨field, some direction⟩)
        [("field", .string field), ("direction", direction.json)] :=
      .keep (describes_written _) (Writes.nil.keep (describes_written _))
    exact hslots.describes

end SortKey

/-! ## Pages -/

namespace Page

/-- The members of a page. -/
def slots (p : Page) : List Slot :=
  [⟨"page_size", Phrase.written (.int p.size.toNat), p.size = 0⟩,
    ⟨"page_number", Phrase.written (.int p.number.toNat), p.number = 0⟩]

/-- A page that is partly written. -/
def phrase (p : Page) : Phrase := Phrase.record p.slots

/-- What is known of the page once the members with these names have been read. -/
def Draft.holding (p : Page) (seen : List String) : Draft where
  size := if "page_size" ∈ seen then some p.size.toNat else none
  number := if "page_number" ∈ seen then some p.number.toNat else none

theorem passesOver_record : record.PassesOver := by
  intro depth d name x hname
  simp only [record, List.mem_cons, List.not_mem_nil, or_false, not_or] at hname
  show Draft.set depth d name x = none
  unfold Draft.set
  split <;> simp_all

theorem takes_slots (depth : Nat) (p : Page) : ∀ slot ∈ p.slots,
    slot.value.Scans (record.Takes depth (Draft.holding p) slot.name) := by
  unfold slots
  simp only [List.forall_mem_cons, List.not_mem_nil, false_imp_iff, implies_true, and_true]
  refine ⟨?size, ?number⟩
  case size =>
    have hread := Reads.written (Json.natural_rescan "u64" depth p.size.toNat_lt)
    exact hread.imp fun x hx seen hnew =>
      map_once_eq (if_neg hnew) hx (by simp [Draft.holding])
  case number =>
    have hread := Reads.written (Json.natural_rescan "u64" depth p.number.toNat_lt)
    exact hread.imp fun x hx seen hnew =>
      map_once_eq (if_neg hnew) hx (by simp [Draft.holding])

/-- A page that is partly written is read as the page. -/
theorem reads_phrase (depth : Nat) (p : Page) : p.phrase.Reads decoder (depth + 1) p := by
  have hscans := scans_record passesOver_record (by decide) rfl (takes_slots depth p)
  refine hscans.imp fun x hx => ?_
  obtain ⟨seen, hmembers, hseen⟩ := hx
  unfold slots at hseen
  simp only [List.forall_mem_cons, List.not_mem_nil, false_imp_iff, implies_true, and_true]
    at hseen
  -- a number that was left out is zero, which is what is read for it
  have hsize : "page_size" ∈ seen ∨ p.size.toNat = 0 := hseen.1.imp_right (congrArg _)
  have hnumber : "page_number" ∈ seen ∨ p.number.toNat = 0 := hseen.2.imp_right (congrArg _)
  have hread : record.members {} (depth + 1) x = _ := hmembers
  unfold decoder
  simp only [hread]
  show Except.ok _ = Except.ok _
  simp only [Draft.holding, getD_ite hsize, getD_ite hnumber, UInt64.ofNat_toNat]

theorem describes_phrase (p : Page) : p.phrase.Describes p.json := by
  have hslots : Writes p.slots _ := .keep (describes_written (.int p.size.toNat))
    (.keep (describes_written (.int p.number.toNat)) .nil)
  exact hslots.describes

end Page

namespace Criteria

/-! ## Documents -/

/-- The members of criteria. -/
def slots (c : Criteria) : List Slot :=
  [⟨"filters", Phrase.array (c.filters.map Filter.phrase), c.filters = []⟩,
    ⟨"sorts", Phrase.array (c.sorts.map SortKey.phrase), c.sorts = []⟩,
    ⟨"pagination", c.page.phrase, c.page = {}⟩]

/-- Criteria that are partly written. -/
def phrase (c : Criteria) : Phrase := Phrase.record c.slots

/-- The text holds the criteria, partly written, and nothing else but spacing. -/
def IsPartlyWritten (c : Criteria) (text : String) : Prop :=
  ∃ rest, c.phrase text.toList rest ∧ ∀ ch ∈ rest, isSpacing ch = true

/-- What is known of the criteria once the members with these names have been read. -/
def Draft.holding (c : Criteria) (seen : List String) : Draft where
  filters := if "filters" ∈ seen then some c.filters else none
  sorts := if "sorts" ∈ seen then some c.sorts else none
  page := if "pagination" ∈ seen then some c.page else none

theorem passesOver_record : record.PassesOver := by
  intro depth d name x hname
  simp only [record, List.mem_cons, List.not_mem_nil, or_false, not_or] at hname
  show Draft.set depth d name x = none
  unfold Draft.set
  split <;> simp_all

variable {depth : Nat} {c : Criteria}

theorem takes_slots (hfilters : ∀ f ∈ c.filters, f.phrase.Reads Filter.decoder (depth + 1) f) :
    ∀ slot ∈ c.slots,
      slot.value.Scans (record.Takes (depth + 2) (Draft.holding c) slot.name) := by
  unfold slots
  simp only [List.forall_mem_cons, List.not_mem_nil, false_imp_iff, implies_true, and_true]
  refine ⟨?filters, ?sorts, ?page⟩
  case filters =>
    have hread := Reads.list hfilters
    exact hread.imp fun x hx seen hnew =>
      map_once_eq (if_neg hnew) hx (by simp [Draft.holding])
  case sorts =>
    have hread := Reads.list fun (k : SortKey) (_ : k ∈ c.sorts) => k.reads_phrase depth
    exact hread.imp fun x hx seen hnew =>
      map_once_eq (if_neg hnew) hx (by simp [Draft.holding])
  case page =>
    have hread := c.page.reads_phrase (depth + 1)
    exact hread.imp fun x hx seen hnew =>
      map_once_eq (if_neg hnew) hx (by simp [Draft.holding])

/-- Criteria are read as soon as their filters are. -/
theorem reads_phrase (hfilters : ∀ f ∈ c.filters, f.phrase.Reads Filter.decoder (depth + 1) f) :
    c.phrase.Reads decoder (depth + 3) c := by
  have hscans := scans_record passesOver_record (by decide) rfl (takes_slots hfilters)
  refine hscans.imp fun x hx => ?_
  obtain ⟨seen, hmembers, hseen⟩ := hx
  unfold slots at hseen
  simp only [List.forall_mem_cons, List.not_mem_nil, false_imp_iff, implies_true, and_true]
    at hseen
  obtain ⟨hfilters, hsorts, hpage⟩ := hseen
  have hread : record.members {} (depth + 3) x = _ := hmembers
  unfold decoder
  simp only [hread]
  show Except.ok _ = Except.ok _
  simp only [Draft.holding, getD_ite hfilters, getD_ite hsorts, getD_ite hpage]

/-- What is written for criteria is among the documents in which they are partly written. -/
theorem describes_phrase (c : Criteria) : c.phrase.Describes c.json := by
  have hfilters := describes_array_map fun (f : Filter) (_ : f ∈ c.filters) => f.describes_phrase
  have hsorts := describes_array_map fun (k : SortKey) (_ : k ∈ c.sorts) => k.describes_phrase
  have hslots : Writes c.slots _ := .keep hfilters (.keep hsorts
    (.keep c.page.describes_phrase .nil))
  exact hslots.describes

/-! ## Criteria that come back -/

/-- If criteria come back, each of their filters does. -/
theorem decoder_filter_of_decoder (h : decoder (depth + 3) c.json.rescan = .ok c) :
    ∀ f ∈ c.filters, Filter.decoder (depth + 1) f.json.rescan = .ok f := by
  unfold decoder at h
  obtain ⟨⟨d, layout⟩, hmembers, h⟩ := bind_eq_ok_iff.mp h
  have hfilters : c.filters = d.filters.getD [] := congrArg filters (Except.ok.inj h).symm
  unfold json at hmembers
  rw [Json.rescan, Json.rescanMembers_eq, members_object] at hmembers
  obtain ⟨s, hfold, hd⟩ := map_eq_ok_iff.mp hmembers
  -- filters are read first, and the other two members leave them as they are
  obtain ⟨s₁, hadd₁, hfold⟩ := bind_eq_ok_iff.mp hfold
  obtain ⟨s₂, hadd₂, hfold⟩ := bind_eq_ok_iff.mp hfold
  obtain ⟨s₃, hadd₃, hfold⟩ := bind_eq_ok_iff.mp hfold
  obtain ⟨fs, hfs, rfl⟩ := map_eq_ok_iff.mp hadd₁
  obtain ⟨ks, -, rfl⟩ := map_eq_ok_iff.mp hadd₂
  obtain ⟨p, -, rfl⟩ := map_eq_ok_iff.mp hadd₃
  cases hfold
  cases hd
  -- so the list of filters is read from what is written for it, and each filter from its item
  have hlist : list Filter.decoder (depth + 2) (Json.array (c.filters.map Filter.json)).rescan =
      .ok c.filters :=
    (once_eq_ok hfs).trans (congrArg Except.ok hfilters.symm)
  rw [Json.rescan, Json.rescanItems_eq, List.map_map] at hlist
  obtain ⟨inner, hinner, hlist⟩ := bind_eq_ok_iff.mp hlist
  cases hinner
  obtain ⟨fs', hread, hfs'⟩ := bind_eq_ok_iff.mp hlist
  cases hfs'
  have hall := mapM_eq_ok_iff.mp hread
  rw [List.forall₂_map_left_iff, List.forall₂_same] at hall
  exact hall

/-- **Criteria come back from all documents in which they are partly written**, if they come back
from what is written for them, which is one of these documents. So all of them make the same
query. -/
theorem decode_of_isPartlyWritten {c : Criteria}
    (hsurvives : decode decoder (String.ofList c.json.compact) = .ok c) :
    c.IsPartlyWritten (String.ofList c.json.compact) ∧
      ∀ text, c.IsPartlyWritten text → decode decoder text = .ok c ∧
        ∀ maxPageSize, Query.ofCriteria maxPageSize <$> decode decoder text =
          .ok (Query.ofCriteria maxPageSize c) := by
  have hwritten : c.IsPartlyWritten (String.ofList c.json.compact) := by
    have hphrase := c.describes_phrase []
    rw [List.append_nil] at hphrase
    refine ⟨[], ?_, nofun⟩
    rw [String.toList_ofList]
    exact hphrase
  rw [Json.decode_compact] at hsurvives
  -- filters are what may fail to come back; all else does
  have hreads : c.phrase.Reads decoder maxDepth c := by
    apply reads_phrase
    intro f hf
    have hfilter := decoder_filter_of_decoder hsurvives f hf
    exact Filter.reads_phrase (Filter.decoder_value_of_decoder hfilter)
  refine ⟨hwritten, fun text htext => ?_⟩
  obtain ⟨rest, hphrase, hrest⟩ := htext
  have hread := hreads.decode_eq hphrase hrest
  refine ⟨hread, fun maxPageSize => ?_⟩
  rw [hread]
  rfl

/-- A document with an unknown member, the members in reverse and a spelling of the operator that is
never written: it holds the same criteria. -/
theorem decode_of_isPartlyWritten_of_reversed :
    let c : Criteria :=
      { filters := [{ field := "id", operator := .notIn, value := .list (.ints [1, 2]) }]
        page := { size := 5 } }
    let text := "\x7b\"note\":null,\"pagination\":\x7b\"page_size\":5\x7d,\"filters\":" ++
      "[\x7b\"value\":[1,2],\"operator\":\" NIN\",\"field\":\"id\"\x7d]\x7d\n"
    c.IsPartlyWritten text ∧ decode decoder text = .ok c := by
  intro c text
  let f : Filter := { field := "id", operator := .notIn, value := .list (.ints [1, 2]) }
  let filter : Json := .object
    [("value", f.value.json), ("operator", .string " NIN"), ("field", .string "id")]
  let page : Json := .object [("page_size", .int 5)]
  let document : Json := .object
    [("note", .null), ("pagination", page), ("filters", .array [filter])]
  -- the text is that of a document, and every part of it describes the part of the criteria
  have hfilter : f.phrase.Describes filter := by
    have hoperator : f.operator.phrase.Describes (.string " NIN") :=
      fun rest => ⟨" NIN", ⟨[' '], "NIN".toList, [], rfl, List.forall_mem_singleton.mpr rfl, nofun,
        "nin", by decide, rfl⟩, describes_written _ rest⟩
    -- the first three members of the filter, written from the last to the first
    have hmembers : Partial f.slots ((f.slots.take 3).map Slot.member).reverse := by
      refine ⟨f.slots.take 3, [], List.take_sublist 3 _, by simp [Filter.slots, f], nofun, ?_⟩
      rw [List.map_nil, List.append_nil]
      exact List.reverse_perm _
    exact describes_record hmembers (.cons ⟨rfl, describes_written _⟩
      (.cons ⟨rfl, hoperator⟩ (.cons ⟨rfl, describes_written _⟩ .nil)))
  have hpage : c.page.phrase.Describes page := by
    -- the number of the page is zero and left out
    have hmembers : Partial c.page.slots ((c.page.slots.take 1).map Slot.member) := by
      refine ⟨c.page.slots.take 1, [], List.take_sublist 1 _, by simp [Page.slots, c], nofun, ?_⟩
      rw [List.map_nil, List.append_nil]
    exact describes_record hmembers (.cons ⟨rfl, describes_written _⟩ .nil)
  have hdocument : c.phrase.Describes document := by
    have hmembers :
        Partial c.slots [(some "note", .Any), c.slots[2].member, c.slots[0].member] := by
      refine ⟨[c.slots[0], c.slots[2]], ["note"], ?_, by simp [slots, c], by simp [slots], ?_⟩
      · exact .cons_cons _ (.cons _ (.cons_cons _ .slnil))
      · exact List.reverse_perm [c.slots[0].member, c.slots[2].member, (some "note", .Any)]
    exact describes_record hmembers (.cons ⟨rfl, fun _ => .null rfl⟩
      (.cons ⟨rfl, hpage⟩ (.cons ⟨rfl, describes_array (.cons hfilter .nil)⟩ .nil)))
  have htext : c.IsPartlyWritten text := by
    refine ⟨['\n'], ?_, List.forall_mem_singleton.mpr rfl⟩
    rw [show text.toList = document.compact ++ ['\n'] by decide +kernel]
    exact hdocument ['\n']
  have hsurvives : decode decoder (String.ofList c.json.compact) = .ok c := by decide +kernel
  exact ⟨htext, ((decode_of_isPartlyWritten hsurvives).2 text htext).1⟩

end Criteria

end FilterQuery

import FilterQuery.Proofs.Json.Decoding
import FilterQuery.Proofs.Json.Phrase
import Mathlib.Data.List.Count
import Mathlib.Data.List.Nodup

/-!
# Records that are partly written

A record may be written in many ways: its members in any order, some of them left out, and members
with other names among them (`Json.Phrase.record`). A draft only tells which members have been read,
so a member is taken over in the same way whatever was in front of it (`Record.Takes`), and reading
all of them comes to the draft that holds those that were written (`Record.scans_record`).
-/

namespace FilterQuery.Json

open Text

namespace Phrase

/-! ## Texts that are read -/

/-- Out of whatever text of the phrase, the decoder reads this. -/
def Reads {α : Type} (p : Phrase) (decoder : Decoder α) (depth : Nat) (a : α) : Prop :=
  p.Scans fun x => decoder depth x = .ok a

section Reads

variable {α : Type} {decoder : Decoder α} {depth : Nat} {p : Phrase} {a : α}

theorem Reads.written {j : Json} (h : decoder depth j.rescan = .ok a) :
    (written j).Reads decoder depth a := by
  refine (Scans.written j).imp fun x hx => ?_
  rw [hx]
  exact h

/-- A list is read item by item. -/
theorem Reads.list {phrase : α → Phrase} {as : List α}
    (has : ∀ a ∈ as, (phrase a).Reads decoder depth a) :
    (array (as.map phrase)).Reads (Decoder.list decoder) (depth + 1) as := by
  refine (Scans.array has).imp fun x hx => ?_
  obtain ⟨xs, hxs, rfl⟩ := hx
  have hread : xs.mapM (decoder depth) = .ok as := mapM_eq_ok_iff.mpr hxs.flip
  show xs.mapM (decoder depth) >>= pure = _
  rw [hread]
  rfl

/-- **A text of the phrase is decoded** if there is nothing but spacing behind the value. -/
theorem Reads.decode_eq (h : p.Reads decoder maxDepth a) {text : String} {rest : List Char}
    (htext : p text.toList rest) (hrest : ∀ c ∈ rest, isSpacing c = true) :
    decode decoder text = .ok a := by
  -- spacing ends any number, so the text is scanned as it is in front of nothing
  have hstop : StopsAt Numeral.goesOn rest := by
    intro c hc
    exact eq_false_of_isSpacing (by decide) (hrest c (List.mem_of_mem_head? hc))
  obtain ⟨x, hx, hscan⟩ := (h _ _ htext).value hstop (2 * text.toList.length + 2) (by omega)
  have hskip : skipSpacing rest = [] := List.dropWhile_eq_nil_iff.mpr hrest
  unfold decode Scan.ofText
  simp only [hscan, Option.map_some, hskip, hx]
  rfl

end Reads

/-! ## Records -/

/-- A member that a record may have. -/
structure Slot where
  name : String
  value : Phrase
  /-- The member may be left out. -/
  optional : Prop

def Slot.member (slot : Slot) : Option String × Phrase := (some slot.name, slot.value)

/-- The members of an object that is partly written: slots, of which optional ones may be left out,
and members with other names and any values, all in any order. -/
def Partial (slots : List Slot) (ms : List (Option String × Phrase)) : Prop :=
  ∃ (kept : List Slot) (others : List String), kept.Sublist slots ∧
    (∀ slot ∈ slots, slot ∈ kept ∨ slot.optional) ∧
    (∀ name ∈ others, name ∉ slots.map Slot.name) ∧
    ms.Perm (kept.map Slot.member ++ others.map fun name => (some name, Any))

/-- A record that is partly written. -/
def record (slots : List Slot) : Phrase
  | s, rest => ∃ ms, Partial slots ms ∧ object ms s rest

theorem describes_record {slots : List Slot} {ms : List (Option String × Phrase)}
    (hms : Partial slots ms) {js : List (String × Json)}
    (h : List.Forall₂ DescribesMember ms js) : (record slots).Describes (.object js) :=
  fun rest => ⟨ms, hms, describes_object h rest⟩

/-- The members of an object are slots in their order, some optional ones aside. -/
inductive Writes : List Slot → List (String × Json) → Prop
  | nil : Writes [] []
  | keep {slot : Slot} {slots : List Slot} {j : Json} {js : List (String × Json)} :
    slot.value.Describes j → Writes slots js → Writes (slot :: slots) ((slot.name, j) :: js)
  | leave {slot : Slot} {slots : List Slot} {js : List (String × Json)} :
    slot.optional → Writes slots js → Writes (slot :: slots) js

theorem Writes.ite {slot : Slot} {slots : List Slot} {j : Json} {js : List (String × Json)}
    {p : Prop} [Decidable p] (hleave : p → slot.optional) (hkeep : slot.value.Describes j)
    (h : Writes slots js) :
    Writes (slot :: slots) ((if p then [] else [(slot.name, j)]) ++ js) := by
  split
  · next hp => exact h.leave (hleave hp)
  · exact h.keep hkeep

/-- The slots that are written. -/
theorem Writes.exists_kept {slots : List Slot} {js : List (String × Json)} (h : Writes slots js) :
    ∃ kept : List Slot, kept.Sublist slots ∧ (∀ slot ∈ slots, slot ∈ kept ∨ slot.optional) ∧
      List.Forall₂ DescribesMember (kept.map Slot.member) js := by
  induction h with
  | nil => exact ⟨[], .slnil, nofun, .nil⟩
  | @keep slot slots j js hvalue _ ih =>
    obtain ⟨kept, hsub, hcomplete, hall⟩ := ih
    refine ⟨slot :: kept, hsub.cons_cons slot, ?_, .cons ⟨rfl, hvalue⟩ hall⟩
    intro slot' hslot'
    rcases List.mem_cons.mp hslot' with rfl | hslot'
    · exact .inl List.mem_cons_self
    · exact (hcomplete slot' hslot').imp_left (List.mem_cons_of_mem slot)
  | @leave slot slots js hoptional _ ih =>
    obtain ⟨kept, hsub, hcomplete, hall⟩ := ih
    refine ⟨kept, hsub.cons slot, ?_, hall⟩
    intro slot' hslot'
    rcases List.mem_cons.mp hslot' with rfl | hslot'
    · exact .inr hoptional
    · exact hcomplete slot' hslot'

/-- **A record that is written without some optional members is one that is partly written.** -/
theorem Writes.describes {slots : List Slot} {js : List (String × Json)} (h : Writes slots js) :
    (record slots).Describes (.object js) := by
  obtain ⟨kept, hsub, hcomplete, hall⟩ := h.exists_kept
  refine describes_record ⟨kept, [], hsub, hcomplete, nofun, ?_⟩ hall
  rw [List.map_nil, List.append_nil]

section Partial

variable {slots : List Slot} {ms : List (Option String × Phrase)} {m : Option String × Phrase}

theorem Partial.cases (h : Partial slots ms) (hm : m ∈ ms) :
    (∃ slot ∈ slots, m = slot.member) ∨
      ∃ name, name ∉ slots.map Slot.name ∧ m = (some name, Any) := by
  obtain ⟨kept, others, hkept, -, hothers, hperm⟩ := h
  rcases List.mem_append.mp (hperm.mem_iff.mp hm) with hm | hm
  · obtain ⟨slot, hslot, rfl⟩ := List.mem_map.mp hm
    exact .inl ⟨slot, hkept.subset hslot, rfl⟩
  · obtain ⟨name, hname, rfl⟩ := List.mem_map.mp hm
    exact .inr ⟨name, hothers name hname, rfl⟩

/-- No slot is written twice. -/
theorem Partial.count_le_one (h : Partial slots ms) (hnames : (slots.map Slot.name).Nodup)
    {name : String} (hname : name ∈ slots.map Slot.name) :
    (ms.map Prod.fst).count (some name) ≤ 1 := by
  obtain ⟨kept, others, hkept, -, hothers, hperm⟩ := h
  -- names that are kept are those of different slots, and the others have other names
  have hkeys : ((kept.map Slot.member ++ others.map fun name => (some name, Any)).map Prod.fst) =
      (kept.map Slot.name ++ others).map some := by
    rw [List.map_append, List.map_map, List.map_map, List.map_append, List.map_map]
    rfl
  have hinj : Function.Injective (some : String → Option String) := Option.some_injective _
  have hother : others.count name = 0 := List.count_eq_zero.mpr fun hmem => hothers name hmem hname
  have honce := List.nodup_iff_count_le_one.mp (hnames.sublist (hkept.map Slot.name)) name
  rw [(hperm.map Prod.fst).count_eq, hkeys, List.count_map_of_injective _ _ hinj,
    List.count_append, hother]
  exact honce

theorem Partial.mem_keys (h : Partial slots ms) {slot : Slot} (hslot : slot ∈ slots) :
    some slot.name ∈ ms.map Prod.fst ∨ slot.optional := by
  obtain ⟨kept, others, -, hcomplete, -, hperm⟩ := h
  refine (hcomplete slot hslot).imp_left fun hkept => ?_
  have hmem : slot.member ∈ ms :=
    hperm.mem_iff.mpr (List.mem_append_left _ (List.mem_map_of_mem hkept))
  exact List.mem_map_of_mem (f := Prod.fst) hmem

end Partial

end Phrase

namespace Decoder.Record

open Phrase

variable {σ : Type} {r : Record σ} {depth : Nat} {state : List String → σ}

/-- Having read some other members, one gets to the state in which this one is read as well. -/
def Takes (r : Record σ) (depth : Nat) (state : List String → σ) (name : String) (x : Scan) :
    Prop :=
  ∀ seen, name ∉ seen → r.set depth (state seen) name x = some (.ok (state (name :: seen)))

/-- The record passes over all members but its own. -/
def PassesOver (r : Record σ) : Prop :=
  ∀ depth s name x, name ∉ r.names → r.set depth s name x = none

/-- The member is taken over, or passed over. -/
def Admits (r : Record σ) (depth : Nat) (state : List String → σ) (x : Option String × Scan) :
    Prop :=
  ∃ name, x.1 = some name ∧
    (name ∈ r.names ∧ r.Takes depth state name x.2 ∨ name ∉ r.names ∧ x.2.isClosed = true)

/-- What one member does: its name is seen from then on, if it is a known one. -/
theorem exists_addMember (hother : r.PassesOver) {x : Option String × Scan}
    (hx : r.Admits depth state x) {seen : List String}
    (hnew : ∀ name ∈ r.names, x.1 = some name → name ∉ seen) :
    ∃ seen', r.addMember depth (state seen) x = .ok (state seen') ∧ seen ⊆ seen' ∧
      ∀ name ∈ r.names, (x.1 = some name → name ∈ seen') ∧
        seen'.count name ≤ [x.1].count (some name) + seen.count name := by
  obtain ⟨key, x⟩ := x
  -- a member of the record is taken over, and any other one must only be closed
  obtain ⟨name, rfl, ⟨hname, htakes⟩ | ⟨hname, hclosed⟩⟩ : r.Admits depth state (key, x) := hx
  · refine ⟨name :: seen, ?_, List.subset_cons_self name seen, fun n hn => ⟨fun heq => ?_, ?_⟩⟩
    · unfold addMember
      simp only [htakes seen (hnew name hname rfl)]
    · rw [Option.some.inj heq]
      exact List.mem_cons_self
    · simp only [List.count_cons, List.count_nil, beq_iff_eq, Option.some.injEq]
      omega
  · refine ⟨seen, ?_, List.Subset.refl seen, fun n hn => ⟨fun heq => ?_, Nat.le_add_left _ _⟩⟩
    · unfold addMember
      simp only [hother depth (state seen) name x hname, hclosed]
      rfl
    · rw [← Option.some.inj heq] at hn
      exact absurd hn hname

/-- **Members are taken over in any order**, each of them once. -/
theorem foldlM_addMember (hother : r.PassesOver) {xs : List (Option String × Scan)}
    {seen : List String} (hxs : ∀ x ∈ xs, r.Admits depth state x)
    (honce : ∀ name ∈ r.names, (xs.map Prod.fst).count (some name) + seen.count name ≤ 1) :
    ∃ seen', xs.foldlM (r.addMember depth) (state seen) = .ok (state seen') ∧
      seen ⊆ seen' ∧ ∀ name ∈ r.names, some name ∈ xs.map Prod.fst → name ∈ seen' := by
  induction xs generalizing seen with
  | nil => exact ⟨seen, rfl, List.Subset.refl _, fun _ _ h => absurd h List.not_mem_nil⟩
  | cons x xs ih =>
    -- the names seen so far and those that are still to come make one of each
    have hcount : ∀ name ∈ r.names, [x.1].count (some name) +
        (xs.map Prod.fst).count (some name) + seen.count name ≤ 1 := by
      intro name hname
      rw [← List.count_append]
      exact honce name hname
    have hnew : ∀ name ∈ r.names, x.1 = some name → name ∉ seen := by
      intro name hname hkey
      have hle := hcount name hname
      rw [hkey, List.count_singleton_self] at hle
      exact List.count_eq_zero.mp (by omega)
    obtain ⟨seen₁, hadd, hsub₁, hstep⟩ := exists_addMember hother (hxs x List.mem_cons_self) hnew
    have honce₁ : ∀ name ∈ r.names,
        (xs.map Prod.fst).count (some name) + seen₁.count name ≤ 1 := by
      intro name hname
      have hle := hcount name hname
      have hle₁ := (hstep name hname).2
      omega
    obtain ⟨seen', hfold, hsub, hkeys⟩ :=
      ih (fun y hy => hxs y (List.mem_cons_of_mem x hy)) honce₁
    refine ⟨seen', (foldlM_cons_of_ok hadd).trans hfold, List.Subset.trans hsub₁ hsub, ?_⟩
    intro name hname hmem
    rcases List.mem_cons.mp hmem with hkey | hmem
    · exact hsub ((hstep name hname).1 hkey.symm)
    · exact hkeys name hname hmem

/-- **A record that is partly written is read as the draft that holds what is written.** -/
theorem scans_record (hother : r.PassesOver) (hnodup : r.names.Nodup) {slots : List Slot}
    (hnames : slots.map Slot.name = r.names)
    (hslots : ∀ slot ∈ slots, Scans slot.value (r.Takes depth state slot.name)) :
    Scans (record slots) fun x => ∃ seen,
      r.members (state []) (depth + 1) x = .ok (state seen, .object) ∧
      ∀ slot ∈ slots, slot.name ∈ seen ∨ slot.optional := by
  rintro s rest ⟨ms, hms, hobject⟩
  have hknown : ∀ slot ∈ slots, slot.name ∈ r.names := by
    intro slot hslot
    rw [← hnames]
    exact List.mem_map_of_mem hslot
  -- a slot is scanned as something that is taken over, and any other member as something closed
  have hvalues : ∀ m ∈ ms, Scans m.2 fun x => r.Admits depth state (m.1, x) := by
    intro m hm
    rcases hms.cases hm with ⟨slot, hslot, rfl⟩ | ⟨name, hname, rfl⟩
    · exact (hslots slot hslot).imp fun x hx => ⟨slot.name, rfl, .inl ⟨hknown slot hslot, hx⟩⟩
    · rw [hnames] at hname
      exact Scans.any.imp fun x hx => ⟨name, rfl, .inr ⟨hname, hx⟩⟩
  refine (Scans.object hvalues s rest hobject).imp fun x hx => ?_
  obtain ⟨xs, hxs, rfl⟩ := hx
  -- every scanned member is admitted, and it has the key of the member it comes from
  have hboth : List.Forall₂ (fun x m => r.Admits depth state x ∧ x.1 = m.1) xs ms := by
    refine (hxs.imp fun m x hx => ?_).flip
    obtain ⟨hkey, hadmits⟩ := hx
    rw [← hkey] at hadmits
    exact ⟨hadmits, hkey⟩
  obtain ⟨hadmits, hkeys⟩ := (List.forall₂_and_left _ _).mp hboth
  have hkeys : xs.map Prod.fst = ms.map Prod.fst := by
    rw [← List.forall₂_eq_eq_eq, List.forall₂_map_left_iff, List.forall₂_map_right_iff]
    exact hkeys
  have honce : ∀ name ∈ r.names,
      (xs.map Prod.fst).count (some name) + ([] : List String).count name ≤ 1 := by
    intro name hname
    rw [hkeys]
    rw [← hnames] at hname hnodup
    exact hms.count_le_one hnodup hname
  obtain ⟨seen, hfold, -, hseen⟩ := foldlM_addMember hother hadmits honce
  refine ⟨seen, ?_, fun slot hslot => ?_⟩
  · rw [members_object, hfold]
    rfl
  · have hwritten := hms.mem_keys hslot
    rw [← hkeys] at hwritten
    exact hwritten.imp_left (hseen slot.name (hknown slot hslot))

end Decoder.Record

/-- What was left out is what a missing member stands for. -/
theorem Decoder.getD_ite {α : Type} {written : Prop} [Decidable written] {a default : α}
    (h : written ∨ a = default) : (if written then some a else none).getD default = a := by
  split
  · rfl
  · next hnot => exact (h.resolve_left hnot).symm

end FilterQuery.Json

import FilterQuery.Proofs.Criteria.Text
import FilterQuery.Proofs.Query.Lines
import FilterQuery.Proofs.SortKey.Expression

/-!
# Nothing is lost when clauses are joined

The clauses of a query are trimmed before they are joined, although fields are copied into them as
they are and may be anything. What keeps the clauses whole is how they are made: a clause starts
with its keyword, and it ends with a placeholder, a parenthesis, a number or a direction
(`Text.EndsSolid`). Only a sort key without a direction ends with its field, so that blanks may be
lost behind the last sort key (`SortKey.trimEnd_clause_eq_iff`). They are not if it was read from an
expression.

* `Predicate.trim_clause` and `Page.trim_clause`: these clauses are never changed.
* `Query.sql_ofCriteria` is the text of a query, in general and for criteria that were read.
-/

namespace FilterQuery

open Text

namespace Text

variable {s t : List Char}

/-- The last character of the text is no blank. -/
def EndsSolid (s : List Char) : Prop := ∃ c, s.getLast? = some c ∧ isBlank c = false

theorem EndsSolid.ne_nil (h : EndsSolid s) : s ≠ [] := by
  rintro rfl
  obtain ⟨c, hc, -⟩ := h
  cases hc

/-- What stands in front of a text that is not empty has no say in how it ends. -/
theorem endsSolid_append_iff (hne : t ≠ []) : EndsSolid (s ++ t) ↔ EndsSolid t := by
  unfold EndsSolid
  rw [List.getLast?_append_of_ne_nil s hne]

theorem EndsSolid.append (h : EndsSolid t) (s : List Char) : EndsSolid (s ++ t) :=
  (endsSolid_append_iff h.ne_nil).mpr h

theorem EndsSolid.cons (h : EndsSolid t) (c : Char) : EndsSolid (c :: t) := h.append [c]

theorem endsSolid_of_forall (hne : s ≠ []) (h : ∀ c ∈ s, isBlank c = false) : EndsSolid s :=
  ⟨s.getLast hne, List.getLast?_eq_some_getLast hne, h _ (List.getLast_mem hne)⟩

theorem endsSolid_decimal (n : Nat) : EndsSolid (decimal n) := by
  refine endsSolid_of_forall (decimal_ne_nil n) fun c hc => ?_
  exact not_isBlank_of_isDigit (List.all_eq_true.mp (all_isDigit_decimal n) c hc)

/-- There is nothing to trim behind a text that ends with no blank. -/
theorem trimEnd_eq_self_iff (hne : s ≠ []) : trimEnd s = s ↔ EndsSolid s := by
  show s.rdropWhile isBlank = s ↔ EndsSolid s
  rw [List.rdropWhile_eq_self_iff]
  unfold EndsSolid
  rw [List.getLast?_eq_some_getLast hne]
  constructor
  · intro h
    exact ⟨_, rfl, Bool.eq_false_iff.mpr (h hne)⟩
  · rintro ⟨c, hc, hblank⟩ -
    rw [Option.some.inj hc, hblank]
    exact Bool.false_ne_true

end Text

/-! ## The clauses that are never changed -/

theorem endsSolid_placeholder (number : Nat) : EndsSolid (placeholder number) :=
  (endsSolid_decimal number).cons '$'

theorem Operand.endsSolid_text (o : Operand) (first : Nat) : EndsSolid (o.text first) := by
  cases o with
  | single value => exact endsSolid_placeholder first
  | alternatives values => exact EndsSolid.append ⟨')', rfl, rfl⟩ _

namespace Predicate

theorem endsSolid_text (p : Predicate) (first : Nat) : EndsSolid (p.text first) := by
  unfold text
  cases p.closes.toNat with
  | zero =>
    rw [List.replicate_zero, List.append_nil]
    exact ((p.operand.endsSolid_text first).cons ' ').append _
  | succ n =>
    -- what is closed at the end hides the operand
    refine EndsSolid.append (endsSolid_of_forall (by simp) fun c hc => ?_) _
    rw [List.eq_of_mem_replicate hc]
    rfl

/-- Joined predicates end as the last one of them does. -/
theorem endsSolid_joined (p : Predicate) (ps : List Predicate) (first : Nat) :
    EndsSolid (joined first (p :: ps)) := by
  induction ps generalizing p first with
  | nil => exact p.endsSolid_text first
  | cons q ps ih => exact ((ih q (first + p.arguments.length)).cons ' ').append _

/-- **The `WHERE` clause** has no blank to lose, whatever the fields are. -/
theorem trim_clause (ps : List Predicate) : trim (clause ps) = clause ps := by
  unfold clause
  cases ps with
  | nil => rfl
  | cons p ps =>
    have hsolid := (endsSolid_joined p ps 1).append "WHERE ".toList
    exact (trim_cons_of_not_isBlank rfl _).trans ((trimEnd_eq_self_iff hsolid.ne_nil).mpr hsolid)

end Predicate

/-- **The `LIMIT` clause** has no blank to lose. -/
theorem Page.trim_clause (p : Page) (defaultSize : UInt64) :
    trim (p.clause defaultSize) = p.clause defaultSize := by
  unfold clause
  split
  · next q hq =>
    have hsolid := (endsSolid_decimal q.offset.toNat).append
      ("LIMIT ".toList ++ decimal q.size.toNat ++ " OFFSET ".toList)
    exact (trim_cons_of_not_isBlank rfl _).trans ((trimEnd_eq_self_iff hsolid.ne_nil).mpr hsolid)
  · rfl

/-! ## The clause that may lose blanks -/

namespace SortKey

/-- The clause ends with its last sort key, and a blank is in front of that. -/
theorem exists_clause_concat (keys : List SortKey) (k : SortKey) :
    ∃ front, clause (keys ++ [k]) = 'O' :: (front ++ ' ' :: k.item) := by
  unfold clause
  rw [if_neg (by simp), List.map_append, List.map_singleton]
  by_cases hkeys : keys.map item = []
  · rw [hkeys, List.nil_append, List.intercalate_singleton]
    exact ⟨"RDER BY".toList, rfl⟩
  · rw [intercalate_concat hkeys]
    exact ⟨"RDER BY ".toList ++ [',', ' '].intercalate (keys.map item) ++ [','], by simp⟩

/-- The sort key ends with its field, and that with a blank, or there is nothing in it. -/
def EndsBlank (k : SortKey) : Prop :=
  k.direction = none ∧ (k.field = "" ∨ ∃ c, k.field.toList.getLast? = some c ∧ isBlank c = true)

/-- The space in front of the key counts if there is nothing in the key. -/
theorem endsSolid_item_iff (k : SortKey) : EndsSolid (' ' :: k.item) ↔ ¬k.EndsBlank := by
  unfold EndsBlank item
  cases hd : k.direction with
  | some d =>
    -- a direction ends the key, whatever the field is
    have hkeyword : EndsSolid d.keyword.toList := by
      cases d with
      | asc => exact ⟨'C', rfl, rfl⟩
      | desc => exact ⟨'C', rfl, rfl⟩
    refine iff_of_true (((hkeyword.cons ' ').append k.field.toList).cons ' ') ?_
    rintro ⟨h, -⟩
    cases h
  | none =>
    rw [List.append_nil]
    -- without a field the blank in front of the key is at the end
    by_cases hfield : k.field.toList = []
    · have hempty : k.field = "" := String.toList_eq_nil_iff.mp hfield
      rw [hfield]
      refine iff_of_false ?_ fun h => h ⟨rfl, .inl hempty⟩
      rintro ⟨c, hc, hblank⟩
      cases hc
      cases hblank
    · have hne : k.field ≠ "" := fun hempty => hfield (String.toList_eq_nil_iff.mpr hempty)
      have hcons : EndsSolid (' ' :: k.field.toList) ↔ EndsSolid k.field.toList :=
        endsSolid_append_iff (s := [' ']) hfield
      rw [hcons]
      unfold EndsSolid
      rw [List.getLast?_eq_some_getLast hfield]
      simp [hne]

/-- A field that can be written does not end with a blank where a reader would trim it. -/
theorem IsWritable.not_endsBlank {k : SortKey} (hk : k.IsWritable) : ¬k.EndsBlank := by
  -- both ways to end with a blank are ruled out: a field that is empty, and one that would be
  -- trimmed
  rintro ⟨hdirection, hempty | ⟨c, hc, hblank⟩⟩
  · exact hk.field_ne hempty
  · rw [hk.finish hdirection c hc] at hblank
    cases hblank

theorem trim_clause (keys : List SortKey) : trim (clause keys) = trimEnd (clause keys) := by
  rcases List.eq_nil_or_concat' keys with rfl | ⟨keys, k, rfl⟩
  · rfl
  · obtain ⟨front, hclause⟩ := exists_clause_concat keys k
    rw [hclause]
    exact trim_cons_of_not_isBlank rfl _

/-- **The `ORDER BY` clause** loses blanks iff its last sort key ends with them. -/
theorem trimEnd_clause_eq_iff (keys : List SortKey) :
    trimEnd (clause keys) = clause keys ↔ ∀ k ∈ keys.getLast?, ¬k.EndsBlank := by
  rcases List.eq_nil_or_concat' keys with rfl | ⟨keys, k, rfl⟩
  · simp [clause, trimEnd]
  · obtain ⟨front, hclause⟩ := exists_clause_concat keys k
    have hends : EndsSolid ('O' :: front ++ ' ' :: k.item) ↔ EndsSolid (' ' :: k.item) :=
      endsSolid_append_iff (List.cons_ne_nil _ _)
    -- what is in front of the last key does not matter, since that has a blank before it
    rw [hclause, trimEnd_eq_self_iff (List.cons_ne_nil _ _), List.getLast?_concat]
    rw [List.cons_append] at hends
    rw [hends, endsSolid_item_iff]
    simp

end SortKey

namespace Query

/-- The clauses that there are, joined by spaces. -/
def joined (clauses : List (List Char)) : List Char :=
  [' '].intercalate (clauses.filter (!·.isEmpty))

/-- **The text of a query** is made of the clauses as they are, apart from the blanks behind the
last sort key. -/
theorem joinClauses_eq (ps : List Predicate) (keys : List SortKey) (p : Page)
    (defaultSize : UInt64) :
    joinClauses [Predicate.clause ps, SortKey.clause keys, p.clause defaultSize] =
      joined [Predicate.clause ps, trimEnd (SortKey.clause keys), p.clause defaultSize] := by
  unfold joinClauses joined
  simp only [List.map_cons, List.map_nil, Predicate.trim_clause, SortKey.trim_clause,
    Page.trim_clause]

/-- **Nothing is lost when clauses are joined.** -/
theorem sql_ofCriteria (defaultSize : UInt64) :
    (∀ c ps, Predicate.ofFilters c.filters = .ok ps → ∃ q, ofCriteria defaultSize c = .ok q ∧
      q.sql.toList = joined [Predicate.clause ps, trimEnd (SortKey.clause c.sorts),
        c.page.clause defaultSize] ∧
      trim (Predicate.clause ps) = Predicate.clause ps ∧
      trim (c.page.clause defaultSize) = c.page.clause defaultSize ∧
      trim (SortKey.clause c.sorts) = trimEnd (SortKey.clause c.sorts) ∧
      (∃ blanks, (∀ b ∈ blanks, isBlank b = true) ∧
        SortKey.clause c.sorts = trimEnd (SortKey.clause c.sorts) ++ blanks) ∧
      (trimEnd (SortKey.clause c.sorts) ≠ SortKey.clause c.sorts ↔
        ∃ k, c.sorts.getLast? = some k ∧ k.EndsBlank)) ∧
    ∀ lines sort parts c, Criteria.ofText lines sort parts = .ok c →
      ∃ ps q, Predicate.ofFilters c.filters = .ok ps ∧ ofCriteria defaultSize c = .ok q ∧
        q.sql.toList = joined [Predicate.clause ps, SortKey.clause c.sorts,
          c.page.clause defaultSize] := by
  have hsql : ∀ c ps, Predicate.ofFilters c.filters = .ok ps →
      ∃ q, ofCriteria defaultSize c = .ok q ∧ q.sql.toList =
        joined [Predicate.clause ps, trimEnd (SortKey.clause c.sorts),
          c.page.clause defaultSize] := by
    intro c ps hps
    refine ⟨_, ofCriteria_eq_ok hps defaultSize, ?_⟩
    rw [String.toList_ofList, joinClauses_eq]
  -- criteria of any origin may lose blanks, and those that were read have none to lose
  refine ⟨?_, ?_⟩
  · intro c ps hps
    obtain ⟨q, hq, htext⟩ := hsql c ps hps
    refine ⟨q, hq, htext, Predicate.trim_clause ps, c.page.trim_clause defaultSize,
      SortKey.trim_clause c.sorts, exists_trimEnd_append _, ?_⟩
    rw [ne_eq, SortKey.trimEnd_clause_eq_iff]
    simp
  · intro lines sort parts c hc
    obtain ⟨hfilters, hsorts, -⟩ := Criteria.ofText_eq_ok_iff.mp hc
    have hkept := Predicate.kept_of_readFrom (Filter.readFrom_of_ofLinesFrom hfilters)
    have hps : Predicate.ofFilters c.filters = .ok (Predicate.emitted c.filters) :=
      Predicate.ofFilters_eq_ok_iff.mpr ⟨fun f hf => (hkept f hf).1, rfl⟩
    -- the sort keys were trimmed when they were read, so that they have nothing to lose here
    have hwritable := (SortKey.ofExpression_eq_ok_iff.mp hsorts).1
    have hkeys : trimEnd (SortKey.clause c.sorts) = SortKey.clause c.sorts := by
      rw [SortKey.trimEnd_clause_eq_iff]
      intro k hk
      exact (hwritable k (List.mem_of_getLast? hk)).not_endsBlank
    obtain ⟨q, hq, htext⟩ := hsql c _ hps
    rw [hkeys] at htext
    exact ⟨_, q, hps, hq, htext⟩

/-- Blanks behind a field without a direction are lost, and those in front of a direction are
not. -/
theorem sql_ofCriteria_of_blanks :
    let c : Criteria :=
      { filters := [{ field := " LIMIT", operator := .isIn, value := .list (.ints [1, 2]) }],
        sorts := [{ field := " ", direction := some .desc }, { field := "a\t " }],
        page := { size := 5 } }
    let d : Criteria :=
      { filters := [{ field := "a", operator := .equal, value := .string "1" }],
        sorts := [{ field := "b ", direction := some .asc }, { field := "c" }],
        page := { number := 2 } }
    let ps := Predicate.emitted c.filters
    Predicate.ofFilters c.filters = .ok ps ∧
      (∃ q, ofCriteria 10 c = .ok q ∧
        q.sql.toList = "WHERE  LIMIT IN ($1, $2) ORDER BY   DESC, a LIMIT 5 OFFSET 0".toList) ∧
      trimEnd (SortKey.clause c.sorts) ≠ SortKey.clause c.sorts ∧
      Criteria.ofText ["@a = [1]"] "b +:c " ["page:2"] = .ok d ∧
      ∃ q, ofCriteria 10 d = .ok q ∧
        q.sql.toList = "WHERE a = $1 ORDER BY b  ASC, c LIMIT 10 OFFSET 10".toList := by
  intro c d ps
  obtain ⟨hany, hread⟩ := sql_ofCriteria 10
  have hps : Predicate.ofFilters c.filters = .ok ps := rfl
  obtain ⟨q, hq, htext, -, -, -, -, hblank⟩ := hany c ps hps
  have hd : Criteria.ofText ["@a = [1]"] "b +:c " ["page:2"] = .ok d := by decide +kernel
  obtain ⟨ps', q', hps', hq', htext'⟩ := hread _ _ _ d hd
  obtain rfl : Predicate.emitted d.filters = ps' := Except.ok.inj hps'
  have hlost : trimEnd (SortKey.clause c.sorts) ≠ SortKey.clause c.sorts :=
    hblank.mpr ⟨_, rfl, rfl, .inr ⟨' ', rfl, rfl⟩⟩
  refine ⟨hps, ⟨q, hq, htext.trans ?_⟩, hlost, hd, q', hq', ?_⟩
  · decide +kernel
  · rw [htext']
    decide +kernel

end Query

end FilterQuery

import FilterQuery.Proofs.Outcome
import FilterQuery.Proofs.Text.Pieces
import FilterQuery.SortKey.Expression

/-!
# Sort expressions are read as they are written

A sort key is written as its field with the sign of its direction behind it, and sort keys are
written with colons between them (`SortKey.expression`). Blanks are trimmed before the sign is taken
off a piece and not behind that, so that a field keeps the blanks in front of its sign, and of
several signs only the last one says a direction.

* `SortKey.ofPiece?_eq_some_iff` is the reading of one piece: no two keys are written alike, and the
  key that is written there (`SortKey.written`) is read unless it has no field.
* `SortKey.ofExpression_eq_ok_iff` is the reading of an expression. Its pieces are trimmed and have
  no colon in them, so that the keys that are read are the keys that can be written
  (`SortKey.IsWritable`).
* `SortKey.ofExpression_expression` draws the conclusions.
-/

namespace FilterQuery

open Text

/-- What stands behind a field that is sorted in the direction. -/
def Direction.sign : Direction → Char
  | asc => '+'
  | desc => '-'

theorem Direction.sign_inj {d d' : Direction} (h : d.sign = d'.sign) : d = d' := by
  revert h
  cases d <;> cases d' <;> decide

theorem Direction.not_isBlank_sign (d : Direction) : isBlank d.sign = false := by
  cases d <;> rfl

namespace SortKey

/-- The key as a piece of an expression. -/
def written (k : SortKey) : List Char := k.field.toList ++ (k.direction.map Direction.sign).toList

/-- The keys as an expression. -/
def expression (keys : List SortKey) : List Char := [':'].intercalate (keys.map written)

/-- If the key says no direction, its field does not look as if it did. -/
def ShowsDirection (k : SortKey) : Prop :=
  k.direction = none → ∀ c ∈ k.field.toList.getLast?, c ≠ '+' ∧ c ≠ '-'

/-- The key can be written so that it is read back. -/
structure IsWritable (k : SortKey) : Prop where
  field_ne : k.field ≠ ""
  no_colon : ':' ∉ k.field.toList
  start : ∀ c ∈ k.field.toList.head?, isBlank c = false
  /-- A sign shields the blanks in front of it. -/
  finish : k.direction = none → ∀ c ∈ k.field.toList.getLast?, isBlank c = false
  shows : k.ShowsDirection

variable {s t piece : List Char} {c : Char} {k l : SortKey}

/-! ## One piece -/

/-- The last character is taken off iff it is the one that is looked for. -/
theorem dropLast?_eq_some_iff : dropLast? c s = some t ↔ s = t ++ [c] := by
  unfold dropLast?
  constructor
  · intro h
    split at h
    · next hlast =>
      obtain ⟨front, rfl⟩ := List.getLast?_eq_some_iff.mp hlast
      cases h
      rw [List.dropLast_concat]
    · cases h
  · rintro rfl
    rw [List.getLast?_concat, if_pos rfl, List.dropLast_concat]

theorem dropLast?_eq_none_iff : dropLast? c s = none ↔ ∀ d ∈ s.getLast?, d ≠ c := by
  unfold dropLast?
  split
  · next hlast => simp [hlast]
  · next hlast =>
    refine iff_of_true rfl ?_
    rintro d hd rfl
    exact hlast hd

/-- **Every piece is written** by some key, which is read from it if it has a field. -/
theorem exists_written (piece : List Char) :
    ∃ k : SortKey, piece = k.written ∧ k.ShowsDirection ∧
      ofPiece? piece = if k.field = "" then none else some k := by
  unfold ofPiece?
  cases hplus : dropLast? '+' piece with
  | some field =>
    refine ⟨{ field := String.ofList field, direction := some .asc }, ?_, ?_, ?_⟩
    · simpa [written, Direction.sign] using dropLast?_eq_some_iff.mp hplus
    · rintro ⟨⟩
    · simp
  | none =>
    cases hminus : dropLast? '-' piece with
    | some field =>
      refine ⟨{ field := String.ofList field, direction := some .desc }, ?_, ?_, ?_⟩
      · simpa [written, Direction.sign] using dropLast?_eq_some_iff.mp hminus
      · rintro ⟨⟩
      · simp
    | none =>
      -- both signs were looked for in vain
      refine ⟨{ field := String.ofList piece }, ?_, ?_, ?_⟩
      · simp [written]
      · intro _ c hc
        rw [String.toList_ofList] at hc
        exact ⟨dropLast?_eq_none_iff.mp hplus c hc, dropLast?_eq_none_iff.mp hminus c hc⟩
      · simp

theorem getLast?_written_of_some {d : Direction} (h : k.direction = some d) :
    k.written.getLast? = some d.sign := by
  unfold written
  rw [h, Option.map_some, Option.toList_some, List.getLast?_concat]

/-- A field that does not look as if it had a sign is not mistaken for one that has. -/
theorem direction_eq_none_of_written_eq (hk : k.ShowsDirection) (h : k.written = l.written)
    (hnone : k.direction = none) : l.direction = none := by
  cases hl : l.direction with
  | none => rfl
  | some d =>
    -- the sign of `l` would be the last character of the field of `k`
    have hlast : d.sign ∈ k.field.toList.getLast? := by
      have hwritten := getLast?_written_of_some hl
      rw [← h] at hwritten
      simpa [written, hnone] using hwritten
    obtain ⟨hplus, hminus⟩ := hk hnone d.sign hlast
    cases d
    · exact absurd rfl hplus
    · exact absurd rfl hminus

/-- **No two keys are written alike.** -/
theorem written_inj (hk : k.ShowsDirection) (hl : l.ShowsDirection) (h : k.written = l.written) :
    k = l := by
  -- the direction is known from the last character, and the field is what is in front of it
  have hdirection : k.direction = l.direction := by
    cases hd : k.direction with
    | none => exact (direction_eq_none_of_written_eq hk h hd).symm
    | some d =>
      cases hd' : l.direction with
      | none =>
        rw [direction_eq_none_of_written_eq hl h.symm hd'] at hd
        cases hd
      | some d' =>
        have hsigns := getLast?_written_of_some hd
        rw [h, getLast?_written_of_some hd'] at hsigns
        exact congrArg some (Direction.sign_inj (Option.some.inj hsigns)).symm
  have hfield : k.field = l.field := by
    unfold written at h
    rw [hdirection] at h
    exact String.toList_inj.mp (List.append_cancel_right h)
  cases k
  cases l
  cases hfield
  cases hdirection
  rfl

/-- **The reading of one piece**: the key that is written there, if it has a field. -/
theorem ofPiece?_eq_some_iff :
    ofPiece? piece = some k ↔ piece = k.written ∧ k.field ≠ "" ∧ k.ShowsDirection := by
  obtain ⟨l, rfl, hl, hread⟩ := exists_written piece
  rw [hread]
  constructor
  · intro h
    split at h
    · cases h
    · next hne =>
      cases h
      exact ⟨rfl, hne, hl⟩
  · rintro ⟨hwritten, hne, hk⟩
    -- the piece is written by one key only
    rw [written_inj hl hk hwritten, if_neg hne]

/-- A piece without a field is empty, or is a sign alone. -/
theorem ofPiece?_eq_none_iff :
    ofPiece? piece = none ↔ piece = [] ∨ piece = ['+'] ∨ piece = ['-'] := by
  constructor
  · intro h
    obtain ⟨k, rfl, -, hread⟩ := exists_written piece
    -- only a key without a field is not read
    have hempty : k.field = "" := by
      by_contra hne
      rw [h, if_neg hne] at hread
      cases hread
    unfold written
    rw [hempty]
    cases k.direction with
    | none => exact .inl rfl
    | some d =>
      cases d with
      | asc => exact .inr (.inl rfl)
      | desc => exact .inr (.inr rfl)
  · rintro (rfl | rfl | rfl) <;> rfl

/-! ## Pieces of an expression -/

/-- The trimmed pieces between the colons. A blank expression has none. -/
def pieces (s : List Char) : List (List Char) :=
  if trim s = [] then [] else ((trim s).splitOn ':').map trim

/-- The pieces decide what an expression is read as. -/
theorem ofExpression_eq (e : String) :
    ofExpression e = match (pieces e.toList).mapM ofPiece? with
      | some keys => .ok keys
      | none => .error (.emptySort (String.ofList (trim e.toList))) := by
  unfold ofExpression pieces
  by_cases hblank : trim e.toList = []
  · simp [hblank]
  · simp only [List.isEmpty_iff, hblank, if_false, List.mapM_map]
    rfl

theorem trimmed_of_mem_pieces (h : piece ∈ pieces s) : ':' ∉ piece ∧ trim piece = piece := by
  unfold pieces at h
  split at h
  · cases h
  · exact trimmed_of_mem_map_splitOn h

theorem exists_mem_pieces_iff {p : List Char → Prop} :
    (∃ piece ∈ pieces s, p piece) ↔
      trim s ≠ [] ∧ ∃ piece ∈ (trim s).splitOn ':', p (trim piece) := by
  unfold pieces
  split
  · next hblank => simp [hblank]
  · next hblank => simp [hblank]

/-! ## Keys as pieces -/

theorem written_ne_nil (hne : k.field ≠ "") : k.written ≠ [] := by
  unfold written
  simp [hne]

theorem head?_written (hne : k.field ≠ "") : k.written.head? = k.field.toList.head? := by
  have hfield : k.field.toList ≠ [] := by simpa using hne
  obtain ⟨c, rest, hcons⟩ := List.exists_cons_of_ne_nil hfield
  unfold written
  rw [hcons, List.cons_append, List.head?_cons, List.head?_cons]

/-- A key is trimmed when it is written iff it has no blank where trimming removes it. -/
theorem trim_written_iff (hne : k.field ≠ "") :
    trim k.written = k.written ↔ (∀ c ∈ k.field.toList.head?, isBlank c = false) ∧
      (k.direction = none → ∀ c ∈ k.field.toList.getLast?, isBlank c = false) := by
  rw [trim_eq_self_iff, head?_written hne]
  refine and_congr_right fun _ => ?_
  -- behind the field there may be a sign, and that is no blank
  cases hd : k.direction with
  | none => simp [written, hd]
  | some d => simp [getLast?_written_of_some hd, d.not_isBlank_sign]

theorem colon_notMem_written_iff : ':' ∉ k.written ↔ ':' ∉ k.field.toList := by
  unfold written
  cases k.direction with
  | none => simp
  | some d => cases d <;> simp [Direction.sign]

theorem IsWritable.trim_written (hk : k.IsWritable) : trim k.written = k.written :=
  (trim_written_iff hk.field_ne).mpr ⟨hk.start, hk.finish⟩

/-- A trimmed piece without a colon is a key that can be written. -/
theorem ofPiece?_eq_some_iff_of_trimmed (hcolon : ':' ∉ piece) (htrim : trim piece = piece) :
    ofPiece? piece = some k ↔ k.IsWritable ∧ piece = k.written := by
  rw [ofPiece?_eq_some_iff]
  constructor
  · rintro ⟨rfl, hne, hshows⟩
    obtain ⟨hstart, hfinish⟩ := (trim_written_iff hne).mp htrim
    exact ⟨⟨hne, colon_notMem_written_iff.mp hcolon, hstart, hfinish, hshows⟩, rfl⟩
  · rintro ⟨hk, rfl⟩
    exact ⟨rfl, hk.field_ne, hk.shows⟩

/-! ## Expressions -/

/-- Trimmed pieces without colons are read as the keys that are written there, in order. -/
theorem forall₂_ofPiece?_iff {ps : List (List Char)} {keys : List SortKey}
    (hps : ∀ piece ∈ ps, ':' ∉ piece ∧ trim piece = piece) :
    List.Forall₂ (fun piece k => ofPiece? piece = some k) ps keys ↔
      (∀ k ∈ keys, k.IsWritable) ∧ ps = keys.map written := by
  -- pieces and keys go side by side
  induction ps generalizing keys with
  | nil => cases keys <;> simp [List.forall₂_nil_left_iff]
  | cons piece ps ih =>
    cases keys with
    | nil => simp [List.forall₂_nil_right_iff]
    | cons k keys =>
      obtain ⟨⟨hcolon, htrim⟩, hps⟩ := List.forall_mem_cons.mp hps
      rw [List.forall₂_cons, ofPiece?_eq_some_iff_of_trimmed hcolon htrim, ih hps,
        List.forall_mem_cons, List.map_cons, List.cons.injEq]
      exact and_and_and_comm

/-- **The reading of an expression**: the keys that are written in its pieces. -/
theorem ofExpression_eq_ok_iff {e : String} {keys : List SortKey} :
    ofExpression e = .ok keys ↔
      (∀ k ∈ keys, k.IsWritable) ∧ pieces e.toList = keys.map written := by
  rw [← forall₂_ofPiece?_iff fun _ h => trimmed_of_mem_pieces h, ← mapM_eq_some_iff,
    ofExpression_eq]
  cases (pieces e.toList).mapM ofPiece? <;> simp

/-- **An expression is refused** iff one of its pieces has no field. -/
theorem ofExpression_eq_error_iff {e : String} {complaint : Error} :
    ofExpression e = .error complaint ↔
      (∃ piece ∈ pieces e.toList, piece = [] ∨ piece = ['+'] ∨ piece = ['-']) ∧
        complaint = .emptySort (String.ofList (trim e.toList)) := by
  simp only [← ofPiece?_eq_none_iff]
  rw [← mapM_eq_none_iff, ofExpression_eq]
  cases (pieces e.toList).mapM ofPiece? <;> simp [eq_comm]

/-- **Keys that can be written are the pieces** of the expression that they are written as. -/
theorem pieces_expression {keys : List SortKey} (hkeys : ∀ k ∈ keys, k.IsWritable) :
    pieces (expression keys) = keys.map written := by
  have htexts : ∀ t ∈ keys.map written, ':' ∉ t ∧ t ≠ [] ∧ trim t = t := by
    intro t ht
    obtain ⟨k, hk, rfl⟩ := List.mem_map.mp ht
    have hwritable := hkeys k hk
    exact ⟨colon_notMem_written_iff.mpr hwritable.no_colon, written_ne_nil hwritable.field_ne,
      hwritable.trim_written⟩
  have htrim : trim (expression keys) = expression keys :=
    trim_intercalate (fun t ht => (htexts t ht).2) [':']
  cases keys with
  | nil => rfl
  | cons k keys =>
    have hsplit : (expression (k :: keys)).splitOn ':' = (k :: keys).map written :=
      List.splitOn_intercalate ':' (fun t ht => (htexts t ht).1) (List.cons_ne_nil _ _)
    -- an empty text would have one empty piece, and no key is written as that
    have hne : expression (k :: keys) ≠ [] := by
      intro hnil
      rw [hnil] at hsplit
      obtain ⟨hk, -⟩ := List.cons.inj hsplit
      exact (htexts k.written List.mem_cons_self).2.1 hk.symm
    unfold pieces
    rw [htrim, if_neg hne, hsplit, List.map_congr_left fun t ht => (htexts t ht).2.2, List.map_id']

/-- Between two colons there is nothing that is more than a sign. -/
def LacksField (s : List Char) : Prop :=
  trim s ≠ [] ∧
    ∃ piece ∈ (trim s).splitOn ':', trim piece = [] ∨ trim piece = ['+'] ∨ trim piece = ['-']

theorem ofExpression_eq_error_iff_lacksField {e : String} {complaint : Error} :
    ofExpression e = .error complaint ↔
      LacksField e.toList ∧ complaint = .emptySort (String.ofList (trim e.toList)) := by
  rw [ofExpression_eq_error_iff, exists_mem_pieces_iff, LacksField]

/-- **What is written is read back, and what is read can be written.** Keys are read from their own
expression iff they can be written, and all keys that are read from any expression can. An
expression is refused, and quoted without the blanks around it, iff some item of it lacks a field;
else there is a key for each item, in order, and none if the expression is blank. -/
theorem ofExpression_expression :
    (∀ keys, ofExpression (String.ofList (expression keys)) = .ok keys ↔
      ∀ k ∈ keys, k.IsWritable) ∧
    (∀ e keys, ofExpression e = .ok keys → (∀ k ∈ keys, k.IsWritable) ∧
      ofExpression (String.ofList (expression keys)) = .ok keys) ∧
    (∀ e complaint, ofExpression e = .error complaint ↔ LacksField e.toList ∧
      complaint = .emptySort (String.ofList (trim e.toList)) ∧
      complaint.message = "invalid sort expression: empty field in '" ++
        String.ofList (trim e.toList) ++ "'") ∧
    ∀ e, ¬LacksField e.toList → ∃ keys, ofExpression e = .ok keys ∧
      if trim e.toList = [] then keys = []
      else List.Forall₂ (fun piece k => trim piece = k.written) ((trim e.toList).splitOn ':')
        keys := by
  have hback : ∀ keys, ofExpression (String.ofList (expression keys)) = .ok keys ↔
      ∀ k ∈ keys, k.IsWritable := by
    intro keys
    rw [ofExpression_eq_ok_iff, String.toList_ofList]
    exact and_iff_left_of_imp pieces_expression
  refine ⟨hback, ?_, ?_, ?_⟩
  · intro e keys h
    have hwritable := (ofExpression_eq_ok_iff.mp h).1
    exact ⟨hwritable, (hback keys).mpr hwritable⟩
  · intro e complaint
    rw [ofExpression_eq_error_iff_lacksField]
    -- the complaint has one message
    refine and_congr_right fun _ => ?_
    constructor
    · rintro rfl
      exact ⟨rfl, rfl⟩
    · exact And.left
  · intro e hfields
    cases hread : ofExpression e with
    | error complaint => exact absurd (ofExpression_eq_error_iff_lacksField.mp hread).1 hfields
    | ok keys =>
      refine ⟨keys, rfl, ?_⟩
      -- a blank expression has no pieces, and any other one those between its colons
      have hpieces := (ofExpression_eq_ok_iff.mp hread).2
      unfold pieces at hpieces
      split
      · next hblank =>
        rw [if_pos hblank] at hpieces
        exact List.map_eq_nil_iff.mp hpieces.symm
      · next hblank =>
        rw [if_neg hblank, ← List.forall₂_eq_eq_eq, List.forall₂_map_left_iff,
          List.forall₂_map_right_iff] at hpieces
        exact hpieces

/-- A blank in front of a sign belongs to the field, and so does a sign in front of another one. A
sign alone has no field. -/
theorem ofExpression_expression_of_signs :
    let keys : List SortKey :=
      [{ field := "a ", direction := some .asc }, { field := "b+", direction := some .desc },
        { field := "c  d" }]
    ofExpression " a + : b+-:c  d" = .ok keys ∧ (∀ k ∈ keys, k.IsWritable) ∧
      ofExpression "a +:b+-:c  d" = .ok keys ∧ ¬LacksField " a + : b+-:c  d".toList ∧
      List.Forall₂ (fun piece k => trim piece = written k)
        ["a + ".toList, " b+-".toList, "c  d".toList] keys ∧
      LacksField " a:+ :b ".toList ∧ ofExpression " a:+ :b " = .error (.emptySort "a:+ :b") := by
  intro keys
  obtain ⟨-, hread, herror, hitems⟩ := ofExpression_expression
  have hkeys : ofExpression " a + : b+-:c  d" = .ok keys := rfl
  obtain ⟨hwritable, hback⟩ := hread _ keys hkeys
  have hfields : ¬LacksField " a + : b+-:c  d".toList := by
    intro hlacks
    have hrefused := (herror " a + : b+-:c  d" _).mpr ⟨hlacks, rfl, rfl⟩
    rw [hkeys] at hrefused
    cases hrefused
  obtain ⟨keys', hkeys', hforall⟩ := hitems _ hfields
  rw [hkeys] at hkeys'
  cases hkeys'
  have hlacks : LacksField " a:+ :b ".toList :=
    ⟨by decide, "+ ".toList, by decide, .inr (.inl rfl)⟩
  exact ⟨hkeys, hwritable, hback, hfields, hforall, hlacks, (herror _ _).mpr ⟨hlacks, rfl, rfl⟩⟩

end SortKey

end FilterQuery

import FilterQuery.Proofs.Filter.Lines
import FilterQuery.Proofs.Query.Inert
import FilterQuery.Proofs.Query.Walk

/-!
# From lines to the clause

Filters that were read from lines always make a query. A list operator has at least one alternative,
as the text between the brackets has one more piece than commas, and any other operator has a
string. So every filter fits and none is left out (`Filter.kept_of_means`), and every line becomes
the predicate that it spells (`Predicate.spelledOn_of_readFrom`).

The name of a field is the only text of a line that is copied into the clause, and the grammar
admits letters and underscores in it. The clause is inert, whatever the lines contain.
-/

namespace FilterQuery

open Text

/-- The predicate spelled by the parts of a line: an operator with a single value binds the text
between the brackets as it stands. -/
structure Line.Spells (line : Line) (p : Predicate) : Prop where
  field : p.field = String.ofList line.field
  operator : p.operator.SpelledBy line.operator
  arguments : if p.operator.takesList = true then
      ∃ xs, ValueList.ofText line.value = .ok xs ∧ p.arguments = xs.toValues ∧
        p.arguments.length = line.value.count ',' + 1
    else p.arguments = [.string (String.ofList line.value)]
  opens : p.opens = UInt64.ofNat line.opens
  closes : p.closes = UInt64.ofNat line.closes
  connective : lower p.connective.word.toList =
    (line.key.map lower).getD (lower Connective.and.word.toList)

namespace Filter

/-- A filter with the meaning of a line fits and is not left out. -/
theorem kept_of_means {line : Line} {f : Filter} (h : line.Means f) :
    f.fits = true ∧ f.leftOut = false := by
  unfold fits leftOut
  cases hop : f.operator.takesList with
  | false =>
    rw [h.single_value hop]
    exact ⟨rfl, rfl⟩
  | true =>
    obtain ⟨xs, hxs, hvalue⟩ := h.list_value hop
    -- even the empty text has one piece between its commas
    have hne : xs.toValues ≠ [] := by
      intro hnil
      have hlength := ValueList.length_of_ofText hxs
      rw [hnil, List.length_nil] at hlength
      omega
    rw [hvalue]
    exact ⟨rfl, by simpa [Value.elements] using hne⟩

/-- A predicate that copies a filter is spelled by the line that the filter was read from. -/
theorem spells_of_means {line : Line} {f : Filter} {p : Predicate} (h : line.Means f)
    (hp : Predicate.Copies f p) : line.Spells p := by
  have hcontent := hp.content
  unfold Predicate.content content at hcontent
  simp only [Prod.mk.injEq] at hcontent
  obtain ⟨hfield, hoperator, hoperand⟩ := hcontent
  have harguments : p.arguments = f.bound := by
    rw [Predicate.arguments, hoperand, values_operand]
  refine ⟨hfield.trans h.field, ?_, ?_, hp.opens.trans h.opens, hp.closes.trans h.closes, ?_⟩
  · rw [hoperator]
    exact h.operator
  · rw [hoperator, harguments, bound]
    cases hop : f.operator.takesList with
    | false =>
      rw [if_neg Bool.false_ne_true, if_neg Bool.false_ne_true, h.single_value hop]
    | true =>
      obtain ⟨xs, hxs, hvalue⟩ := h.list_value hop
      rw [if_pos rfl, if_pos rfl, hvalue]
      exact ⟨xs, hxs, rfl, ValueList.length_of_ofText hxs⟩
  · rw [hp.connective, h.key]
    unfold connective
    cases f.key <;> rfl

end Filter

namespace Predicate

/-- The predicate is the one that the line spells, as the reader cuts it. -/
def SpelledOn (line : String) (p : Predicate) : Prop :=
  ∃ parts : Line, Line.ofText? (trim line.toList) = some parts ∧
    parts.IsCutOf (trim line.toList) ∧ parts.Spells p

variable {lines : List String} {filters : List Filter} {ps : List Predicate}

theorem kept_of_readFrom (h : List.Forall₂ Filter.ReadFrom lines filters) :
    ∀ f ∈ filters, f.fits = true ∧ f.leftOut = false := by
  induction h with
  | nil => simp
  | cons hf _ ih =>
    obtain ⟨number, hread⟩ := hf
    -- a line that is read has parts, and they have a meaning
    obtain ⟨parts, -, hmeans⟩ := Filter.exists_means_of_ofLine hread
    intro f hf
    rcases List.mem_cons.mp hf with rfl | hf
    · exact Filter.kept_of_means hmeans
    · exact ih f hf

theorem spelledOn_of_readFrom (h : List.Forall₂ Filter.ReadFrom lines filters)
    (hcopies : List.Forall₂ Copies filters ps) : List.Forall₂ SpelledOn lines ps := by
  induction h generalizing ps with
  | nil =>
    cases hcopies
    exact .nil
  | cons hf _ ih =>
    obtain ⟨number, hread⟩ := hf
    obtain ⟨parts, hparts, hmeans⟩ := Filter.exists_means_of_ofLine hread
    cases hcopies with
    | cons hp hrest =>
      have hspells := Filter.spells_of_means hmeans hp
      exact .cons ⟨parts, hparts, Line.ofText?_sound hparts, hspells⟩ (ih hrest)

/-- The grammar admits plain characters only in the name of a field. -/
theorem all_isPlain_field_of_spelledOn (h : List.Forall₂ SpelledOn lines ps) :
    ∀ p ∈ ps, p.field.toList.all isPlain = true := by
  induction h with
  | nil => simp
  | cons hp _ ih =>
    obtain ⟨parts, -, hcut, hspells⟩ := hp
    intro p hp
    rcases List.mem_cons.mp hp with rfl | hp
    · rw [hspells.field, String.toList_ofList, List.all_eq_true]
      intro c hc
      have hchar := hcut.isFieldChar c hc
      unfold Line.isFieldChar at hchar
      unfold isPlain
      rw [Bool.or_eq_true] at hchar ⊢
      rcases hchar with halpha | hunderscore
      · exact .inl halpha
      · right
        rw [eq_of_beq hunderscore]
        decide
    · exact ih p hp

/-- **From lines to the clause.** Filters read from lines, in one go or in several, always make
predicates: every line the one that it spells, in the order of the lines. Their clause is written
with letters, underscores, spaces, parentheses, commas, signs of comparison and numbered
placeholders, whatever the lines contain, and the arguments of a query are those of the lines. -/
theorem exists_ofFilters_of_ofLines {batches : List (List String)} {parsed : List (List Filter)}
    (hparsed : List.Forall₂ (fun lines filters => Filter.ofLines lines = .ok filters)
      batches parsed) :
    ∃ ps, ofFilters parsed.flatten = .ok ps ∧ List.Forall₂ SpelledOn batches.flatten ps ∧
      (∀ c ∈ clause ps, isPlain c = true ∨ c = '$' ∨ c.isDigit = true) ∧
      (∀ before d after, clause ps = before ++ d :: after → d.isDigit = true →
        ∃ head digits, before = head ++ '$' :: digits ∧ ∀ c ∈ digits, c.isDigit = true) ∧
      (∀ c ∈ "'\"`;-/*#\\".toList, c ∉ clause ps) ∧
      ∀ defaultSize sorts page, ∃ q,
        Query.ofCriteria defaultSize { filters := parsed.flatten, sorts, page } = .ok q ∧
          q.arguments = ps.flatMap arguments := by
  -- batches that are read one by one are read as a whole
  have hread : List.Forall₂ Filter.ReadFrom batches.flatten parsed.flatten :=
    List.rel_flatten (hparsed.imp fun _ _ h => Filter.readFrom_of_ofLinesFrom h)
  have hkept := kept_of_readFrom hread
  have hps : ofFilters parsed.flatten = .ok (emitted parsed.flatten) :=
    ofFilters_eq_ok_iff.mpr ⟨fun f hf => (hkept f hf).1, rfl⟩
  have hspelled := spelledOn_of_readFrom hread (copies_emitted fun f hf => (hkept f hf).2)
  have hinert := inert_clause (all_isPlain_field_of_spelledOn hspelled)
  refine ⟨_, hps, hspelled, hinert.mem, ?_, ?_, ?_⟩
  · intro before d after hclause hd
    exact hinert.dollar_before_digit hclause hd
  · intro c hc
    -- the signs that could end a statement are none of those that the clause is written with
    have hforeign : "'\"`;-/*#\\".toList.any
        (fun c => isPlain c || c == '$' || c.isDigit) = false := by
      decide
    exact hinert.notMem_of_not (Bool.eq_false_iff.mpr (List.any_eq_false.mp hforeign c hc))
  · intro defaultSize sorts page
    exact ⟨_, Query.ofCriteria_eq_ok hps defaultSize, rfl⟩

/-- Text between brackets that would end the statement is bound and never shown. -/
theorem exists_ofFilters_of_ofLines_drop :
    let batches := [["(@name CONTAINS ['; drop table users --] or"], [], ["@ageIN[1, 2])"]]
    let parsed : List (List Filter) :=
      [[{ field := "name", operator := .contains, value := .string "'; drop table users --",
          opens := 1, key := some .or }], [],
        [{ field := "age", operator := .isIn, value := .list (.ints [1, 2]), closes := 1 }]]
    List.Forall₂ (fun lines filters => Filter.ofLines lines = .ok filters) batches parsed ∧
      ∃ ps, ofFilters parsed.flatten = .ok ps ∧ '\'' ∉ clause ps ∧
        clause ps = "WHERE (name ILIKE $1 OR age IN ($2, $3))".toList := by
  intro batches parsed
  have hparsed : List.Forall₂ (fun lines filters => Filter.ofLines lines = .ok filters)
      batches parsed := .cons rfl (.cons rfl (.cons rfl .nil))
  obtain ⟨ps, hps, -, -, -, hforeign, -⟩ := exists_ofFilters_of_ofLines hparsed
  refine ⟨hparsed, ps, hps, hforeign '\'' (by decide), ?_⟩
  have hemitted : ofFilters parsed.flatten = .ok (emitted parsed.flatten) := rfl
  rw [hps] at hemitted
  rw [Except.ok.inj hemitted]
  decide

end Predicate

end FilterQuery

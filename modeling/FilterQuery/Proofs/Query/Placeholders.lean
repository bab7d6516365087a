import FilterQuery.Proofs.Query.Walk
import FilterQuery.Proofs.Text.Runs
import FilterQuery.Query.Statement

/-!
# Placeholders and arguments

The clause shows no value. Where one belongs stands a placeholder, and the value becomes an
argument. This module ties the two together.

* `Predicate.clausePieces` is the clause as a sequence of pieces: characters that are copied, and
  placeholders together with the value they stand for. `flatMap_text_clausePieces` says that the
  pieces make up the clause, `filterMap_binding?_clausePieces` that the placeholders are numbered
  from one without a gap and that each stands for the argument of its number.
* `flatMap_arguments_emitted` says which arguments these are: what the filters contribute, in order.
* `Text.placeholderNumbers` scans a text for placeholders. On a clause it finds the same numbers, as
  long as the names of the fields do not contain any dollar sign.
-/

namespace FilterQuery

open Text

inductive Piece where
  | copied (c : Char)
  /-- The placeholder with a number, in the place of a value. -/
  | placeholder (number : Nat) (value : Value)

namespace Piece

def text : Piece → List Char
  | copied c => [c]
  | placeholder number _ => FilterQuery.placeholder number

/-- The value that a placeholder stands for, with the number of the placeholder. -/
def binding? : Piece → Option (Value × Nat)
  | copied _ => none
  | placeholder number value => some (value, number)

def verbatim (s : List Char) : List Piece := s.map copied

@[simp] theorem flatMap_text_verbatim (s : List Char) : (verbatim s).flatMap text = s := by
  induction s with
  | nil => rfl
  | cons c s ih =>
    rw [verbatim, List.map_cons, List.flatMap_cons, ← verbatim, ih]
    rfl

@[simp] theorem filterMap_binding?_verbatim (s : List Char) :
    (verbatim s).filterMap binding? = [] := by
  induction s with
  | nil => rfl
  | cons c s ih => exact ih

end Piece

def Operand.pieces (first : Nat) : Operand → List Piece
  | single value => [.placeholder first value]
  | alternatives values =>
    Piece.verbatim ['('] ++
      (Piece.verbatim [',', ' ']).intercalate
        ((values.zipIdx first).map fun (value, number) => [.placeholder number value]) ++
      Piece.verbatim [')']

namespace Predicate

/-- The pieces of a predicate, its placeholders numbered from `first`. -/
def pieces (first : Nat) (p : Predicate) : List Piece :=
  Piece.verbatim (List.replicate p.opens.toNat '(' ++ p.field.toList ++
      ' ' :: p.operator.keyword.toList ++ [' ']) ++
    p.operand.pieces first ++ Piece.verbatim (List.replicate p.closes.toNat ')')

def joinedPieces (first : Nat) : List Predicate → List Piece
  | [] => []
  | [p] => p.pieces first
  | p :: q :: ps =>
    p.pieces first ++ Piece.verbatim (' ' :: p.connective.word.toList ++ [' ']) ++
      joinedPieces (first + p.arguments.length) (q :: ps)

def clausePieces (ps : List Predicate) : List Piece :=
  if ps.isEmpty then [] else Piece.verbatim "WHERE ".toList ++ joinedPieces 1 ps

end Predicate

/-! ## The pieces make up the clause -/

theorem Operand.flatMap_text_pieces (o : Operand) (first : Nat) :
    (o.pieces first).flatMap Piece.text = o.text first := by
  cases o with
  | single value => exact List.append_nil _
  | alternatives values =>
    -- the placeholders show their numbers only
    have hmarks : ∀ numbered : List (Value × Nat),
        ((Piece.verbatim [',', ' ']).intercalate
            (numbered.map fun (value, number) => [Piece.placeholder number value])).flatMap
              Piece.text =
          [',', ' '].intercalate ((numbered.map Prod.snd).map placeholder) := by
      intro numbered
      induction numbered with
      | nil => rfl
      | cons a numbered ih =>
        cases numbered with
        | nil => simp [Piece.text]
        | cons b numbered =>
          simp only [List.map_cons, List.intercalate_cons_cons, List.flatMap_append,
            Piece.flatMap_text_verbatim] at ih ⊢
          rw [ih]
          simp [Piece.text]
    rw [pieces, List.flatMap_append, List.flatMap_append, hmarks, List.zipIdx_map_snd, text,
      Piece.flatMap_text_verbatim, Piece.flatMap_text_verbatim]
    rfl

theorem Operand.filterMap_binding?_pieces (o : Operand) (first : Nat) :
    (o.pieces first).filterMap Piece.binding? = o.values.zipIdx first := by
  cases o with
  | single value => rfl
  | alternatives values =>
    -- what stands between the placeholders binds nothing
    have hmarks : ∀ numbered : List (Value × Nat),
        ((Piece.verbatim [',', ' ']).intercalate
            (numbered.map fun (value, number) => [Piece.placeholder number value])).filterMap
              Piece.binding? = numbered := by
      intro numbered
      induction numbered with
      | nil => rfl
      | cons a numbered ih =>
        cases numbered with
        | nil => simp [Piece.binding?]
        | cons b numbered =>
          simp only [List.map_cons, List.intercalate_cons_cons, List.filterMap_append,
            Piece.filterMap_binding?_verbatim] at ih ⊢
          rw [ih]
          simp [Piece.binding?]
    rw [pieces, List.filterMap_append, List.filterMap_append, hmarks,
      Piece.filterMap_binding?_verbatim, Piece.filterMap_binding?_verbatim, List.nil_append,
      List.append_nil]
    rfl

namespace Predicate

theorem flatMap_text_pieces (p : Predicate) (first : Nat) :
    (p.pieces first).flatMap Piece.text = p.text first := by
  unfold pieces text
  rw [List.flatMap_append, List.flatMap_append, Operand.flatMap_text_pieces,
    Piece.flatMap_text_verbatim, Piece.flatMap_text_verbatim]
  simp

theorem filterMap_binding?_pieces (p : Predicate) (first : Nat) :
    (p.pieces first).filterMap Piece.binding? = p.arguments.zipIdx first := by
  unfold pieces
  rw [List.filterMap_append, List.filterMap_append, Operand.filterMap_binding?_pieces,
    Piece.filterMap_binding?_verbatim, Piece.filterMap_binding?_verbatim, List.nil_append,
    List.append_nil, arguments]

theorem flatMap_text_joinedPieces (ps : List Predicate) (first : Nat) :
    (joinedPieces first ps).flatMap Piece.text = joined first ps := by
  induction ps generalizing first with
  | nil => rfl
  | cons p ps ih =>
    cases ps with
    | nil => exact p.flatMap_text_pieces first
    | cons q ps =>
      rw [joinedPieces, List.flatMap_append, List.flatMap_append, flatMap_text_pieces,
        Piece.flatMap_text_verbatim, ih, joined]
      simp

/-- Each predicate goes on counting where the one before it stopped. -/
theorem filterMap_binding?_joinedPieces (ps : List Predicate) (first : Nat) :
    (joinedPieces first ps).filterMap Piece.binding? = (ps.flatMap arguments).zipIdx first := by
  -- the number of the first placeholder is left open, as every predicate has its own
  induction ps generalizing first with
  | nil => rfl
  | cons p ps ih =>
    cases ps with
    | nil =>
      rw [joinedPieces, filterMap_binding?_pieces, List.flatMap_cons, List.flatMap_nil,
        List.append_nil]
    | cons q ps =>
      rw [joinedPieces, List.filterMap_append, List.filterMap_append, filterMap_binding?_pieces,
        Piece.filterMap_binding?_verbatim, ih, List.append_nil,
        show (p :: q :: ps).flatMap arguments = p.arguments ++ (q :: ps).flatMap arguments from rfl,
        List.zipIdx_append]

/-- **The pieces make up the clause.** -/
theorem flatMap_text_clausePieces (ps : List Predicate) :
    (clausePieces ps).flatMap Piece.text = clause ps := by
  unfold clausePieces clause
  by_cases hps : ps.isEmpty = true
  · rw [if_pos hps, if_pos hps]
    rfl
  · rw [if_neg hps, if_neg hps, List.flatMap_append, Piece.flatMap_text_verbatim,
      flatMap_text_joinedPieces]

/-- **The placeholders of the clause are numbered from one, each in the place of the argument that
has its number.** -/
theorem filterMap_binding?_clausePieces (ps : List Predicate) :
    (clausePieces ps).filterMap Piece.binding? = (ps.flatMap arguments).zipIdx 1 := by
  unfold clausePieces
  cases ps with
  | nil => rfl
  | cons p ps =>
    rw [if_neg (by simp), List.filterMap_append, Piece.filterMap_binding?_verbatim,
      List.nil_append, filterMap_binding?_joinedPieces]

/-! ## The arguments come from the filters -/

/-- **The arguments are what the filters contribute**, one filter after the other. A filter that is
left out contributes nothing. -/
theorem flatMap_arguments_emitted (filters : List Filter) :
    (emitted filters).flatMap arguments = filters.flatMap Filter.bound := by
  have hcontent : (emitted filters).flatMap arguments =
      ((emitted filters).map content).flatMap fun c => c.2.2.values := by
    rw [List.flatMap_map]
    rfl
  rw [hcontent, map_content_emitted, List.flatMap_map]
  clear hcontent
  induction filters with
  | nil => rfl
  | cons f fs ih =>
    -- what is left out contributes nothing, so it may stand among the filters all the same
    by_cases hleft : f.leftOut = true
    · rw [List.filter_cons_of_neg (by simp [hleft]), ih, List.flatMap_cons,
        Filter.leftOut_iff.mp hleft, List.nil_append]
    · rw [List.filter_cons_of_pos (by simp [hleft]), List.flatMap_cons, ih, List.flatMap_cons]
      exact congrArg (· ++ fs.flatMap Filter.bound) f.values_operand

end Predicate

/-- The alternatives of a list operator are scalars. -/
theorem Value.isList_of_mem_elements {v w : Value} (h : w ∈ v.elements) : w.isList = false := by
  cases v with
  | null => cases h
  | list xs =>
    cases xs <;>
    · obtain ⟨x, -, rfl⟩ := List.mem_map.mp h
      rfl
  | string s =>
    obtain ⟨piece, -, rfl⟩ := List.mem_map.mp h
    rfl
  | bool b =>
    obtain rfl := List.mem_singleton.mp h
    rfl
  | int n =>
    obtain rfl := List.mem_singleton.mp h
    rfl
  | float x =>
    obtain rfl := List.mem_singleton.mp h
    rfl

/-- Arrays are bound for lists and for nothing else. -/
theorem Parameter.isArray_ofValue (v : Value) : (ofValue v).isArray = v.isList := by
  cases v with
  | list xs => cases xs <;> rfl
  | null | bool | int | float | string => rfl

/-- A filter that fits contributes scalars only. -/
theorem Filter.isList_of_mem_bound {f : Filter} (hfits : f.fits = true) {v : Value}
    (hv : v ∈ f.bound) : v.isList = false := by
  unfold bound at hv
  by_cases hop : f.operator.takesList = true
  · rw [if_pos hop] at hv
    exact Value.isList_of_mem_elements hv
  · rw [if_neg hop] at hv
    obtain rfl := List.mem_singleton.mp hv
    simpa [fits, hop] using hfits

/-! ## Scanning the text -/

/-- The numbers of the placeholders in a text: a dollar sign and the longest run of digits behind
it. -/
def Text.placeholderNumbers : List Char → List Nat
  | [] => []
  | c :: s =>
    if c = '$' then (natural? (s.takeWhile Char.isDigit)).toList ++ placeholderNumbers s
    else placeholderNumbers s

namespace Text

theorem placeholderNumbers_append {s : List Char} (hs : '$' ∉ s) (rest : List Char) :
    placeholderNumbers (s ++ rest) = placeholderNumbers rest := by
  induction s with
  | nil => rfl
  | cons c s ih =>
    rw [List.mem_cons, not_or] at hs
    rw [List.cons_append, placeholderNumbers, if_neg (Ne.symm hs.1), ih hs.2]

theorem dollar_notMem_decimal (n : Nat) : '$' ∉ decimal n := by
  intro h
  have hdigit := List.all_eq_true.mp (all_isDigit_decimal n) '$' h
  exact absurd hdigit (by decide)

/-- A placeholder is found as a whole when no digit follows it. -/
theorem placeholderNumbers_placeholder (n : Nat) {rest : List Char}
    (hrest : StopsAt Char.isDigit rest) :
    placeholderNumbers (placeholder n ++ rest) = n :: placeholderNumbers rest := by
  have hdigits : ∀ c ∈ decimal n, c.isDigit = true := List.all_eq_true.mp (all_isDigit_decimal n)
  rw [placeholder, List.cons_append, placeholderNumbers, if_pos rfl,
    takeWhile_append_of_stopsAt hdigits hrest, natural?_decimal,
    placeholderNumbers_append (dollar_notMem_decimal n)]
  rfl

/-- Placeholders between commas are found one after the other. -/
theorem placeholderNumbers_intercalate (numbers : List Nat) {rest : List Char}
    (hrest : StopsAt Char.isDigit rest) :
    placeholderNumbers ([',', ' '].intercalate (numbers.map placeholder) ++ rest) =
      numbers ++ placeholderNumbers rest := by
  induction numbers with
  | nil => rfl
  | cons n numbers ih =>
    cases numbers with
    | nil => simpa using placeholderNumbers_placeholder n hrest
    | cons m numbers =>
      -- the comma behind a placeholder ends its digits
      have hcomma : StopsAt Char.isDigit
          ([',', ' '] ++ [',', ' '].intercalate ((m :: numbers).map placeholder) ++ rest) :=
        stopsAt_cons.mpr (by decide)
      have hspace : '$' ∉ [',', ' '] := by decide
      rw [List.map_cons, List.map_cons, List.intercalate_cons_cons, ← List.map_cons,
        List.append_assoc, List.append_assoc, ← List.append_assoc [',', ' '],
        placeholderNumbers_placeholder n hcomma, List.append_assoc,
        placeholderNumbers_append hspace, ih]
      rfl

end Text

theorem Operand.placeholderNumbers_text (o : Operand) (first : Nat) {rest : List Char}
    (hrest : StopsAt Char.isDigit rest) :
    placeholderNumbers (o.text first ++ rest) =
      List.range' first o.values.length ++ placeholderNumbers rest := by
  cases o with
  | single value => exact placeholderNumbers_placeholder first hrest
  | alternatives values =>
    have hopen : '$' ∉ ['('] := by decide
    have hclose : '$' ∉ [')'] := by decide
    have hstop : StopsAt Char.isDigit ([')'] ++ rest) := stopsAt_cons.mpr (by decide)
    rw [text, ← List.singleton_append, List.append_assoc, List.append_assoc,
      placeholderNumbers_append hopen, placeholderNumbers_intercalate _ hstop,
      placeholderNumbers_append hclose]
    rfl

theorem Operator.dollar_notMem_keyword (op : Operator) : '$' ∉ op.keyword.toList := by
  cases op <;> decide

theorem Connective.dollar_notMem_word (key : Connective) : '$' ∉ key.word.toList := by
  cases key <;> decide

namespace Predicate

/-- Behind the placeholders of a predicate comes a closing parenthesis or what follows the
predicate, so no digit is taken for a part of the last number. -/
theorem placeholderNumbers_text {p : Predicate} (hfield : '$' ∉ p.field.toList) (first : Nat)
    {rest : List Char} (hrest : StopsAt Char.isDigit rest) :
    placeholderNumbers (p.text first ++ rest) =
      List.range' first p.arguments.length ++ placeholderNumbers rest := by
  have hhead : '$' ∉ List.replicate p.opens.toNat '(' ++ p.field.toList ++
      ' ' :: p.operator.keyword.toList ++ [' '] := by
    simp [hfield, p.operator.dollar_notMem_keyword]
  have hcloses : '$' ∉ List.replicate p.closes.toNat ')' := by simp
  have hstop : StopsAt Char.isDigit (List.replicate p.closes.toNat ')' ++ rest) := by
    cases p.closes.toNat with
    | zero => exact hrest
    | succ n => exact stopsAt_cons.mpr (by decide)
  have htext : p.text first ++ rest =
      List.replicate p.opens.toNat '(' ++ p.field.toList ++
          ' ' :: p.operator.keyword.toList ++ [' '] ++
        (p.operand.text first ++ (List.replicate p.closes.toNat ')' ++ rest)) := by
    simp [text]
  rw [htext, placeholderNumbers_append hhead, Operand.placeholderNumbers_text _ _ hstop,
    placeholderNumbers_append hcloses, arguments]

theorem placeholderNumbers_joined {ps : List Predicate}
    (hfields : ∀ p ∈ ps, '$' ∉ p.field.toList) (first : Nat) :
    placeholderNumbers (joined first ps) =
      List.range' first (ps.flatMap arguments).length := by
  induction ps generalizing first with
  | nil => rfl
  | cons p ps ih =>
    have hp : '$' ∉ p.field.toList := hfields p (by simp)
    cases ps with
    | nil =>
      have h := placeholderNumbers_text hp first stopsAt_nil
      simpa [joined, placeholderNumbers] using h
    | cons q ps =>
      have hword : '$' ∉ ' ' :: p.connective.word.toList ++ [' '] := by
        simp [p.connective.dollar_notMem_word]
      -- behind a predicate comes the blank in front of its connective
      have hstop : StopsAt Char.isDigit (' ' :: p.connective.word.toList ++ [' '] ++
          joined (first + p.arguments.length) (q :: ps)) := stopsAt_cons.mpr (by decide)
      have htext : joined first (p :: q :: ps) =
          p.text first ++ (' ' :: p.connective.word.toList ++ [' '] ++
            joined (first + p.arguments.length) (q :: ps)) := by
        simp [joined]
      rw [htext, placeholderNumbers_text hp first hstop, placeholderNumbers_append hword,
        ih (fun r hr => hfields r (by simp [hr])), List.range'_append_1, ← List.length_append]
      rfl

/-- **Scanning finds every placeholder of the clause and no other.** -/
theorem placeholderNumbers_clause {ps : List Predicate}
    (hfields : ∀ p ∈ ps, '$' ∉ p.field.toList) :
    placeholderNumbers (clause ps) = List.range' 1 (ps.flatMap arguments).length := by
  unfold clause
  cases ps with
  | nil => rfl
  | cons p ps =>
    rw [if_neg (by simp), placeholderNumbers_append (by decide), placeholderNumbers_joined hfields]

/-- The fields of the predicates are fields of filters. -/
theorem exists_field_of_mem_emitted {filters : List Filter} {p : Predicate}
    (hp : p ∈ emitted filters) : ∃ f ∈ filters, p.field = f.field := by
  have hcontent : p.content ∈ (emitted filters).map content := List.mem_map_of_mem hp
  rw [map_content_emitted] at hcontent
  obtain ⟨f, hf, hfp⟩ := List.mem_map.mp hcontent
  exact ⟨f, (List.mem_filter.mp hf).1, (congrArg Prod.fst hfp).symm⟩

/-- **Placeholders and arguments belong together.** When the filters make predicates, these stand
for the filters that are not left out, in order, and the arguments are what the filters contribute.
In the clause, placeholder after placeholder, each has the next number and stands in the place of
the argument with that number. The arguments are scalars, every query on these filters has them and
binds each to one placeholder, never as an array, and a scan of the clause finds the same numbers
unless some field contains `$`. -/
theorem bindings_clausePieces_eq {filters : List Filter} {ps : List Predicate}
    (hps : ofFilters filters = .ok ps) :
    let arguments := ps.flatMap arguments
    ps.map content = (filters.filter (!·.leftOut)).map Filter.content ∧
      arguments = filters.flatMap Filter.bound ∧
      (clausePieces ps).flatMap Piece.text = clause ps ∧
      (clausePieces ps).filterMap Piece.binding? = arguments.zipIdx 1 ∧
      (∀ v ∈ arguments, v.isList = false) ∧
      ((∀ f ∈ filters, '$' ∉ f.field.toList) →
        placeholderNumbers (clause ps) = List.range' 1 arguments.length) ∧
      (∀ defaultSize sorts page, ∃ q,
        Query.ofCriteria defaultSize { filters, sorts, page } = .ok q ∧ q.arguments = arguments ∧
          q.statement.bound = arguments.map Parameter.ofValue ∧
          ∀ parameter ∈ q.statement.bound, parameter.isArray = false) := by
  obtain ⟨hfits, hemitted⟩ := ofFilters_eq_ok_iff.mp hps
  have harguments : ps.flatMap Predicate.arguments = filters.flatMap Filter.bound := by
    rw [hemitted, flatMap_arguments_emitted]
  -- lists contribute their elements and never themselves
  have hscalar : ∀ v ∈ ps.flatMap Predicate.arguments, v.isList = false := by
    intro v hv
    rw [harguments] at hv
    obtain ⟨f, hf, hvf⟩ := List.mem_flatMap.mp hv
    exact Filter.isList_of_mem_bound (hfits f hf) hvf
  refine ⟨?_, harguments, flatMap_text_clausePieces ps, filterMap_binding?_clausePieces ps,
    hscalar, ?_, ?_⟩
  · rw [hemitted, map_content_emitted]
  · intro hfields
    apply placeholderNumbers_clause
    intro p hp
    rw [hemitted] at hp
    obtain ⟨f, hf, hfield⟩ := exists_field_of_mem_emitted hp
    rw [hfield]
    exact hfields f hf
  · intro defaultSize sorts page
    refine ⟨_, Query.ofCriteria_eq_ok hps defaultSize, rfl, by simp [Query.statement], ?_⟩
    intro parameter hparameter
    simp only [Query.statement, Statement.bound_bindAll, List.nil_append, List.mem_map]
      at hparameter
    obtain ⟨v, hv, rfl⟩ := hparameter
    rw [Parameter.isArray_ofValue]
    exact hscalar v hv

/-- The list has two alternatives and the skipped filter none, so the numbers of the placeholders
part with those of the filters. -/
theorem bindings_clausePieces_eq_of_lists :
    let filters : List Filter :=
      [{ field := "a", operator := .isIn, value := .list (.ints [7, 8]) },
        { field := "b", operator := .notIn },
        { field := "c", operator := .equal, value := .string "x" }]
    ∃ ps, ofFilters filters = .ok ps ∧ (∀ f ∈ filters, '$' ∉ f.field.toList) ∧
      (clausePieces ps).filterMap Piece.binding? =
        [(.int 7, 1), (.int 8, 2), (.string "x", 3)] ∧
      placeholderNumbers (clause ps) = [1, 2, 3] := by
  intro filters
  have hps : ofFilters filters = .ok (emitted filters) := rfl
  have hfields : ∀ f ∈ filters, '$' ∉ f.field.toList := by decide
  obtain ⟨-, harguments, -, hbindings, -, hnumbers, -⟩ := bindings_clausePieces_eq hps
  have hbound : filters.flatMap Filter.bound = [.int 7, .int 8, .string "x"] := by decide
  rw [harguments, hbound] at hbindings
  have hscan := hnumbers hfields
  rw [harguments, hbound] at hscan
  exact ⟨_, hps, hfields, hbindings, hscan⟩

end Predicate

end FilterQuery

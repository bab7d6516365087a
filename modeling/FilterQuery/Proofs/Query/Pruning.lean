import FilterQuery.Proofs.Query.Erasure
import FilterQuery.Proofs.Text.Nesting

/-!
# The clause is the erased formula

The `WHERE` clause is built from a flat list of predicates. For a balanced sequence of filters it is
the text of a formula: the tree that the filters mean, without the filters that are left out and the
groups that this empties (`Formula.joined_predicates`).

`Formula.text` writes a formula down without looking at parentheses that were counted or carried.
The rest is about how the text of a list of predicates changes when it is put into a group.
-/

namespace FilterQuery

open Text

/-- The placeholders of a filter, numbered from `first`. -/
def Filter.placeholders (first : Nat) (f : Filter) : List Char :=
  if f.operator.takesList then
    '(' :: [',', ' '].intercalate ((List.range' first f.bound.length).map placeholder) ++ [')']
  else placeholder first

/-- The text of a filter without the parentheses around it. -/
def Filter.condition (first : Nat) (f : Filter) : List Char :=
  f.field.toList ++ ' ' :: f.operator.keyword.toList ++ ' ' :: f.placeholders first

namespace Formula

def bound : Formula → List Value
  | nil => []
  | filter f rest => f.bound ++ rest.bound
  | group inner _ rest => inner.bound ++ rest.bound

/-- What stands behind an element: the next ones behind its connective, if there are any. -/
def followed (joint : Connective) (rest : Formula) (text : List Char) : List Char :=
  if rest = nil then [] else ' ' :: joint.word.toList ++ ' ' :: text

/-- The text of a formula, its placeholders numbered from `first`. -/
def text : Nat → Formula → List Char
  | _, nil => []
  | first, filter f rest =>
    f.condition first ++ followed f.connective rest (rest.text (first + f.bound.length))
  | first, group inner joint rest =>
    '(' :: inner.text first ++ ')' ::
      followed joint rest (rest.text (first + inner.bound.length))

/-- The `WHERE` clause of a formula, empty when the formula has no element. -/
def clause (t : Formula) : List Char :=
  if t = nil then [] else "WHERE ".toList ++ t.text 1

end Formula

theorem Filter.text_operand (f : Filter) (first : Nat) :
    f.operand.text first = f.placeholders first := by
  unfold Filter.operand Filter.placeholders Filter.bound
  split <;> rfl

/-- The parentheses around the predicates, in the order of the text. Those around the alternatives
of a list operator and those in the name of a field are not among them. -/
def Predicate.parentheses (ps : List Predicate) : List Char :=
  ps.flatMap fun p => List.replicate p.opens.toNat '(' ++ List.replicate p.closes.toNat ')'

/-! ## The text of ideal predicates -/

namespace Predicate.Ideal

/-- The values that the predicate binds. -/
def arguments (p : Ideal) : List Value := p.content.2.2.values

/-- The text of a predicate with its parentheses, as `Predicate.text` has it. -/
def text (first : Nat) (p : Ideal) : List Char :=
  List.replicate p.opens '(' ++ p.content.1.toList ++ ' ' :: p.content.2.1.keyword.toList ++
    ' ' :: p.content.2.2.text first ++ List.replicate p.closes ')'

/-- The text of joined predicates, as `Predicate.joined` has it. -/
def joined (first : Nat) : List Ideal → List Char
  | [] => []
  | [p] => p.text first
  | p :: q :: ps =>
    p.text first ++ ' ' :: p.connective.word.toList ++
      ' ' :: joined (first + p.arguments.length) (q :: ps)

/-- The `WHERE` clause of the predicates, as `Predicate.clause` has it. -/
def clause (ps : List Ideal) : List Char :=
  if ps.isEmpty then [] else "WHERE ".toList ++ joined 1 ps

/-- The text of predicates is that of the ideal ones they stand for. -/
theorem joined_map_ideal (ps : List Predicate) (first : Nat) :
    joined first (ps.map Predicate.ideal) = Predicate.joined first ps := by
  induction ps generalizing first with
  | nil => rfl
  | cons p ps ih =>
    cases ps with
    | nil => rfl
    | cons q ps =>
      rw [Predicate.joined, ← ih]
      rfl

theorem clause_map_ideal (ps : List Predicate) :
    clause (ps.map Predicate.ideal) = Predicate.clause ps := by
  unfold clause Predicate.clause
  rw [List.isEmpty_map, joined_map_ideal]

/-! ## The text of a group of predicates -/

theorem joined_cons_of_ne_nil (first : Nat) (p : Ideal) {ps : List Ideal} (h : ps ≠ []) :
    joined first (p :: ps) = p.text first ++ ' ' :: p.connective.word.toList ++
      ' ' :: joined (first + p.arguments.length) ps := by
  cases ps with
  | nil => contradiction
  | cons q qs => rfl

/-- An opening parenthesis in front of the first predicate stands in front of the whole text. -/
theorem joined_openFirst {ps : List Ideal} (h : ps ≠ []) (first : Nat) :
    joined first (openFirst 1 ps) = '(' :: joined first ps := by
  match ps with
  | [] => contradiction
  | [p] => simp [openFirst, joined, text, List.replicate_add]
  | p :: q :: ps => simp [openFirst, joined, text, arguments, List.replicate_add]

/-- A closing parenthesis behind the last predicate stands behind the whole text, and the group is
joined to what follows by its own connective. Induction on the predicates: only the last one has to
stand further in than the group, so that it gives up its connective. -/
theorem joined_closeLast_append {ps : List Ideal} (h : ps ≠ []) {depth : Int}
    (hdepth : ∀ p ∈ ps, depth < p.depth) (joint : Connective) (first : Nat) (qs : List Ideal) :
    joined first (closeLast joint depth ps ++ qs) =
      joined first ps ++ ')' ::
        (if qs = [] then []
          else ' ' :: joint.word.toList ++
            ' ' :: joined (first + (ps.flatMap arguments).length) qs) := by
  induction ps generalizing first with
  | nil => contradiction
  | cons p ps ih =>
    cases ps with
    | nil =>
      -- the last predicate gives up its connective, and takes that of the group
      have hp : depth < p.depth := hdepth p (by simp)
      cases qs with
      | nil => simp [closeLast, Walk.Ideal.handBack, hp, joined, text, List.replicate_succ']
      | cons q qs =>
        simp [closeLast, Walk.Ideal.handBack, hp, joined, text, arguments, List.replicate_succ']
    | cons p' ps =>
      have hne : closeLast joint depth (p' :: ps) ≠ [] := by simp [closeLast_eq_nil]
      have hne' : closeLast joint depth (p' :: ps) ++ qs ≠ [] :=
        List.append_ne_nil_of_left_ne_nil hne qs
      rw [closeLast, List.cons_append, joined_cons_of_ne_nil first p hne',
        ih (by simp) (fun q hq => hdepth q (by simp [hq])),
        joined_cons_of_ne_nil first p (List.cons_ne_nil p' ps)]
      simp [Nat.add_assoc]

/-! ## What a group leaves as it is -/

theorem flatMap_arguments_openFirst (n : Nat) (ps : List Ideal) :
    (openFirst n ps).flatMap arguments = ps.flatMap arguments := by
  cases ps <;> rfl

theorem flatMap_arguments_closeLast (joint : Connective) (depth : Int) (ps : List Ideal) :
    (closeLast joint depth ps).flatMap arguments = ps.flatMap arguments := by
  induction ps with
  | nil => rfl
  | cons p ps ih =>
    cases ps with
    | nil =>
      by_cases h : depth < p.depth
      · simp [closeLast, Walk.Ideal.handBack, h, arguments]
      · simp [closeLast, Walk.Ideal.handBack, h, arguments]
    | cons q qs => rw [closeLast, List.flatMap_cons, ih, ← List.flatMap_cons]

theorem le_depth_openFirst {n : Nat} {depth : Int} {ps : List Ideal}
    (h : ∀ p ∈ ps, depth ≤ p.depth) : ∀ p ∈ openFirst n ps, depth ≤ p.depth := by
  cases ps with
  | nil => exact h
  | cons q qs =>
    intro p hp
    rcases List.mem_cons.mp hp with rfl | hp
    · exact h q (by simp)
    · exact h p (by simp [hp])

theorem le_depth_closeLast {joint : Connective} {depth : Int} {ps : List Ideal}
    (h : ∀ p ∈ ps, depth ≤ p.depth) : ∀ p ∈ closeLast joint depth ps, depth ≤ p.depth := by
  induction ps with
  | nil => exact h
  | cons q qs ih =>
    cases qs with
    | nil =>
      intro p hp
      have hq : depth ≤ q.depth := h q (by simp)
      -- the last predicate is moved out to the group at most
      by_cases hd : depth < q.depth
      · obtain rfl : p = _ := by simpa [closeLast, Walk.Ideal.handBack, hd] using hp
        exact Int.le_refl _
      · obtain rfl : p = _ := by simpa [closeLast, Walk.Ideal.handBack, hd] using hp
        exact hq
    | cons q' qs =>
      intro p hp
      rcases List.mem_cons.mp hp with rfl | hp
      · exact h p (by simp)
      · exact ih (fun r hr => h r (by simp [hr])) p hp

/-! ## The parentheses around the predicates -/

/-- The parentheses around the predicates, as `Predicate.parentheses` has them. -/
def parentheses (ps : List Ideal) : List Char :=
  ps.flatMap fun p => List.replicate p.opens '(' ++ List.replicate p.closes ')'

theorem parentheses_map_ideal (ps : List Predicate) :
    parentheses (ps.map Predicate.ideal) = Predicate.parentheses ps := List.flatMap_map ..

theorem parentheses_append (ps qs : List Ideal) :
    parentheses (ps ++ qs) = parentheses ps ++ parentheses qs := List.flatMap_append

/-- The parenthesis that opens a group comes before all others. -/
theorem parentheses_openFirst {ps : List Ideal} (h : ps ≠ []) :
    parentheses (openFirst 1 ps) = '(' :: parentheses ps := by
  cases ps with
  | nil => contradiction
  | cons p ps => simp [parentheses, openFirst, List.replicate_add]

/-- The parenthesis that closes a group comes behind all others. -/
theorem parentheses_closeLast {ps : List Ideal} (h : ps ≠ []) (joint : Connective)
    (depth : Int) : parentheses (closeLast joint depth ps) = parentheses ps ++ [')'] := by
  induction ps with
  | nil => contradiction
  | cons p ps ih =>
    cases ps with
    | nil =>
      by_cases hp : depth < p.depth
      · simp [parentheses, closeLast, Walk.Ideal.handBack, hp, List.replicate_succ']
      · simp [parentheses, closeLast, Walk.Ideal.handBack, hp, List.replicate_succ']
    | cons q qs =>
      have hcons : ∀ rs : List Ideal, parentheses (p :: rs) =
          List.replicate p.opens '(' ++ List.replicate p.closes ')' ++ parentheses rs :=
        fun rs => List.flatMap_cons
      rw [closeLast, hcons, ih (by simp), hcons, ← List.append_assoc]

end Predicate.Ideal

namespace Formula

theorem flatMap_arguments_predicates (t : Formula) (depth : Int) :
    (t.predicates depth).flatMap Predicate.Ideal.arguments = t.bound := by
  induction t generalizing depth with
  | nil => rfl
  | filter f rest ih =>
    rw [predicates, List.flatMap_cons, ih, bound]
    exact congrArg (· ++ rest.bound) f.values_operand
  | group inner joint rest ihInner ihRest =>
    rw [predicates, List.flatMap_append, Predicate.Ideal.flatMap_arguments_closeLast,
      Predicate.Ideal.flatMap_arguments_openFirst, ihInner, ihRest, bound]

/-- The connective of a predicate never stands further out than its formula. -/
theorem le_depth_predicates (t : Formula) (depth : Int) :
    ∀ p ∈ t.predicates depth, depth ≤ p.depth := by
  induction t generalizing depth with
  | nil =>
    intro p hp
    cases hp
  | filter f rest ih =>
    intro p hp
    rcases List.mem_cons.mp hp with rfl | hp
    · exact Int.le_refl _
    · exact ih depth p hp
  | group inner joint rest ihInner ihRest =>
    have hinner : ∀ p ∈ inner.predicates (depth + 1), depth ≤ p.depth := by
      intro p hp
      have := ihInner (depth + 1) p hp
      omega
    intro p hp
    rcases List.mem_append.mp hp with hp | hp
    · exact Predicate.Ideal.le_depth_closeLast (Predicate.Ideal.le_depth_openFirst hinner) p hp
    · exact ihRest depth p hp

theorem predicates_eq_nil_iff {t : Formula} (h : t.NoEmptyGroup) (depth : Int) :
    t.predicates depth = [] ↔ t = nil := by
  constructor
  · intro hnil
    by_contra hne
    exact predicates_ne_nil h hne depth hnil
  · intro ht
    rw [ht, predicates]

/-- **The predicates of a formula make up its text.** -/
theorem joined_predicates {t : Formula} (h : t.NoEmptyGroup) (first : Nat) (depth : Int) :
    Predicate.Ideal.joined first (t.predicates depth) = t.text first := by
  induction t generalizing first depth with
  | nil => rfl
  | filter f rest ih =>
    -- a filter that is an element has no parentheses around it
    have hcondition : (f.predicate 0 depth).text first = f.condition first := by
      simp [Predicate.Ideal.text, Filter.predicate, Filter.content, Filter.condition,
        Filter.text_operand]
    have hbound : (f.predicate 0 depth).arguments = f.bound := f.values_operand
    have hkept : rest.NoEmptyGroup := h
    rw [predicates, text, followed]
    by_cases hrest : rest = nil
    · rw [if_pos hrest, hrest, predicates, Predicate.Ideal.joined, hcondition, List.append_nil]
    · have hne := predicates_ne_nil hkept hrest depth
      rw [if_neg hrest, Predicate.Ideal.joined_cons_of_ne_nil first _ hne, hcondition, hbound,
        ih hkept]
      simp [Filter.predicate]
  | group inner joint rest ihInner ihRest =>
    obtain ⟨hne, hinner, hrest⟩ := h
    have hps := predicates_ne_nil hinner hne (depth + 1)
    have hopened : Predicate.Ideal.openFirst 1 (inner.predicates (depth + 1)) ≠ [] :=
      mt Predicate.Ideal.openFirst_eq_nil.mp hps
    -- inside the group every connective stands further in than the group itself
    have hdepth : ∀ p ∈ Predicate.Ideal.openFirst 1 (inner.predicates (depth + 1)),
        depth < p.depth := by
      intro p hp
      have := Predicate.Ideal.le_depth_openFirst (inner.le_depth_predicates (depth + 1)) p hp
      omega
    rw [predicates, Predicate.Ideal.joined_closeLast_append hopened hdepth,
      Predicate.Ideal.joined_openFirst hps, Predicate.Ideal.flatMap_arguments_openFirst,
      flatMap_arguments_predicates, ihInner hinner, ihRest hrest, text, followed]
    by_cases hnil : rest = nil
    · rw [if_pos hnil, if_pos ((predicates_eq_nil_iff hrest depth).mpr hnil)]
    · rw [if_neg hnil, if_neg (predicates_ne_nil hrest hnil depth)]

/-- The parentheses around the predicates of a formula fit together. -/
theorem nested_parentheses_predicates {t : Formula} (h : t.NoEmptyGroup) (depth : Int) :
    Nested (Predicate.Ideal.parentheses (t.predicates depth)) := by
  induction t generalizing depth with
  | nil => exact nested_nil
  | filter f rest ih => exact ih h depth
  | group inner joint rest ihInner ihRest =>
    obtain ⟨hne, hinner, hrest⟩ := h
    have hps := predicates_ne_nil hinner hne (depth + 1)
    have hopened : Predicate.Ideal.openFirst 1 (inner.predicates (depth + 1)) ≠ [] :=
      mt Predicate.Ideal.openFirst_eq_nil.mp hps
    -- a group is one pair around what fits together inside
    rw [predicates, Predicate.Ideal.parentheses_append,
      Predicate.Ideal.parentheses_closeLast hopened, Predicate.Ideal.parentheses_openFirst hps]
    exact (ihInner hinner (depth + 1)).group.append (ihRest hrest depth)

/-- **The ideal walk makes the text of the erased formula**, however deep the groups are. -/
theorem clause_erase_eq {filters : List Filter} (h : Filter.Balanced filters) :
    (ofFilters filters).erase.clause =
      Predicate.Ideal.clause (Predicate.Ideal.emitted filters) := by
  have hkept := noEmptyGroup_erase (ofFilters filters)
  rw [Predicate.Ideal.emitted_eq h]
  unfold Predicate.Ideal.clause clause
  by_cases hnil : (ofFilters filters).erase = nil
  · rw [if_pos hnil, hnil]
    rfl
  · have hne := predicates_ne_nil hkept hnil 0
    rw [if_neg hnil, if_neg (by simpa using hne), joined_predicates hkept]

/-- **Leaving filters out preserves the structure.** A balanced sequence of filters means one
formula, whose groups are joined by the connectives of their last filters, and after erasing no
group is left empty. If nothing wraps around while the filters are counted, the `WHERE` clause is
the text of this formula after erasing, and the parentheses around the predicates fit together. It
is enough for this that the depth of the groups has room in the machine words. -/
theorem clause_erase_ofFilters {filters : List Filter} {ps : List Predicate}
    (hbalanced : Filter.Balanced filters) (hps : Predicate.ofFilters filters = .ok ps) :
    (∀ t : Formula, t.marks = filters.flatMap Filter.marks ↔ t = ofFilters filters) ∧
      (ofFilters filters).Joined ∧
      (ofFilters filters).erase.NoEmptyGroup ∧
      (Filter.HasRoom filters → Walk.ExactOver {} filters) ∧
      (Walk.ExactOver {} filters →
        Predicate.clause ps = (ofFilters filters).erase.clause ∧
          Nested (Predicate.parentheses ps)) := by
  have hkept := noEmptyGroup_erase (ofFilters filters)
  obtain ⟨-, rfl⟩ := Predicate.ofFilters_eq_ok_iff.mp hps
  refine ⟨?_, joined_ofFilters filters, hkept, hbalanced.exactOver, fun hexact => ?_⟩
  · intro t
    rw [← marks_ofFilters hbalanced, marks_inj]
  · -- the walk is the ideal one
    have hideal := Predicate.map_ideal_emitted hexact
    constructor
    · rw [clause_erase_eq hbalanced, ← hideal, Predicate.Ideal.clause_map_ideal]
    · rw [← Predicate.Ideal.parentheses_map_ideal, hideal, Predicate.Ideal.emitted_eq hbalanced]
      exact nested_parentheses_predicates hkept 0

/-- Filters that are left out stand first and last here, open two groups at once and close two. -/
theorem clause_erase_ofFilters_of_gaps :
    let filters : List Filter :=
      [{ field := "z", operator := .isIn, opens := 2, key := some .or },
        { field := "a", operator := .equal, value := .int 1, key := some .or },
        { field := "b", operator := .isIn, closes := 1 },
        { field := "c", operator := .isIn, value := .list (.ints []), opens := 1, key := some .or },
        { field := "d", operator := .notIn, closes := 2, key := some .or },
        { field := "e", operator := .isIn, value := .string "x,y", key := some .and },
        { field := "g", operator := .notIn }]
    Filter.Balanced filters ∧ Filter.HasRoom filters ∧
      ∃ ps, Predicate.ofFilters filters = .ok ps ∧
        Predicate.clause ps = (ofFilters filters).erase.clause ∧
        Predicate.clause ps = "WHERE ((a = $1)) OR e IN ($2, $3)".toList := by
  intro filters
  have hbalanced : Filter.Balanced filters := by decide
  have hroom : Filter.HasRoom filters := by decide
  have hps : Predicate.ofFilters filters = .ok (Predicate.emitted filters) := rfl
  obtain ⟨-, -, -, hexact, hclause⟩ := clause_erase_ofFilters hbalanced hps
  exact ⟨hbalanced, hroom, _, hps, (hclause (hexact hroom)).1, by decide⟩

/-- Without room the structure is lost. The filters that are left out open and close the greatest
number of groups that a word can count, which is `-1` as a signed number. So the depth falls between
them, and their connective takes the place of the one that stands outside of their groups. -/
theorem clause_ne_clause_erase_of_overflow :
    let filters : List Filter :=
      [{ field := "a", operator := .equal, value := .int 1 },
        { field := "b", operator := .isIn, opens := 18446744073709551615, key := some .or },
        { field := "c", operator := .isIn, closes := 18446744073709551615 },
        { field := "d", operator := .equal, value := .int 4 }]
    Filter.Balanced filters ∧
      ∃ ps, Predicate.ofFilters filters = .ok ps ∧
        Predicate.clause ps = "WHERE a = $1 OR d = $2".toList ∧
        (ofFilters filters).erase.clause = "WHERE a = $1 AND d = $2".toList := by
  intro filters
  have hbalanced : Filter.Balanced filters := by decide
  -- the tree is too deep to be written down, but the ideal walk makes its text, too
  refine ⟨hbalanced, _, rfl, by decide, ?_⟩
  rw [clause_erase_eq hbalanced]
  decide

end Formula

end FilterQuery

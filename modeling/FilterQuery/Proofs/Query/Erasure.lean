import FilterQuery.Proofs.Query.Counting

/-!
# Erasing what is left out

`Formula.erase` takes the filters that are left out from a formula, and the groups that this leaves
without any element. The ideal walk over the flat filters does the same without knowing the tree.

The walk takes a filter with all its parentheses at once, where the tree has them one by one. So the
walk is cut into smaller steps first, one for each sign:

* `Walk.Ideal.read` is the step for one sign, and `Walk.Ideal.foldl_read_marks` says that the signs
  of a filter together are one step of the walk.
* `Walk.Ideal.foldl_read_formula` says what the signs of a whole formula do to the state of the
  walk. It is an induction on the tree, whose invariant `Walk.Ideal.Settled` says that no group
  closes behind a left-out filter that the predicate in front of it does not know about.
* `Predicate.Ideal.emitted_eq` puts both together: the predicates that are emitted are those of the
  erased formula.
-/

namespace FilterQuery

namespace Formula

/-- The formula without the filters that are left out and without the groups that are left empty. An
element that goes takes the connective to the next element along. When nothing is kept behind an
element, its own connective joins nothing any more. -/
def erase : Formula → Formula
  | nil => nil
  | filter f rest => if f.leftOut then rest.erase else filter f rest.erase
  | group inner joint rest =>
    if inner.erase = nil then rest.erase else group inner.erase joint rest.erase

/-- Every group has an element. -/
def NoEmptyGroup : Formula → Prop
  | nil => True
  | filter _ rest => rest.NoEmptyGroup
  | group inner _ rest => inner ≠ nil ∧ inner.NoEmptyGroup ∧ rest.NoEmptyGroup

theorem noEmptyGroup_erase (t : Formula) : t.erase.NoEmptyGroup := by
  induction t with
  | nil => trivial
  | filter f rest ih =>
    rw [erase]
    split
    · exact ih
    · exact ih
  | group inner joint rest ihInner ihRest =>
    rw [erase]
    split
    · exact ihRest
    · -- a group stays only if something is left in it
      next h => exact ⟨h, ihInner, ihRest⟩

end Formula

/-- The predicate of a filter without closing parentheses. -/
def Filter.predicate (opens : Nat) (depth : Int) (f : Filter) : Predicate.Ideal :=
  { content := f.content, opens, closes := 0, connective := f.connective, depth }

namespace Predicate.Ideal

/-- Opens more groups in front of the first predicate. -/
def openFirst (n : Nat) : List Predicate.Ideal → List Predicate.Ideal
  | [] => []
  | p :: ps => { p with opens := n + p.opens } :: ps

/-- Closes a group behind the last predicate. -/
def closeLast (joint : Connective) (depth : Int) : List Predicate.Ideal → List Predicate.Ideal
  | [] => []
  | [p] => Walk.Ideal.handBack 1 joint depth [p]
  | p :: q :: ps => p :: closeLast joint depth (q :: ps)

@[simp] theorem openFirst_zero (ps : List Predicate.Ideal) : openFirst 0 ps = ps := by
  cases ps <;> simp [openFirst]

theorem openFirst_openFirst (m n : Nat) (ps : List Predicate.Ideal) :
    openFirst m (openFirst n ps) = openFirst (m + n) ps := by
  cases ps <;> simp [openFirst, Nat.add_assoc]

theorem openFirst_append {ps : List Predicate.Ideal} (h : ps ≠ []) (n : Nat)
    (qs : List Predicate.Ideal) :
    openFirst n (ps ++ qs) = openFirst n ps ++ qs := by
  cases ps with
  | nil => contradiction
  | cons p ps => rfl

@[simp] theorem openFirst_eq_nil {n : Nat} {ps : List Predicate.Ideal} :
    openFirst n ps = [] ↔ ps = [] := by
  cases ps <;> simp [openFirst]

/-- Closing a group removes no predicate. -/
theorem closeLast_eq_nil {joint : Connective} {depth : Int} {ps : List Predicate.Ideal} :
    closeLast joint depth ps = [] ↔ ps = [] := by
  match ps with
  | [] => simp [closeLast]
  | [p] => simp [closeLast, Walk.Ideal.handBack]
  -- behind the first predicate the last one is looked for further on
  | p :: q :: ps => simp [closeLast]

/-- Opening in front and closing behind do not get in each other's way, not even when the first
predicate is the last one. -/
theorem openFirst_closeLast (n : Nat) (joint : Connective) (depth : Int)
    (ps : List Predicate.Ideal) :
    openFirst n (closeLast joint depth ps) = closeLast joint depth (openFirst n ps) := by
  match ps with
  | [] => rfl
  | [p] =>
    by_cases h : depth < p.depth
    · simp [closeLast, openFirst, Walk.Ideal.handBack, h]
    · simp [closeLast, openFirst, Walk.Ideal.handBack, h]
  | p :: q :: ps => rfl

end Predicate.Ideal

namespace Walk.Ideal

/-! ## Handing back -/

/-- Only the predicate in front is handed anything. -/
theorem handBack_append {ps : List Predicate.Ideal} (h : ps ≠ []) (closes : Nat)
    (joint : Connective) (depth : Int) (qs : List Predicate.Ideal) :
    handBack closes joint depth (ps ++ qs) = handBack closes joint depth ps ++ qs := by
  cases ps with
  | nil => contradiction
  | cons p ps => rfl

/-- Nothing is handed back where no group closes that was open around the last predicate. -/
theorem handBack_zero {ps : List Predicate.Ideal} {depth : Int} (joint : Connective)
    (h : ∀ p ∈ ps.head?, p.depth ≤ depth) : handBack 0 joint depth ps = ps := by
  cases ps with
  | nil => rfl
  | cons p ps =>
    have hp : ¬depth < p.depth := Int.not_lt.mpr (h p rfl)
    simp [handBack, hp]

/-- Groups may be closed one after the other. What counts is the closing that leads furthest out,
and of two that lead equally far the first one. -/
theorem handBack_handBack (m n : Nat) {joint joint' : Connective} {depth depth' : Int}
    (h : depth' < depth ∨ depth' = depth ∧ joint' = joint) (ps : List Predicate.Ideal) :
    handBack n joint' depth' (handBack m joint depth ps) = handBack (m + n) joint' depth' ps := by
  cases ps with
  | nil => rfl
  | cons p ps =>
    -- the second closing counts if it leads further out than the predicate knows after the first
    by_cases hp : depth < p.depth
    · rcases h with hlt | ⟨rfl, rfl⟩
      · have hp' : depth' < p.depth := by omega
        simp [handBack, hp, hp', hlt, Nat.add_assoc]
      · simp [handBack, hp, Nat.add_assoc]
    · by_cases hp' : depth' < p.depth
      · simp [handBack, hp, hp', Nat.add_assoc]
      · simp [handBack, hp, hp', Nat.add_assoc]

theorem reverse_closeLast (joint : Connective) (depth : Int) (ps : List Predicate.Ideal) :
    (Predicate.Ideal.closeLast joint depth ps).reverse = handBack 1 joint depth ps.reverse := by
  induction ps with
  | nil => rfl
  | cons p ps ih =>
    cases ps with
    | nil => rfl
    | cons q qs =>
      rw [Predicate.Ideal.closeLast, List.reverse_cons, ih,
        show (p :: q :: qs).reverse = (q :: qs).reverse ++ [p] from List.reverse_cons,
        handBack_append (by simp)]

/-! ## Reading sign by sign -/

/-- One more sign. -/
def read (u : Ideal) : Formula.Mark → Ideal
  | .opening => { u with pending := u.pending + 1, depth := u.depth + 1 }
  | .filter f =>
    if f.leftOut then u
    else { u with predicates := f.predicate u.pending u.depth :: u.predicates, pending := 0 }
  | .closing joint =>
    { predicates := handBack (1 - u.pending) joint (u.depth - 1) u.predicates
      pending := u.pending - 1
      depth := u.depth - 1 }

/-- All groups that were closed behind the last predicate are known to it: its depth is that of the
outermost place since then, and what is pending was opened further in. -/
def Settled (u : Ideal) : Prop := ∀ p ∈ u.predicates.head?, p.depth + u.pending ≤ u.depth

theorem settled_start : Settled {} := by
  intro p hp
  cases hp

/-- Every sign keeps the invariant. -/
theorem Settled.read {u : Ideal} (h : u.Settled) (m : Formula.Mark) : (u.read m).Settled := by
  cases m with
  | opening =>
    intro p hp
    have := h p hp
    simp only [Ideal.read]
    omega
  | filter f =>
    by_cases hleft : f.leftOut = true
    · simpa [Ideal.read, hleft] using h
    · intro p hp
      obtain rfl : f.predicate u.pending u.depth = p := by simpa [Ideal.read, hleft] using hp
      simp [Ideal.read, hleft, Filter.predicate]
  | closing joint =>
    obtain ⟨predicates, pending, depth⟩ := u
    cases predicates with
    | nil =>
      intro p hp
      cases hp
    | cons q qs =>
      have hq : q.depth + pending ≤ depth := h q rfl
      intro p hp
      by_cases hd : depth - 1 < q.depth
      · obtain rfl : _ = p := by simpa [Ideal.read, handBack, hd] using hp
        simp only [Ideal.read]
        omega
      · obtain rfl : _ = p := by simpa [Ideal.read, handBack, hd] using hp
        simp only [Ideal.read]
        omega

theorem Settled.foldl_read {u : Ideal} (h : u.Settled) (ms : List Formula.Mark) :
    (ms.foldl Ideal.read u).Settled := by
  induction ms generalizing u with
  | nil => exact h
  | cons m ms ih =>
    rw [List.foldl_cons]
    exact ih (h.read m)

theorem foldl_read_opening (u : Ideal) (n : Nat) :
    (List.replicate n Formula.Mark.opening).foldl read u =
      { u with pending := u.pending + n, depth := u.depth + n } := by
  induction n with
  | zero => simp
  | succ n ih =>
    rw [List.replicate_succ', List.foldl_append, ih, List.foldl_cons, List.foldl_nil]
    simp [read, Nat.add_assoc, Int.add_assoc]

theorem foldl_read_closing {u : Ideal} (h : u.Settled) (joint : Connective) (n : Nat) :
    (List.replicate n (Formula.Mark.closing joint)).foldl read u =
      { predicates := handBack (n - u.pending) joint (u.depth - n) u.predicates
        pending := u.pending - n
        depth := u.depth - n } := by
  induction n with
  | zero =>
    have hdepth : ∀ p ∈ u.predicates.head?, p.depth ≤ u.depth := by
      intro p hp
      have := h p hp
      omega
    simp [handBack_zero joint hdepth]
  | succ n ih =>
    rw [List.replicate_succ', List.foldl_append, ih, List.foldl_cons, List.foldl_nil]
    -- the closings cancel against what is pending first, and only the others are handed back
    have hdepth : u.depth - n - 1 = u.depth - (n + 1 : Nat) := by omega
    have hcloses : n - u.pending + (1 - (u.pending - n)) = n + 1 - u.pending := by omega
    simp only [read]
    rw [hdepth, handBack_handBack _ _ (.inl (by omega)), hcloses, Nat.sub_sub]

/-- **The signs of a filter make one step of the walk.** -/
theorem foldl_read_marks {u : Ideal} (h : u.Settled) (f : Filter) :
    f.marks.foldl read u = u.advance f := by
  unfold Filter.marks
  rw [List.foldl_append, List.foldl_cons, foldl_read_opening]
  have hopened : Settled { u with pending := u.pending + f.opens.toNat
                                  depth := u.depth + f.opens.toNat } := by
    rw [← foldl_read_opening]
    exact h.foldl_read _
  -- the opening signs come first and then the filter, so the closing ones find both counted
  rw [foldl_read_closing (hopened.read (.filter f))]
  by_cases hleft : f.leftOut = true
  · rw [advance_of_leftOut u hleft]
    simp [read, hleft, skip, depthBehind]
  · rw [advance_of_not_leftOut u hleft]
    -- the filter's own closings are handed back to its predicate, which keeps its own connective
    by_cases hcloses : f.closes.toNat = 0
    · simp [read, hleft, keep, depthBehind, Filter.predicate, handBack, hcloses]
    · have hdepth : u.depth + f.opens.toNat - f.closes.toNat < u.depth + f.opens.toNat := by omega
      simp [read, hleft, keep, depthBehind, Filter.predicate, handBack, hdepth]

theorem foldl_read_flatMap_marks {u : Ideal} (h : u.Settled) (filters : List Filter) :
    (filters.flatMap Filter.marks).foldl read u = filters.foldl advance u := by
  induction filters generalizing u with
  | nil => rfl
  | cons f fs ih =>
    -- behind a filter the walk is settled again, as every sign keeps it so
    have hadvance : (u.advance f).Settled := by
      rw [← foldl_read_marks h]
      exact h.foldl_read _
    rw [List.flatMap_cons, List.foldl_append, foldl_read_marks h, ih hadvance, List.foldl_cons]

end Walk.Ideal

/-! ## The walk over a formula -/

/-- The predicates of a formula whose elements are all kept, with `depth` groups around it. -/
def Formula.predicates (depth : Int) : Formula → List Predicate.Ideal
  | nil => []
  | filter f rest => f.predicate 0 depth :: rest.predicates depth
  | group inner joint rest =>
    Predicate.Ideal.closeLast joint depth
        (Predicate.Ideal.openFirst 1 (inner.predicates (depth + 1))) ++
      rest.predicates depth

theorem Formula.predicates_ne_nil {t : Formula} (h : t.NoEmptyGroup) (hne : t ≠ nil) (depth : Int) :
    t.predicates depth ≠ [] := by
  induction t generalizing depth with
  | nil => contradiction
  | filter f rest ih => exact List.cons_ne_nil _ _
  | group inner joint rest ihInner ihRest =>
    have hinner : Predicate.Ideal.openFirst 1 (inner.predicates (depth + 1)) ≠ [] :=
      mt Predicate.Ideal.openFirst_eq_nil.mp (ihInner h.2.1 h.1 (depth + 1))
    exact List.append_ne_nil_of_left_ne_nil (mt Predicate.Ideal.closeLast_eq_nil.mp hinner) _

/-- **What the signs of a formula do.** The predicates of the erased formula are emitted. The first
one takes over what was pending; if there is none, everything stays as it was. -/
theorem Walk.Ideal.foldl_read_formula {u : Walk.Ideal} (h : u.Settled) (t : Formula) :
    t.marks.foldl read u =
      { predicates :=
          (Predicate.Ideal.openFirst u.pending (t.erase.predicates u.depth)).reverse ++ u.predicates
        pending := if t.erase = .nil then u.pending else 0
        depth := u.depth } := by
  induction t generalizing u with
  | nil => rfl
  | filter f rest ih =>
    rw [Formula.marks, List.foldl_cons, ih (h.read _)]
    by_cases hleft : f.leftOut = true
    · simp [read, hleft, Formula.erase]
    · have hfirst : Predicate.Ideal.openFirst u.pending
            (f.predicate 0 u.depth :: rest.erase.predicates u.depth) =
          f.predicate u.pending u.depth :: rest.erase.predicates u.depth := rfl
      simp [read, hleft, Formula.erase, Formula.predicates, hfirst]
  | group inner joint rest ihInner ihRest =>
    have hopened : (u.read .opening).Settled := h.read _
    have hclosed := (hopened.foldl_read inner.marks).read (.closing joint)
    rw [Formula.marks, List.cons_append, List.foldl_cons, List.foldl_append, List.foldl_cons,
      ihRest hclosed, ihInner hopened]
    by_cases hinner : inner.erase = .nil
    · -- the group vanishes: its parentheses cancel against each other
      have hdepth : ∀ p ∈ u.predicates.head?, p.depth ≤ u.depth := by
        intro p hp
        have := h p hp
        omega
      simp [read, hinner, Formula.erase, Formula.predicates, Predicate.Ideal.openFirst,
        handBack_zero joint hdepth]
    · -- the group stays: its first and its last predicate take its parentheses
      have hne := Formula.predicates_ne_nil (Formula.noEmptyGroup_erase inner) hinner (u.depth + 1)
      have hreverse : (Predicate.Ideal.openFirst (u.pending + 1)
          (inner.erase.predicates (u.depth + 1))).reverse ≠ [] := by
        simpa using hne
      have hgroup : Predicate.Ideal.closeLast joint u.depth
          (Predicate.Ideal.openFirst 1 (inner.erase.predicates (u.depth + 1))) ≠ [] := by
        rw [Ne, Predicate.Ideal.closeLast_eq_nil, Predicate.Ideal.openFirst_eq_nil]
        exact hne
      simp only [read, hinner, if_false, Formula.erase, Formula.predicates, Nat.sub_zero,
        Nat.zero_sub, Int.add_sub_cancel, Predicate.Ideal.openFirst_zero]
      rw [handBack_append hreverse, ← reverse_closeLast, Predicate.Ideal.openFirst_append hgroup,
        Predicate.Ideal.openFirst_closeLast, Predicate.Ideal.openFirst_openFirst,
        List.reverse_append, List.append_assoc]
      simp

/-- **The predicates that are emitted for a balanced sequence of filters are those of its formula
after erasing.** -/
theorem Predicate.Ideal.emitted_eq {filters : List Filter} (h : Filter.Balanced filters) :
    emitted filters = (Formula.ofFilters filters).erase.predicates 0 := by
  unfold emitted
  rw [← Walk.Ideal.foldl_read_flatMap_marks Walk.Ideal.settled_start, ← Formula.marks_ofFilters h,
    Walk.Ideal.foldl_read_formula Walk.Ideal.settled_start]
  simp

end FilterQuery

import FilterQuery.Filter
import Mathlib.Data.List.Infix

/-!
# Formulas

A sequence of filters is a logical formula written flat. Here it is read as the tree that it means:
groups nest, and the elements of a group are filters and groups again.

* `Formula` is the tree, `Formula.marks` writes it flat again, sign by sign.
* `Formula.ofFilters` reads a sequence of filters. For a balanced one (`Filter.Balanced`) the tree
  has exactly the signs of the filters (`marks_ofFilters`), and it is the only such tree
  (`marks_inj`).
* Between two elements stands the connective of the last filter in front of it. `Formula.Joined`
  says so for a tree; `joined_ofFilters` proves it for every tree that was read.
-/

namespace FilterQuery

/-- A formula is a sequence of elements. An element is a filter, which says itself how it is joined
to the next element, or a group, which is joined by `joint`. -/
inductive Formula where
  | nil
  | filter (f : Filter) (rest : Formula)
  | group (inner : Formula) (joint : Connective) (rest : Formula)
deriving DecidableEq

/-- A sign of a formula that is written flat. -/
inductive Formula.Mark where
  | opening
  | filter (f : Filter)
  /-- A closing parenthesis, with the connective of the filter that it stands behind. -/
  | closing (joint : Connective)
deriving DecidableEq

/-- A filter with the parentheses around it. -/
def Filter.marks (f : Filter) : List Formula.Mark :=
  List.replicate f.opens.toNat .opening ++
    .filter f :: List.replicate f.closes.toNat (.closing f.connective)

/-- How many groups are open behind the filters. -/
def Filter.level : List Filter → Int
  | [] => 0
  | f :: filters => f.opens.toNat - f.closes.toNat + level filters

/-- Every group is opened before it is closed, and in the end none is open. -/
structure Filter.Balanced (filters : List Filter) : Prop where
  nonneg : ∀ before ∈ filters.inits, 0 ≤ Filter.level before
  closed : Filter.level filters = 0

instance (filters : List Filter) : Decidable (Filter.Balanced filters) :=
  decidable_of_iff ((∀ before ∈ filters.inits, 0 ≤ Filter.level before) ∧ Filter.level filters = 0)
    ⟨fun h => ⟨h.1, h.2⟩, fun h => ⟨h.nonneg, h.closed⟩⟩

namespace Formula

/-- The formula written flat. -/
def marks : Formula → List Mark
  | nil => []
  | filter f rest => .filter f :: rest.marks
  | group inner joint rest => .opening :: inner.marks ++ .closing joint :: rest.marks

/-- The filter behind which there is no other one. -/
def lastFilter? : Formula → Option Filter
  | nil => none
  | filter f rest => rest.lastFilter?.or (some f)
  | group inner _ rest => rest.lastFilter?.or inner.lastFilter?

/-- Every group is joined by the connective of its last filter. -/
def Joined : Formula → Prop
  | nil => True
  | filter _ rest => rest.Joined
  | group inner joint rest =>
    inner.Joined ∧ inner.lastFilter?.map Filter.connective = some joint ∧ rest.Joined

/-! ## Reading

Filters are read from the last one to the first. A closing parenthesis then starts a group, and what
was read so far waits until its opening parenthesis comes. -/

/-- The end of a formula, cut somewhere inside its groups. -/
structure Reading where
  /-- The elements behind the cut in the innermost group. -/
  inner : Formula
  /-- For every group around the cut, from the innermost one outwards, how it is joined to what
  follows it, and what that is. -/
  outer : List (Connective × Formula)

namespace Reading

/-- One more sign in front. An opening parenthesis that nothing closes is dropped. -/
def add : Mark → Reading → Reading
  | .filter f, r => { r with inner := .filter f r.inner }
  | .closing joint, r => { inner := .nil, outer := (joint, r.inner) :: r.outer }
  | .opening, { inner, outer := (joint, rest) :: outer } =>
    { inner := .group inner joint rest, outer }
  | .opening, { inner, outer := [] } => { inner, outer := [] }

def marks (r : Reading) : List Mark :=
  r.inner.marks ++ r.outer.flatMap fun (joint, rest) => .closing joint :: rest.marks

def ofFilters (filters : List Filter) : Reading :=
  (filters.flatMap Filter.marks).foldr add { inner := .nil, outer := [] }

end Reading

/-- The formula that the filters mean. -/
def ofFilters (filters : List Filter) : Formula := (Reading.ofFilters filters).inner

namespace Reading

theorem ofFilters_cons (f : Filter) (filters : List Filter) :
    ofFilters (f :: filters) = f.marks.foldr add (ofFilters filters) := by
  unfold ofFilters
  rw [List.flatMap_cons, List.foldr_append]

/-- Closing parentheses are read without condition, each one level further in. -/
theorem foldr_add_closing (r : Reading) (joint : Connective) (n : Nat) :
    ((List.replicate n (Mark.closing joint)).foldr add r).marks =
        List.replicate n (.closing joint) ++ r.marks ∧
      ((List.replicate n (Mark.closing joint)).foldr add r).outer.length = r.outer.length + n := by
  induction n with
  | zero => simp
  | succ n ih =>
    obtain ⟨hmarks, hlength⟩ := ih
    -- one more group is waiting to be opened
    rw [List.replicate_succ, List.foldr_cons]
    constructor
    · rw [List.cons_append, ← hmarks]
      simp [add, marks, Formula.marks]
    · show List.length _ + 1 = _
      rw [hlength]
      omega

/-- Opening parentheses are read as long as there are groups to open, each one level further out. -/
theorem foldr_add_opening (r : Reading) (n : Nat) (h : n ≤ r.outer.length) :
    ((List.replicate n Mark.opening).foldr add r).marks = List.replicate n .opening ++ r.marks ∧
      ((List.replicate n Mark.opening).foldr add r).outer.length + n = r.outer.length := by
  induction n with
  | zero => simp
  | succ n ih =>
    obtain ⟨hmarks, hlength⟩ := ih (by omega)
    rw [List.replicate_succ, List.foldr_cons, List.cons_append, ← hmarks]
    clear hmarks
    -- one group is left to open, since fewer than `r.outer.length` were opened
    generalize (List.replicate n Mark.opening).foldr add r = r₁ at hlength ⊢
    obtain ⟨inner, outer⟩ := r₁
    cases outer with
    | nil =>
      simp only [List.length_nil] at hlength
      omega
    | cons next outer =>
      obtain ⟨joint, rest⟩ := next
      simp only [List.length_cons] at hlength
      constructor
      · simp [add, marks, Formula.marks]
      · show outer.length + (n + 1) = r.outer.length
        omega

/-- A filter is read in full if the groups it opens are closed by itself or later. -/
theorem foldr_add_filter (r : Reading) (f : Filter)
    (h : f.opens.toNat ≤ r.outer.length + f.closes.toNat) :
    (f.marks.foldr add r).marks = f.marks ++ r.marks ∧
      (f.marks.foldr add r).outer.length + f.opens.toNat =
        r.outer.length + f.closes.toNat := by
  unfold Filter.marks
  rw [List.foldr_append, List.foldr_cons]
  -- backwards the closing parentheses come first, then the filter, then the opening ones
  obtain ⟨hclosing, hlength⟩ := foldr_add_closing r f.connective f.closes.toNat
  set r₁ := (List.replicate f.closes.toNat (Mark.closing f.connective)).foldr add r with hr₁
  have hfilter : (add (.filter f) r₁).marks = .filter f :: r₁.marks := rfl
  have houter : (add (.filter f) r₁).outer = r₁.outer := rfl
  obtain ⟨hopening, hrest⟩ :=
    foldr_add_opening (add (.filter f) r₁) f.opens.toNat (by rw [houter]; omega)
  constructor
  · rw [hopening, hfilter, hclosing, List.append_assoc, List.cons_append]
  · rw [hrest, houter, hlength]

end Reading

end Formula

namespace Filter

/-- Groups that are open add up. -/
theorem level_append (before after : List Filter) :
    level (before ++ after) = level before + level after := by
  induction before with
  | nil => exact (Int.zero_add _).symm
  | cons f before ih =>
    rw [List.cons_append, level, ih, level]
    omega

/-- Seen from the end, a balanced sequence never opens more groups than it closes. -/
theorem Balanced.level_suffix {filters after : List Filter} (h : Balanced filters)
    (hafter : after <:+ filters) : level after ≤ 0 := by
  obtain ⟨before, rfl⟩ := hafter
  -- what is in front has no group closed that it did not open, and the whole has none left open
  have hbefore : 0 ≤ level before :=
    h.nonneg before ((List.mem_inits before _).mpr (List.prefix_append before after))
  have htotal := h.closed
  rw [level_append] at htotal
  omega

end Filter

namespace Formula

/-- The reading keeps every sign as long as no suffix leaves a group unclosed. Induction on the
filters; how many groups are started and not yet opened is the level of what was read. -/
theorem Reading.marks_ofFilters {filters : List Filter}
    (h : ∀ after, after <:+ filters → Filter.level after ≤ 0) :
    (Reading.ofFilters filters).marks = filters.flatMap Filter.marks ∧
      ((Reading.ofFilters filters).outer.length : Int) = -Filter.level filters := by
  induction filters with
  | nil => exact ⟨rfl, rfl⟩
  | cons f fs ih =>
    obtain ⟨hmarks, hlength⟩ := ih fun after hafter =>
      h after (hafter.trans (List.suffix_cons f fs))
    have hlevel := h (f :: fs) (List.suffix_refl _)
    rw [Filter.level] at hlevel
    obtain ⟨hread, hopen⟩ := Reading.foldr_add_filter (Reading.ofFilters fs) f (by omega)
    rw [Reading.ofFilters_cons, List.flatMap_cons, Filter.level]
    constructor
    · rw [hread, hmarks]
    · omega

/-- **A balanced sequence of filters is read without loss.** -/
theorem marks_ofFilters {filters : List Filter} (h : Filter.Balanced filters) :
    (ofFilters filters).marks = filters.flatMap Filter.marks := by
  obtain ⟨hmarks, hlength⟩ := Reading.marks_ofFilters fun after hafter => h.level_suffix hafter
  -- all groups that were started have been opened
  have houter : (Reading.ofFilters filters).outer = [] := by
    rw [h.closed] at hlength
    exact List.eq_nil_of_length_eq_zero (by omega)
  rw [← hmarks, Reading.marks, houter]
  simp [ofFilters]

/-! ## How the elements are joined

The groups around the cut of a reading are joined rightly when each one is joined by the connective
of the last filter inside it. -/

/-- The groups around a cut are joined by the connective of their last filter, where `last` is the
last filter of the innermost one. -/
def Reading.JoinedBehind : Option Filter → List (Connective × Formula) → Prop
  | _, [] => True
  | last, (joint, rest) :: outer =>
    last.map Filter.connective = some joint ∧ rest.Joined ∧
      JoinedBehind (rest.lastFilter?.or last) outer

theorem Reading.JoinedBehind.or {last : Option Filter} {outer : List (Connective × Formula)}
    (h : JoinedBehind last outer) (f : Filter) : JoinedBehind (last.or (some f)) outer := by
  cases outer with
  | nil => trivial
  | cons next outer =>
    cases last with
    | none => exact absurd h.1 (by simp)
    | some g => exact h

/-- A filter is put in front: its closing parentheses start groups that it is the last filter of,
and its opening parentheses end groups that are joined rightly already. -/
theorem Reading.joined_foldr_add_filter {r : Reading} (f : Filter)
    (h : r.inner.Joined ∧ JoinedBehind r.inner.lastFilter? r.outer) :
    (f.marks.foldr add r).inner.Joined ∧
      JoinedBehind (f.marks.foldr add r).inner.lastFilter? (f.marks.foldr add r).outer := by
  unfold Filter.marks
  rw [List.foldr_append, List.foldr_cons]
  -- the closing parentheses come first, as the reading goes backwards; `f` is not read yet then
  have hclosing : ∀ n, let r₁ := (List.replicate n (Mark.closing f.connective)).foldr add r
      r₁.inner.Joined ∧ JoinedBehind (r₁.inner.lastFilter?.or (some f)) r₁.outer := by
    intro n
    induction n with
    | zero => exact ⟨h.1, h.2.or f⟩
    | succ n ih =>
      rw [List.replicate_succ, List.foldr_cons]
      exact ⟨trivial, rfl, ih.1, ih.2⟩
  obtain ⟨hinner, houter⟩ := hclosing f.closes.toNat
  set r₁ := (List.replicate f.closes.toNat (Mark.closing f.connective)).foldr add r
  -- an opening parenthesis takes the innermost group out of those that wait
  have hopening : ∀ n, let r₂ := (List.replicate n Mark.opening).foldr add (add (.filter f) r₁)
      r₂.inner.Joined ∧ JoinedBehind r₂.inner.lastFilter? r₂.outer := by
    intro n
    induction n with
    | zero => exact ⟨hinner, houter⟩
    | succ n ih =>
      rw [List.replicate_succ, List.foldr_cons]
      generalize (List.replicate n Mark.opening).foldr add (add (.filter f) r₁) = r₂ at ih ⊢
      obtain ⟨inner, outer⟩ := r₂
      cases outer with
      | nil => exact ih
      | cons next outer => exact ⟨⟨ih.1, ih.2.1, ih.2.2.1⟩, ih.2.2.2⟩
  exact hopening f.opens.toNat

/-- **Every group of a formula that was read is joined by the connective of its last filter.** -/
theorem joined_ofFilters (filters : List Filter) : (ofFilters filters).Joined := by
  suffices h : (Reading.ofFilters filters).inner.Joined ∧
      Reading.JoinedBehind (Reading.ofFilters filters).inner.lastFilter?
        (Reading.ofFilters filters).outer from h.1
  induction filters with
  | nil => exact ⟨trivial, trivial⟩
  | cons f fs ih =>
    rw [Reading.ofFilters_cons]
    exact Reading.joined_foldr_add_filter f ih

/-! ## There is only one reading -/

/-- A group ends here: nothing follows, or a closing parenthesis. -/
def endsGroup : List Mark → Bool
  | [] => true
  | .closing _ :: _ => true
  | _ => false

/-- Where a group ends, its elements and what follows are settled by the signs. Induction on the
first formula; `endsGroup` keeps the other one from running on. -/
theorem marks_append_inj {t u : Formula} {a b : List Mark} (ha : endsGroup a = true)
    (hb : endsGroup b = true) (h : t.marks ++ a = u.marks ++ b) : t = u ∧ a = b := by
  induction t generalizing u a b with
  | nil =>
    cases u with
    | nil => exact ⟨rfl, h⟩
    | filter g rest =>
      rw [show a = Mark.filter g :: (rest.marks ++ b) from h] at ha
      cases ha
    | group inner joint rest =>
      rw [show a = Mark.opening :: (inner.marks ++ Mark.closing joint :: rest.marks ++ b)
        from h] at ha
      cases ha
  | filter f rest ih =>
    cases u with
    | nil =>
      rw [show b = Mark.filter f :: (rest.marks ++ a) from h.symm] at hb
      cases hb
    | filter g rest' =>
      obtain ⟨hfilter, hrest⟩ := List.cons.inj h
      obtain ⟨rfl, rfl⟩ := ih ha hb hrest
      cases hfilter
      exact ⟨rfl, rfl⟩
    | group inner joint rest' =>
      obtain ⟨hfilter, _⟩ := List.cons.inj h
      cases hfilter
  | group inner joint rest ihInner ihRest =>
    cases u with
    | nil =>
      rw [show b = Mark.opening :: (inner.marks ++ Mark.closing joint :: rest.marks ++ a)
        from h.symm] at hb
      cases hb
    | filter g rest' =>
      obtain ⟨hfilter, _⟩ := List.cons.inj h
      cases hfilter
    | group inner' joint' rest' =>
      have hmarks : inner.marks ++ Mark.closing joint :: (rest.marks ++ a) =
          inner'.marks ++ Mark.closing joint' :: (rest'.marks ++ b) := by
        simpa [marks] using h
      -- both groups end at their closing parentheses, so their elements are the same
      obtain ⟨rfl, hclosing⟩ := ihInner rfl rfl hmarks
      obtain ⟨hjoint, hrest⟩ := List.cons.inj hclosing
      obtain ⟨rfl, rfl⟩ := ihRest ha hb hrest
      cases hjoint
      exact ⟨rfl, rfl⟩

/-- **Formulas with the same signs are the same.** -/
theorem marks_inj {t u : Formula} : t.marks = u.marks ↔ t = u := by
  constructor
  · intro h
    exact (marks_append_inj (a := []) (b := []) rfl rfl (by rw [h])).1
  · intro h
    rw [h]

end Formula

end FilterQuery

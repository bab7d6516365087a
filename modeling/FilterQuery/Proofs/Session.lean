import FilterQuery.Proofs.Query.Lines
import FilterQuery.Session

/-!
# Runs of a session

A run carries out edits one after the other, and an edit that fails is as if it had not been tried
(`Session.run_of_apply_eq_error`). An edit that succeeds changes the one part of the state that it
is about (`Session.part_of_apply`).

Filters may be put together by the caller, or they may be read from a document. Or they are said in
the language of filter lines, which has no way to say one that its operator does not take, nor one
that is left out. So a session that is fed with lines only (`Session.Edit.isSpoken`) always has a
query, with one predicate for each filter:

* `Session.AllKept` is the invariant, `Session.AllKept.after` the step, with one case for each kind
  of edit, and `Session.AllKept.run` the run.
* `Session.exists_query_run` is what follows for the query.
-/

namespace FilterQuery.Session

variable {s s' : Session} {e : Edit} {before edits later : List Edit}

/-! ## Edits that fail -/

/-- An edit that succeeds is carried out. -/
theorem after_of_apply_eq_ok (h : s.apply e = .ok s') : s.after e = s' := by
  unfold after
  rw [h]

theorem after_of_apply_eq_error {failure : Failure} (h : s.apply e = .error failure) :
    s.after e = s := by
  unfold after
  rw [h]

theorem run_append (s : Session) (edits later : List Edit) :
    s.run (edits ++ later) = (s.run edits).run later := List.foldl_append

/-- A run starts with its first edit. -/
theorem run_cons (s : Session) (e : Edit) (edits : List Edit) :
    s.run (e :: edits) = (s.after e).run edits := rfl

/-- **An edit that fails leaves no trace** in the run, wherever it was tried. -/
theorem run_of_apply_eq_error {failure : Failure}
    (h : (s.run before).apply e = .error failure) (later : List Edit) :
    s.run (before ++ e :: later) = s.run (before ++ later) := by
  rw [run_append, run_cons, after_of_apply_eq_error h, ← run_append]

/-- An edit succeeds or fails, and what is behind it is told by which. -/
theorem after_cases (s : Session) (e : Edit) :
    (∃ s', s.apply e = .ok s' ∧ s.after e = s') ∨
      ∃ failure, s.apply e = .error failure ∧ s.after e = s := by
  -- whichever it is, the state behind the edit follows
  cases h : s.apply e with
  | ok s' => exact .inl ⟨s', rfl, after_of_apply_eq_ok h⟩
  | error failure => exact .inr ⟨failure, rfl, after_of_apply_eq_error h⟩

/-! ## What an edit is about -/

/-- The parts of a state that an edit may be about. -/
inductive Part where
  | filters
  | sorts
  | page
  | criteria
  | maxPageSize
deriving DecidableEq

/-- The part that the edit is about. -/
def Edit.part : Edit → Part
  | addFilters _ | addLines _ | join _ | openGroups _ | closeGroups _ | dropFilter
  | reloadLines => .filters
  | addSorts _ | addExpression _ => .sorts
  | setPage _ | setParts _ => .page
  | loadDocument _ | reloadDocument | reset => .criteria
  | setMaxPageSize _ | loadSettings _ => .maxPageSize

/-- The states are the same but for a part. -/
def SameBut : Part → Session → Session → Prop
  | .filters, s, s' => s' = s.withFilters s'.criteria.filters
  | .sorts, s, s' => s' = s.withSorts s'.criteria.sorts
  | .page, s, s' => s' = { s with criteria := { s.criteria with page := s'.criteria.page } }
  | .criteria, s, s' => s' = { s with criteria := s'.criteria }
  | .maxPageSize, s, s' => s' = { s with maxPageSize := s'.maxPageSize }

theorem eq_of_apply_dropFilter (h : s.apply .dropFilter = .ok s') :
    s' = s.withFilters s.criteria.filters.dropLast := by
  -- without a filter there is none to drop
  change (if s.criteria.filters.isEmpty then Except.error Failure.noFilter
    else .ok (s.withFilters s.criteria.filters.dropLast)) = .ok s' at h
  split at h
  · cases h
  · exact (Except.ok.inj h).symm

/-- **An edit changes the part that it is about** and nothing else. -/
theorem part_of_apply (h : s.apply e = .ok s') : SameBut e.part s s' := by
  cases e with
  | addFilters | addSorts | setPage | setMaxPageSize | reset =>
    obtain rfl := Except.ok.inj h
    rfl
  -- these edits read something first, and then change one part
  | addLines | addExpression | setParts | loadSettings | loadDocument | reloadDocument =>
    obtain ⟨_, -, h⟩ := bind_eq_ok_iff.mp h
    obtain rfl := Except.ok.inj h
    rfl
  | openGroups | closeGroups | reloadLines =>
    obtain ⟨_, -, rfl⟩ := map_eq_ok_iff.mp h
    rfl
  | join word =>
    obtain ⟨_, -, h⟩ := bind_eq_ok_iff.mp h
    obtain ⟨_, -, rfl⟩ := map_eq_ok_iff.mp h
    rfl
  | dropFilter =>
    obtain rfl := eq_of_apply_dropFilter h
    rfl

/-- The page size for queries that ask for none is up to the settings alone. -/
theorem maxPageSize_run (s : Session) (h : ∀ e ∈ edits, e.part ≠ .maxPageSize) :
    (s.run edits).maxPageSize = s.maxPageSize := by
  induction edits generalizing s with
  | nil => rfl
  | cons e edits ih =>
    obtain ⟨he, hedits⟩ := List.forall_mem_cons.mp h
    rw [run_cons, ih _ hedits]
    -- an edit that fails changes nothing, and one that succeeds changes another part
    rcases s.after_cases e with ⟨s', happly, hafter⟩ | ⟨failure, -, hafter⟩
    · rw [hafter]
      have hpart := part_of_apply happly
      cases hwhich : e.part with
      | maxPageSize => contradiction
      | filters | sorts | page | criteria =>
        rw [hwhich] at hpart
        have hsame : s' = _ := hpart
        exact (congrArg Session.maxPageSize hsame).trans rfl
    · rw [hafter]

/-! ## Sessions that are fed with lines -/

/-- The edit says its filters in the language of lines, if it is about filters at all. -/
def Edit.isSpoken : Edit → Bool
  | addFilters _ | loadDocument _ | reloadDocument => false
  | _ => true

/-- Every filter fits and makes a predicate. -/
def AllKept (s : Session) : Prop :=
  ∀ f ∈ s.criteria.filters, f.fits = true ∧ f.leftOut = false

/-- The last filter is the one that changes. -/
theorem modifyLast_eq_ok {change : Filter → Filter} {fs gs : List Filter}
    (h : modifyLast change fs = .ok gs) :
    ∃ front last, fs = front ++ [last] ∧ gs = front ++ [change last] := by
  induction fs generalizing gs with
  | nil => cases h
  | cons f fs ih =>
    cases fs with
    | nil =>
      obtain rfl := Except.ok.inj h
      exact ⟨[], f, rfl, rfl⟩
    | cons g fs =>
      obtain ⟨hs, hread, rfl⟩ := map_eq_ok_iff.mp h
      -- the last filter of the others is the last of all
      obtain ⟨front, last, hfs, rfl⟩ := ih hread
      rw [hfs]
      exact ⟨f :: front, last, rfl, rfl⟩

/-- A change to the parentheses or to the connective of the last filter keeps all filters. -/
theorem kept_of_modifyLast {change : Filter → Filter} {fs gs : List Filter}
    (h : modifyLast change fs = .ok gs)
    (hchange : ∀ f, (change f).fits = f.fits ∧ (change f).leftOut = f.leftOut)
    (hfs : ∀ f ∈ fs, f.fits = true ∧ f.leftOut = false) :
    ∀ g ∈ gs, g.fits = true ∧ g.leftOut = false := by
  obtain ⟨front, last, rfl, rfl⟩ := modifyLast_eq_ok h
  intro g hg
  rcases List.mem_append.mp hg with hg | hg
  · exact hfs g (by simp [hg])
  · obtain rfl := List.mem_singleton.mp hg
    obtain ⟨hfits, hleft⟩ := hchange last
    rw [hfits, hleft]
    exact hfs last (by simp)

/-- Lines say no filter that does not fit and none that is left out. -/
theorem kept_of_ofLines {lines : List String} {filters : List Filter}
    (h : Filter.ofLines lines = .ok filters) :
    ∀ f ∈ filters, f.fits = true ∧ f.leftOut = false :=
  Predicate.kept_of_readFrom (Filter.readFrom_of_ofLinesFrom h)

/-- **A spoken edit keeps all filters.** -/
theorem AllKept.apply (h : s.AllKept) (he : e.isSpoken = true) (happly : s.apply e = .ok s') :
    s'.AllKept := by
  cases e with
  | addFilters | loadDocument | reloadDocument => cases he
  | addLines lines =>
    obtain ⟨filters, hread, happly⟩ := bind_eq_ok_iff.mp happly
    obtain rfl := Except.ok.inj happly
    intro f hf
    rcases List.mem_append.mp hf with hf | hf
    · exact h f hf
    · exact kept_of_ofLines (mapError_eq_ok_iff.mp hread) f hf
  -- what changes of the last filter does not decide whether it is kept
  | join word =>
    obtain ⟨key, -, happly⟩ := bind_eq_ok_iff.mp happly
    obtain ⟨filters, hmodify, rfl⟩ := map_eq_ok_iff.mp happly
    exact kept_of_modifyLast hmodify (fun f => ⟨rfl, rfl⟩) h
  | openGroups | closeGroups =>
    obtain ⟨filters, hmodify, rfl⟩ := map_eq_ok_iff.mp happly
    exact kept_of_modifyLast hmodify (fun f => ⟨rfl, rfl⟩) h
  | dropFilter =>
    obtain rfl := eq_of_apply_dropFilter happly
    exact fun f hf => h f ((List.dropLast_sublist _).subset hf)
  | reloadLines =>
    obtain ⟨filters, hread, rfl⟩ := map_eq_ok_iff.mp happly
    exact kept_of_ofLines (mapError_eq_ok_iff.mp hread)
  | reset =>
    obtain rfl := Except.ok.inj happly
    exact nofun
  | addSorts | setPage | setMaxPageSize =>
    -- the other edits are not about filters
    obtain rfl := Except.ok.inj happly
    exact h
  | addExpression | setParts | loadSettings =>
    obtain ⟨_, -, happly⟩ := bind_eq_ok_iff.mp happly
    obtain rfl := Except.ok.inj happly
    exact h

theorem AllKept.after (h : s.AllKept) (he : e.isSpoken = true) : (s.after e).AllKept := by
  rcases s.after_cases e with ⟨s', happly, hafter⟩ | ⟨failure, -, hafter⟩
  · rw [hafter]
    exact h.apply he happly
  · rw [hafter]
    exact h

/-- **A spoken run keeps all filters.** -/
theorem AllKept.run (h : s.AllKept) (hedits : ∀ e ∈ edits, e.isSpoken = true) :
    (s.run edits).AllKept := by
  -- the invariant holds wherever the run starts, so the start is left open
  induction edits generalizing s with
  | nil => exact h
  | cons e edits ih =>
    obtain ⟨he, hedits⟩ := List.forall_mem_cons.mp hedits
    exact ih (h.after he) hedits

/-- **A session that is fed with lines always has a query.** Every filter makes a predicate as it
stands, and the arguments are those of the filters, in order. -/
theorem exists_query_run (h : s.AllKept) (hedits : ∀ e ∈ edits, e.isSpoken = true) :
    ∃ ps q, Predicate.ofFilters (s.run edits).criteria.filters = .ok ps ∧
      List.Forall₂ Predicate.Copies (s.run edits).criteria.filters ps ∧
      (s.run edits).query = .ok q ∧ q.arguments = ps.flatMap Predicate.arguments := by
  have hkept := h.run hedits
  have hps := Predicate.ofFilters_eq_ok_iff.mpr ⟨fun f hf => (hkept f hf).1, rfl⟩
  exact ⟨_, _, hps, Predicate.copies_emitted fun f hf => (hkept f hf).2,
    Query.ofCriteria_eq_ok hps _, rfl⟩

/-- The second edit fails, since there is no such connective, and the first one stands. -/
example : ((({} : Session).run [.addLines ["@a = [1]"], .join "XOR"]).query.toOption.map
    fun q => q.sql) = some "WHERE a = $1" := by
  decide +kernel

end FilterQuery.Session

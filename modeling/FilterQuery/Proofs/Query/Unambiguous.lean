import FilterQuery.Proofs.Query.Lines
import FilterQuery.Proofs.Query.Placeholders
import FilterQuery.Proofs.Query.Shape

/-!
# The clause is unambiguous

No two queries of the filter language have one clause, values aside. The clause can be read from
left to right although its signs have several uses each: parentheses stand around groups and around
alternatives, a field may be called `AND` or `IN`, and some keywords start with others. What saves
it is that every part ends where a character stands that cannot be in it:

* the parentheses that open end at the field, and the field at the first blank;
* the keyword ends at a dollar sign or a parenthesis, neither of which a keyword has
  (`Operator.keyword_append_inj`);
* alternatives end at the parenthesis that closes them, and a single placeholder is known from its
  number, which is one more than there were placeholders before (`Operand.text_append_inj`).

`Predicate.text_append_inj` takes one predicate off the front of a text, and
`Predicate.joined_inj` all of them, by induction. `Predicate.clause_eq_iff_of_ofLines` is the result
for filters that were read from lines.
-/

namespace FilterQuery

open Text

/-! ## The parts of a predicate -/

/-- The characters up to the operand: it starts with a dollar sign or a parenthesis. -/
def Text.isBeforeOperand (c : Char) : Bool := c != '$' && c != '('

/-- No two operators have one keyword. -/
theorem Operator.keyword_injective {op op' : Operator} (h : op.keyword = op'.keyword) :
    op = op' := by
  have hall : ∀ a ∈ all, ∀ b ∈ all, a.keyword = b.keyword → a = b := by decide
  exact hall op (mem_all op) op' (mem_all op') h

theorem Operator.all_isBeforeOperand_keyword (op : Operator) :
    (op.keyword.toList ++ [' ']).all isBeforeOperand = true := by
  cases op <;> decide

/-- The keyword is known from the text in front of the operand. -/
theorem Operator.keyword_append_inj {op op' : Operator} {s t : List Char}
    (hs : StopsAt isBeforeOperand s) (ht : StopsAt isBeforeOperand t)
    (h : op.keyword.toList ++ ' ' :: s = op'.keyword.toList ++ ' ' :: t) : op = op' ∧ s = t := by
  rw [List.append_cons, List.append_cons _ _ t] at h
  -- the keyword and the blank behind it end where the operand starts
  obtain ⟨hkeyword, hrest⟩ := append_inj_of_stopsAt
    (List.all_eq_true.mp op.all_isBeforeOperand_keyword)
    (List.all_eq_true.mp op'.all_isBeforeOperand_keyword) hs ht h
  exact ⟨keyword_injective (String.toList_inj.mp (List.append_cancel_right hkeyword)), hrest⟩

/-- Behind a connective comes a blank. -/
theorem Connective.word_append_inj {key key' : Connective} {s t : List Char}
    (h : key.word.toList ++ ' ' :: s = key'.word.toList ++ ' ' :: t) : key = key' ∧ s = t := by
  cases key <;> cases key' <;> simp_all [Connective.word]

namespace Operand

/-- The operand has the form that the operator asks for. -/
def Suits (o : Operand) (op : Operator) : Prop :=
  match o with
  | single _ => op.takesList = false
  | alternatives _ => op.takesList = true

theorem stopsAt_text (o : Operand) (first : Nat) (rest : List Char) :
    StopsAt isBeforeOperand (o.text first ++ rest) := by
  cases o with
  | single value => exact stopsAt_cons.mpr rfl
  | alternatives values => exact stopsAt_cons.mpr rfl

/-- No placeholder has a parenthesis, and nothing between placeholders is one. -/
theorem ne_of_mem_placeholders {numbers : List Nat} :
    ∀ c ∈ [',', ' '].intercalate (numbers.map placeholder), (c != ')') = true := by
  induction numbers with
  | nil => simp
  | cons n numbers ih =>
    have hn : ∀ c ∈ placeholder n, (c != ')') = true := by
      intro c hc
      rcases List.mem_cons.mp hc with rfl | hc
      · rfl
      · have hdigit := List.all_eq_true.mp (all_isDigit_decimal n) c hc
        rw [bne_iff_ne]
        rintro rfl
        cases hdigit
    cases numbers with
    | nil => simpa using hn
    | cons m numbers =>
      rw [List.map_cons, List.map_cons, List.intercalate_cons_cons, ← List.map_cons]
      intro c hc
      rcases List.mem_append.mp hc with hc | hc
      · rcases List.mem_append.mp hc with hc | hc
        · exact hn c hc
        · exact List.all_eq_true.mp (by decide : [',', ' '].all (· != ')') = true) c hc
      · exact ih c hc

/-- An operand is known from its text, values aside, once the number of its first placeholder is. -/
theorem text_append_inj {o o' : Operand} {op : Operator} (ho : o.Suits op) (ho' : o'.Suits op)
    {first : Nat} {rest rest' : List Char} (h : o.text first ++ rest = o'.text first ++ rest') :
    o.Alike o' ∧ rest = rest' := by
  cases o with
  | single v =>
    cases o' with
    | single w => exact ⟨.single v w, List.append_cancel_left h⟩
    | alternatives ws =>
      have hop : op.takesList = false := ho
      rw [show op.takesList = true from ho'] at hop
      cases hop
  | alternatives vs =>
    cases o' with
    | single w =>
      have hop : op.takesList = false := ho'
      rw [show op.takesList = true from ho] at hop
      cases hop
    | alternatives ws =>
      simp only [text, List.cons_append, List.append_assoc, List.cons.injEq, true_and] at h
      have hstop : ∀ s : List Char, StopsAt (· != ')') ([')'] ++ s) := by
        intro s
        exact stopsAt_cons.mpr rfl
      obtain ⟨hmarks, hrest⟩ := append_inj_of_stopsAt ne_of_mem_placeholders
        ne_of_mem_placeholders (hstop rest) (hstop rest') h
      refine ⟨.alternatives ?_, List.append_cancel_left hrest⟩
      -- the placeholders in the text are counted by a scan
      have hscan := congrArg placeholderNumbers hmarks
      have hnumbers : ∀ numbers : List Nat,
          placeholderNumbers ([',', ' '].intercalate (numbers.map placeholder)) = numbers := by
        intro numbers
        have hfound := placeholderNumbers_intercalate numbers stopsAt_nil
        rw [List.append_nil, show placeholderNumbers [] = [] from rfl, List.append_nil] at hfound
        exact hfound
      rw [hnumbers, hnumbers] at hscan
      simpa using congrArg List.length hscan

end Operand

namespace Predicate

/-! ## One predicate off the front -/

/-- The predicate can be recognized in a text: it compares a field with what its operator takes. -/
structure Legible (p : Predicate) : Prop where
  field_ne_nil : p.field.toList ≠ []
  isFieldChar : ∀ c ∈ p.field.toList, Line.isFieldChar c = true
  suits : p.operand.Suits p.operator

variable {p q : Predicate} {ps qs : List Predicate}

/-- The field of a legible predicate is no parenthesis. -/
theorem Legible.stopsAt_field (h : p.Legible) (rest : List Char) :
    StopsAt (· == '(') (p.field.toList ++ rest) := by
  cases hfield : p.field.toList with
  | nil => exact absurd hfield h.field_ne_nil
  | cons c field =>
    have hc := h.isFieldChar c (by simp [hfield])
    refine stopsAt_cons.mpr (Bool.eq_false_iff.mpr fun heq => ?_)
    rw [eq_of_beq heq] at hc
    cases hc

/-- **One predicate is known from the text that starts with it**, values aside, and so is the rest
of the text. -/
theorem text_append_inj (hp : p.Legible) (hq : q.Legible) {first : Nat} {rest rest' : List Char}
    (hrest : StopsAt (· == ')') rest) (hrest' : StopsAt (· == ')') rest')
    (h : p.text first ++ rest = q.text first ++ rest') : p.Similar q ∧ rest = rest' := by
  simp only [text, List.append_assoc, List.cons_append] at h
  -- part by part: the parentheses, the field, the keyword, the operand, and the parentheses behind
  -- it
  obtain ⟨hopens, h⟩ :=
    replicate_append_inj (hp.stopsAt_field _) (hq.stopsAt_field _) h
  obtain ⟨hfield, h⟩ := append_inj_of_stopsAt hp.isFieldChar hq.isFieldChar
    (stopsAt_cons.mpr rfl) (stopsAt_cons.mpr rfl) h
  obtain ⟨hoperator, h⟩ := Operator.keyword_append_inj (p.operand.stopsAt_text first _)
    (q.operand.stopsAt_text first _) (List.cons.inj h).2
  obtain ⟨hoperand, h⟩ := Operand.text_append_inj hp.suits (hoperator ▸ hq.suits) h
  obtain ⟨hcloses, h⟩ := replicate_append_inj hrest hrest' h
  exact ⟨⟨String.toList_inj.mp hfield, hoperator, hoperand, UInt64.toNat_inj.mp hopens,
    UInt64.toNat_inj.mp hcloses⟩, h⟩

/-! ## All predicates -/

theorem text_ne_nil (p : Predicate) (first : Nat) : p.text first ≠ [] := by
  simp [text]

theorem joined_ne_nil (p : Predicate) (ps : List Predicate) (first : Nat) :
    joined first (p :: ps) ≠ [] := by
  cases ps with
  | nil => exact p.text_ne_nil first
  | cons q ps => simp [joined]

/-- What follows a predicate in the clause. -/
def joinedBehind (first : Nat) (p : Predicate) : List Predicate → List Char
  | [] => []
  | q :: ps => ' ' :: p.connective.word.toList ++
      ' ' :: joined (first + p.arguments.length) (q :: ps)

/-- The first predicate stands in front of everything else. -/
theorem joined_cons (p : Predicate) (ps : List Predicate) (first : Nat) :
    joined first (p :: ps) = p.text first ++ joinedBehind first p ps := by
  cases ps with
  | nil => exact (List.append_nil _).symm
  | cons q ps => rw [joined, joinedBehind, List.append_assoc]

theorem stopsAt_joinedBehind (first : Nat) (p : Predicate) (ps : List Predicate) :
    StopsAt (· == ')') (joinedBehind first p ps) := by
  cases ps with
  | nil => exact stopsAt_nil
  | cons q ps => exact stopsAt_cons.mpr rfl

/-- **The clause is known from its text.** The predicates of one text are similar, and joined by the
same connectives. -/
theorem joined_inj (hps : ∀ p ∈ ps, p.Legible) (hqs : ∀ q ∈ qs, q.Legible) {first : Nat}
    (h : joined first ps = joined first qs) :
    List.Forall₂ Similar ps qs ∧ ps.dropLast.map connective = qs.dropLast.map connective := by
  induction ps generalizing qs first with
  | nil =>
    cases qs with
    | nil => exact ⟨.nil, rfl⟩
    | cons q qs => exact absurd h.symm (joined_ne_nil q qs first)
  | cons p ps ih =>
    cases qs with
    | nil => exact absurd h (joined_ne_nil p ps first)
    | cons q qs =>
      obtain ⟨hp, hps⟩ := List.forall_mem_cons.mp hps
      obtain ⟨hq, hqs⟩ := List.forall_mem_cons.mp hqs
      rw [joined_cons, joined_cons] at h
      obtain ⟨hsimilar, hbehind⟩ := text_append_inj hp hq (stopsAt_joinedBehind first p ps)
        (stopsAt_joinedBehind first q qs) h
      cases ps with
      | nil =>
        cases qs with
        | nil => exact ⟨.cons hsimilar .nil, rfl⟩
        | cons q' qs => cases hbehind
      | cons p' ps =>
        cases qs with
        -- one text goes on and the other one does not
        | nil => cases hbehind
        | cons q' qs =>
          obtain ⟨hjoin, hrest⟩ := Connective.word_append_inj (List.cons.inj hbehind).2
          -- the next placeholder has the same number on both sides
          rw [hsimilar.length_arguments] at hrest
          obtain ⟨hrests, hjoins⟩ := ih hps hqs hrest
          refine ⟨.cons hsimilar hrests, ?_⟩
          rw [List.dropLast_cons_cons, List.dropLast_cons_cons, List.map_cons, List.map_cons, hjoin,
            hjoins]

/-- The clause is known from its text as well, for it has one keyword in front. -/
theorem clause_inj (hps : ∀ p ∈ ps, p.Legible) (hqs : ∀ q ∈ qs, q.Legible)
    (h : clause ps = clause qs) :
    List.Forall₂ Similar ps qs ∧ ps.dropLast.map connective = qs.dropLast.map connective := by
  refine joined_inj hps hqs (?_ : joined 1 ps = joined 1 qs)
  unfold clause at h
  cases ps with
  | nil =>
    cases qs with
    | nil => rfl
    | cons q qs => cases h
  | cons p ps =>
    cases qs with
    | nil => cases h
    | cons q qs => exact List.append_cancel_left h

end Predicate

/-! ## Filters that were read -/

/-- The filters agree on everything but their values and connectives, and bind as many values. -/
structure Filter.SameOutline (f g : Filter) : Prop where
  field : f.field = g.field
  operator : f.operator = g.operator
  opens : f.opens = g.opens
  closes : f.closes = g.closes
  bound : f.bound.length = g.bound.length

namespace Filter

theorem suits_operand (f : Filter) : f.operand.Suits f.operator := by
  unfold operand
  cases hop : f.operator.takesList with
  | true => exact hop
  | false => exact hop

/-- Operands of one operator are alike as soon as they bind as many values. -/
theorem alike_operand_iff {f g : Filter} (h : f.operator = g.operator) :
    f.operand.Alike g.operand ↔ f.bound.length = g.bound.length := by
  rw [← values_operand, ← values_operand]
  refine ⟨Operand.Alike.length_values, ?_⟩
  unfold operand
  rw [← h]
  cases f.operator.takesList with
  | true => exact fun hlength => .alternatives hlength
  | false => exact fun _ => .single f.value g.value

end Filter

namespace Predicate

theorem Copies.similar_iff {f g : Filter} {p q : Predicate} (hp : Copies f p) (hq : Copies g q) :
    p.Similar q ↔ f.SameOutline g := by
  constructor
  · rintro ⟨hfield, hoperator, hoperand, hopens, hcloses⟩
    -- a predicate has everything from its filter
    rw [hp.field, hq.field] at hfield
    rw [hp.operator, hq.operator] at hoperator
    rw [hp.operand, hq.operand] at hoperand
    rw [hp.opens, hq.opens] at hopens
    rw [hp.closes, hq.closes] at hcloses
    exact ⟨hfield, hoperator, hopens, hcloses, (Filter.alike_operand_iff hoperator).mp hoperand⟩
  · rintro ⟨hfield, hoperator, hopens, hcloses, hbound⟩
    refine ⟨?_, ?_, ?_, ?_, ?_⟩
    · rw [hp.field, hq.field, hfield]
    · rw [hp.operator, hq.operator, hoperator]
    · rw [hp.operand, hq.operand]
      exact (Filter.alike_operand_iff hoperator).mpr hbound
    · rw [hp.opens, hq.opens, hopens]
    · rw [hp.closes, hq.closes, hcloses]

theorem forall₂_similar_iff {filters filters' : List Filter} {ps qs : List Predicate}
    (hps : List.Forall₂ Copies filters ps) (hqs : List.Forall₂ Copies filters' qs) :
    List.Forall₂ Similar ps qs ↔ List.Forall₂ Filter.SameOutline filters filters' := by
  induction hps generalizing filters' qs with
  | nil => cases hqs <;> simp
  | cons hp _ ih =>
    cases hqs with
    | nil => simp
    | cons hq hqs =>
      rw [List.forall₂_cons, List.forall₂_cons, hp.similar_iff hq, ih hqs]

theorem map_connective_of_copies {filters : List Filter} {ps : List Predicate}
    (h : List.Forall₂ Copies filters ps) :
    ps.map connective = filters.map Filter.connective := by
  induction h with
  | nil => rfl
  | cons hp _ ih => rw [List.map_cons, List.map_cons, hp.connective, ih]

theorem legible_of_readFrom {lines : List String} {filters : List Filter} {ps : List Predicate}
    (h : List.Forall₂ Filter.ReadFrom lines filters) (hps : List.Forall₂ Copies filters ps) :
    ∀ p ∈ ps, p.Legible := by
  induction h generalizing ps with
  | nil =>
    cases hps
    simp
  | @cons line f lines filters hf _ ih =>
    cases hps with
    | @cons _ p _ ps hp hps =>
      refine List.forall_mem_cons.mpr ⟨?_, ih hps⟩
      obtain ⟨number, hread⟩ := hf
      obtain ⟨parts, hparts, hmeans⟩ := Filter.exists_means_of_ofLine hread
      have hcut := Line.ofText?_sound hparts
      have hchars : p.field.toList = parts.field := by
        rw [hp.field, hmeans.field, String.toList_ofList]
      refine ⟨hchars ▸ hcut.field_ne_nil, hchars ▸ hcut.isFieldChar, ?_⟩
      rw [hp.operand, hp.operator]
      exact f.suits_operand

/-- **The clause is unambiguous.** Filters read from lines have one clause iff they are as many and
agree one by one on the field, the operator, the parentheses and the number of values, and on the
connectives between them. -/
theorem clause_eq_iff_of_ofLines {lines lines' : List String} {filters filters' : List Filter}
    (h : Filter.ofLines lines = .ok filters) (h' : Filter.ofLines lines' = .ok filters') :
    ∃ ps qs, ofFilters filters = .ok ps ∧ ofFilters filters' = .ok qs ∧
      (clause ps = clause qs ↔
        List.Forall₂ Filter.SameOutline filters filters' ∧
          filters.dropLast.map Filter.connective = filters'.dropLast.map Filter.connective) := by
  have hread := Filter.readFrom_of_ofLinesFrom h
  have hread' := Filter.readFrom_of_ofLinesFrom h'
  have hkept := kept_of_readFrom hread
  have hkept' := kept_of_readFrom hread'
  have hps := copies_emitted fun f hf => (hkept f hf).2
  have hqs := copies_emitted fun f hf => (hkept' f hf).2
  refine ⟨_, _, ofFilters_eq_ok_iff.mpr ⟨fun f hf => (hkept f hf).1, rfl⟩,
    ofFilters_eq_ok_iff.mpr ⟨fun f hf => (hkept' f hf).1, rfl⟩, ?_⟩
  rw [← forall₂_similar_iff hps hqs, List.map_dropLast, List.map_dropLast,
    ← map_connective_of_copies hps, ← map_connective_of_copies hqs, ← List.map_dropLast,
    ← List.map_dropLast]
  -- filters that were read copy to legible predicates, whose text is known to tell them apart
  constructor
  · exact clause_inj (legible_of_readFrom hread hps) (legible_of_readFrom hread' hqs)
  · rintro ⟨hsimilar, hjoins⟩
    exact clause_eq_of_similar hsimilar hjoins

/-- Fields with the names of keywords do not blur the clause: only the connective differs. -/
theorem clause_eq_iff_of_ofLines_keywords :
    let filters (key : Connective) : List Filter :=
      [{ field := "NOT", operator := .isIn, value := .list (.strings ["x", "y"]), opens := 1,
          key := some key },
        { field := "AND", operator := .notIn, value := .list (.ints [1]), closes := 1 }]
    Filter.ofLines ["(@NOT IN [x, y] AND", "@AND NOT_IN [1])"] = .ok (filters .and) ∧
      Filter.ofLines ["(@NOT IN [x, y] OR", "@AND NOT_IN [1])"] = .ok (filters .or) ∧
        ∃ ps qs, ofFilters (filters .and) = .ok ps ∧ ofFilters (filters .or) = .ok qs ∧
          clause ps = "WHERE (NOT IN ($1, $2) AND AND NOT IN ($3))".toList ∧
            clause ps ≠ clause qs := by
  intro filters
  have hand : Filter.ofLines ["(@NOT IN [x, y] AND", "@AND NOT_IN [1])"] = .ok (filters .and) := rfl
  have hor : Filter.ofLines ["(@NOT IN [x, y] OR", "@AND NOT_IN [1])"] = .ok (filters .or) := rfl
  obtain ⟨ps, qs, hps, hqs, hiff⟩ := clause_eq_iff_of_ofLines hand hor
  refine ⟨hand, hor, ps, qs, hps, hqs, ?_, ?_⟩
  · have hemitted : ofFilters (filters .and) = .ok (emitted (filters .and)) := rfl
    rw [hps] at hemitted
    rw [Except.ok.inj hemitted]
    decide
  · intro hclause
    have hjoins := (hiff.mp hclause).2
    exact absurd hjoins (by decide)

end Predicate

end FilterQuery

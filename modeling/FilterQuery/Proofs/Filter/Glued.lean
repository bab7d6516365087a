import FilterQuery.Proofs.Filter.Grammar
import FilterQuery.Proofs.Text.Pieces

/-!
# Operators that touch the field

An operator that is a word may stand directly behind the field. The characters of both make one run
then, and the reader gives the field as much of it as leaves an operator. How much that is depends
on the operators at the end of the run:

* No token of a word ends in a shorter one, except that the negated `NOT_CONTAINS` and `NOT_IN` end
  in `CONTAINS` and `IN` (`Operator.token_isSuffix`).
* With any other operator the line is read as if there were blanks around the operator.
* With one of these two the field takes `NOT_`, and the line is read as the positive operator on
  another field (`Filter.ofLine_glued`).
-/

namespace FilterQuery

open Text

namespace Operator

/-- The token is a word, so that it could be a part of a field. -/
def isWord (op : Operator) : Bool := op.token.toList.all Line.isFieldChar

/-- What is left of the token behind `NOT_` at its front, if that is a token too. -/
def behindNot? : Operator → Option Operator
  | notContains => some contains
  | notIn => some isIn
  | _ => none

variable {op op' : Operator} {word word' : List Char}

theorem takesList_of_behindNot? (h : op.behindNot? = some op') :
    op'.takesList = op.takesList := by
  cases op <;> cases h <;> rfl

/-- **The tokens at the end of a word.** -/
theorem token_isSuffix (hword : op.isWord = true)
    (h : lower op'.token.toList <:+ lower op.token.toList) :
    op' = op ∨ op.behindNot? = some op' := by
  -- there are finitely many pairs of tokens
  have hall : ∀ op ∈ all, ∀ op' ∈ all, op.isWord = true →
      lower op'.token.toList <:+ lower op.token.toList → op' = op ∨ op.behindNot? = some op' := by
    decide
  exact hall op (mem_all op) op' (mem_all op') hword h

/-- The spelling of a word is made of the characters of a field. -/
theorem SpelledBy.isFieldChar (h : op.SpelledBy word) (hword : op.isWord = true) :
    ∀ c ∈ word, Line.isFieldChar c = true := by
  -- letters are the only characters that lowering changes, and it makes letters of them
  have hlower : ∀ c : Char, Line.isFieldChar c.toLower = true → Line.isFieldChar c = true := by
    intro c hc
    unfold Char.toLower at hc
    split at hc
    · next hupper =>
      have halpha : c.isAlpha = true := Bool.or_eq_true_iff.mpr (.inl (decide_eq_true hupper))
      simp [Line.isFieldChar, halpha]
    · exact hc
  have htoken : (lower op.token.toList).all Line.isFieldChar = true := by
    cases op <;> first | rfl | cases hword
  intro c hc
  have hmem : c.toLower ∈ lower word := List.mem_map_of_mem hc
  rw [h] at hmem
  exact hlower c (List.all_eq_true.mp htoken _ hmem)

/-- A spelling at the end of the spelling of a word is all of it, or what is left behind `NOT_`. -/
theorem SpelledBy.suffix_cases (h : op.SpelledBy word) (hword : op.isWord = true)
    (h' : op'.SpelledBy word') (hsuffix : word' <:+ word) :
    word' = word ∨ op.behindNot? = some op' ∧ word' = word.drop 4 := by
  have hlower : lower op'.token.toList <:+ lower op.token.toList := by
    rw [← h, ← h']
    exact hsuffix.map Char.toLower
  -- spellings are as long as their tokens, so the lengths tell how much is in front
  have hlength := length_of_lower_eq h
  have hlength' := length_of_lower_eq h'
  rcases token_isSuffix hword hlower with rfl | hnot
  · exact .inl (hsuffix.eq_of_length (hlength'.trans hlength.symm))
  · right
    refine ⟨hnot, ?_⟩
    have hdiff : op.token.toList.length = op'.token.toList.length + 4 := by
      cases op <;> cases hnot <;> rfl
    rw [List.suffix_iff_eq_drop.mp hsuffix]
    congr 1
    omega

/-- What is left behind `NOT_` spells the positive operator. -/
theorem SpelledBy.drop_not (h : op.SpelledBy word) (hnot : op.behindNot? = some op') :
    op'.SpelledBy (word.drop 4) := by
  have hdrop : (lower op.token.toList).drop 4 = lower op'.token.toList := by
    cases op <;> cases hnot <;> decide
  unfold SpelledBy
  rw [← hdrop, ← h]
  exact List.map_drop

end Operator

namespace Line

/-- All of a line but the field and its operator: the parentheses, the value and the connective,
with spacing between them, and blanks at both ends. -/
structure Frame where
  lead : List Char
  opens : Nat
  inner : List Char
  value : List Char
  behind : List Char
  closes : Nat
  last : List Char
  key : Option (List Char)
  trail : List Char
  isBlank_lead : ∀ c ∈ lead, isBlank c = true
  isSpacing_inner : ∀ c ∈ inner, isSpacing c = true
  value_ne_nil : value ≠ []
  not_bracket : ']' ∉ value
  isSpacing_behind : ∀ c ∈ behind, isSpacing c = true
  isSpacing_last : ∀ c ∈ last, isSpacing c = true
  spelled : ∀ s ∈ key, ∃ k : Connective, k.SpelledBy s
  isBlank_trail : ∀ c ∈ trail, isBlank c = true

namespace Frame

/-- The line with a field and its operator, however they are spaced. -/
def text (frame : Frame) (head : List Char) : String :=
  String.ofList (frame.lead ++ List.replicate frame.opens '(' ++ frame.inner ++ '@' :: head ++
    '[' :: frame.value ++ ']' :: frame.behind ++ List.replicate frame.closes ')' ++ frame.last ++
    frame.key.getD [] ++ frame.trail)

/-- The parts of the line. -/
def parts (frame : Frame) (field operator : List Char) : Line :=
  { opens := frame.opens, field, operator, value := frame.value, closes := frame.closes,
    key := frame.key }

variable {frame : Frame} {field head word s₂ s₃ : List Char} {op op' : Operator} {line : Line}

/-- Without a parenthesis the spacing in front of the at sign is trimmed with the blanks. -/
theorem exists_front (frame : Frame) :
    ∃ lead inner, (∀ c ∈ lead, isBlank c = true) ∧ (∀ c ∈ inner, isSpacing c = true) ∧
      frame.lead ++ List.replicate frame.opens '(' ++ frame.inner =
        lead ++ (List.replicate frame.opens '(' ++ inner) ∧
      ∀ s, StopsAt isBlank (List.replicate frame.opens '(' ++ inner ++ '@' :: s) := by
  cases frame.opens with
  | zero =>
    refine ⟨frame.lead ++ frame.inner, [], ?_, by simp, by simp, fun s => stopsAt_cons.mpr rfl⟩
    intro c hc
    rcases List.mem_append.mp hc with hc | hc
    · exact frame.isBlank_lead c hc
    · exact isBlank_of_isSpacing (frame.isSpacing_inner c hc)
  | succ n =>
    exact ⟨frame.lead, frame.inner, frame.isBlank_lead, frame.isSpacing_inner, by simp,
      fun s => stopsAt_cons.mpr rfl⟩

/-- Without a connective the spacing at the end of the line is trimmed with the blanks, and without
a parenthesis that is all of it. -/
theorem exists_back (frame : Frame) :
    ∃ behind last trail, (∀ c ∈ behind, isSpacing c = true) ∧ (∀ c ∈ last, isSpacing c = true) ∧
      (∀ c ∈ trail, isBlank c = true) ∧
      frame.behind ++ List.replicate frame.closes ')' ++ frame.last ++ frame.key.getD [] ++
          frame.trail =
        behind ++ List.replicate frame.closes ')' ++ last ++ frame.key.getD [] ++ trail ∧
      ∀ s, StopsAt isBlank (s ++ ']' ::
        (behind ++ List.replicate frame.closes ')' ++ last ++ frame.key.getD [])).reverse := by
  have hspelled := frame.spelled
  cases hkey : frame.key with
  | some key =>
    obtain ⟨k, hk⟩ := hspelled key hkey
    refine ⟨frame.behind, frame.last, frame.trail, frame.isSpacing_behind, frame.isSpacing_last,
      frame.isBlank_trail, rfl, ?_⟩
    intro s c hc
    have hne : key.reverse ≠ [] := by simpa using hk.ne_nil
    rw [Option.getD_some, ← List.cons_append, ← List.append_assoc, List.reverse_append,
      List.head?_append_of_ne_nil _ hne] at hc
    exact hk.not_isBlank c (List.mem_reverse.mp (List.mem_of_mem_head? hc))
  | none =>
    cases frame.closes with
    | zero =>
      refine ⟨[], [], frame.behind ++ frame.last ++ frame.trail, by simp, by simp, ?_, by simp, ?_⟩
      · intro c hc
        simp only [List.mem_append] at hc
        rcases hc with (hc | hc) | hc
        · exact isBlank_of_isSpacing (frame.isSpacing_behind c hc)
        · exact isBlank_of_isSpacing (frame.isSpacing_last c hc)
        · exact frame.isBlank_trail c hc
      · intro s
        rw [List.reverse_append]
        exact stopsAt_cons.mpr rfl
    | succ n =>
      refine ⟨frame.behind, [], frame.last ++ frame.trail, frame.isSpacing_behind, by simp, ?_,
        by simp, ?_⟩
      · intro c hc
        rcases List.mem_append.mp hc with hc | hc
        · exact isBlank_of_isSpacing (frame.isSpacing_last c hc)
        · exact frame.isBlank_trail c hc
      · intro s
        rw [List.replicate_succ']
        simp only [Option.getD_none, List.append_nil, List.reverse_cons, List.reverse_append,
          List.append_assoc, List.reverse_nil, List.nil_append, List.cons_append]
        exact stopsAt_cons.mpr rfl

/-- The trimmed line is laid out as the line is, with less spacing. -/
theorem exists_trim_text (frame : Frame) (head : List Char) :
    ∃ inner behind last, (∀ c ∈ inner, isSpacing c = true) ∧ (∀ c ∈ behind, isSpacing c = true) ∧
      (∀ c ∈ last, isSpacing c = true) ∧
      trim (frame.text head).toList =
        List.replicate frame.opens '(' ++ inner ++ '@' :: head ++ '[' :: (frame.value ++
          ']' :: (behind ++ List.replicate frame.closes ')' ++ last ++ frame.key.getD [])) := by
  obtain ⟨lead, inner, hlead, hinner, hfront, hstart⟩ := frame.exists_front
  obtain ⟨behind, last, trail, hbehind, hlast, htrail, hback, hend⟩ := frame.exists_back
  refine ⟨inner, behind, last, hinner, hbehind, hlast, ?_⟩
  let before := List.replicate frame.opens '(' ++ inner
  let after := behind ++ List.replicate frame.closes ')' ++ last ++ frame.key.getD []
  -- what is trimmed away stands at the ends, and the rest is kept together
  have htext : (frame.text head).toList =
      lead ++ (before ++ '@' :: head ++ '[' :: (frame.value ++ ']' :: after)) ++ trail := by
    calc (frame.text head).toList
        = (frame.lead ++ List.replicate frame.opens '(' ++ frame.inner) ++
          ('@' :: head ++ '[' :: (frame.value ++ [']'])) ++
          (frame.behind ++ List.replicate frame.closes ')' ++ frame.last ++ frame.key.getD [] ++
            frame.trail) := by
          simp [text]
      _ = _ := by
          rw [hfront, hback]
          simp [before, after]
  rw [htext, trim_padded hlead htrail]
  refine trim_of_stopsAt ?_ ?_
  · rw [List.append_assoc]
    exact hstart _
  · have hend := hend (before ++ '@' :: head ++ '[' :: frame.value)
    rwa [List.append_assoc, List.cons_append] at hend

/-! ## Cuts of the line -/

/-- The parts of the line are a cut of it. -/
theorem isCutOf_parts (frame : Frame) (hfield : field ≠ [])
    (hchars : ∀ c ∈ field, isFieldChar c = true) (hop : op.SpelledBy word)
    (h₂ : ∀ c ∈ s₂, isSpacing c = true) (h₃ : ∀ c ∈ s₃, isSpacing c = true) :
    (frame.parts field word).IsCutOf (trim (frame.text (field ++ s₂ ++ word ++ s₃)).toList) where
  field_ne_nil := hfield
  isFieldChar := hchars
  operator := ⟨op, hop⟩
  value_ne_nil := frame.value_ne_nil
  not_bracket := frame.not_bracket
  key := frame.spelled
  layout := by
    obtain ⟨inner, behind, last, hinner, hbehind, hlast, htrim⟩ :=
      frame.exists_trim_text (field ++ s₂ ++ word ++ s₃)
    -- around the at sign and the value the layout is that of the trimmed line
    refine ⟨inner, s₂, s₃, behind, last, ?_, ?_⟩
    · intro t ht
      simp only [List.mem_cons, List.not_mem_nil, or_false] at ht
      rcases ht with rfl | rfl | rfl | rfl | rfl <;> assumption
    · rw [htrim]
      simp [parts]

/-- There is no at sign in front of the one that the field stands behind. -/
theorem exists_trim_text_eq (frame : Frame) (head : List Char) :
    ∃ before rest, '@' ∉ before ∧
      trim (frame.text head).toList = before ++ '@' :: head ++ '[' :: rest := by
  obtain ⟨inner, behind, last, hinner, -, -, htrim⟩ := frame.exists_trim_text head
  refine ⟨_, _, ?_, htrim⟩
  intro hmem
  rcases List.mem_append.mp hmem with hmem | hmem
  · cases List.eq_of_mem_replicate hmem
  · cases hinner _ hmem

/-- A blank behind the field keeps it apart from the operator. -/
theorem ofText?_text_spaced (frame : Frame) (hfield : field ≠ [])
    (hchars : ∀ c ∈ field, isFieldChar c = true) (hop : op.SpelledBy word) :
    ofText? (trim (frame.text (field ++ ' ' :: word ++ [' '])).toList) =
      some (frame.parts field word) := by
  have hblank : ∀ c ∈ [' '], isSpacing c = true := by simp [isSpacing]
  have hcut := frame.isCutOf_parts hfield hchars hop hblank hblank
  have hhead : field ++ [' '] ++ word ++ [' '] = field ++ ' ' :: word ++ [' '] := by simp
  rw [hhead] at hcut
  -- the cut that is read has this field or a longer one, which the blank rules out
  obtain ⟨longest, hread, hlonger, -⟩ := ofText?_longest hcut
  rcases hlonger with rfl | hlt
  · exact hread
  · have hlongest := ofText?_sound hread
    obtain ⟨before, rest, hat, htrim⟩ :=
      frame.exists_trim_text_eq (field ++ ' ' :: word ++ [' '])
    have htext : before ++ '@' :: (field ++ ' ' :: word ++ [' ']) ++ '[' :: rest =
        before ++ '@' :: field ++ ' ' :: (word ++ ' ' :: '[' :: rest) := by simp
    rw [htrim, htext] at hlongest
    exact absurd hlt (Nat.not_lt.mpr (hlongest.length_field_le hat))

/-- A cut with a longer field has what is left of the operator behind `NOT_`. -/
theorem cut_of_longer (hchars : ∀ c ∈ field, isFieldChar c = true) (hop : op.SpelledBy word)
    (hword : op.isWord = true) (hcut : line.IsCutOf (trim (frame.text (field ++ word)).toList))
    (hlonger : field.length < line.field.length) :
    op.behindNot?.isSome = true ∧ line.field = field ++ word.take 4 := by
  have hhead : ∀ c ∈ field ++ word, isFieldChar c = true := by
    intro c hc
    rcases List.mem_append.mp hc with hc | hc
    · exact hchars c hc
    · exact hop.isFieldChar hword c hc
  obtain ⟨op', hop'⟩ := hcut.operator
  -- up to the bracket there are characters of a field only, shared by the field and the operator
  obtain ⟨before, rest, hat, htrim⟩ := frame.exists_trim_text_eq (field ++ word)
  rw [htrim] at hcut
  have happend := hcut.field_append_operator hat hhead
  obtain ⟨more, hfield, hmore⟩ :
      ∃ more, line.field = field ++ more ∧ word = more ++ line.operator := by
    rcases List.append_eq_append_iff.mp happend.symm with h | ⟨more, hfield, -⟩
    · exact h
    · rw [hfield, List.length_append] at hlonger
      omega
  have hpos : 0 < more.length := by
    rw [hfield, List.length_append] at hlonger
    omega
  -- what the longer field leaves of the word is the spelling of an operator at its end
  rcases hop.suffix_cases hword hop' ⟨more, hmore.symm⟩ with hwhole | ⟨hnot, hdrop⟩
  · have hlength := congrArg List.length hmore
    rw [hwhole, List.length_append] at hlength
    omega
  · refine ⟨by rw [hnot]; rfl, ?_⟩
    have htake : more ++ line.operator = word.take 4 ++ line.operator := by
      rw [← hmore, hdrop, List.take_append_drop]
    rw [hfield, List.append_cancel_right htake]

/-- **The field takes all of a glued operator that leaves one behind**: `NOT_`, or nothing. -/
theorem ofText?_text_glued (frame : Frame) (hfield : field ≠ [])
    (hchars : ∀ c ∈ field, isFieldChar c = true) (hop : op.SpelledBy word)
    (hword : op.isWord = true) :
    ofText? (trim (frame.text (field ++ word)).toList) =
      some (if op.behindNot?.isSome then frame.parts (field ++ word.take 4) (word.drop 4)
        else frame.parts field word) := by
  have hnone : ∀ c ∈ ([] : List Char), isSpacing c = true := by simp
  cases hnot : op.behindNot? with
  | none =>
    have hcut := frame.isCutOf_parts hfield hchars hop hnone hnone
    rw [List.append_nil, List.append_nil] at hcut
    obtain ⟨longest, hread, hlonger, -⟩ := ofText?_longest hcut
    rcases hlonger with rfl | hlt
    · exact hread
    · obtain ⟨hsome, -⟩ := cut_of_longer hchars hop hword (ofText?_sound hread) hlt
      rw [hnot] at hsome
      cases hsome
  | some op' =>
    have htaken : ∀ c ∈ field ++ word.take 4, isFieldChar c = true := by
      intro c hc
      rcases List.mem_append.mp hc with hc | hc
      · exact hchars c hc
      · exact hop.isFieldChar hword c (List.mem_of_mem_take hc)
    -- the field with what is in front of the positive operator is a cut as well, and longer
    have hcut := frame.isCutOf_parts (by simp [hfield]) htaken (hop.drop_not hnot)
      hnone hnone
    rw [List.append_nil, List.append_nil, List.append_assoc, List.take_append_drop] at hcut
    obtain ⟨longest, hread, hlonger, -⟩ := ofText?_longest hcut
    rcases hlonger with rfl | hlt
    · exact hread
    · -- a field that is longer still would have to be the same one
      have hfirst : field.length < longest.field.length := by
        have hlt : (field ++ word.take 4).length < longest.field.length := hlt
        rw [List.length_append] at hlt
        omega
      obtain ⟨-, hsame⟩ := cut_of_longer hchars hop hword (ofText?_sound hread) hfirst
      rw [hsame] at hlt
      exact absurd hlt (Nat.lt_irrefl _)

end Frame

end Line

namespace Filter

open Line

/-- A line with another field and another operator, of which both take lists or neither does, means
the same apart from these two. -/
theorem ofParts_renamed (line : Line) {op op' : Operator} {word : List Char}
    (hop : op.SpelledBy line.operator) (hop' : op'.SpelledBy word)
    (hlist : op'.takesList = op.takesList) (field : List Char) {f : Filter}
    (h : ofParts line = .ok f) :
    ofParts { line with field, operator := word } =
      .ok { f with field := String.ofList field, operator := op' } := by
  -- the value is read in the same way, as only lists are read at all
  have hvalue : lineValue op' line.value = lineValue op line.value := by
    unfold lineValue
    rw [hlist]
  unfold ofParts at h ⊢
  rw [hop.ofText_eq] at h
  rw [hop'.ofText_eq]
  obtain ⟨_, heq, h⟩ := bind_eq_ok_iff.mp h
  cases heq
  obtain ⟨value, hread, h⟩ := bind_eq_ok_iff.mp h
  obtain ⟨key, hkey, h⟩ := bind_eq_ok_iff.mp h
  cases h
  refine bind_eq_ok_iff.mpr ⟨op', rfl, ?_⟩
  refine bind_eq_ok_iff.mpr ⟨value, hvalue.trans hread, ?_⟩
  exact bind_eq_ok_iff.mpr ⟨key, hkey, rfl⟩

/-- **An operator that touches the field** is read as if there were blanks around it, unless it is
`NOT_CONTAINS` or `NOT_IN`. Of these two the field takes `NOT_`, and nothing else is read
differently. -/
theorem ofLine_glued (frame : Frame) {field word : List Char} {op : Operator} (hfield : field ≠ [])
    (hchars : ∀ c ∈ field, isFieldChar c = true) (hop : op.SpelledBy word)
    (hword : op.isWord = true) (number : Nat) :
    ∃ f, ofLine number (frame.text (field ++ ' ' :: word ++ [' '])) = .ok f ∧
      f.field = String.ofList field ∧ f.operator = op ∧
      match op.behindNot? with
      | none => ofLine number (frame.text (field ++ word)) = .ok f
      | some positive => ofLine number (frame.text (field ++ word)) =
          .ok { f with field := String.ofList (field ++ word.take 4), operator := positive } := by
  have hspaced := frame.ofText?_text_spaced hfield hchars hop
  have hglued := frame.ofText?_text_glued hfield hchars hop hword
  obtain ⟨f, hf, hmeans⟩ := (ofText?_sound hspaced).exists_means
  have hoperator : f.operator = op := by
    have hread := hop.ofText_eq
    have hspelled : f.operator.SpelledBy word := hmeans.operator
    rw [hspelled.ofText_eq] at hread
    exact Except.ok.inj hread
  refine ⟨f, ?_, hmeans.field, hoperator, ?_⟩
  · unfold ofLine
    rw [hspaced]
    exact hf
  · unfold ofLine
    rw [hglued]
    cases hnot : op.behindNot? with
    | none => exact hf
    | some positive =>
      exact ofParts_renamed (frame.parts field word) hop (hop.drop_not hnot)
        (Operator.takesList_of_behindNot? hnot) _ hf

/-- Spelled in mixed case, between parentheses and with a connective. -/
theorem ofLine_glued_in_frame :
    ∃ frame : Frame,
      frame.text "nameNot_Contains".toList = " (( @nameNot_Contains[a, b] ) OR" ∧
      frame.text "name Not_Contains ".toList = " (( @name Not_Contains [a, b] ) OR" ∧
      ∃ f, ofLine 1 " (( @name Not_Contains [a, b] ) OR" = .ok f ∧ f.field = "name" ∧
        f.operator = .notContains ∧
        ofLine 1 " (( @nameNot_Contains[a, b] ) OR" =
          .ok { f with field := "nameNot_", operator := .contains } := by
  let frame : Frame :=
    { lead := [' '], opens := 2, inner := [' '], value := "a, b".toList, behind := [' '],
      closes := 1, last := [' '], key := some "OR".toList, trail := [],
      isBlank_lead := List.all_eq_true.mp rfl, isSpacing_inner := List.all_eq_true.mp rfl,
      value_ne_nil := by decide, not_bracket := by decide,
      isSpacing_behind := List.all_eq_true.mp rfl, isSpacing_last := List.all_eq_true.mp rfl,
      spelled := fun s hs => ⟨.or, Option.some.inj hs ▸ rfl⟩,
      isBlank_trail := List.all_eq_true.mp rfl }
  have hspacedText : frame.text ("name".toList ++ ' ' :: "Not_Contains".toList ++ [' ']) =
      " (( @name Not_Contains [a, b] ) OR" := by
    decide
  have hgluedText : frame.text ("name".toList ++ "Not_Contains".toList) =
      " (( @nameNot_Contains[a, b] ) OR" := by
    decide
  have hname : "name".toList ≠ [] := by decide
  have hspelled : Operator.notContains.SpelledBy "Not_Contains".toList := by
    unfold Operator.SpelledBy
    decide
  obtain ⟨f, hspaced, hfield, hoperator, hglued⟩ :=
    ofLine_glued frame hname (List.all_eq_true.mp rfl) hspelled rfl 1
  rw [hspacedText] at hspaced
  rw [hgluedText] at hglued
  exact ⟨frame, hgluedText, hspacedText, f, hspaced, hfield, hoperator, hglued⟩

/-- The two spellings are not the same filter: what is excluded by one is asked for by the other. -/
theorem ofLine_glued_ne_spaced :
    ofLine 1 "@a NOT_IN [1]" =
        .ok { field := "a", operator := .notIn, value := .list (.ints [1]) } ∧
      ofLine 1 "@aNOT_IN[1]" =
        .ok { field := "aNOT_", operator := .isIn, value := .list (.ints [1]) } ∧
      ofLine 1 "@aNOT_IN[1]" ≠ ofLine 1 "@a NOT_IN [1]" := by
  have hspaced : ofLine 1 "@a NOT_IN [1]" =
      .ok { field := "a", operator := .notIn, value := .list (.ints [1]) } := by
    rfl
  have hglued : ofLine 1 "@aNOT_IN[1]" =
      .ok { field := "aNOT_", operator := .isIn, value := .list (.ints [1]) } := by
    rfl
  refine ⟨hspaced, hglued, ?_⟩
  rw [hspaced, hglued]
  decide

end Filter

end FilterQuery

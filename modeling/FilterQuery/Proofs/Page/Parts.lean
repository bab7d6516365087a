import FilterQuery.Page.Parts
import FilterQuery.Proofs.Outcome
import FilterQuery.Proofs.Text.Pieces
import FilterQuery.Proofs.Text.Unsigned

/-!
# The last part of a key counts

A part of a page request has a key and a number, and is read as if nothing stood around it
(`Page.Asks`); what else can be wrong with it is one complaint (`Page.Complaint`).

* `Page.Asks.addPart` and `Page.Complaint.addPart` are the step: a part sets the number of its key
  and leaves the other one as it is, or it ends the reading.
* `Page.foldlM_addPart_eq_ok_iff` and `Page.foldlM_addPart_eq_error_iff` are the run: of the parts
  with one key the last one counts (`Page.Settles`), and of the wrong ones the first.
* `Page.ofParts_last_counts` draws the conclusions for whole requests.
-/

namespace FilterQuery.Page

open Text

/-! ## One part -/

/-- What a part can ask for. -/
inductive Key where
  | number
  | size
deriving DecidableEq

/-- What is written in front of the colon. -/
def Key.word : Key → String
  | number => "page"
  | size => "limit"

theorem Key.word_inj {k k' : Key} (h : k.word.toList = k'.word.toList) : k = k' := by
  revert h
  cases k <;> cases k' <;> decide

/-- The number under the key. -/
def get (p : Page) : Key → UInt64
  | .number => p.number
  | .size => p.size

/-- The page with the number under the key, and the other one as it was. -/
def set (p : Page) (n : UInt64) : Key → Page
  | .number => { p with number := n }
  | .size => { p with size := n }

@[simp] theorem get_set (p : Page) (n : UInt64) (k k' : Key) :
    (p.set n k).get k' = if k' = k then n else p.get k' := by
  cases k <;> cases k' <;> rfl

theorem ext_get {p q : Page} (h : ∀ k, p.get k = q.get k) : p = q := by
  have hnumber := h .number
  have hsize := h .size
  cases p
  cases q
  cases hnumber
  cases hsize
  rfl

/-- The texts in front of the first colon of the part and behind it, when the part is trimmed. -/
structure IsCut (part : String) (before after : List Char) : Prop where
  eq : trim part.toList = before ++ ':' :: after
  first : ':' ∉ before

/-- The part asks for the number under the key. -/
def Asks (part : String) (k : Key) (n : UInt64) : Prop :=
  ∃ before after, IsCut part before after ∧ trim before = k.word.toList ∧
    IsNumeralOf n (trim after)

/-- What is wrong with the part. A colon is missed before a number is, and a number before a key. -/
inductive Complaint (part : String) : Error → Prop where
  | colon (hcolon : ':' ∉ trim part.toList) :
      Complaint part (.partWithoutColon (String.ofList (trim part.toList)))
  | number {before after : List Char} (hcut : IsCut part before after)
      (hnumber : ∀ n, ¬IsNumeralOf n (trim after)) :
      Complaint part (.badPageCount (String.ofList after))
  | key {before after : List Char} {n : UInt64} (hcut : IsCut part before after)
      (hnumber : IsNumeralOf n (trim after)) (hkey : ∀ k : Key, trim before ≠ k.word.toList) :
      Complaint part (.unknownPageKey (String.ofList (trim before)))

section Reading

variable {part : String} {parts parts' : List String} {before after : List Char} {k k' : Key}
  {n m : UInt64} {p q : Page} {e : Error}

theorem splitColon?_of_notMem {s : List Char} (h : ':' ∉ s) : splitColon? s = none := by
  have hdrop : s.dropWhile (· != ':') = [] := List.dropWhile_eq_nil_iff.mpr (bne_of_notMem h)
  unfold splitColon?
  rw [hdrop]

theorem splitColon?_append (h : ':' ∉ before) (after : List Char) :
    splitColon? (before ++ ':' :: after) = some (before, after) := by
  have hstop : StopsAt (· != ':') (':' :: after) := stopsAt_cons.mpr rfl
  unfold splitColon?
  rw [dropWhile_append_of_stopsAt (bne_of_notMem h) hstop,
    takeWhile_append_of_stopsAt (bne_of_notMem h) hstop]

theorem IsCut.unique {before' after' : List Char} (h : IsCut part before after)
    (h' : IsCut part before' after') : before = before' ∧ after = after' :=
  append_cons_inj h.first h'.first (h.eq.symm.trans h'.eq)

theorem exists_isCut (h : ':' ∈ trim part.toList) : ∃ before after, IsCut part before after := by
  obtain ⟨before, after, hsplit, hfirst⟩ := List.eq_append_cons_of_mem h
  exact ⟨before, after, hsplit, hfirst⟩

/-- Behind the cut the number is looked at first, and then the key. -/
theorem addPart_of_isCut (h : IsCut part before after) (p : Page) :
    addPart p part = match unsigned64? (trim after) with
      | none => .error (.badPageCount (String.ofList after))
      | some n =>
        if trim before = "page".toList then .ok (p.set n .number)
        else if trim before = "limit".toList then .ok (p.set n .size)
        else .error (.unknownPageKey (String.ofList (trim before))) := by
  unfold addPart
  simp only [h.eq, splitColon?_append h.first]
  -- what is left are the two keys, as the definition has them
  rfl

/-- **A part that asks for a number** sets it, and nothing else. -/
theorem Asks.addPart (h : Asks part k n) (p : Page) : addPart p part = .ok (p.set n k) := by
  obtain ⟨before, after, hcut, hkey, hnumber⟩ := h
  rw [addPart_of_isCut hcut, unsigned64?_eq_some_iff.mpr hnumber, hkey]
  cases k <;> rfl

/-- **A part with something wrong** is refused, whatever was asked for before. -/
theorem Complaint.addPart (h : Complaint part e) (p : Page) : addPart p part = .error e := by
  cases h with
  | colon hcolon =>
    unfold Page.addPart
    simp only [splitColon?_of_notMem hcolon]
  | @number before after hcut hnumber =>
    have hnone : unsigned64? (trim after) = none := by
      refine Option.eq_none_iff_forall_ne_some.mpr fun n hn => ?_
      exact hnumber n (unsigned64?_eq_some_iff.mp hn)
    rw [addPart_of_isCut hcut, hnone]
  | @key before after n hcut hnumber hkey =>
    have hpage : trim before ≠ "page".toList := hkey .number
    have hlimit : trim before ≠ "limit".toList := hkey .size
    rw [addPart_of_isCut hcut, unsigned64?_eq_some_iff.mpr hnumber]
    simp only [if_neg hpage, if_neg hlimit]

/-- Every part asks for a number, or there is something wrong with it. -/
theorem asks_or_complaint (part : String) :
    (∃ k n, Asks part k n) ∨ ∃ e, Complaint part e := by
  by_cases hcolon : ':' ∈ trim part.toList
  · obtain ⟨before, after, hcut⟩ := exists_isCut hcolon
    -- the number is looked at before the key, as in the complaints
    by_cases hnumber : ∃ n, IsNumeralOf n (trim after)
    · obtain ⟨n, hn⟩ := hnumber
      by_cases hkey : ∃ k : Key, trim before = k.word.toList
      · obtain ⟨k, hk⟩ := hkey
        exact .inl ⟨k, n, before, after, hcut, hk, hn⟩
      · exact .inr ⟨_, .key hcut hn (not_exists.mp hkey)⟩
    · exact .inr ⟨_, .number hcut (not_exists.mp hnumber)⟩
  · exact .inr ⟨_, .colon hcolon⟩

/-- A part asks for one number under one key. -/
theorem Asks.unique (h : Asks part k n) (h' : Asks part k' m) : k' = k ∧ m = n := by
  obtain ⟨before, after, hcut, hkey, hnumber⟩ := h
  obtain ⟨before', after', hcut', hkey', hnumber'⟩ := h'
  -- a part is cut in one place only, so that both ask with the same texts
  obtain ⟨rfl, rfl⟩ := hcut.unique hcut'
  exact ⟨Key.word_inj (hkey'.symm.trans hkey), hnumber'.unique hnumber⟩

theorem addPart_eq_ok_iff : addPart p part = .ok q ↔ ∃ k n, Asks part k n ∧ p.set n k = q := by
  constructor
  · intro h
    rcases asks_or_complaint part with ⟨k, n, hasks⟩ | ⟨e, hcomplaint⟩
    · rw [hasks.addPart] at h
      exact ⟨k, n, hasks, Except.ok.inj h⟩
    · rw [hcomplaint.addPart] at h
      cases h
  · rintro ⟨k, n, hasks, rfl⟩
    exact hasks.addPart p

theorem addPart_eq_error_iff : addPart p part = .error e ↔ Complaint part e := by
  constructor
  · intro h
    rcases asks_or_complaint part with ⟨k, n, hasks⟩ | ⟨e', hcomplaint⟩
    · rw [hasks.addPart] at h
      cases h
    · rw [hcomplaint.addPart] at h
      cases h
      exact hcomplaint
  · intro h
    exact h.addPart p

/-! ## Many parts -/

/-- Behind the parts there is this number under the key: the one that the last part with the key
asks for, or the one that was there at the start. -/
def Settles (parts : List String) (k : Key) (start n : UInt64) : Prop :=
  (∃ before part after, parts = before ++ part :: after ∧ Asks part k n ∧
    ∀ later ∈ after, ∀ m, ¬Asks later k m) ∨
  (∀ part ∈ parts, ∀ m, ¬Asks part k m) ∧ n = start

theorem settles_nil {start : UInt64} : Settles [] k start n ↔ n = start := by
  unfold Settles
  simp

/-- One part more in front is one number more that may be left as it is. -/
theorem settles_cons {start : UInt64} (h : Asks part k' m) :
    Settles (part :: parts) k start n ↔ Settles parts k (if k = k' then m else start) n := by
  constructor
  · rintro (⟨before, last, after, hsplit, hlast, hafter⟩ | ⟨hnone, rfl⟩)
    · cases before with
      | nil =>
        -- the part in front is the last one with the key, and sets the number to start from
        cases hsplit
        obtain ⟨rfl, rfl⟩ := h.unique hlast
        exact .inr ⟨hafter, (if_pos rfl).symm⟩
      | cons first before =>
        cases hsplit
        exact .inl ⟨before, last, after, rfl, hlast, hafter⟩
    · have hne : k ≠ k' := by
        rintro rfl
        exact hnone part List.mem_cons_self m h
      exact .inr ⟨(List.forall_mem_cons.mp hnone).2, (if_neg hne).symm⟩
  · rintro (⟨before, last, after, rfl, hlast, hafter⟩ | ⟨hnone, rfl⟩)
    · exact .inl ⟨part :: before, last, after, rfl, hlast, hafter⟩
    · by_cases hk : k = k'
      · subst hk
        exact .inl ⟨[], part, parts, rfl, by rwa [if_pos rfl], hnone⟩
      · refine .inr ⟨List.forall_mem_cons.mpr ⟨fun m' hm' => hk (h.unique hm').1, hnone⟩, ?_⟩
        exact if_neg hk

/-- **The run**: all parts ask for something, and the last one of each key counts. Induction on the
parts, with the page at the start left open. -/
theorem foldlM_addPart_eq_ok_iff :
    parts.foldlM addPart p = .ok q ↔
      (∀ part ∈ parts, ∃ k n, Asks part k n) ∧ ∀ k, Settles parts k (p.get k) (q.get k) := by
  induction parts generalizing p with
  | nil =>
    simp only [settles_nil, List.foldlM_nil]
    constructor
    · intro h
      cases h
      exact ⟨List.forall_mem_nil _, fun k => rfl⟩
    · rintro ⟨-, h⟩
      rw [ext_get h]
      rfl
  | cons part parts ih =>
    rw [List.foldlM_cons, bind_eq_ok_iff, List.forall_mem_cons]
    simp only [addPart_eq_ok_iff]
    constructor
    · rintro ⟨-, ⟨k, n, hasks, rfl⟩, hrest⟩
      obtain ⟨hall, hsettles⟩ := ih.mp hrest
      -- the other parts start from the page that the first one leaves behind
      refine ⟨⟨⟨k, n, hasks⟩, hall⟩, fun k' => ?_⟩
      rw [settles_cons hasks, ← get_set]
      exact hsettles k'
    · rintro ⟨⟨⟨k, n, hasks⟩, hall⟩, hsettles⟩
      refine ⟨_, ⟨k, n, hasks, rfl⟩, ih.mpr ⟨hall, fun k' => ?_⟩⟩
      rw [get_set, ← settles_cons hasks]
      exact hsettles k'

/-- **The run fails** at the first part with something wrong. -/
theorem foldlM_addPart_eq_error_iff :
    parts.foldlM addPart p = .error e ↔ ∃ before part after, parts = before ++ part :: after ∧
      (∀ good ∈ before, ∃ k n, Asks good k n) ∧ Complaint part e := by
  induction parts generalizing p with
  | nil =>
    refine iff_of_false (fun h => by cases h) ?_
    rintro ⟨before, part, after, hsplit, -⟩
    simp at hsplit
  | cons part parts ih =>
    rw [List.foldlM_cons, bind_eq_error_iff, addPart_eq_error_iff]
    simp only [addPart_eq_ok_iff]
    constructor
    · rintro (h | ⟨-, ⟨k, n, hasks, rfl⟩, hrest⟩)
      · exact ⟨[], part, parts, rfl, List.forall_mem_nil _, h⟩
      · obtain ⟨before, bad, after, rfl, hbefore, hbad⟩ := ih.mp hrest
        have hgood := List.forall_mem_cons.mpr ⟨⟨k, n, hasks⟩, hbefore⟩
        exact ⟨part :: before, bad, after, rfl, hgood, hbad⟩
    · rintro ⟨before, bad, after, hsplit, hbefore, hbad⟩
      cases before with
      | nil =>
        cases hsplit
        exact .inl hbad
      | cons first before =>
        cases hsplit
        obtain ⟨⟨k, n, hasks⟩, hbefore⟩ := List.forall_mem_cons.mp hbefore
        exact .inr ⟨_, ⟨k, n, hasks, rfl⟩, ih.mpr ⟨before, bad, after, rfl, hbefore, hbad⟩⟩

/-- A page is read iff every part asks for a number. -/
theorem exists_ofParts_iff :
    (∃ p, ofParts parts = .ok p) ↔ ∀ part ∈ parts, ∃ k n, Asks part k n := by
  constructor
  · rintro ⟨p, hp⟩
    exact (foldlM_addPart_eq_ok_iff.mp hp).1
  · intro hall
    cases hread : ofParts parts with
    | ok p => exact ⟨p, rfl⟩
    | error e =>
      -- the part to blame is one of the parts, and asks for a number
      obtain ⟨before, bad, after, rfl, -, hbad⟩ := foldlM_addPart_eq_error_iff.mp hread
      obtain ⟨k, n, hasks⟩ := hall bad (by simp)
      have hok := hasks.addPart {}
      rw [hbad.addPart] at hok
      cases hok

theorem ofParts_eq_ok_iff :
    ofParts parts = .ok p ↔ (∀ part ∈ parts, ∃ k n, Asks part k n) ∧
      Settles parts .number 0 p.number ∧ Settles parts .size 0 p.size := by
  unfold ofParts
  rw [foldlM_addPart_eq_ok_iff]
  refine and_congr_right fun _ => ⟨fun h => ⟨h .number, h .size⟩, ?_⟩
  rintro ⟨hnumber, hsize⟩ (_ | _)
  · exact hnumber
  · exact hsize

/-! ## Parts in another order -/

/-- The trimmed text in front of the first colon. -/
def keyText (part : String) : List Char := trim ((trim part.toList).takeWhile (· != ':'))

/-- The parts with the key, in order. -/
def withKey (k : Key) (parts : List String) : List String :=
  parts.filter fun part => keyText part = k.word.toList

theorem withKey_cons : withKey k (part :: parts) =
    if keyText part = k.word.toList then part :: withKey k parts else withKey k parts := by
  unfold withKey
  simp only [List.filter_cons, decide_eq_true_eq]

/-- The text in front of the colon of a part is that of its key and no other one's. -/
theorem Asks.keyText_eq_iff (h : Asks part k' m) : keyText part = k.word.toList ↔ k = k' := by
  obtain ⟨before, after, hcut, hkey, -⟩ := h
  have htake : (trim part.toList).takeWhile (· != ':') = before := by
    rw [hcut.eq]
    exact takeWhile_append_of_stopsAt (bne_of_notMem hcut.first) (stopsAt_cons.mpr rfl)
  unfold keyText
  rw [htake, hkey]
  constructor
  · intro hword
    exact (Key.word_inj hword).symm
  · rintro rfl
    rfl

/-- Parts with other keys do not matter. -/
theorem settles_withKey_iff {start : UInt64} (hall : ∀ part ∈ parts, ∃ k n, Asks part k n) :
    Settles (withKey k parts) k start n ↔ Settles parts k start n := by
  induction parts generalizing start with
  | nil => rfl
  | cons part parts ih =>
    obtain ⟨⟨k', m, hasks⟩, hall⟩ := List.forall_mem_cons.mp hall
    rw [withKey_cons, settles_cons hasks, ← ih hall]
    by_cases hk : k = k'
    · rw [if_pos (hasks.keyText_eq_iff.mpr hk), settles_cons hasks]
    · -- a part with another key is left out, and would have changed nothing
      rw [if_neg fun h => hk (hasks.keyText_eq_iff.mp h), if_neg hk]

/-- Only the order of the parts with one key matters. -/
theorem ofParts_eq_ok_of_perm (h : ofParts parts = .ok p) (hperm : parts.Perm parts')
    (horder : ∀ k, withKey k parts = withKey k parts') : ofParts parts' = .ok p := by
  obtain ⟨hall, hsettles⟩ := foldlM_addPart_eq_ok_iff.mp h
  have hall' : ∀ part ∈ parts', ∃ k n, Asks part k n :=
    fun part hpart => hall part (hperm.mem_iff.mpr hpart)
  refine foldlM_addPart_eq_ok_iff.mpr ⟨hall', fun k => ?_⟩
  -- for one key both orders are the same parts
  rw [← settles_withKey_iff hall', ← horder k, settles_withKey_iff hall]
  exact hsettles k

end Reading

/-! ## Parts as they are written -/

/-- A part of a page request. -/
def part (key : String) (n : UInt64) : String :=
  String.ofList (key.toList ++ ':' :: decimal n.toNat)

/-- The parts of a page request with the size and the number that are asked for. -/
def partsOf (limit page : Option UInt64) : List String :=
  (limit.map (part "limit")).toList ++ (page.map (part "page")).toList

/-- A part asks for what it is written for. -/
theorem asks_part (k : Key) (n : UInt64) : Asks (Page.part k.word n) k n := by
  have hkey : ∀ c ∈ k.word.toList, isBlank c = false := by
    intro c hc
    have hblank : k.word.toList.any isBlank = false := by cases k <;> decide
    exact Bool.eq_false_iff.mpr (List.any_eq_false.mp hblank c hc)
  have hdigits : ∀ c ∈ decimal n.toNat, isBlank c = false := by
    intro c hc
    exact not_isBlank_of_isDigit (List.all_eq_true.mp (all_isDigit_decimal n.toNat) c hc)
  -- neither keys nor digits nor the colon are blank, so nothing is there to be trimmed
  have htrim : trim (Page.part k.word n).toList = k.word.toList ++ ':' :: decimal n.toNat := by
    unfold Page.part
    rw [String.toList_ofList]
    refine trim_of_not_isBlank fun c hc => ?_
    rcases List.mem_append.mp hc with hc | hc
    · exact hkey c hc
    · rcases List.mem_cons.mp hc with rfl | hc
      · rfl
      · exact hdigits c hc
  have hfirst : ':' ∉ k.word.toList := by cases k <;> decide
  refine ⟨_, _, ⟨htrim, hfirst⟩, trim_of_not_isBlank hkey, ?_⟩
  rw [trim_of_not_isBlank hdigits]
  exact isNumeralOf_decimal n

theorem ofParts_partsOf (limit page : Option UInt64) :
    ofParts (partsOf limit page) = .ok { size := limit.getD 0, number := page.getD 0 } := by
  have hlimit (n : UInt64) : Asks (Page.part "limit" n) .size n := asks_part .size n
  have hpage (n : UInt64) : Asks (Page.part "page" n) .number n := asks_part .number n
  -- a size and a number that are not asked for are zero, and so is what an empty page has
  unfold ofParts partsOf
  cases limit with
  | none =>
    cases page with
    | none => rfl
    | some n => exact foldlM_cons_of_ok ((hpage n).addPart {})
  | some m =>
    refine (foldlM_cons_of_ok ((hlimit m).addPart {})).trans ?_
    cases page with
    | none => rfl
    | some n => exact foldlM_cons_of_ok ((hpage n).addPart _)

/-- **Of the parts with one key the last one counts, and of the wrong ones the first.** Parts are
read iff each of them has a colon, a number and a key, and then the number and the size are those of
the last part that asks for them, or zero. So only the order of the parts with one key matters, and
a number and a size may be asked for in either order. Otherwise the complaint is about the first
part with something wrong. -/
theorem ofParts_last_counts :
    (∀ parts, (∃ p, ofParts parts = .ok p) ↔ ∀ part ∈ parts, ∃ k n, Asks part k n) ∧
    (∀ parts p, ofParts parts = .ok p ↔ (∀ part ∈ parts, ∃ k n, Asks part k n) ∧
      Settles parts .number 0 p.number ∧ Settles parts .size 0 p.size) ∧
    (∀ parts parts' p, ofParts parts = .ok p → parts.Perm parts' →
      (∀ k, withKey k parts = withKey k parts') → ofParts parts' = .ok p) ∧
    (∀ n m, ofParts [part "page" n, part "limit" m] = .ok { size := m, number := n } ∧
      ofParts [part "limit" m, part "page" n] = .ok { size := m, number := n }) ∧
    ∀ parts e, ofParts parts = .error e ↔ ∃ before part after, parts = before ++ part :: after ∧
      (∀ good ∈ before, ∃ k n, Asks good k n) ∧ Complaint part e := by
  refine ⟨fun parts => exists_ofParts_iff, fun parts p => ofParts_eq_ok_iff,
    fun parts parts' p => ofParts_eq_ok_of_perm, fun n m => ⟨?_, ?_⟩,
    fun parts e => foldlM_addPart_eq_error_iff⟩
  · have hnumber : Asks (part "page" n) .number n := asks_part .number n
    have hsize : Asks (part "limit" m) .size m := asks_part .size m
    exact (foldlM_cons_of_ok (hnumber.addPart {})).trans (foldlM_cons_of_ok (hsize.addPart _))
  · exact ofParts_partsOf (some m) (some n)

/-- A number is asked for twice, the second time the greatest one that there is, and the size is
moved to the end. With another colon in it a text is no number, whatever the key is. -/
theorem ofParts_last_counts_of_moved :
    let parts := ["page:1", " limit : +007 ", "page:18446744073709551615"]
    let parts' := ["page:1", "page:18446744073709551615", " limit : +007 "]
    let p : Page := { size := 7, number := 18446744073709551615 }
    ofParts parts = .ok p ∧ (∀ part ∈ parts, ∃ k n, Asks part k n) ∧
      Settles parts .number 0 18446744073709551615 ∧ ofParts parts' = .ok p ∧
      Complaint "offset: 2:3 " (.badPageCount " 2:3") ∧
      ofParts (parts ++ ["offset: 2:3 ", "page"]) = .error (.badPageCount " 2:3") := by
  intro parts parts' p
  obtain ⟨-, hread, hmoved, -, hfail⟩ := ofParts_last_counts
  have hparts : ofParts parts = .ok p := by decide +kernel
  obtain ⟨hall, hnumber, -⟩ := (hread parts p).mp hparts
  have hperm : parts.Perm parts' := .cons _ (.swap _ _ _)
  have horder : ∀ k, withKey k parts = withKey k parts' := by
    intro k
    cases k <;> decide +kernel
  have hcomplaint : Complaint "offset: 2:3 " (.badPageCount " 2:3") :=
    addPart_eq_error_iff.mp (show addPart {} "offset: 2:3 " = _ from rfl)
  refine ⟨hparts, hall, hnumber, hmoved parts parts' p hparts hperm horder, hcomplaint, ?_⟩
  exact (hfail _ _).mpr ⟨parts, _, ["page"], rfl, hall, hcomplaint⟩

end FilterQuery.Page

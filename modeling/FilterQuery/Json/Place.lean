import FilterQuery.Json.Decoding

/-!
# Places in JSON texts

A mismatch is noticed at some place of the text. The shortest beginning of the text that shows it
ends there, give or take a few characters: what is found is named before its bracket is passed, a
number is read to its end, and a mismatch that concerns a member as a whole is told when the record
around it is left.
-/

namespace FilterQuery.Json

open Text

/-- A place in a text: the number of the line, and how many bytes of the line are in front. -/
structure Place where
  line : Nat
  column : Nat
deriving DecidableEq, Repr

namespace Place

/-- The place behind the beginning of a text. -/
def behind (start : List Char) : Place :=
  { line := start.count '\n' + 1
    column := (String.ofList (start.reverse.takeWhile (· != '\n'))).utf8ByteSize }

/-- The text of a place behind a message. -/
def text (p : Place) : String := " at line " ++ toString p.line ++ " column " ++ toString p.column

/-! ## The shortest beginning -/

/-- A number up to `high` for which a test succeeds, and which follows one above `low` for which it
fails. The test fails for `low` and succeeds for `high`. -/
def edge (test : Nat → Bool) (low high : Nat) : Nat :=
  if low + 1 < high then
    let middle := (low + high) / 2
    if test middle then edge test low middle else edge test middle high
  else high
termination_by high - low

/-- The length of a beginning of the text that shows the mismatch, while nothing shorter by one
character does. -/
def shown {α : Type} (decoder : Decoder α) (text : List Char) (m : Mismatch) : Nat :=
  let shows (n : Nat) : Bool :=
    match decode decoder (String.ofList (text.take n)) with
    | .error (.mismatch m') => m' = m
    | _ => false
  edge shows 0 text.length

/-! ## Where the mismatch is told -/

def isNumeralChar (c : Char) : Bool :=
  c.isDigit || c == '-' || c == '+' || c == '.' || c == 'e' || c == 'E'

/-- Whether the characters seen so far end inside a string, and there behind a backslash. -/
inductive Quoting where
  | outside
  | inside
  | escaped
deriving DecidableEq

/-- The brackets that are open, the innermost one first, after one more character. -/
def track : List Char × Quoting → Char → List Char × Quoting
  | (opened, .escaped), _ => (opened, .inside)
  | (opened, .inside), c =>
    (opened, if c = '\\' then .escaped else if c = '"' then .outside else .inside)
  | (opened, .outside), c =>
    if c = '"' then (opened, .inside)
    else if c = '[' ∨ c = '\x7b' then (c :: opened, .outside)
    else if c = ']' ∨ c = '\x7d' then (opened.tail, .outside)
    else (opened, .outside)

/-- The innermost bracket that is open at the end of the beginning of a text. -/
def innermost? (start : List Char) : Option Char :=
  (start.foldl track ([], .outside)).1.head?

/-- What is passed when a record is left before its end: blanks, and then its closing bracket, or
the comma of an array with the blanks behind it. -/
def passed (bracket : Option Char) (rest : List Char) : List Char :=
  let blanks := rest.takeWhile isSpacing
  match bracket, rest.dropWhile isSpacing with
  | some '[', ']' :: _ => blanks ++ [']']
  | some '[', ',' :: rest => blanks ++ ',' :: rest.takeWhile isSpacing
  | some '\x7b', '\x7d' :: _ => blanks ++ ['\x7d']
  | _, _ => blanks

/-- The beginning of a text at whose end the mismatch is told, given one that shows it and the rest
of the text. -/
def told (m : Mismatch) (start rest : List Char) : List Char :=
  match m with
  | .wrongType .array _ | .wrongType .object _ => start.dropLast
  | .wrongType (.number _) _ | .wrongValue (.number _) _ => start ++ rest.takeWhile isNumeralChar
  | .repeatedMember _ | .noAlternative _ | .refused _ => start ++ passed (innermost? start) rest
  | _ => start

/-- The place where a mismatch is told. -/
def ofMismatch {α : Type} (decoder : Decoder α) (text : String) (m : Mismatch) : Place :=
  let text := text.toList
  let n := shown decoder text m
  behind (told m (text.take n) (text.drop n))

end Place

end FilterQuery.Json

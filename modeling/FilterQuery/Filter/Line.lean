import FilterQuery.Filter
import FilterQuery.Inference
import FilterQuery.Operator.Spelling

/-!
# Filter lines

A filter is written on one line: opening parentheses, the field behind an at sign, an operator, the
value in brackets, closing parentheses, and possibly a connective.

    (( @age >= [30] ) AND

Only single values and lists differ in how the text between the brackets is read: a list operator
takes it as a list whose kind is inferred, any other operator takes it as a string, blanks included.

Reading goes in two steps. `Line.ofText?` cuts the line into its parts, and `Filter.ofLine` gives
the parts their meaning.
-/

namespace FilterQuery

open Text

/-- The parts of a filter line. -/
structure Line where
  opens : Nat
  field : List Char
  operator : List Char
  value : List Char
  closes : Nat
  key : Option (List Char)
deriving DecidableEq, Repr

namespace Line

/-- The characters of a field: the letters `A`–`Z` and `a`–`z`, and the underscore. -/
def isFieldChar (c : Char) : Bool := c.isAlpha || c == '_'

/-- The operators whose tokens a line may use, every one before the shorter ones it starts with. -/
def operators : List Operator :=
  [.notContains, .contains, .notIn, .isNot, .is, .isIn, .notEqual, .greaterOrEqual, .lessOrEqual,
    .equal, .greater, .less]

/-- Cuts a text after the operator token it starts with. -/
def splitOperator? (s : List Char) : Option (List Char × List Char) :=
  operators.findSome? fun op => splitAfter? op.token.toList s

/-- Cuts a text after an operator that stands directly in front of a bracket, spacing aside. What
is left starts with the bracket. -/
def operatorBeforeValue? (s : List Char) : Option (List Char × List Char) := do
  let (operator, s) ← splitOperator? (skipSpacing s)
  match skipSpacing s with
  | '[' :: s => some (operator, '[' :: s)
  | _ => none

/-- Cuts a text into a field, an operator and the rest, which starts with a bracket. An operator
that is a word may follow the field without spacing, so that there can be several cuts; the longest
field wins. -/
def splitField? : List Char → Option (List Char × List Char × List Char)
  | [] => none
  | c :: s =>
    if isFieldChar c then
      match splitField? s with
      | some (field, operator, rest) => some (c :: field, operator, rest)
      | none => (operatorBeforeValue? s).map fun (operator, rest) => ([c], operator, rest)
    else none

/-- Cuts a text after a non-empty value in brackets. The value has no closing bracket. -/
def splitValue? : List Char → Option (List Char × List Char)
  | '[' :: s =>
    match s.takeWhile (· != ']'), s.dropWhile (· != ']') with
    | c :: value, ']' :: rest => some (c :: value, rest)
    | _, _ => none
  | _ => none

/-- The end of a line: nothing, or the word of a connective. -/
def key? (s : List Char) : Option (Option (List Char)) :=
  if s.isEmpty then some none
  else if caselessEq s Connective.and.word.toList || caselessEq s Connective.or.word.toList then
    some (some s)
  else none

/-- Cuts a trimmed line into its parts. -/
def ofText? (s : List Char) : Option Line := do
  let opening := s.takeWhile (· == '(')
  match skipSpacing (s.dropWhile (· == '(')) with
  | '@' :: s =>
    let (field, operator, s) ← splitField? s
    let (value, s) ← splitValue? s
    let s := skipSpacing s
    let closing := s.takeWhile (· == ')')
    let key ← key? (skipSpacing (s.dropWhile (· == ')')))
    some { opens := opening.length, field, operator, value, closes := closing.length, key }
  | _ => none

end Line

namespace Filter

/-- The value between the brackets of a line, as its operator takes it. -/
def lineValue (operator : Operator) (s : List Char) : Except Error Value :=
  if operator.takesList then Value.list <$> ValueList.ofText s
  else .ok (.string (String.ofList s))

/-- The filter that the parts of a line stand for. The parentheses of any line that fits into memory
are fewer than a machine word can count. -/
def ofParts (line : Line) : Except Error Filter := do
  let operator ← Operator.ofText line.operator
  let value ← lineValue operator line.value
  let key ← line.key.mapM Connective.ofText
  return { field := String.ofList line.field, operator, value, opens := UInt64.ofNat line.opens,
           closes := UInt64.ofNat line.closes, key }

/-- The filter written on a line. The number is the place of the line among its neighbours, for the
complaint. -/
def ofLine (number : Nat) (line : String) : Except Error Filter :=
  match Line.ofText? (trim line.toList) with
  | some parts => ofParts parts
  | none => .error (.malformedLine number line)

/-- The filters written on consecutive lines, numbered from `number`. The first line that is no
filter is the complaint. -/
def ofLinesFrom (number : Nat) : List String → Except Error (List Filter)
  | [] => .ok []
  | line :: lines => do
    let filter ← ofLine number line
    let filters ← ofLinesFrom (number + 1) lines
    return filter :: filters

def ofLines (lines : List String) : Except Error (List Filter) := ofLinesFrom 1 lines

end Filter

end FilterQuery

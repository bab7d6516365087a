import FilterQuery.Error
import FilterQuery.Text.Blank
import FilterQuery.Text.Caseless

/-!
# Spellings of operators and connectives

Requests spell operators in several vocabularies: as symbols, as words, and by short codes. Letter
case and surrounding blanks do not matter for an operator. A connective has one word only.
-/

namespace FilterQuery

open Text

namespace Operator

/-- The accepted spellings, each with its operator. -/
def spellings : List (String × Operator) :=
  [("=", equal), ("!=", notEqual), ("<>", notEqual), (">", greater), (">=", greaterOrEqual),
    ("<", less), ("<=", lessOrEqual),
    ("CONTAINS", contains), ("NOT_CONTAINS", notContains), ("LIKE", contains),
    ("NOT_LIKE", notContains), ("ILIKE", contains), ("NOT_ILIKE", notContains), ("IS", is),
    ("IS_NOT", isNot), ("IN", isIn), ("NOT_IN", notIn),
    ("eq", equal), ("ne", notEqual), ("gt", greater), ("gte", greaterOrEqual), ("lt", less),
    ("lte", lessOrEqual), ("contains", contains), ("ncontains", notContains), ("is", is),
    ("isn", isNot), ("in", isIn), ("nin", notIn)]

/-- The operator that a text spells. -/
def ofText? (s : List Char) : Option Operator :=
  (spellings.find? fun (spelling, _) => caselessEq spelling.toList (trim s)).map (·.2)

/-- The operator that a text spells, or the complaint about the trimmed text. -/
def ofText (s : List Char) : Except Error Operator :=
  match ofText? s with
  | some op => .ok op
  | none => .error (.unknownOperator (String.ofList (trim s)))

theorem ofText_token (op : Operator) : ofText op.token.toList = .ok op := by
  cases op <;> rfl

theorem ofText_code (op : Operator) : ofText op.code.toList = .ok op := by
  cases op <;> rfl

end Operator

/-- The connective that a text spells, without blanks around it. -/
def Connective.ofText (s : List Char) : Except Error Connective :=
  if caselessEq s and.word.toList then .ok and
  else if caselessEq s or.word.toList then .ok or
  else .error (.unknownConnective (String.ofList s))

end FilterQuery

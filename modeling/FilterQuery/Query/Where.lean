import FilterQuery.Query.Predicate
import FilterQuery.Text.Numeral

/-!
# The `WHERE` clause

The clause is the text of the predicates with the connectives between them. No value is part of the
text: each stands as a placeholder `$1`, `$2`, … and is bound to it as an argument, in the order of
the text.
-/

namespace FilterQuery

open Text

def placeholder (number : Nat) : List Char := '$' :: decimal number

/-- The placeholders of an operand, numbered from `first`. -/
def Operand.text (first : Nat) : Operand → List Char
  | single _ => placeholder first
  | alternatives values =>
    '(' :: [',', ' '].intercalate ((List.range' first values.length).map placeholder) ++ [')']

namespace Predicate

/-- The values that the predicate binds. -/
def arguments (p : Predicate) : List Value := p.operand.values

/-- The text of a predicate with its parentheses, its placeholders numbered from `first`. -/
def text (first : Nat) (p : Predicate) : List Char :=
  List.replicate p.opens.toNat '(' ++ p.field.toList ++ ' ' :: p.operator.keyword.toList ++
    ' ' :: p.operand.text first ++ List.replicate p.closes.toNat ')'

/-- The text of joined predicates. The connective of the last one joins nothing and is dropped. -/
def joined (first : Nat) : List Predicate → List Char
  | [] => []
  | [p] => p.text first
  | p :: q :: ps =>
    p.text first ++ ' ' :: p.connective.word.toList ++
      ' ' :: joined (first + p.arguments.length) (q :: ps)

/-- The `WHERE` clause of the predicates, empty when there are none. -/
def clause (ps : List Predicate) : List Char :=
  if ps.isEmpty then [] else "WHERE ".toList ++ joined 1 ps

end Predicate

end FilterQuery

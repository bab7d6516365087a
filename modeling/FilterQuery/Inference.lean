import FilterQuery.Error
import FilterQuery.Float64.Numeral
import FilterQuery.Text.Blank

/-!
# Kinds of list elements

A filter line carries text only, so the elements of a list such as `1, 2, 3` get their kind from
their spelling. Each token has a kind of its own; a list is given a kind when all its tokens agree,
where whole numbers among floating-point ones count as such. Otherwise it stays a list of strings.
-/

namespace FilterQuery

open Text

/-- The truth value that a token spells. -/
def truthValue? (s : List Char) : Option Bool :=
  if ["1", "t", "T", "true", "TRUE", "True"].any (·.toList == s) then some true
  else if ["0", "f", "F", "false", "FALSE", "False"].any (·.toList == s) then some false
  else none

namespace Kind

/-- The kind of a token: the first of whole number, floating-point number and truth value that it
reads as, and else string. -/
def ofToken (token : List Char) : Kind :=
  if (signed64? token).isSome then int
  else if (Float64.ofText? token).isSome then float
  else if (truthValue? token).isSome then bool
  else string

/-- The kind that holds the elements of both kinds. -/
def join? : Kind → Kind → Option Kind
  | int, float | float, int => some float
  | a, b => if a = b then some a else none

/-- The kind that holds all the tokens. There is none for an empty list, nor when the tokens
disagree. -/
def common? (tokens : List (List Char)) : Option Kind :=
  match tokens.map ofToken with
  | [] => none
  | kind :: kinds => kinds.foldlM join? kind

end Kind

namespace ValueList

/-- The readings of all tokens by one reader. The first token that it refuses is the complaint. -/
def readAll {α : Type} (kind : Kind) (read : List Char → Option α) (tokens : List (List Char)) :
    Except Error (List α) :=
  tokens.mapM fun token =>
    match read token with
    | some x => .ok x
    | none => .error (.unreadable (String.ofList token) kind)

/-- The list of the common kind of the tokens, or of the tokens themselves. -/
def ofTokens (tokens : List (List Char)) : Except Error ValueList :=
  match Kind.common? tokens with
  | some .int => ints <$> readAll .int signed64? tokens
  | some .float => floats <$> readAll .float Float64.ofText? tokens
  | some .bool => bools <$> readAll .bool truthValue? tokens
  | some .string | none => .ok (strings (tokens.map String.ofList))

/-- The list that a text denotes: the trimmed pieces between its commas. -/
def ofText (s : List Char) : Except Error ValueList :=
  ofTokens ((s.splitOn ',').map trim)

end ValueList

end FilterQuery

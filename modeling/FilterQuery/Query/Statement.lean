import FilterQuery.Query.Basic

/-!
# Statements

A statement is SQL text together with the parameters bound to its placeholders so far. Arguments are
bound one after the other, each to one placeholder, and a list is one argument, too: it becomes one
parameter of an array type. What is bound are the arguments themselves, in order and without loss
(`bound_bindAll`, `Parameter.ofValue_inj`).
-/

namespace FilterQuery

/-- What a placeholder is bound to. The type of a column is told by the parameter, so a missing
value has one as well: it is sent as a text. -/
inductive Parameter where
  | missingText
  | bool (b : Bool)
  | int (n : Int64)
  | float (x : Float64)
  | text (s : String)
  | ints (xs : List Int64)
  | floats (xs : List Float64)
  | bools (xs : List Bool)
  | texts (xs : List String)
deriving DecidableEq

namespace Parameter

/-- The parameter that a value is bound as. -/
def ofValue : Value → Parameter
  | .null => missingText
  | .bool b => bool b
  | .int n => int n
  | .float x => float x
  | .string s => text s
  | .list (.ints xs) => ints xs
  | .list (.floats xs) => floats xs
  | .list (.bools xs) => bools xs
  | .list (.strings xs) => texts xs

def isArray : Parameter → Bool
  | ints _ | floats _ | bools _ | texts _ => true
  | _ => false

/-- The value that a parameter is made of. -/
def value : Parameter → Value
  | missingText => .null
  | bool b => .bool b
  | int n => .int n
  | float x => .float x
  | text s => .string s
  | ints xs => .list (.ints xs)
  | floats xs => .list (.floats xs)
  | bools xs => .list (.bools xs)
  | texts xs => .list (.strings xs)

@[simp] theorem value_ofValue (v : Value) : (ofValue v).value = v := by
  cases v with
  | list xs => cases xs <;> rfl
  | null | bool | int | float | string => rfl

/-- **Binding loses nothing.** Different values become different parameters. -/
theorem ofValue_inj {v w : Value} : ofValue v = ofValue w ↔ v = w := by
  constructor
  · intro h
    rw [← value_ofValue v, h, value_ofValue]
  · intro h
    rw [h]

end Parameter

/-- SQL text and the parameters bound to `$1`, `$2`, … -/
structure Statement where
  sql : String
  bound : List Parameter := []
deriving DecidableEq

namespace Statement

def bind (s : Statement) (v : Value) : Statement :=
  { s with bound := s.bound ++ [Parameter.ofValue v] }

def bindAll (s : Statement) (vs : List Value) : Statement := vs.foldl bind s

@[simp] theorem sql_bindAll (s : Statement) (vs : List Value) : (s.bindAll vs).sql = s.sql := by
  induction vs generalizing s with
  | nil => rfl
  | cons v vs ih => exact ih (s.bind v)

@[simp] theorem bound_bindAll (s : Statement) (vs : List Value) :
    (s.bindAll vs).bound = s.bound ++ vs.map Parameter.ofValue := by
  induction vs generalizing s with
  | nil => simp [bindAll]
  | cons v vs ih => simpa [bindAll, bind] using ih (s.bind v)

end Statement

/-- The statement of a query, with all arguments bound. -/
def Query.statement (q : Query) : Statement := ({ sql := q.sql } : Statement).bindAll q.arguments

end FilterQuery

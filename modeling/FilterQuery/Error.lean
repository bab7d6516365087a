import FilterQuery.FileError
import FilterQuery.Operator.Basic
import FilterQuery.Value

/-!
# Errors

What can be wrong with a text of the filter language, with criteria, or with the settings. Each
error is its cause; `Error.message` is the only place where the wording is fixed.
-/

namespace FilterQuery

/-- Why a request is refused. -/
inductive Error where
  /-- The line with this number is no filter. -/
  | malformedLine (number : Nat) (line : String)
  | unknownOperator (token : String)
  | unknownConnective (word : String)
  /-- A token does not read as the kind inferred for its list. -/
  | unreadable (token : String) (kind : Kind)
  /-- A list is compared with an operator for single values. -/
  | listForSingle (operator : Operator) (field : String) (kind : Kind)
  /-- Some item of the sort expression has no field. -/
  | emptySort (expression : String)
  /-- A part of a page request has no colon. -/
  | partWithoutColon (part : String)
  | badPageCount (text : String)
  | unknownPageKey (key : String)
  /-- The text of the settings is not TOML, or does not have the shape of settings. -/
  | badSettings
  | unreadableFile (reason : FileError)
deriving DecidableEq, Repr

/-- The text of an error. The one of refused settings leaves out what the reader of the settings has
to say. -/
def Error.message : Error → String
  | malformedLine number line =>
    "invalid filter format at line " ++ toString number ++ ": '" ++ line ++
      "', format is: (( @field OPERATOR [value] )) AND|OR"
  | unknownOperator token => "invalid operator: '" ++ token ++ "'"
  | unknownConnective word => "invalid chaining key: '" ++ word ++ "', expected AND or OR"
  | unreadable token kind => "cannot convert '" ++ token ++ "' to " ++ kind.name
  | listForSingle operator field kind =>
    "invalid value: " ++ operator.token ++ " on '" ++ field ++ "' takes a single value, got a " ++
      kind.name ++ " list"
  | emptySort expression => "invalid sort expression: empty field in '" ++ expression ++ "'"
  | partWithoutColon part => "invalid pagination: expected key:value, got '" ++ part ++ "'"
  | badPageCount text => "invalid pagination: '" ++ text ++ "' is not a page count"
  | unknownPageKey key => "invalid pagination: unknown key '" ++ key ++ "'"
  | badSettings => "configuration error:"
  | unreadableFile reason => "IO error: " ++ reason.message

end FilterQuery

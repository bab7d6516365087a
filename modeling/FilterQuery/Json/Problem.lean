import FilterQuery.Error
import FilterQuery.Json.Scan
import FilterQuery.Text.Printable

/-!
# What can be wrong with a JSON text

A text is malformed if it is no JSON, or holds something that nothing can be read out of. Otherwise
its content may not fit what is asked for; then there is a message.
-/

namespace FilterQuery.Json

open Text

/-- What stands in a text, as far as messages tell. -/
inductive Found where
  | null
  | bool (b : Bool)
  | number (n : Number)
  | string (s : String)
  | array
  | object
deriving DecidableEq

def Found.text : Found → List Char
  | null => "null".toList
  | bool b => "boolean `".toList ++ truth b ++ ['\x60']
  | number (.whole n) => "integer `".toList ++ signedDecimal n ++ ['\x60']
  | number (.float x) => "floating point `".toList ++ Number.text (.float x) ++ ['\x60']
  | string s => "string ".toList ++ quoteForMessage s.toList
  | array => "sequence".toList
  | object => "map".toList

/-- How the content of a text does not fit. -/
inductive Mismatch where
  | missingMember (name : String)
  | repeatedMember (name : String)
  /-- A string is none of the words that are allowed. -/
  | unknownWord (word : String) (allowed : List String)
  | wrongType (found : Found) (expected : String)
  /-- A value is of the right type but out of range. -/
  | wrongValue (found : Found) (expected : String)
  /-- An array that stands for an object has too few items. -/
  | tooShort (length : Nat) (expected : String)
  /-- A value is none of the alternatives of a type. -/
  | noAlternative (type : String)
  /-- The content breaks a rule of the filter language. -/
  | refused (error : Error)
deriving DecidableEq

def Mismatch.message : Mismatch → String
  | missingMember name => "missing field `" ++ name ++ "`"
  | repeatedMember name => "duplicate field `" ++ name ++ "`"
  | unknownWord word allowed =>
    "unknown variant `" ++ word ++ "`, expected one of " ++
      ", ".intercalate (allowed.map fun w => "`" ++ w ++ "`")
  | wrongType found expected =>
    "invalid type: " ++ String.ofList found.text ++ ", expected " ++ expected
  | wrongValue found expected =>
    "invalid value: " ++ String.ofList found.text ++ ", expected " ++ expected
  | tooShort length expected => "invalid length " ++ toString length ++ ", expected " ++ expected
  | noAlternative type => "data did not match any variant of untagged enum " ++ type
  | refused error => error.message

/-- What is wrong with a text. -/
inductive Problem where
  | malformed
  | mismatch (m : Mismatch)
deriving DecidableEq

/-- The complaint that a value is not of the expected type. A container is known by its bracket
alone; anything else must be readable to be named. -/
def Scan.unexpected (expected : String) (scan : Scan) : Problem :=
  let found? : Option Found := match scan with
    | .broken => none
    | .null => some .null
    | .bool b => some (.bool b)
    | .number n => n.map .number
    | .string s => s.map .string
    | .array .. => some .array
    | .object .. | .badKey _ => some .object
  match found? with
  | some found => .mismatch (.wrongType found expected)
  | none => .malformed

end FilterQuery.Json

import FilterQuery.Json.Problem

/-!
# Decoding scans

A decoder takes a scanned value and the number of levels to which containers may still be nested.
Decoders go through a value in the order of its text, so the first fault in the text is the answer.

A record is an object with known members. It may also be an array of its members' values in their
order, from which members may be missing at the end. Members with other names are passed over.
-/

namespace FilterQuery.Json

/-- Reads a value out of a scan. -/
abbrev Decoder (α : Type) := Nat → Scan → Except Problem α

/-- The nesting that a text may have. -/
def maxDepth : Nat := 127

/-- Reads a value out of a text, which must hold nothing else. -/
def decode {α : Type} (decoder : Decoder α) (text : String) : Except Problem α := do
  let (scan, rest) := Scan.ofText text.toList
  let a ← decoder maxDepth scan
  match rest.map Text.skipSpacing with
  | some [] => return a
  | _ => throw .malformed

namespace Decoder

variable {α σ : Type}

/-- One level of nesting further in. -/
def descend (depth : Nat) : Except Problem Nat :=
  match depth with
  | 0 => throw .malformed
  | depth + 1 => return depth

/-- The notation must be right here. -/
def require (ok : Bool) : Except Problem Unit :=
  if ok then return () else throw .malformed

/-! ## Scalars -/

def string : Decoder String
  | _, .string (some s) => return s
  | _, scan => throw (scan.unexpected "a string")

/-- A whole number that is not negative, of the type with the given name. -/
def natural (type : String) : Decoder Nat
  | _, .number (some (.whole (.ofNat n))) => return n
  | _, .number (some (.whole n)) => throw (.mismatch (.wrongValue (.number (.whole n)) type))
  | _, scan => throw (scan.unexpected type)

/-- A value that may be null. -/
def optional (decoder : Decoder α) : Decoder (Option α)
  | _, .null => return none
  | depth, scan => some <$> decoder depth scan

def lookUp (words : List (String × α)) (word : String) : Except Problem α :=
  match words.lookup word with
  | some a => return a
  | none => throw (.mismatch (.unknownWord word (words.map (·.1))))

/-- One of several words. In place of the word there may be an object with the word as its only key
and null as its value. -/
def word (words : List (String × α)) : Decoder α
  | _, .string (some s) => lookUp words s
  | depth, .object ((some key, x) :: others) closed => do
    let _ ← descend depth
    let a ← lookUp words key
    match x with
    | .null =>
      require (others.isEmpty && closed)
      return a
    | x => throw (x.unexpected "unit")
  | depth, .badKey key => do
    let _ ← descend depth
    throw (key.unexpected "variant identifier")
  | _, _ => throw .malformed

/-! ## Containers -/

/-- A list whose items are read one after the other. -/
def list (decoder : Decoder α) : Decoder (List α)
  | depth, .array items closed => do
    let depth ← descend depth
    let xs ← items.mapM (decoder depth)
    require closed
    return xs
  | _, scan => throw (scan.unexpected "a sequence")

/-- A record in the making. `set` takes over the value of a known member and returns `none` for the
name of an unknown one. -/
structure Record (σ : Type) where
  type : String
  /-- The names of the members, in the order in which an array lists them. -/
  names : List String
  set : Nat → σ → String → Scan → Option (Except Problem σ)

/-- How a record was written. -/
inductive Layout where
  | object
  | array (length : Nat)
deriving DecidableEq

/-- Takes over one member. The value of an unknown one only has to be closed. -/
def Record.addMember (r : Record σ) (depth : Nat) (s : σ) (member : Option String × Scan) :
    Except Problem σ :=
  match member with
  | (none, _) => throw .malformed
  | (some name, x) =>
    match r.set depth s name x with
    | some result => result
    | none => do
      require x.isClosed
      return s

/-- Takes over all members of a record. -/
def Record.members (r : Record σ) (start : σ) : Decoder (σ × Layout)
  | depth, .object ms closed => do
    let depth ← descend depth
    let s ← ms.foldlM (r.addMember depth) start
    require closed
    return (s, .object)
  | depth, .array items closed => do
    let depth ← descend depth
    let named := (r.names.map some).zip items
    let s ← named.foldlM (r.addMember depth) start
    require (items.length ≤ r.names.length && closed)
    return (s, .array items.length)
  | depth, .badKey _ => do
    let _ ← descend depth
    throw .malformed
  | _, scan => throw (scan.unexpected ("struct " ++ r.type))

/-- Takes over a value for a member that must not have one yet. -/
def once (name : String) (old : Option α) (value : Except Problem α) : Except Problem α :=
  if old.isSome then throw (.mismatch (.repeatedMember name)) else value

/-- A member that a record must have. -/
def Record.required (r : Record σ) (layout : Layout) (name : String) (value : Option α) :
    Except Problem α :=
  match value, layout with
  | some a, _ => return a
  | none, .object => throw (.mismatch (.missingMember name))
  | none, .array length =>
    throw (.mismatch (.tooShort length
      ("struct " ++ r.type ++ " with " ++ toString r.names.length ++ " elements")))

end Decoder

end FilterQuery.Json

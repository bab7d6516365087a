import FilterQuery.Float64.Basic

/-!
# TOML documents

A document is a tree of tables. A table can be made in several ways, and how it was made decides who
may add to it later:

* a header `[a.b]` defines `a.b` once and for all, but another header may have mentioned it before;
* the tables above the last one in a header are implied by it;
* a dotted key `a.b = 1` makes the table `a`, to which only dotted keys add;
* an inline table is complete as it stands.

A header with double brackets adds a table to an array of tables.
-/

namespace FilterQuery

/-- How a table came about. -/
inductive Toml.Origin where
  | defined
  | implied
  | dotted
  | inlined
deriving DecidableEq, Repr

/-- A part of a TOML document. -/
inductive Toml where
  | string (s : String)
  | integer (n : Int)
  | float (x : Float64)
  | boolean (b : Bool)
  | dateTime
  | array (items : List Toml)
  | table (origin : Toml.Origin) (entries : List (String × Toml))
  /-- An array of tables, made by headers with double brackets. The latest table comes first. -/
  | tables (latest : List (String × Toml)) (earlier : List Toml)

namespace Toml

instance : Inhabited Toml := ⟨.dateTime⟩

abbrev Entries := List (String × Toml)

/-- The entries with the value of one key replaced. -/
def replace (key : String) (x : Toml) : Entries → Entries
  | [] => []
  | (k, y) :: es => if k = key then (k, x) :: es else (k, y) :: replace key x es

/-- The entries with one more, whose key must be new. -/
def insertNew? (key : String) (x : Toml) (es : Entries) : Option Entries :=
  if (es.lookup key).isSome then none else some (es ++ [(key, x)])

/-- Changes the table that is found by following the keys of a path. Tables that are missing on the
way are made. Along a dotted key the way must not lead through tables that were defined. The change
is told how the table came about. -/
def alter? (dotted : Bool) (change : Origin → Entries → Option Entries) :
    List String → Origin → Entries → Option Entries
  | [], origin, es => change origin es
  | key :: path, _, es =>
    match es.lookup key with
    | none => do
      let origin := if dotted then .dotted else .implied
      let inner ← alter? dotted change path origin []
      return es ++ [(key, table origin inner)]
    | some (table origin inner) =>
      if origin = .inlined || (dotted && origin = .defined) then none
      else do
        let inner ← alter? dotted change path origin inner
        return replace key (table origin inner) es
    | some (tables latest earlier) => do
      let latest ← alter? dotted change path .defined latest
      return replace key (tables latest earlier) es
    | some _ => none

/-- Adds the value of a key with the dotted path in front of it. A table made by anything but dotted
keys is closed to them, and one made by them is closed to anything else. -/
def addKey? (path : List String) (key : String) (x : Toml) (origin : Origin) (es : Entries) :
    Option Entries :=
  let insert (origin : Origin) (es : Entries) : Option Entries :=
    if !path.isEmpty && origin ≠ .dotted then none else insertNew? key x es
  alter? true insert path origin es

/-- Defines the last table of a header inside the table above it. -/
def defineTable? (key : String) (es : Entries) : Option Entries :=
  match es.lookup key with
  | none => some (es ++ [(key, table .defined [])])
  | some (table .implied inner) => some (replace key (table .defined inner) es)
  | some _ => none

/-- Adds a table to an array of tables inside the table above it. -/
def addTable? (key : String) (es : Entries) : Option Entries :=
  match es.lookup key with
  | none => some (es ++ [(key, tables [] [])])
  | some (tables latest earlier) =>
    some (replace key (tables [] (table .defined latest :: earlier)) es)
  | some _ => none

end Toml

end FilterQuery

import FilterQuery.Error
import FilterQuery.FileSystem
import FilterQuery.Toml.Document

/-!
# Settings

The settings are a TOML document. There is one of them, the page size for queries that do not ask
for one, under the key `max_page_size` of the table `converter`. Everything else in the document is
passed over.

They come from exactly one source: the file that is asked for, else the first of the usual places
that holds something, else the defaults.
-/

namespace FilterQuery

structure Settings where
  /-- The page size for queries that do not ask for one; with zero they are not paged. -/
  maxPageSize : UInt64 := 0
deriving DecidableEq, Repr

namespace Settings

/-- A page size in a document: a whole number that is not negative. -/
def pageSize? : Toml → Option UInt64
  | .integer n => if 0 ≤ n then some (UInt64.ofNat n.toNat) else none
  | _ => none

/-- The settings in the value of the key `converter`. In place of a table there may be an array with
the page size as its first item, or a date or time, which says nothing about it. -/
def ofConverter? : Toml → Option Settings
  | .table _ entries => ofMember? (entries.lookup "max_page_size")
  | .array items => ofMember? items.head?
  | .dateTime => some {}
  | _ => none
where
  ofMember? : Option Toml → Option Settings
    | some x => (pageSize? x).map fun n => { maxPageSize := n }
    | none => some {}

/-- The settings that a text holds. -/
def ofText (text : String) : Except Error Settings :=
  let settings? := do
    let entries ← Toml.ofText? text
    match entries.lookup "converter" with
    | some x => ofConverter? x
    | none => some {}
  match settings? with
  | some settings => .ok settings
  | none => .error .badSettings

/-! ## Loading -/

def ofFile (fs : FileSystem) (path : String) : Except Error Settings :=
  match fs path with
  | .ok text => ofText text
  | .error reason => .error (.unreadableFile reason)

/-- The name of the file in the working directory. -/
def fileName : String := "dafi.toml"

/-- The usual places: the working directory, and the user's directory for settings if there is
one. -/
def usualPlaces (userDirectory : Option String) : List String :=
  fileName :: (userDirectory.map (· ++ "/dafi/config.toml")).toList

/-- Loads the settings from the file that is asked for, else from the first of the usual places that
holds something. -/
def load (fs : FileSystem) (userDirectory explicit : Option String) : Except Error Settings :=
  match explicit with
  | some path => ofFile fs path
  | none =>
    match (usualPlaces userDirectory).find? fs.holds with
    | some path => ofFile fs path
    | none => .ok {}

end Settings

end FilterQuery

import FilterQuery.Json.Decoding
import FilterQuery.Page
import FilterQuery.Value.Json

/-!
# Pages as JSON

A page is an object with a size and a number, each of which may be left out when reading.
-/

namespace FilterQuery.Page

open Json (Decoder Problem Scan)
open Json.Decoder

def json (p : Page) : Json :=
  .object [("page_size", .int p.size.toNat), ("page_number", .int p.number.toNat)]

/-- The members of a page that have been read. -/
structure Draft where
  size : Option Nat := none
  number : Option Nat := none
deriving DecidableEq

def Draft.set (depth : Nat) (d : Draft) (name : String) (x : Scan) :
    Option (Except Problem Draft) :=
  match name with
  | "page_size" =>
    some ((fun v => { d with size := some v }) <$> once name d.size (natural "u64" depth x))
  | "page_number" =>
    some ((fun v => { d with number := some v }) <$> once name d.number (natural "u64" depth x))
  | _ => none

def record : Record Draft where
  type := "Pagination"
  names := ["page_size", "page_number"]
  set := Draft.set

/-- Reads a page. The scanned numbers that are whole fit 64 bits. -/
def decoder : Decoder Page
  | depth, scan => do
    let (d, _) ← record.members {} depth scan
    return { size := UInt64.ofNat (d.size.getD 0), number := UInt64.ofNat (d.number.getD 0) }

end FilterQuery.Page

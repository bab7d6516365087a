import FilterQuery.Text.Numeral

/-!
# Pages

Which rows of the result are wanted. Pages are numbered from one; a size or number of zero means
that none was asked for.
-/

namespace FilterQuery

open Text

/-- A page of the result. -/
structure Page where
  size : UInt64 := 0
  number : UInt64 := 0
deriving DecidableEq, Repr

namespace Page

def hasSize (p : Page) : Bool := 0 < p.size

def hasNumber (p : Page) : Bool := 0 < p.number

/-- The number of rows before the page. Page zero counts as page one, and a number of rows that does
not fit 64 bits is replaced by the greatest one that does. -/
def offset (p : Page) : UInt64 :=
  UInt64.ofNat (min (p.size.toNat * (p.number.toNat - 1)) (UInt64.size - 1))

/-- The page to fetch, once `defaultSize` has filled in a missing size. Without a size from either
side there is no paging. -/
def effective (p : Page) (defaultSize : UInt64) : Option Page :=
  let size := if p.hasSize then p.size else defaultSize
  if size = 0 then none
  else some { size, number := if p.hasNumber then p.number else 1 }

/-- The `LIMIT` clause, empty without paging. -/
def clause (p : Page) (defaultSize : UInt64) : List Char :=
  match p.effective defaultSize with
  | some q =>
    "LIMIT ".toList ++ decimal q.size.toNat ++ " OFFSET ".toList ++ decimal q.offset.toNat
  | none => []

end Page

end FilterQuery

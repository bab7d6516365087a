import FilterQuery.Error
import FilterQuery.Page
import FilterQuery.Text.Blank

/-!
# Page requests

A page is requested in parts such as `page:2` and `limit:10`. Of several parts with one key the last
one counts.
-/

namespace FilterQuery.Page

open Text

/-- Cuts a text at its first colon. -/
def splitColon? (s : List Char) : Option (List Char × List Char) :=
  match s.dropWhile (· != ':') with
  | _ :: rest => some (s.takeWhile (· != ':'), rest)
  | [] => none

/-- The page with one more part taken into account. What is wrong with the part is found in the
order colon, number, key. -/
def addPart (page : Page) (part : String) : Except Error Page :=
  let part := trim part.toList
  match splitColon? part with
  | none => .error (.partWithoutColon (String.ofList part))
  | some (key, text) =>
    match unsigned64? (trim text) with
    | none => .error (.badPageCount (String.ofList text))
    | some n =>
      let key := trim key
      if key = "page".toList then .ok { page with number := n }
      else if key = "limit".toList then .ok { page with size := n }
      else .error (.unknownPageKey (String.ofList key))

/-- The page requested by the parts. The first part that is wrong is the complaint. -/
def ofParts (parts : List String) : Except Error Page := parts.foldlM addPart {}

end FilterQuery.Page

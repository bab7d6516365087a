import FilterQuery.Toml.Scalar

/-!
# Reading TOML documents

A document is a sequence of lines, each of them empty or with a header or a key and its value, and
possibly with a comment. Headers say to which table the following keys belong.
-/

namespace FilterQuery.Toml

/-- How deep arrays and inline tables may be nested, and how many dots a key may have. -/
def maxNesting : Nat := 79

/-- Drops blanks, line ends and comments. The fuel bounds the number of lines. -/
def skipLines (fuel : Nat) (s : List Char) : List Char :=
  match fuel with
  | 0 => s
  | fuel + 1 =>
    match splitNewline? (skipComment (skipGap s)) with
    | some s => skipLines fuel s
    | none => skipGap s

/-- A key with the dotted path in front of it. -/
def path? (s : List Char) : Option ((List String × String) × List Char) := do
  let (keys, s) ← key? s.length s
  if maxNesting < keys.length then none
  let last ← keys.getLast?
  return ((keys.dropLast, last), s)

mutual

/-- A value. The fuel bounds the number of values and entries; a text never holds more of them than
it has characters. `nesting` is how many levels deeper the value may go. -/
def value? (fuel nesting : Nat) (s : List Char) : Option (Toml × List Char) :=
  match fuel, s with
  | 0, _ => none
  | _, 't' :: 'r' :: 'u' :: 'e' :: s => some (boolean true, s)
  | _, 'f' :: 'a' :: 'l' :: 's' :: 'e' :: s => some (boolean false, s)
  | fuel + 1, '[' :: s =>
    match nesting with
    | 0 => none
    | nesting + 1 =>
      match skipLines (s.length + 1) s with
      | ']' :: s => some (array [], s)
      | s => do
        let (xs, s) ← items? fuel nesting s
        return (array xs, s)
  | fuel + 1, '\x7b' :: s =>
    match nesting with
    | 0 => none
    | nesting + 1 =>
      match skipGap s with
      | '\x7d' :: s => some (table .inlined [], s)
      | s => do
        let (es, s) ← entries? fuel nesting [] s
        return (table .inlined es, s)
  | _, s => string? s <|> dateTime? s <|> float? s <|> integer? s

/-- The items of an array up to its closing bracket. There must be one. -/
def items? (fuel nesting : Nat) (s : List Char) : Option (List Toml × List Char) :=
  match fuel with
  | 0 => none
  | fuel + 1 => do
    let (x, s) ← value? fuel nesting s
    match skipLines (s.length + 1) s with
    | ']' :: s => return ([x], s)
    | ',' :: s =>
      match skipLines (s.length + 1) s with
      | ']' :: s => return ([x], s)
      | s => do
        let (xs, s) ← items? fuel nesting s
        return (x :: xs, s)
    | _ => none

/-- The entries of an inline table up to its closing brace, added to those before them. There must
be one. -/
def entries? (fuel nesting : Nat) (before : Entries) (s : List Char) :
    Option (Entries × List Char) :=
  match fuel with
  | 0 => none
  | fuel + 1 => do
    let ((path, key), s) ← path? s
    match s with
    | '=' :: s => do
      let (x, s) ← value? fuel nesting (skipGap s)
      let es ← addKey? path key x .inlined before
      match skipGap s with
      | '\x7d' :: s => return (es, s)
      | ',' :: s => entries? fuel nesting es s
      | _ => none
    | _ => none

end

/-! ## Lines -/

/-- A document in the making. -/
structure Draft where
  entries : Entries := []
  /-- The table that the keys belong to. -/
  current : List String := []

/-- Adds a header. The keys that follow belong to its table. -/
def Draft.addHeader? (d : Draft) (path : List String) (key : String)
    (add : String → Entries → Option Entries) : Option Draft := do
  let entries ← alter? false (fun _ => add key) path .defined d.entries
  return { entries, current := path ++ [key] }

def Draft.addKey? (d : Draft) (path : List String) (key : String) (x : Toml) : Option Draft := do
  let entries ← alter? false (Toml.addKey? path key x) d.current .defined d.entries
  return { d with entries }

/-- Adds what the line at the start of a text says, and cuts the text after the line. -/
def Draft.addLine? (d : Draft) (s : List Char) : Option (Draft × List Char) :=
  match s with
  | '[' :: '[' :: s => do
    let ((path, key), s) ← path? s
    let s ← splitLineEnd? (← expect? ']' (← expect? ']' s))
    return (← d.addHeader? path key addTable?, s)
  | '[' :: s => do
    let ((path, key), s) ← path? s
    let s ← splitLineEnd? (← expect? ']' s)
    return (← d.addHeader? path key defineTable?, s)
  | s =>
    match splitLineEnd? s with
    | some s => some (d, s)
    | none => do
      let ((path, key), s) ← path? s
      let s := skipGap (← expect? '=' s)
      let (x, s) ← value? (2 * s.length + 2) maxNesting s
      let s ← splitLineEnd? s
      return (← d.addKey? path key x, s)

/-- Adds all lines of a text. The fuel bounds their number. -/
def Draft.addLines? (fuel : Nat) (d : Draft) (s : List Char) : Option Draft :=
  match fuel, skipGap s with
  | _, [] => some d
  | 0, _ => none
  | fuel + 1, s => do
    let (d, s) ← d.addLine? s
    d.addLines? fuel s

/-- The entries of the document that a text holds, `none` if it holds none. A byte order mark in
front of the text is dropped. -/
def ofText? (text : String) : Option Entries :=
  let s := match text.toList with
    | '\ufeff' :: s => s
    | s => s
  (Draft.addLines? (s.length + 1) {} s).map Draft.entries

end FilterQuery.Toml

import FilterQuery.Text.Numeral

/-!
# Command line arguments

The arguments are options, flags, filter lines and possibly a subcommand. An option takes a value,
which follows in the next argument or is attached: `--limit 5`, `--limit=5`, `-l 5`, `-l5`, `-l=5`.
Short flags may be run together, and an option may end the run: `-vl 5`. Behind `--` everything is a
filter line. No option and no flag may be given twice.

The name of a subcommand is a filter line when it stands directly behind a filter line, and the name
of the subcommand otherwise. A subcommand takes the arguments that follow for itself.
-/

namespace FilterQuery.CommandLine

open Text

/-- How a query is printed. -/
inductive Format where
  | text
  | json
deriving DecidableEq, Repr

inductive Command where
  | compile
  /-- Print the model of the given filter lines beside the query. -/
  | explain (lines : List String)
  | operators
deriving DecidableEq, Repr

/-- The arguments of a run. -/
structure Arguments where
  lines : List String := []
  sort : Option String := none
  page : Option UInt64 := none
  limit : Option UInt64 := none
  maxPageSize : Option UInt64 := none
  criteria : Option String := none
  settings : Option String := none
  format : Option Format := none
  verbose : Bool := false
  command : Command := .compile
deriving DecidableEq, Repr

inductive Request where
  | run (arguments : Arguments)
  | help
  | version
  /-- The arguments break the rules. -/
  | misuse
deriving DecidableEq, Repr

/-! ## Options -/

/-- The options, which take a value. -/
inductive Key where
  | sort
  | page
  | limit
  | maxPageSize
  | criteria
  | settings
  | format
deriving DecidableEq, Repr

namespace Key

def ofLong? (name : String) : Option Key :=
  [("sort", sort), ("page", page), ("limit", limit), ("max-page-size", maxPageSize),
    ("criteria", criteria), ("config", settings), ("format", format)].lookup name

def ofShort? (name : Char) : Option Key :=
  [('s', sort), ('p', page), ('l', limit), ('c', criteria), ('f', format)].lookup name

end Key

/-- A path must not be empty. -/
def path? (value : String) : Option String := if value.isEmpty then none else some value

def Format.ofName? (name : String) : Option Format :=
  [("text", text), ("json", json)].lookup name

/-- Takes over a value that must not have been given before. -/
def once {α : Type} (old value : Option α) : Option (Option α) :=
  if old.isSome || value.isNone then none else some value

/-- Takes over the value of an option, `none` if it is not allowed. -/
def Arguments.set? (a : Arguments) (key : Key) (value : String) : Option Arguments :=
  match key with
  | .sort => (once a.sort (some value)).map fun v => { a with sort := v }
  | .page => (once a.page (unsigned64? value.toList)).map fun v => { a with page := v }
  | .limit => (once a.limit (unsigned64? value.toList)).map fun v => { a with limit := v }
  | .maxPageSize =>
    (once a.maxPageSize (unsigned64? value.toList)).map fun v => { a with maxPageSize := v }
  | .criteria => (once a.criteria (path? value)).map fun v => { a with criteria := v }
  | .settings => (once a.settings (path? value)).map fun v => { a with settings := v }
  | .format => (once a.format (Format.ofName? value)).map fun v => { a with format := v }

def Arguments.setVerbose? (a : Arguments) : Option Arguments :=
  if a.verbose then none else some { a with verbose := true }

/-! ## One argument -/

inductive Shape where
  | separator
  | long (name : String) (value : Option String)
  /-- Short names run together. -/
  | short (names : List Char)
  | plain
deriving DecidableEq, Repr

/-- What an argument looks like. A lone minus sign is plain. -/
def Shape.of (argument : String) : Shape :=
  match argument.toList with
  | ['-', '-'] => separator
  | '-' :: '-' :: s =>
    let name := String.ofList (s.takeWhile (· != '='))
    match s.dropWhile (· != '=') with
    | _ :: value => long name (some (String.ofList value))
    | [] => long name none
  | '-' :: c :: s => short (c :: s)
  | _ => plain

/-- What the arguments so far lead to. -/
inductive State where
  | ready
  /-- A filter line was the last argument. -/
  | behindLine
  | awaiting (key : Key)
deriving DecidableEq, Repr

/-- Reading the arguments goes on, or has come to an end. -/
inductive Progress where
  | go (arguments : Arguments) (state : State)
  | stop (request : Request)
deriving DecidableEq, Repr

def Progress.ofOption : Option Arguments → Progress
  | some a => go a .ready
  | none => stop .misuse

def readLong (a : Arguments) (name : String) (value : Option String) : Progress :=
  match Key.ofLong? name, value with
  | some key, some value => .ofOption (a.set? key value)
  | some key, none => .go a (.awaiting key)
  | none, some _ => .stop .misuse
  | none, none =>
    if name = "verbose" then .ofOption a.setVerbose?
    else if name = "help" then .stop .help
    else if name = "version" then .stop .version
    else .stop .misuse

/-- An argument with short names. An option takes the rest of them as its value. -/
def readShort (a : Arguments) : List Char → Progress
  | [] => .go a .ready
  | c :: s =>
    match Key.ofShort? c, s with
    | some key, [] => .go a (.awaiting key)
    | some key, '=' :: value => .ofOption (a.set? key (String.ofList value))
    | some key, value => .ofOption (a.set? key (String.ofList value))
    | none, _ =>
      if c = 'v' then
        match a.setVerbose? with
        | some a => readShort a s
        | none => .stop .misuse
      else if c = 'h' then .stop .help
      else if c = 'V' then .stop .version
      else .stop .misuse

/-! ## All arguments -/

def operatorsArguments (a : Arguments) : List String → Request
  | [] | ["--"] => .run { a with command := .operators }
  | argument :: _ =>
    match Shape.of argument with
    | .long "help" none | .short ('h' :: _) => .help
    | _ => .misuse

/-- The arguments of the subcommand `explain`: filter lines. -/
def explainLines (lines : List String) : List String → Except Request (List String)
  | [] => .ok lines
  | argument :: rest =>
    match Shape.of argument with
    | .separator => .ok (lines ++ rest)
    | .long "help" none | .short ('h' :: _) => .error .help
    | .long .. | .short _ => .error .misuse
    | .plain => explainLines (lines ++ [argument]) rest

/-- What a subcommand asks for, given the arguments in front of it and behind it. -/
def subcommand? (a : Arguments) (name : String) (rest : List String) : Option Request :=
  if name = "explain" then
    match explainLines [] rest with
    | .ok lines => some (.run { a with command := .explain lines })
    | .error request => some request
  else if name = "operators" then some (operatorsArguments a rest)
  else if name = "help" then
    some (if rest = [] ∨ rest = ["explain"] ∨ rest = ["operators"] ∨ rest = ["help"] then .help
      else .misuse)
  else none

/-- Reads the arguments one after the other. -/
def read (a : Arguments) (state : State) : List String → Request
  | [] =>
    match state with
    | .awaiting _ => .misuse
    | _ => .run a
  | argument :: rest =>
    match state, Shape.of argument with
    | .awaiting key, .plain =>
      match a.set? key argument with
      | some a => read a .ready rest
      | none => .misuse
    | .awaiting _, _ => .misuse
    | _, .separator => .run { a with lines := a.lines ++ rest }
    | _, .long name value =>
      match readLong a name value with
      | .go a state => read a state rest
      | .stop request => request
    | _, .short names =>
      match readShort a names with
      | .go a state => read a state rest
      | .stop request => request
    | state, .plain =>
      match if state = .ready then subcommand? a argument rest else none with
      | some request => request
      | none => read { a with lines := a.lines ++ [argument] } .behindLine rest

/-- What the arguments and the environment ask for. The environment may give the page size for
queries that do not ask for one, as a number. It is not looked at when the option is given. -/
def Request.ofArguments (arguments : List String) (maxPageSize : Option String) : Request :=
  match read {} .ready arguments with
  | .run a =>
    match a.maxPageSize, maxPageSize with
    | none, some text =>
      match unsigned64? text.toList with
      | some n => .run { a with maxPageSize := some n }
      | none => .misuse
    | _, _ => .run a
  | request => request

end FilterQuery.CommandLine

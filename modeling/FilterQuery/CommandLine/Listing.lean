import FilterQuery.Criteria
import FilterQuery.Query.Json

/-!
# Listings

What the program prints: a query with its arguments, the model of criteria, and the table of
operators. A listing is a list of lines.
-/

namespace FilterQuery.CommandLine

open Text

/-- The lines of a text for people to read. -/
abbrev Listing := List (List Char)

def Listing.text (lines : Listing) : List Char := lines.flatMap (· ++ ['\n'])

/-- A text filled up with spaces at its end. -/
def padEnd (width : Nat) (s : List Char) : List Char :=
  s ++ List.replicate (width - s.length) ' '

/-- A text filled up with spaces at its start. -/
def padStart (width : Nat) (s : List Char) : List Char :=
  List.replicate (width - s.length) ' ' ++ s

/-! ## Queries -/

/-- The arguments of a query, one a line, numbered from `first`. -/
def argumentLines (first : Nat) : List Value → Listing
  | [] => []
  | v :: vs =>
    (' ' :: ' ' :: placeholder first ++ " = ".toList ++ v.text) :: argumentLines (first + 1) vs

def queryListing (q : Query) : Listing :=
  ["Generated SQL:".toList,
    ' ' :: ' ' :: if q.sql.isEmpty then "(empty)".toList else q.sql.toList] ++
  if q.arguments.isEmpty then []
  else [[], "Arguments:".toList] ++ argumentLines 1 q.arguments

def queryDocument (q : Query) : Listing := [q.json.pretty 0]

/-! ## Criteria -/

/-- What a listing tells of one filter, given its number. -/
def filterLines (number : Nat) (f : Filter) : Listing :=
  [' ' :: ' ' :: padStart 2 (decimal number) ++ ". ".toList ++ f.field.toList ++
    ' ' :: f.operator.token.toList ++ ' ' :: f.value.text] ++
  (if f.opensGroup || f.closesGroup then
    ["      groups open=".toList ++ decimal f.opens.toNat ++
      " close=".toList ++ decimal f.closes.toNat]
  else []) ++
  match f.key with
  | some key => ["      then ".toList ++ key.word.toList]
  | none => []

/-- What a listing tells of filters, numbered from `first`. -/
def filtersLines (first : Nat) : List Filter → Listing
  | [] => []
  | f :: fs => filterLines first f ++ filtersLines (first + 1) fs

def sortLine (k : SortKey) : List Char :=
  ' ' :: ' ' :: k.field.toList ++ ' ' :: k.effectiveDirection.keyword.toList

/-- Lines under a heading, with an empty line behind them. Without lines there is no heading. -/
def sectionOf (heading : String) (lines : Listing) : Listing :=
  if lines.isEmpty then [] else heading.toList :: lines ++ [[]]

def criteriaListing (c : Criteria) : Listing :=
  sectionOf "Filters:" (filtersLines 1 c.filters) ++ sectionOf "Sorts:" (c.sorts.map sortLine)

/-! ## Fixed listings -/

def tableRow (token code sql : String) : List Char :=
  padEnd 14 token.toList ++ ' ' :: padEnd 10 code.toList ++ ' ' :: sql.toList

def operatorListing : Listing :=
  ["dafi Operator Reference".toList, [], tableRow "Token" "Code" "SQL", List.replicate 40 '─'] ++
  Operator.all.map fun op => tableRow op.token op.code op.keyword

def explanationHeading : Listing := ["dafi Filter Explanation".toList, []]

/-- What the program prints when there is nothing to do. -/
def banner : Listing :=
  ["dafi: filter criteria to parameterized SQL".toList, [],
    "Usage: dafi <LINES>... [OPTIONS]".toList, [], "Try: dafi --help".toList]

def versionListing : Listing := ["dafi 0.3.0".toList]

def helpListing : Listing :=
  ["Compile filter criteria into parameterized PostgreSQL",
    "",
    "Usage: dafi [OPTIONS] [LINES]... [COMMAND]",
    "",
    "Commands:",
    "  explain    Parse filter lines and show the model next to the SQL",
    "  operators  Show the operator reference",
    "  help       Print this message or the help of the given subcommand(s)",
    "",
    "Arguments:",
    "  [LINES]...  Filter lines, one expression each",
    "",
    "Options:",
    "  -s, --sort <SORT>                    Sort expression: field+ / field- separated by ':'",
    "  -p, --page <PAGE>                    Page number (1-based)",
    "  -l, --limit <LIMIT>                  Page size",
    "      --max-page-size <MAX_PAGE_SIZE>  Default page size when --limit is absent",
    "  -c, --criteria <CRITERIA>            Read criteria from a JSON file",
    "      --config <CONFIG>                Config file (defaults to ./dafi.toml)",
    "  -f, --format <FORMAT>                Output format: text or json",
    "  -v, --verbose                        Verbose output",
    "  -h, --help                           Print help",
    "  -V, --version                        Print version"].map String.toList

end FilterQuery.CommandLine

import FilterQuery.CommandLine.Arguments
import FilterQuery.CommandLine.Listing
import FilterQuery.Criteria.Json
import FilterQuery.Criteria.Text
import FilterQuery.Json.Place
import FilterQuery.Settings

/-!
# Running the program

A run is a function of the arguments, the environment and the file system. It yields what is
printed, and possibly a failure. What was printed before a failure stays printed.

The criteria come first, from the filter lines or from a document; then the sort expression; then
the settings; and last the query. The first of them that goes wrong ends the run.
-/

namespace FilterQuery.CommandLine

/-- Why a run ends early. -/
inductive Failure where
  | settings (error : Error)
  | unreadableCriteria (path : String) (reason : FileError)
  /-- The criteria in a file are no JSON. -/
  | malformedCriteria (path : String)
  /-- The criteria in a file do not fit, which is told at a place of the text. -/
  | badCriteria (path : String) (mismatch : Json.Mismatch) (place : Json.Place)
  | refused (error : Error)
deriving DecidableEq

/-- The text of a failure. That of malformed criteria leaves out what the reader of the document has
to say, and an unreadable file of settings tells its reason twice: once as an error, once as its
cause. -/
def Failure.message : Failure → String
  | settings (.unreadableFile reason) =>
    "loading config: " ++ (Error.unreadableFile reason).message ++ ": " ++ reason.message
  | settings error => "loading config: " ++ error.message
  | unreadableCriteria path reason => "reading " ++ path ++ ": " ++ reason.message
  | malformedCriteria path => "parsing " ++ path ++ ":"
  | badCriteria path mismatch place => "parsing " ++ path ++ ": " ++ mismatch.message ++ place.text
  | refused error => error.message

/-- What a run prints, and why it ends early if it does. -/
structure Outcome where
  printed : Listing
  failure : Option Failure := none
deriving DecidableEq

/-- The exit code of a run: it tells whether the run ended early. -/
def Outcome.exitCode (o : Outcome) : UInt32 :=
  match o.failure with
  | none => 0
  | some _ => 1

structure Environment where
  files : FileSystem
  userDirectory : Option String
  /-- The page size for queries that do not ask for one, as a text. -/
  maxPageSize : Option String

/-- Prints something in front of what comes next. -/
def Outcome.after (printed : Listing) (next : Outcome) : Outcome :=
  { next with printed := printed ++ next.printed }

/-- Prints what a computation yields, if it does not fail. -/
def Outcome.ofExcept : Except Failure Listing → Outcome
  | .ok printed => { printed }
  | .error failure => { printed := [], failure := some failure }

def loadCriteria (files : FileSystem) (path : String) : Except Failure Criteria :=
  match files path with
  | .error reason => .error (.unreadableCriteria path reason)
  | .ok text =>
    match Json.decode Criteria.decoder text with
    | .ok c => .ok c
    | .error .malformed => .error (.malformedCriteria path)
    | .error (.mismatch m) =>
      .error (.badCriteria path m (.ofMismatch Criteria.decoder text m))

/-- The criteria with sort keys added behind their own, and with the size and number of the page
replaced as far as they are given. -/
def extend (c : Criteria) (sorts : List SortKey) (limit page : Option UInt64) : Criteria :=
  { c with
    sorts := c.sorts ++ sorts
    page := { size := limit.getD c.page.size, number := page.getD c.page.number } }

/-- The criteria that the arguments ask for. A document takes the place of the filter lines. -/
def criteriaOf (files : FileSystem) (a : Arguments) (lines : List String) :
    Except Failure Criteria := do
  let c ← match a.criteria with
    | some path => loadCriteria files path
    | none => do
      let filters ← (Filter.ofLines lines).mapError Failure.refused
      pure { filters }
  let sorts ← (SortKey.ofExpression (a.sort.getD "")).mapError Failure.refused
  return extend c sorts a.limit a.page

/-- The page size for queries that do not ask for one. The settings must be in order even if the
arguments overrule them. -/
def maxPageSizeOf (env : Environment) (a : Arguments) : Except Failure UInt64 := do
  let settings ← (Settings.load env.files env.userDirectory a.settings).mapError Failure.settings
  return a.maxPageSize.getD settings.maxPageSize

def queryOf (env : Environment) (a : Arguments) (c : Criteria) : Except Failure Query := do
  let maxPageSize ← maxPageSizeOf env a
  (Query.ofCriteria maxPageSize c).mapError Failure.refused

def printQuery (format : Option Format) (q : Query) : Listing :=
  match format.getD .text with
  | .text => queryListing q
  | .json => queryDocument q

def compile (env : Environment) (a : Arguments) : Outcome :=
  if a.lines.isEmpty && a.criteria.isNone && (a.sort.getD "").isEmpty then { printed := banner }
  else .ofExcept do
    let c ← criteriaOf env.files a a.lines
    return printQuery a.format (← queryOf env a c)

def explain (env : Environment) (a : Arguments) (lines : List String) : Outcome :=
  .after explanationHeading <|
    match criteriaOf env.files a lines with
    | .error failure => { printed := [], failure := some failure }
    | .ok c => .after (criteriaListing c) (.ofExcept (queryListing <$> queryOf env a c))

def run (env : Environment) (a : Arguments) : Outcome :=
  match a.command with
  | .compile => compile env a
  | .explain lines => explain env a lines
  | .operators => { printed := operatorListing }

/-- The outcome of a run with the given arguments, `none` if they break the rules. -/
def outcome (env : Environment) (arguments : List String) : Option Outcome :=
  match Request.ofArguments arguments env.maxPageSize with
  | .run a => some (run env a)
  | .help => some { printed := helpListing }
  | .version => some { printed := versionListing }
  | .misuse => none

end FilterQuery.CommandLine

import FilterQuery.CommandLine.Run

/-!
# The program

The outer layer: it looks at the system, makes the run, prints its outcome and sets the exit code.
Only the files that a run can ask for are read.
-/

namespace FilterQuery.CommandLine

/-- The number of an error of the system. Opening a file reports it with the sign turned. -/
def errorNumber (code : UInt32) : UInt32 := min code (-code)

/-- The reason why a file could not be read. -/
def reasonOf (e : IO.Error) : FileError :=
  match e with
  | .noFileOrDirectory .. => .notFound
  | .inappropriateType _ code _ =>
    match errorNumber code with
    | 20 => .notDirectory
    | 21 => .isDirectory
    | _ => .other (toString e)
  | .invalidArgument _ code _ =>
    match errorNumber code with
    | 36 => .nameTooLong
    | 40 => .unreachable "Too many levels of symbolic links (os error 40)"
    | _ => .other (toString e)
  | _ => .other (toString e)

def readText (path : String) : IO (Except FileError String) := do
  match ← (IO.FS.readFile path).toBaseIO with
  | .ok text => return .ok text
  | .error e => return .error (reasonOf e)

def findUserDirectory : IO (Option String) := do
  match ← IO.getEnv "XDG_CONFIG_HOME" with
  | some directory =>
    if directory.startsWith "/" then return some directory
    return (← IO.getEnv "HOME").map (· ++ "/.config")
  | none => return (← IO.getEnv "HOME").map (· ++ "/.config")

/-- The files that a run with the given arguments can ask for. -/
def pathsOf (request : Request) (userDirectory : Option String) : List String :=
  match request with
  | .run a => a.criteria.toList ++ a.settings.toList ++ Settings.usualPlaces userDirectory
  | _ => []

/-- Looks at the system as far as a run with the given arguments can see it. -/
def observe (arguments : List String) : IO Environment := do
  let userDirectory ← findUserDirectory
  let maxPageSize ← IO.getEnv "DAFI_MAX_PAGE_SIZE"
  let paths := pathsOf (Request.ofArguments arguments maxPageSize) userDirectory
  let seen ← paths.mapM fun path => return (path, ← readText path)
  return { files := fun path => (seen.lookup path).getD (.error .notFound)
           userDirectory, maxPageSize }

end FilterQuery.CommandLine

open FilterQuery.CommandLine in
def main (arguments : List String) : IO UInt32 := do
  match outcome (← observe arguments) arguments with
  | none =>
    IO.eprintln "error: invalid arguments\n\nFor more information, try '--help'."
    return 2
  | some result =>
    IO.print (String.ofList result.printed.text)
    if let some failure := result.failure then
      IO.eprintln ("Error: " ++ failure.message)
    return result.exitCode

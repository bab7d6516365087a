import FilterQuery.FileError

/-!
# File systems

What a program can see of a file system: for every path the text of the file there, or the reason
why there is none to read.
-/

namespace FilterQuery

/-- The answer to reading each path. -/
abbrev FileSystem := String → Except FileError String

namespace FileSystem

/-- Something is at the path, even if it cannot be read. -/
def holds (fs : FileSystem) (path : String) : Bool :=
  match fs path with
  | .error .notFound | .error .notDirectory | .error .nameTooLong | .error .nulInPath
  | .error (.unreachable _) => false
  | _ => true

end FileSystem

end FilterQuery

/-!
# Reasons why a file cannot be read
-/

namespace FilterQuery

/-- Why the system refuses to read a file. -/
inductive FileError where
  | notFound
  /-- Some part of the path that should be a directory is not one. -/
  | notDirectory
  | isDirectory
  /-- A name on the path, or the path, has too many bytes. -/
  | nameTooLong
  /-- The path has the character with the number zero, which no path may have. -/
  | nulInPath
  /-- The way to the path is barred, so that nothing shows there, in the system's words. -/
  | unreachable (text : String)
  /-- What is there cannot be read for any other reason, in the system's words. -/
  | other (text : String)
deriving DecidableEq, Repr

def FileError.message : FileError → String
  | notFound => "No such file or directory (os error 2)"
  | notDirectory => "Not a directory (os error 20)"
  | isDirectory => "Is a directory (os error 21)"
  | nameTooLong => "File name too long (os error 36)"
  | nulInPath => "file name contained an unexpected NUL byte"
  | unreachable text | other text => text

end FilterQuery

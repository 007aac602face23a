import RouteScaffold.Files.SystemError

/-!
# Errors of file operations

A file operation fails because what it needs is not there, is not permitted or is too large, or because
the operating system refuses it otherwise. The error names the path that the operation was about.
-/

namespace RouteScaffold

/-- Why a file operation failed. -/
inductive FileError where
  | notFound (path : String)
  | denied (path : String)
  | tooLarge (path : String) (size limit : Nat)
  /-- Any other error, with what was being done. -/
  | failed (action path : String) (cause : SystemError)
  deriving DecidableEq, Repr

namespace FileError

/-- The error of an action that the operating system refused. -/
def ofSystem (action path : String) (e : SystemError) : FileError :=
  if e.isNotFound then .notFound path
  else if e.isDenied then .denied path
  else .failed action path e

/-- The path that the operation was about. -/
def path : FileError → String
  | .notFound path => path
  | .denied path => path
  | .tooLarge path _ _ => path
  | .failed _ path _ => path

/-- The error as a sentence. -/
def message : FileError → String
  | .notFound path => s!"file not found: {path}"
  | .denied path => s!"permission denied: {path}"
  | .tooLarge path size limit => s!"file too large: {path} ({size} bytes, max: {limit})"
  | .failed action path cause => s!"failed to {action} {path}: {cause.message}"

end FileError

end RouteScaffold

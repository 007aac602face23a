import RouteScaffold.RunError
import RouteScaffold.Terminal

/-!
# Reports of errors

What is printed when a run fails (`RunError.report`): the error with its code, the violations one a line, then in
blocks what is behind the error, what it is about, what to do, and what could have been meant. What is behind the
error is told only on request.
-/

namespace RouteScaffold.RunError

/-- The line of a violation. -/
def violationLine (p : Palette) (v : Violation) : String :=
  "  - " ++ p.paint .yellow v.location.text ++ ": " ++ v.cause.message ++ "\n"

/-- The lines of what is behind an error; the first has no number. -/
def chainLines : Nat → List String → String
  | _, [] => ""
  | 0, message :: rest => s!"  {message}\n" ++ chainLines 1 rest
  | n + 1, message :: rest => s!"  {n + 1}: {message}\n" ++ chainLines (n + 2) rest

/-- The block of what is behind an error. -/
def chainBlock (p : Palette) (e : RunError) : String :=
  if e.chain.isEmpty then "" else "\n" ++ p.paint .grey "caused by:" ++ "\n" ++ chainLines 0 e.chain

/-- The block of what the error is about. -/
def contextBlock (p : Palette) (e : RunError) : String :=
  match e.context? with
  | some (name, text) => "\n  " ++ p.paint .grey name ++ " " ++ text ++ "\n"
  | none => ""

/-- The block of what to do. -/
def hintBlock (p : Palette) (e : RunError) : String :=
  match e.hint? with
  | some hint => "\n" ++ p.bold .cyan "hint:" ++ " " ++ hint ++ "\n"
  | none => ""

/-- The block of what could have been meant. -/
def suggestionBlock (p : Palette) (e : RunError) : String :=
  if e.suggestions.isEmpty then ""
  else
    "\n" ++ p.bold .yellow "suggestions:" ++ "\n" ++
      String.join (e.suggestions.map fun suggestion => s!"  - {suggestion}\n")

/-- The report of an error; `verbose` asks for what is behind it. -/
def report (p : Palette) (verbose : Bool) (e : RunError) : String :=
  p.bold .red (s!"error[{e.code}]:") ++ " " ++ e.message ++ "\n" ++
    String.join (e.violations.map (violationLine p)) ++
    (if verbose then chainBlock p e else "") ++ contextBlock p e ++ hintBlock p e ++
    suggestionBlock p e

end RouteScaffold.RunError

import RouteScaffold.Log.Settings
import RouteScaffold.Text.Category
import RouteScaffold.Files.Disk

/-!
# Filters of the log

A filter is a list of rules between commas. A rule is a level, a part of the program, or both with `=` between
them; a part may be narrowed by a span in brackets, with fields in braces. `LogFilter.fault?` finds what is wrong
with a filter.
-/

namespace RouteScaffold

/-- Why the log is not set up. -/
inductive LogError where
  | notStarted (message : String)
  | badFilter (message : String)
  | notOpened (cause : SystemError)
  deriving DecidableEq, Repr

/-- The error as a sentence. -/
def LogError.message : LogError → String
  | .notStarted message => s!"failed to initialize logging: {message}"
  | .badFilter message => s!"invalid log filter {message}"
  | .notOpened cause => s!"failed to open log file: {cause.message}"

namespace LogFilter

/-! ## 1. Levels of a filter -/

/-- What is wrong with a rule. -/
inductive Fault where
  | rule
  | level
  deriving DecidableEq, Repr

/-- The fault as a sentence. -/
def Fault.message : Fault → String
  | .rule => "invalid filter directive"
  | .level =>
    "error parsing level filter: expected one of \"off\", \"error\", \"warn\", \"info\", \"debug\", " ++
      "\"trace\", or a number 0-5"

/-- Does the text name a level, by name or by number? -/
def isLevel (text : List Char) : Bool :=
  let name := lowerAscii (String.ofList text)
  let digits := match text with
    | '+' :: digits => digits
    | digits => digits
  let number := digits.foldl (fun n c => n * 10 + (c.toNat - 48)) 0
  ["error", "warn", "info", "debug", "trace", "off"].contains name ||
    (!digits.isEmpty && digits.all Char.isDigit && number ≤ 5)

/-! ## 2. Rules -/

/-- Which part of a rule a reading is in. -/
inductive Part where
  | start
  /-- In a level or the name of a part of the program. -/
  | name
  | span
  /-- In a field; `empty` says whether it has no character yet. -/
  | field (empty : Bool)
  | fields
  /-- Behind a span. -/
  | narrowed
  | level (text : List Char)
  deriving DecidableEq, Repr

/-- May a rule begin with the character? -/
def isStart (c : Char) : Bool := c == '-' || c == ':' || c == '_' || Text.isLetterOrNumber c

/-- The part behind one more character; none if the character cannot stand there. The level is
given in reverse. -/
def Part.next? : Part → Char → Option Part
  | .start, c => if c == '[' then some .span else if isStart c then some .name else none
  | .name, c => some (if c == '=' then .level [] else if c == '[' then .span else .name)
  | .span, c => some (if c == ']' then .narrowed else if c == '\x7b' then .field true else .span)
  | .field empty, c =>
    if c == '\x7d' then (if empty then none else some .fields)
    else some (.field false)
  | .fields, c => if c == ']' then some .narrowed else none
  | .narrowed, c => if c == '=' then some (.level []) else none
  | .level text, c => some (.level (c :: text))

/-- What is wrong with a rule that ends in a part. -/
def Part.fault? : Part → Option Fault
  | .name | .narrowed => none
  | .level text => if text.isEmpty || isLevel text.reverse then none else some .level
  | _ => some .rule

/-- What is wrong with a rule, if anything. -/
def ruleFault? (rule : String) : Option Fault :=
  let final := (Text.trim rule).toList.foldl (fun part c => part.bind (·.next? c)) (some Part.start)
  match final with
  | some part => part.fault?
  | none => some .rule

/-- What is wrong with the first rule that has a fault. -/
def fault? (filter : String) : Option Fault :=
  ((filter.splitOn ",").filter (!·.isEmpty)).findSome? ruleFault?

end LogFilter

namespace LogSettings

/-- Sets up the log: the filter has to be right, and the file has to open, which makes it if it is not there. -/
def start (settings : LogSettings) (d : Disk) : Except LogError Disk :=
  match LogFilter.fault? settings.filter with
  | some fault => .error (.badFilter (settings.filter ++ ": " ++ fault.message))
  | none =>
    match settings.file with
    | none => .ok d
    | some path =>
      let content := match d.read path with
        | .ok content => content
        | .error _ => .empty
      (d.write path content).mapError .notOpened

end LogSettings

end RouteScaffold

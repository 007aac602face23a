import RouteScaffold.Environment
import RouteScaffold.Shell.Program
import RouteScaffold.Shell.Script
import RouteScaffold.ToolRun

/-!
# Running scripts

A `Machine` is a shell at work: the disk, what was written so far, the variables and the status of the last command.
`Machine.execute` runs one command, and `Machine.run` a script, up to the command that ends the shell.
-/

namespace RouteScaffold.Shell

/-! ## 1. Machines -/

/-- A shell at work. -/
structure Machine where
  disk : Disk
  output : ByteArray
  errors : ByteArray
  status : Nat
  environment : Environment
  /-- The name under which the shell runs, and its arguments. -/
  name : String
  arguments : List String
  /-- How the shell ended, if it has. -/
  ending : Option Ending

/-- Does a command run behind a status? -/
def Link.allows : Link → Nat → Bool
  | .always, _ => true
  | .afterSuccess, status => status == 0
  | .afterFailure, status => status != 0

namespace Machine

/-- The number that stands for the process of the shell. -/
def processNumber : String := "1"

/-- The value of a variable. -/
def value (m : Machine) (name : String) : String :=
  match name with
  | "$" => processNumber
  | "#" => s!"{m.arguments.length}"
  | "?" => s!"{m.status}"
  | "@" | "*" => " ".intercalate m.arguments
  | "0" => m.name
  | "PWD" => "/" ++ "/".intercalate m.disk.here
  | name =>
    match name.toNat? with
    | some n => (m.arguments[n - 1]?).getD ""
    | none => (m.environment.value? name).getD ""

/-! ## 2. Words -/

/-- Fields in the making: those that are complete, last first, and the characters of the next. -/
structure Fields where
  done : List String
  open_ : Option (List Char)

namespace Fields

/-- Characters at the end of the open field. -/
def add (f : Fields) (chars : List Char) : Fields := { f with open_ := some (f.open_.getD [] ++ chars) }

/-- Ends the open field. -/
def close (f : Fields) : Fields :=
  match f.open_ with
  | some chars => ⟨String.ofList chars :: f.done, none⟩
  | none => f

/-- Characters that are split at blanks. -/
def addSplit (f : Fields) (chars : List Char) : Fields :=
  chars.foldl (fun f c => if c == ' ' || c == '\t' || c == '\n' then f.close else f.add [c]) f

/-- Texts that stay apart; the first goes on with the open field. -/
def addApart (f : Fields) : List String → Fields
  | [] => f
  | [text] => f.add text.toList
  | text :: rest => (f.add text.toList).close.addApart rest

end Fields

/-- Puts a piece of a word into the fields. -/
def addPiece (m : Machine) (f : Fields) : Piece → Fields
  | .text chars => f.add chars
  | .variable "@" true => f.addApart m.arguments
  | .variable name true => f.add (m.value name).toList
  | .variable name false => f.addSplit (m.value name).toList

/-- The fields that a word becomes. -/
def fieldsOf (m : Machine) (w : Word) : List String :=
  -- Quoted arguments alone become as many fields as there are arguments, possibly none.
  let pieces := if w = [.text [], .variable "@" true] then w.tail else w
  (pieces.foldl m.addPiece ⟨[], none⟩).close.done.reverse

/-- The text that a word becomes. -/
def textOf (m : Machine) (w : Word) : String := " ".intercalate (m.fieldsOf w)

/-- The variable that a word sets, if it does. -/
def assignment? (w : Word) : Option (String × Word) :=
  let isName : Piece → Option Char
    | .text [c] => if Reading.isNameChar c then some c else none
    | _ => none
  let front := w.takeWhile fun piece => (isName piece).isSome
  match w.drop front.length, front.filterMap isName with
  | .text ['='] :: value, c :: rest => if c.isDigit then none else some (String.ofList (c :: rest), value)
  | _, _ => none

/-! ## 3. Outputs -/

/-- Where an output leads to. -/
inductive Sink where
  | output
  | errors
  | file (path : String)
  deriving DecidableEq, Repr

/-- Where the two outputs of a command lead to. -/
structure Sinks where
  output : Sink
  errors : Sink

/-- The machine with bytes written to a sink. -/
def writeTo (m : Machine) (sink : Sink) (bytes : ByteArray) : Machine :=
  match sink with
  | .output => { m with output := m.output ++ bytes }
  | .errors => { m with errors := m.errors ++ bytes }
  | .file path =>
    let content := match m.disk.read path with
      | .ok content => content
      | .error _ => .empty
    match m.disk.write path (content ++ bytes) with
    | .ok disk => { m with disk }
    | .error _ => m

/-- The sinks with one redirected. -/
def redirect (output : Nat) (sink : Sink) (s : Sinks) : Sinks :=
  if output = 2 then { s with errors := sink } else { s with output := sink }

/-- The line of an error of the shell. -/
def complaint (m : Machine) (text : String) : ByteArray := s!"{m.name}: 1: {text}\n".toUTF8

/-- Redirects outputs; a file is opened, which makes it. The text is about a file that does not open. -/
def redirectAll (m : Machine) (s : Sinks) : List Redirection → Machine × Except String Sinks
  | [] => (m, .ok s)
  | r :: rest =>
    let opened (path : String) (keep : Bool) : Machine × Except String Sinks :=
      let content := match m.disk.read path with
        | .ok content => if keep then content else .empty
        | .error _ => .empty
      match m.disk.write path content with
      | .ok disk => ({ m with disk } : Machine).redirectAll (redirect r.output (.file path) s) rest
      | .error .notFound => (m, .error s!"cannot create {path}: Directory nonexistent")
      | .error e => (m, .error (s!"cannot create {path}: " ++ reason e))
    match r.target with
    | .file path => opened (m.textOf path) false
    | .append path => opened (m.textOf path) true
    | .same w =>
      let sink := if m.textOf w = "2" then s.errors else s.output
      m.redirectAll (redirect r.output sink s) rest

/-! ## 4. Commands -/

/-- Changes the working directory. -/
def changeDirectory (m : Machine) (path : String) : Option Machine :=
  match m.disk.find path with
  | .ok ⟨.directory place, _⟩ => some { m with disk := { m.disk with here := place }, status := 0 }
  | _ => none

/-- The status that an argument of `exit` names. -/
def statusOf (m : Machine) : List String → Nat
  | [] => m.status
  | text :: _ => (text.toNat?.getD 2) % 256

/-- Does `kill` with these arguments end the shell itself? -/
def killsSelf (arguments : List String) : Bool :=
  arguments.contains processNumber && !arguments.contains "-0"

/-- Runs a command of which the words are known. -/
def call (m : Machine) (s : Sinks) (name : String) (arguments : List String) : Machine :=
  let fail (text : String) (status : Nat) : Machine :=
    { m.writeTo s.errors (m.complaint text) with status }
  match name with
  | ":" => { m with status := 0 }
  | "exit" => { m with ending := some (.status (m.statusOf arguments)) }
  | "kill" =>
    if killsSelf arguments then { m with ending := some .signal }
    else if arguments.contains "-0" then { m with status := 0 }
    else fail "kill: No such process" 1
  | "cd" =>
    let path := arguments.headD (m.value "HOME")
    (m.changeDirectory path).getD (fail s!"cd: can't cd to {path}" 2)
  | name =>
    match Program.named? true name with
    | none => fail s!"{name}: not found" 127
    | some program =>
      let e := program m.disk arguments
      let m := { m with disk := e.disk, status := e.status }
      (m.writeTo s.output e.output).writeTo s.errors e.errors

/-- Runs a command whose first words may set variables. -/
def execute (m : Machine) (c : Command) : Machine :=
  let settings := c.words.takeWhile fun w => (assignment? w).isSome
  let words := c.words.drop settings.length
  match m.redirectAll ⟨.output, .errors⟩ c.redirections with
  | (m, .error text) => { m with errors := m.errors ++ m.complaint text, status := 2 }
  | (m, .ok sinks) =>
    match words.flatMap m.fieldsOf with
    | [] =>
      let environment := (settings.filterMap assignment?).foldl
        (fun environment (name, value) => Keyed.set environment name (m.textOf value)) m.environment
      { m with environment, status := 0 }
    | name :: arguments => m.call sinks name arguments

/-- Runs a script. -/
def run (m : Machine) : Script → Machine
  | [] => m
  | (link, c) :: rest =>
    if m.ending.isSome then m
    else if link.allows m.status then (m.execute c).run rest
    else m.run rest

end Machine

end RouteScaffold.Shell

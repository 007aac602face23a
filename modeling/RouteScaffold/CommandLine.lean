import RouteScaffold.Environment
import RouteScaffold.Run.Request

/-!
# Command lines

The arguments of the program: two that stand on their own, switches, and options with a value. `CommandLine.read`
reads the arguments from left to right; a value is taken in when the next argument shows that nothing more belongs to
it, so the first fault that is met in this order is the one that is told. Requests for help or for the version stop
the reading at once.
-/

namespace RouteScaffold

/-! ## 1. Command lines -/

/-- When colors are used. -/
inductive ColorChoice where
  /-- On a terminal. -/
  | auto
  | always
  | never
  deriving DecidableEq, Repr

/-- The choice that a text names. -/
def ColorChoice.ofText? : String → Option ColorChoice
  | "auto" => some .auto
  | "always" => some .always
  | "never" => some .never
  | _ => none

/-- What the arguments of the program say. -/
structure CommandLine where
  project : String
  routesFile : String
  skipCreation : Bool
  noCommit : Bool
  /-- How often more reports were asked for, at most 255. -/
  verbose : Nat
  quiet : Bool
  config : Option String
  color : ColorChoice
  deriving DecidableEq, Repr

namespace CommandLine

/-- What is asked of a run in a directory. -/
def request (c : CommandLine) (around : String) : Request where
  project := c.project
  routesFile := c.routesFile
  skipCreation := c.skipCreation
  noCommit := c.noCommit
  around := around

/-- Why arguments give no command line. -/
inductive Stop where
  | help
  | version
  /-- There are no arguments at all. -/
  | nothing
  /-- Two arguments exclude each other, or one stands twice. -/
  | conflict
  | missing
  /-- A value is missing or is not allowed. -/
  | badValue
  | unknown
  /-- A switch is given a value. -/
  | needlessValue
  deriving DecidableEq, Repr

/-- The status with which the program ends. -/
def Stop.status : Stop → Nat
  | .help | .version => 0
  | _ => 2

/-! ## 2. Names -/

/-- A switch without a value. -/
inductive Switch where
  | skipCreation
  | noCommit
  | verbose
  | quiet
  | help
  | version
  deriving DecidableEq, Repr

/-- What takes a value. -/
inductive Slot where
  | project
  | routesFile
  | config
  | color
  deriving DecidableEq, Repr

/-- What a name behind dashes means. -/
inductive Meaning where
  | switch (s : Switch)
  | option (s : Slot)
  deriving DecidableEq, Repr

/-- What a long name means. -/
def long? : String → Option Meaning
  | "skip-creation" => some (.switch .skipCreation)
  | "no-commit" => some (.switch .noCommit)
  | "verbose" => some (.switch .verbose)
  | "quiet" => some (.switch .quiet)
  | "config" => some (.option .config)
  | "color" => some (.option .color)
  | "help" => some (.switch .help)
  | "version" => some (.switch .version)
  | _ => none

/-- What a short name means. -/
def short? : Char → Option Meaning
  | 'v' => some (.switch .verbose)
  | 'q' => some (.switch .quiet)
  | 'c' => some (.option .config)
  | 'h' => some (.switch .help)
  | 'V' => some (.switch .version)
  | _ => none

/-! ## 3. Reading -/

/-- How far the arguments are read. -/
structure Reading where
  project : Option String
  routesFile : Option String
  config : Option String
  color : Option ColorChoice
  skipCreation : Bool
  noCommit : Bool
  verbose : Nat
  quiet : Bool
  /-- What the last argument began, with its value if it is there already. -/
  pending : Option (Slot × Option String)
  /-- Does the next argument belong to it? -/
  awaiting : Bool
  /-- How many arguments stood on their own. -/
  position : Nat
  /-- Do all further arguments stand on their own? -/
  trailing : Bool

namespace Reading

/-- Before the first argument. -/
def start : Reading := ⟨none, none, none, none, false, false, 0, false, none, false, 0, false⟩

/-- The greatest count of a switch. -/
def countLimit : Nat := 255

/-- Takes in a path, which may not be empty. -/
def path (text : String) : Except Stop String := if text.isEmpty then .error .badValue else .ok text

/-- Takes in a value. An option stands at most once. -/
def fill (r : Reading) (slot : Slot) (text : String) : Except Stop Reading :=
  match slot with
  | .project => .ok { r with project := some text }
  | .routesFile => do .ok { r with routesFile := some (← path text) }
  | .config => do
    if r.config.isSome then throw .conflict
    .ok { r with config := some (← path text) }
  | .color =>
    if r.color.isSome then .error .conflict
    else
      match ColorChoice.ofText? text with
      | some color => .ok { r with color := some color }
      | none => .error .badValue

/-- Takes in what the last argument began. -/
def settle (r : Reading) : Except Stop Reading :=
  match r.pending with
  | none => .ok r
  | some (_, none) => .error .badValue
  | some (slot, some text) => { r with pending := none, awaiting := false }.fill slot text

/-- Takes in a switch. Only the switch for more reports may stand more than once. -/
def turn (r : Reading) (s : Switch) : Except Stop Reading := do
  let r ← r.settle
  match s with
  | .help => throw .help
  | .version => throw .version
  | .verbose => pure { r with verbose := min (r.verbose + 1) countLimit }
  | .skipCreation => if r.skipCreation then throw .conflict else pure { r with skipCreation := true }
  | .noCommit => if r.noCommit then throw .conflict else pure { r with noCommit := true }
  | .quiet => if r.quiet then throw .conflict else pure { r with quiet := true }

/-- Begins an option whose value is the next argument. -/
def await (r : Reading) (slot : Slot) : Except Stop Reading := do
  let r ← r.settle
  pure { r with pending := some (slot, none), awaiting := true }

/-- Takes in an option with its value. -/
def attach (r : Reading) (slot : Slot) (text : String) : Except Stop Reading := do
  (← r.settle).fill slot text

/-- Reads a long name with the value behind `=`, if there is one. -/
def readLong (r : Reading) (name : String) (value : Option String) : Except Stop Reading :=
  match long? name, value with
  | none, _ => .error .unknown
  | some (.switch _), some _ => .error .needlessValue
  | some (.switch s), none => r.turn s
  | some (.option slot), some text => r.attach slot text
  | some (.option slot), none => r.await slot

/-- Reads short names side by side; what follows an option is its value, with or without `=`. -/
def readShort (r : Reading) : List Char → Except Stop Reading
  | [] => .ok r
  | c :: rest =>
    match short? c with
    | none => .error .unknown
    | some (.switch s) => do (← r.turn s).readShort rest
    | some (.option slot) =>
      match rest with
      | [] => r.await slot
      | '=' :: value => r.attach slot (String.ofList value)
      | value => r.attach slot (String.ofList value)

/-- Reads an argument that stands on its own. -/
def readAlone (r : Reading) (text : String) : Except Stop Reading :=
  let begin_ (slot : Slot) : Except Stop Reading := do
    let r ← r.settle
    pure { r with pending := some (slot, some text), awaiting := false, position := r.position + 1 }
  match r.position with
  | 0 => begin_ .project
  | 1 => begin_ .routesFile
  | _ => .error .unknown

/-- Reads an argument. -/
def step (r : Reading) (text : String) : Except Stop Reading :=
  if r.trailing then r.readAlone text
  else
    match text.toList with
    | ['-', '-'] => .ok { r with trailing := true }
    | '-' :: '-' :: long =>
      let name := long.takeWhile (· != '=')
      let value := match long.drop name.length with
        | '=' :: value => some (String.ofList value)
        | _ => none
      r.readLong (String.ofList name) value
    | '-' :: c :: short => r.readShort (c :: short)
    | _ =>
      match r.awaiting, r.pending with
      | true, some (slot, _) => .ok { r with pending := some (slot, some text), awaiting := false }
      | _, _ => r.readAlone text

/-- Is anything given, by an argument or by a variable? -/
def isAny (r : Reading) : Bool :=
  r.project.isSome || r.routesFile.isSome || r.config.isSome || r.color.isSome ||
    r.skipCreation || r.noCommit || r.quiet || 0 < r.verbose

/-- The command line that was read. -/
def finish (r : Reading) : Except Stop CommandLine :=
  if !r.isAny then .error .nothing
  else if r.quiet && 0 < r.verbose then .error .conflict
  else
    match r.project, r.routesFile with
    | some project, some routesFile =>
      .ok ⟨project, routesFile, r.skipCreation, r.noCommit, r.verbose, r.quiet, r.config,
        r.color.getD .auto⟩
    | _, _ => .error .missing

end Reading

/-- The variable that names a configuration when no option does. -/
def configVariable : String := "MAGIC_REACT_CONFIG"

/-- Reads the arguments of the program. -/
def read (environment : Environment) (arguments : List String) : Except Stop CommandLine := do
  let r ← arguments.foldlM Reading.step Reading.start
  let r ← r.settle
  match r.config, environment.value? configVariable with
  | none, some text => (← r.fill .config text).finish
  | _, _ => r.finish

end CommandLine

end RouteScaffold

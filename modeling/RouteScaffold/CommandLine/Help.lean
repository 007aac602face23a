import RouteScaffold.CommandLine

/-!
# Help

The help of the program: its name and version, how it is used, and what each argument means, in two columns on lines
of limited width. A line is broken where the next word would not fit.
-/

namespace RouteScaffold.CommandLine.Help

/-! ## 1. Lines -/

/-- The width of a line. -/
def width : Nat := 100

/-- A word and the blanks behind it. -/
structure Word where
  text : List Char
  blanks : Nat

/-- The words of a text. -/
def words : List Char → List Word
  | [] => []
  | c :: rest =>
    match words rest with
    | [] => if c = ' ' then [⟨[], 1⟩] else [⟨[c], 0⟩]
    | w :: more =>
      if c = ' ' then (if w.text.isEmpty then ⟨[], w.blanks + 1⟩ :: more else ⟨[], 1⟩ :: w :: more)
      else ⟨c :: w.text, w.blanks⟩ :: more

/-- Words one after the other from a column on, with a break before a word that goes beyond `limit`. `blanks` are
those behind the word before; the first word of a line always stands. -/
def fill (limit indent : Nat) : Nat → Nat → Bool → List Word → List Char
  | _, _, _, [] => []
  | column, blanks, isFirst, w :: rest =>
    if !isFirst && limit < column + w.text.length then
      '\n' :: List.replicate indent ' ' ++ w.text ++
        fill limit indent (w.text.length + w.blanks) w.blanks false rest
    else
      List.replicate blanks ' ' ++ w.text ++
        fill limit indent (column + w.text.length + w.blanks) w.blanks false rest

/-- A text in a column that begins at `indent`. -/
def column (indent : Nat) (text : String) : String :=
  String.ofList (fill (width - indent) indent 0 0 true (words text.toList))

/-! ## 2. Arguments -/

/-- A row of the help: how an argument is written, and what it means. -/
structure Row where
  written : String
  meaning : String

/-- The rows of the arguments that stand on their own. -/
def alone : List Row :=
  [⟨"<PROJECT_NAME>", "Name of the project directory to create"⟩,
   ⟨"<ROUTES_FILE>", "Route specification (JSON, or YAML by extension)"⟩]

/-- The rows of the others. `config` is the value of the variable that names a configuration. -/
def options (config : String) : List Row :=
  [⟨"    --skip-creation", "Use an existing project directory instead of creating one"⟩,
   ⟨"    --no-commit", "Do not commit the generated files"⟩,
   ⟨"-v, --verbose...", "Increase verbosity level"⟩,
   ⟨"-q, --quiet", "Suppress non-error output"⟩,
   ⟨"-c, --config <CONFIG>", s!"Path to configuration file [env: {configVariable}={config}]"⟩,
   ⟨"    --color <COLOR>",
    "When to use terminal colors [default: auto] [possible values: auto, always, never]"⟩,
   ⟨"-h, --help", "Print help"⟩,
   ⟨"-V, --version", "Print version"⟩]

/-- Rows below each other. The meanings begin two columns behind the longest argument. -/
def block (rows : List Row) : String :=
  let longest := (rows.map (·.written.length)).foldl max 0
  String.join (rows.map fun row =>
    let blanks := String.ofList (List.replicate (longest - row.written.length + 2) ' ')
    "  " ++ row.written ++ blanks ++ column (longest + 4) row.meaning ++ "\n")

/-! ## 3. The help -/

/-- The name of the program. -/
def programName : String := "magic-react"

/-- The version of the program. -/
def programVersion : String := "0.1.0"

/-- The line that tells the version. -/
def versionLine : String := s!"{programName} {programVersion}\n"

/-- The help of the program. -/
def text (environment : Environment) : String :=
  versionLine ++ "Scaffold a React project from a route specification\n\n" ++
    s!"Usage: {programName} [OPTIONS] <PROJECT_NAME> <ROUTES_FILE>\n\n" ++
    "Arguments:\n" ++ block alone ++ "\nOptions:\n" ++
    block (options ((environment.value? configVariable).getD ""))

/-- What is told about arguments that give no command line. -/
def complaint : Stop → String
  | .conflict => "an argument cannot be used here, or cannot be used twice"
  | .missing => "the following required arguments were not provided: <PROJECT_NAME> <ROUTES_FILE>"
  | .badValue => "a value is missing or not allowed"
  | .unknown => "unexpected argument found"
  | .needlessValue => "unexpected value for a switch found"
  | _ => ""

/-- What the program writes when the reading of arguments stopped: to its output and for errors. -/
def answer (environment : Environment) : Stop → String × String
  | .help => (text environment, "")
  | .version => (versionLine, "")
  | .nothing => ("", text environment)
  | stop => ("", "error: " ++ complaint stop ++ "\n\nFor more information, try '--help'.\n")

end RouteScaffold.CommandLine.Help

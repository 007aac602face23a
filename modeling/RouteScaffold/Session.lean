import RouteScaffold.CommandLine.Help
import RouteScaffold.Config.Load
import RouteScaffold.EnvFile
import RouteScaffold.Log.Filter
import RouteScaffold.Run.Stage
import RouteScaffold.RunError.Report

/-!
# Sessions

A session is one use of the program from the arguments to the status with which it ends (`Session.run`): it reads the
arguments, the environment files and the configuration, sets up the log, makes the run, and prints on the way. It
ends with the status of success exactly when help or the version was asked for or the run succeeded.
-/

namespace RouteScaffold

/-! ## 1. Sessions -/

/-- What the program finds when it starts. -/
structure Session (σ : Type) where
  environment : Environment
  workspace : Git.Workspace σ
  /-- The path of the working directory. -/
  directory : String
  libraries : Libraries σ
  /-- Who runs tools, by the variables that they see. -/
  runner : Environment → Runner σ

/-- What the program leaves behind when it ends. -/
structure SessionEnd (σ : Type) where
  status : Nat
  output : String
  errors : String
  workspace : Git.Workspace σ

namespace Session

variable {σ : Type}

/-! ## 2. What is printed on the way -/

/-- The banner. -/
def banner : String :=
  "\n" ++
    "                        _                                  _\n" ++
    "  _ __ ___   __ _  __ _(_) ___       _ __ ___  __ _  ___| |_\n" ++
    " | '_ ` _ \\ / _` |/ _` | |/ __|_____| '__/ _ \\/ _` |/ __| __|\n" ++
    " | | | | | | (_| | (_| | | (_|_____| | |  __/ (_| | (__| |_\n" ++
    " |_| |_| |_|\\__,_|\\__, |_|\\___|    |_|  \\___|\\__,_|\\___|\\__|\n" ++
    "                  |___/\n"

/-- The banner with the version. -/
def opening (p : Palette) : String :=
  p.bold .cyan banner ++ "\n  v" ++ CommandLine.Help.programVersion ++ "\n\n"

/-- The line that an event puts on the output. -/
def outputLine (p : Palette) : Event → String
  | .step title => p.bold .cyan "›" ++ " " ++ title ++ "\n"
  | .warning message => p.paint .yellow ("warning: " ++ message) ++ "\n"
  | .toolLine text => p.paint .green text ++ "\n"
  | .invoked _ | .toolError _ => ""

/-- The line that an event puts among the errors. -/
def errorLine (p : Palette) : Event → String
  | .toolError text => p.paint .red text ++ "\n"
  | _ => ""

/-- Are the colors of texts taken away by a variable? -/
def isMuted (environment : Environment) : Bool :=
  match environment.value? "NO_COLOR" with
  | some text => !text.isEmpty
  | none => false

/-- How colors are written: only on request, since nothing is printed to a terminal. -/
def palette (environment : Environment) (choice : ColorChoice) : Palette :=
  match choice with
  | .always => if isMuted environment then .muted else .colored
  | .auto | .never => .plain

/-! ## 3. The course of a session -/

/-- The settings of the log for a command line. -/
def logSettings (c : CommandLine) (environment : Environment) : LogSettings :=
  ((LogSettings.ofVariables environment.value?).withVerbosity c.verbose c.quiet).withAnsi
    (c.color = .always)

/-- What a session does before its run: the variables of the environment files, the configuration and the disk with
the log on it. -/
def setUp (s : Session σ) (c : CommandLine) : Environment × Except RunError (Config × Disk) :=
  let (environment, loaded) := EnvFile.load s.workspace.disk s.environment s.directory
  (environment, do
    let _ ← loaded.mapError .environment
    let config ← (Config.load s.libraries.patterns s.workspace.disk environment s.directory c.config).mapError .config
    let disk ← ((logSettings c environment).start s.workspace.disk).mapError .log
    pure (config, disk))

/-- What a command line comes to: the variables, how the run ended, and how far it came. -/
def make (s : Session σ) (c : CommandLine) : Environment × Except RunError Plan × Progress σ :=
  match s.setUp c with
  | (environment, .error e) => (environment, .error e, .start s.workspace)
  | (environment, .ok (config, disk)) =>
    (environment,
      ((c.request s.directory).run config s.libraries (s.runner environment)).run (.start { s.workspace with disk }))

/-- The status of a run. -/
def statusOf : Except RunError Plan → Nat
  | .ok _ => 0
  | .error e => e.status

/-- What is printed at the end: on the output and among the errors. -/
def closing (c : CommandLine) (p : Palette) (progress : Progress σ) : Except RunError Plan → String × String
  | .ok plan => ((plan.summary progress).text p ++ "\n", "")
  | .error e => ("", e.report p (0 < c.verbose))

/-- Carries out a command line. -/
def carryOut (s : Session σ) (c : CommandLine) : SessionEnd σ :=
  let (environment, result, progress) := s.make c
  -- Colors are decided at the first colored text, which is the banner unless that is left out.
  let p := palette (if c.quiet then environment else s.environment) c.color
  let (output, errors) := closing c p progress result
  let loud (text : String) : String := if c.quiet then "" else text
  { status := statusOf result
    output := loud (opening p ++ String.join (progress.events.map (outputLine p)) ++ output)
    errors := loud (String.join (progress.events.map (errorLine p))) ++ errors
    workspace := progress.workspace }

/-- A whole session. -/
def run (s : Session σ) (arguments : List String) : SessionEnd σ :=
  match CommandLine.read s.environment arguments with
  | .ok c => s.carryOut c
  | .error stop =>
    let (output, errors) := CommandLine.Help.answer s.environment stop
    ⟨stop.status, output, errors, s.workspace⟩

end Session

end RouteScaffold

import RouteScaffold.Shell.Machine

/-!
# Tools that are at hand

The `Runner` of a machine on which a shell and a few small programs are installed (`Shell.runner`). A tool starts in
its directory; its name is looked up among the programs, or on the disk if it is a path.
-/

namespace RouteScaffold.Shell

/-! ## 1. The shell as a program -/

/-- What a process leaves behind. -/
structure Process where
  disk : Disk
  output : ByteArray
  errors : ByteArray
  ending : Ending

/-- The process of a shell that runs a text. -/
def runText (d : Disk) (environment : Environment) (name text : String) (arguments : List String) :
    Process :=
  match Script.read? text with
  | none => ⟨d, .empty, s!"{name}: 1: Syntax error\n".toUTF8, .status 2⟩
  | some script =>
    let m := Machine.run ⟨d, .empty, .empty, 0, environment, name, arguments, none⟩ script
    ⟨m.disk, m.output, m.errors, m.ending.getD (.status m.status)⟩

/-- The process of a shell with arguments: a text behind `-c`, or else a file, or nothing. -/
def runShell (d : Disk) (environment : Environment) (name : String) : List String → Process
  | [] => ⟨d, .empty, .empty, .status 0⟩
  | ["-c"] => ⟨d, .empty, s!"{name}: 0: -c requires an argument\n".toUTF8, .status 2⟩
  | "-c" :: text :: arguments => runText d environment (arguments.headD name) text arguments.tail
  | path :: arguments =>
    match d.readText path with
    | .ok text => runText d environment path text arguments
    | .error _ => ⟨d, .empty, s!"{name}: 0: cannot open {path}: No such file\n".toUTF8, .status 2⟩

/-! ## 2. Installed programs -/

/-- What can be started. -/
inductive Installed where
  | shell
  | program (p : Program)

/-- What is installed under a name. -/
def installed? (name : String) : Option Installed :=
  if ["sh", "dash"].contains name then some .shell else (Program.named? false name).map .program

/-- The directories of installed programs. -/
def directories : List String := ["/usr/bin/", "/bin/"]

/-- What is installed under a path. -/
def installedAt? (path : String) : Option Installed :=
  directories.findSome? fun directory =>
    if path.startsWith directory then installed? (String.ofList (path.toList.drop directory.length))
    else none

/-- What a tool's name starts. A file of the disk cannot be started. -/
def find (d : Disk) (name : String) : Except SystemError Installed :=
  if name.toList.contains '/' then
    match installedAt? name with
    | some i => .ok i
    | none => do
      let e ← d.find name
      match e.found with
      | .absent _ => .error .notFound
      | .directory _ => .error (.os 13)
      | .file .. => .error (if e.slash then .notDirectory else .os 13)
  else
    match installed? name with
    | some i => .ok i
    | none => .error .notFound

/-- The disk seen from another directory. -/
def enter (d : Disk) (path : String) : Except SystemError Disk := do
  let e ← d.find path
  match e.found with
  | .directory place => .ok { d with here := place }
  | .file .. => .error .notDirectory
  | .absent _ => .error .notFound

/-! ## 3. Running tools -/

/-- Starts a tool and runs it to its end. -/
def start (environment : Environment) (d : Disk) (i : Invocation) : Except SystemError Process := do
  if (i.program :: i.directory :: i.arguments).any fun text => text.toList.contains (Char.ofNat 0) then
    throw (.other "nul byte found in provided data")
  let inside ← enter d i.directory
  match ← find inside i.program with
  | .shell => pure (runShell inside environment i.program i.arguments)
  | .program p =>
    let e := p inside i.arguments
    pure ⟨e.disk, e.output, e.errors, .status e.status⟩

/-- Runs tools with some variables. -/
def runner {σ : Type} (environment : Environment) : Runner σ := fun w i =>
  match start environment w.disk i with
  | .ok p => ⟨{ w with disk := { p.disk with here := w.disk.here } }, p.output, p.errors, .ok p.ending⟩
  | .error e => ⟨w, .empty, .empty, .error e⟩

end RouteScaffold.Shell

import RouteScaffold.Files.Filing

/-!
# Small programs

The programs that a script can use. A program sees the disk and its arguments, and has an `Effect`: the disk behind
it, what it wrote to its two outputs, and its status. `Program.named?` gives the program of a name.
-/

namespace RouteScaffold.Shell

/-! ## 1. Effects -/

/-- What a program does. -/
structure Effect where
  disk : Disk
  output : ByteArray
  errors : ByteArray
  status : Nat

/-- A program. -/
abbrev Program := Disk → List String → Effect

namespace Effect

/-- A program that only ends. -/
def quiet (d : Disk) (status : Nat) : Effect := ⟨d, .empty, .empty, status⟩

/-- A program that writes. -/
def prints (d : Disk) (output : ByteArray) : Effect := ⟨d, output, .empty, 0⟩

/-- A program that fails with a line about it. -/
def complains (d : Disk) (line : String) (status : Nat) : Effect :=
  ⟨d, .empty, (line ++ "\n").toUTF8, status⟩

/-- One effect behind another; the status is that of the first that failed. -/
def andThen (e : Effect) (next : Disk → Effect) : Effect :=
  let f := next e.disk
  ⟨f.disk, e.output ++ f.output, e.errors ++ f.errors, if e.status = 0 then f.status else e.status⟩

end Effect

/-- The texts of the errors without their numbers. -/
def reason : SystemError → String
  | .os code => (SystemError.texts.lookup code).getD s!"Unknown error {code}"
  | .other message => message

/-! ## 2. Writing -/

/-- The value of an octal digit. -/
def octal? (c : Char) : Option Nat := if '0' ≤ c ∧ c ≤ '7' then some (c.toNat - 48) else none

/-- Up to `n` octal digits at the front of a text: their number and the rest. -/
def takeOctal : Nat → Nat → List Char → Nat × List Char
  | 0, value, rest => (value, rest)
  | _ + 1, value, [] => (value, [])
  | n + 1, value, c :: rest =>
    match octal? c with
    | some digit => takeOctal n (value * 8 + digit) rest
    | none => (value, c :: rest)

/-- The character that a letter behind a backslash means. -/
def escaped? (c : Char) : Option Char :=
  match c with
  | 'a' => some '\x07'
  | 'b' => some '\x08'
  | 'f' => some '\x0c'
  | 'n' => some '\n'
  | 'r' => some '\r'
  | 't' => some '\t'
  | 'v' => some '\x0b'
  | '\\' => some '\\'
  | _ => none

/-- The bytes of a character. -/
def bytesOf (c : Char) : ByteArray := (String.ofList [c]).toUTF8

/-- One byte. -/
def byte (n : Nat) : ByteArray := ⟨#[UInt8.ofNat n]⟩

/-- The bytes of a text in which `echo` replaces what stands behind backslashes; `fuel` bounds its length. -/
def echoBytes : Nat → List Char → ByteArray
  | 0, _ => .empty
  | _, [] => .empty
  | fuel + 1, '\\' :: '0' :: rest =>
    let (value, rest) := takeOctal 3 0 rest
    byte value ++ echoBytes fuel rest
  | fuel + 1, '\\' :: c :: rest =>
    match escaped? c with
    | some e => bytesOf e ++ echoBytes fuel rest
    | none => bytesOf '\\' ++ bytesOf c ++ echoBytes fuel rest
  | fuel + 1, c :: rest => bytesOf c ++ echoBytes fuel rest

/-- Writes its arguments on a line; with `-n` first, without the line end. -/
def echo (escapes : Bool) : Program := fun d arguments =>
  let (lineEnd, words) := match arguments with
    | "-n" :: words => ("", words)
    | words => ("\n", words)
  let text := " ".intercalate words ++ lineEnd
  .prints d (if escapes then echoBytes (text.length + 1) text.toList else text.toUTF8)

/-- Writes a format once: the bytes, and the arguments that are left; `fuel` bounds the length of the format. -/
def formatOnce : Nat → List Char → List String → ByteArray × List String
  | 0, _, arguments => (.empty, arguments)
  | _, [], arguments => (.empty, arguments)
  | fuel + 1, '\\' :: c :: rest, arguments =>
    let (front, rest) : ByteArray × List Char :=
      match octal? c, escaped? c with
      | some _, _ =>
        let (value, rest) := takeOctal 3 0 (c :: rest)
        (byte value, rest)
      | none, some e => (bytesOf e, rest)
      | none, none => (bytesOf '\\' ++ bytesOf c, rest)
    let (back, arguments) := formatOnce fuel rest arguments
    (front ++ back, arguments)
  | fuel + 1, '%' :: '%' :: rest, arguments =>
    let (back, arguments) := formatOnce fuel rest arguments
    (bytesOf '%' ++ back, arguments)
  | fuel + 1, '%' :: c :: rest, arguments =>
    let value := arguments.headD (if c == 'd' || c == 'i' then "0" else "")
    let (back, arguments) := formatOnce fuel rest arguments.tail
    (value.toUTF8 ++ back, arguments)
  | fuel + 1, c :: rest, arguments =>
    let (back, arguments) := formatOnce fuel rest arguments
    (bytesOf c ++ back, arguments)

/-- Writes a format as often as there are arguments for it; `fuel` bounds how often. -/
def formatAll (format : List Char) : Nat → List String → ByteArray
  | 0, _ => .empty
  | fuel + 1, arguments =>
    let (text, rest) := formatOnce (format.length + 1) format arguments
    if rest.isEmpty || rest.length = arguments.length then text else text ++ formatAll format fuel rest

/-- Writes its first argument as a format with the others put in. -/
def printf : Program := fun d arguments =>
  match arguments with
  | [] => .complains d "printf: usage: printf format [arg ...]" 2
  | format :: arguments => .prints d (formatAll format.toList (arguments.length + 1) arguments)

/-- Writes the working directory. -/
def pwd : Program := fun d _ => .prints d ("/" ++ "/".intercalate d.here ++ "\n").toUTF8

/-! ## 3. Files -/

/-- An effect for each of some paths. -/
def forEach (paths : List String) (f : String → Disk → Effect) (d : Disk) : Effect :=
  paths.foldl (fun e path => e.andThen (f path)) (.quiet d 0)

/-- The effect of a change of the disk, or a line that says why it is none. -/
def changed (d : Disk) (line : String) (status : Nat) : Except SystemError Disk → Effect
  | .ok d => .quiet d 0
  | .error e => .complains d (line ++ ": " ++ reason e) status

/-- Splits arguments into switches and others. -/
def switches (arguments : List String) : List String × List String :=
  arguments.partition fun text => text.startsWith "-" && text != "-"

/-- Makes directories; with `-p`, those on the way too. -/
def mkdir : Program := fun d arguments =>
  let (options, paths) := switches arguments
  forEach paths (fun path d =>
    let line := s!"mkdir: cannot create directory ‘{path}’"
    if options.contains "-p" then
      match Filing.makeAll (path.length + 1) path d with
      | (.ok (), d) => .quiet d 0
      | (.error e, d) => .complains d (line ++ ": " ++ reason e) 1
    else changed d line 1 (d.makeDirectory path)) d

/-- Makes files that are not there. -/
def touch : Program := fun d arguments =>
  forEach (switches arguments).2 (fun path d =>
    if d.isThere path then .quiet d 0
    else changed d s!"touch: cannot touch '{path}'" 1 (d.write path .empty)) d

/-- Writes the content of files. -/
def cat : Program := fun d arguments =>
  forEach (switches arguments).2 (fun path d =>
    match d.read path with
    | .ok content => .prints d content
    | .error e => .complains d (s!"cat: {path}: " ++ reason e) 1) d

/-- Removes files; with `-r`, directories too; with `-f`, without complaint about what is not there. -/
def rm : Program := fun d arguments =>
  let (options, paths) := switches arguments
  let has (c : Char) : Bool := options.any (·.toList.contains c)
  forEach paths (fun path d =>
    match d.find path with
    | .ok ⟨.directory place, _⟩ =>
      if has 'r' then .quiet (d.erase place) 0
      else .complains d s!"rm: cannot remove '{path}': Is a directory" 1
    | _ =>
      if has 'f' && !d.isThere path then .quiet d 0
      else changed d s!"rm: cannot remove '{path}'" 1 (d.remove path)) d

/-! ## 4. Tests -/

/-- Does a condition hold? None if it is no condition. -/
def holds? (d : Disk) : List String → Option Bool
  | [] => some false
  | [text] => some (!text.isEmpty)
  | ["!", text] => some text.isEmpty
  | ["-n", text] => some (!text.isEmpty)
  | ["-z", text] => some text.isEmpty
  | ["-e", path] => some (d.isThere path)
  | ["-f", path] => some (d.isFile path)
  | ["-d", path] => some (d.isDirectory path)
  | ["-s", path] => some (match d.read path with
    | .ok content => 0 < content.size
    | .error _ => d.isDirectory path)
  | [a, "=", b] => some (a == b)
  | [a, "!=", b] => some (a != b)
  | [a, "-eq", b] => some (a.toInt? == b.toInt?)
  | [a, "-ne", b] => some (a.toInt? != b.toInt?)
  | ["!", switch, path] => (holds? d [switch, path]).map (!·)
  | _ => none

/-- Tests a condition. -/
def test : Program := fun d arguments =>
  match holds? d arguments with
  | some true => .quiet d 0
  | some false => .quiet d 1
  | none => .quiet d 2

/-! ## 5. Names -/

/-- The program of a name. `inShell` says whether the shell itself serves it. -/
def Program.named? (inShell : Bool) (name : String) : Option Program :=
  match name with
  | "true" => some fun d _ => .quiet d 0
  | "false" => some fun d _ => .quiet d 1
  | "sleep" => some fun d _ => .quiet d 0
  | "echo" => some (echo inShell)
  | "printf" => some printf
  | "pwd" => some pwd
  | "mkdir" => some mkdir
  | "touch" => some touch
  | "cat" => some cat
  | "rm" => some rm
  | "test" => some test
  | "[" => some fun d arguments => test d arguments.dropLast
  | _ => none

end RouteScaffold.Shell

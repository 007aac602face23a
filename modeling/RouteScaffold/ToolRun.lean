import RouteScaffold.Git.Workspace
import RouteScaffold.Invocation

/-!
# Running tools

A tool is started with its invocation, changes the disk and the repositories on it, writes to its two outputs and ends.
What tools do is left to a `Runner`. `linesOf` says which lines of an output are shown, and `ToolError.ofEnding?` which
runs have failed.
-/

namespace RouteScaffold

/-! ## 1. Runs of tools -/

/-- How a started process ended. -/
inductive Ending where
  | status (code : Int)
  /-- A signal ended the process. -/
  | signal
  deriving DecidableEq, Repr

/-- What came of a tool: what it changed, what it wrote, and how it ended, or why it did not start. -/
structure ToolRun (σ : Type) where
  workspace : Git.Workspace σ
  output : ByteArray
  errors : ByteArray
  ending : Except SystemError Ending

/-- Who runs tools. -/
abbrev Runner (σ : Type) := Git.Workspace σ → Invocation → ToolRun σ

/-! ## 2. Failures -/

/-- Why a stage failed that a tool serves: the name of the stage, the command as it is typed, and what came of it. -/
inductive ToolError where
  | notStarted (stage command : String) (cause : SystemError)
  | failed (stage command : String) (ending : Ending)
  deriving DecidableEq, Repr

/-- The ending in words. -/
def Ending.text : Ending → String
  | .status code => s!"status {code}"
  | .signal => "a signal"

namespace ToolError

/-- The name of the stage. -/
def stage : ToolError → String
  | .notStarted stage _ _ => stage
  | .failed stage _ _ => stage

/-- The error as a sentence. -/
def message : ToolError → String
  | .notStarted stage command cause => s!"{stage}: could not start `{command}`: {cause.message}"
  | .failed stage command ending => s!"{stage}: `{command}` exited with {ending.text}"

/-- The failure of a run, if it has failed: only the status zero is success. -/
def ofEnding? (i : Invocation) : Except SystemError Ending → Option ToolError
  | .error cause => some (.notStarted i.stage.name i.display cause)
  | .ok (.status 0) => none
  | .ok ending => some (.failed i.stage.name i.display ending)

end ToolError

/-! ## 3. Lines of an output -/

namespace ToolRun

/-- The next line of some bytes without its line end, and the bytes behind it. Bytes behind the last line end are a line
    too. -/
def nextLine? (bytes : List UInt8) : Option (List UInt8 × List UInt8) :=
  if bytes.isEmpty then none
  else
    let line := bytes.takeWhile (· != 10)
    match bytes.dropWhile (· != 10) with
    | [] => some (line, [])
    -- A carriage return right before the line feed belongs to the line end.
    | _ :: rest => some (if line.getLast? == some 13 then line.dropLast else line, rest)

theorem length_nextLine? {bytes line rest : List UInt8} (h : nextLine? bytes = some (line, rest)) :
    rest.length < bytes.length := by
  have hsum := congrArg List.length (List.takeWhile_append_dropWhile (p := fun b : UInt8 => b != 10) (l := bytes))
  rw [List.length_append] at hsum
  unfold nextLine? at h
  split at h
  · cases h
  · next hne =>
    dsimp only at h
    split at h
    · cases h
      exact List.length_pos_iff.mpr fun e => hne (by rw [e]; rfl)
    · next hdrop =>
      rw [hdrop, List.length_cons] at hsum
      cases h
      omega

/-- The text of a line, if it is one. -/
def text? (line : List UInt8) : Option String := String.fromUTF8? ⟨line.toArray⟩

/-- Hands on the lines of some bytes one after the other. It stops at a line that is no text, behind which the bytes are
    left unread. -/
def forward (bytes : List UInt8) : List String × List UInt8 :=
  match _h : nextLine? bytes with
  | none => ([], [])
  | some (line, rest) =>
    match text? line with
    | none => ([], rest)
    | some text =>
      let (texts, unread) := forward rest
      (text :: texts, unread)
termination_by bytes.length
decreasing_by exact length_nextLine? ‹_›

/-- The lines of an output that are shown. -/
def linesOf (bytes : ByteArray) : List String := (forward bytes.toList).1

end ToolRun

end RouteScaffold

import DataflowEditor.Json.Printer
import DataflowEditor.Program.CommandLine
import DataflowEditor.Service.Daemon
import DataflowEditor.Toolkit.Pipe

/-! # Running the program

The program starts a worker and greets it. Then it either prints which transformations apply to one
graph, or serves editors until it is stopped. A listing goes to the output whether it succeeds or
not; what keeps the program from coming so far is reported with its causes.
-/

namespace DataflowEditor

/-- What keeps the program from its work, with the errors behind it, the nearest first. -/
structure ProgramError where
  message : String
  causes : List String
deriving DecidableEq, Inhabited

namespace ProgramError

/-- The lines of a text, each but the first behind a margin. -/
def withMargin (margin text : String) : String :=
  ("\n" ++ margin).intercalate ((text.toList.splitOn '\n').map String.ofList)

/-- A cause among several, with its number in five columns. -/
def numbered (number : Nat) (cause : String) : String :=
  let digits := Text.decimal number
  String.ofList (List.replicate (5 - digits.length) ' ') ++ digits ++ ": " ++
    withMargin "       " cause

def causesText : List String → String
  | [] => ""
  | [cause] => "\n\nCaused by:\n    " ++ withMargin "    " cause
  | causes =>
    "\n\nCaused by:\n" ++ "\n".intercalate (causes.zipIdx.map fun (cause, n) => numbered n cause)

def report (error : ProgramError) : String :=
  "Error: " ++ error.message ++ causesText error.causes

end ProgramError

/-- The error as a cause, with what caused it in turn. -/
def ToolkitFault.causes (error : ToolkitFault) : List String :=
  match error with
  | .decode fault => [error.message, fault.message]
  | .file fault => [error.message, fault.message]
  | _ => [error.message]

/-- What the program finds around it: workers, files and its input. -/
structure Surroundings (τ : Type) where
  start : Settings → Except FileFault τ
  files : FileLookup
  input : List UInt8

namespace Program

variable {τ : Type} [Channel τ]

/-- Start the worker and greet it. -/
def begin (surroundings : Surroundings τ) (settings : Settings) :
    Except ProgramError (Daemon τ) := do
  match surroundings.start settings with
  | .error fault =>
    .error ⟨"Failed to start toolkit worker '" ++ settings.worker ++ "'",
      (ToolkitFault.notStarted settings.worker fault).causes⟩
  | .ok channel =>
    let daemon := Daemon.ofClient (.ofChannel channel settings.limit) settings.options
    match daemon.greet with
    | (.error error, _) => .error ⟨"Toolkit worker handshake failed", error.causes⟩
    | (.ok _, daemon) => .ok daemon

/-- The octets of a source as text. -/
def readText (message : String) (octets : List UInt8) : Except ProgramError String :=
  match Text.ofOctets? octets with
  | some text => .ok text
  | none => .error ⟨message, ["stream did not contain valid UTF-8"]⟩

/-- The text of a graph, from a file or from the input. -/
def readSource (surroundings : Surroundings τ) : Option String → Except ProgramError String
  | none => readText "Failed to read stdin" surroundings.input
  | some path =>
    let message := "Failed to read " ++ path
    match surroundings.files path with
    | .ok octets => readText message octets
    | .error fault => .error ⟨message, [fault.message]⟩

/-- The listing of a graph that is given by its text, as it is printed. -/
def printListing (daemon : Daemon τ) (files : FileLookup) (text : String) : String :=
  let (outcome, _) := daemon.perform files (.list ⟨.str text, [], false⟩)
  (answerEnvelope (outcome.map .document)).printIndented ++ "\n"

/-- List what applies to one graph. -/
def list (surroundings : Surroundings τ) (settings : Settings) (source : Option String) :
    Except ProgramError String := do
  let daemon ← begin surroundings settings
  let text ← readSource surroundings source
  return printListing daemon surroundings.files text

end Program

end DataflowEditor

import DataflowEditor.Program.Settings
import DataflowEditor.Text.Blank
import DataflowEditor.Text.Integer

/-! # The command line

Every option has a long name with two dashes in front, and one of them a letter as well. The value
of an option is the next argument, or follows the name behind an equals sign; an argument with a
dash in front is no value, except for an argument to the worker. Most options may also be set by a
variable of the environment, which counts where the option is not given. An option that takes one
value is given once. There are no other arguments.
-/

namespace DataflowEditor

/-- What the program is told. Without a value an option is not set. -/
structure Arguments where
  portNumber : Option Nat
  host : Option IpAddress
  worker : Option String
  workerArguments : Option (List String)
  storeMetadata : Option Bool
  timeoutSeconds : Option Nat
  /-- Print a listing and exit. The graph is read from a file if one is named. -/
  listing : Option (Option String)
deriving DecidableEq, Inhabited

namespace Arguments

def blank : Arguments :=
  ⟨none, none, none, none, none, none, none⟩

/-- Why a program is not run. -/
inductive Refusal where
  /-- The arguments make no sense. -/
  | misuse
  /-- Only help is asked for. -/
  | help
deriving DecidableEq, Inhabited

/-! ## Options -/

inductive Name where
  | portNumber
  | host
  | worker
  | workerArgument
  | storeMetadata
  | timeoutSeconds
  | listing
  | help
deriving DecidableEq, Inhabited

namespace Name

def ofLong? (name : String) : Option Name :=
  match name with
  | "port" => some .portNumber
  | "host" => some .host
  | "worker" => some .worker
  | "worker-arg" => some .workerArgument
  | "store-metadata" => some .storeMetadata
  | "timeout-secs" => some .timeoutSeconds
  | "transformations" => some .listing
  | "help" => some .help
  | _ => none

def ofLetter? (letter : Char) : Option Name :=
  if letter = 'p' then some .portNumber
  else if letter = 'h' then some .help
  else none

/-- The variable that sets an option. -/
def environmentName? : Name → Option String
  | .portNumber => some "SDFGD_PORT"
  | .host => some "SDFGD_HOST"
  | .worker => some "SDFGD_WORKER"
  | .workerArgument => some "SDFGD_WORKER_ARGS"
  | .storeMetadata => some "SDFGD_STORE_METADATA"
  | .timeoutSeconds => some "SDFGD_TIMEOUT_SECS"
  | .listing => none
  | .help => none

/-- Whether an option takes a value. -/
def takesValue : Name → Bool
  | .storeMetadata => false
  | .help => false
  | _ => true

end Name

/-! ## Values -/

def required {α : Type} : Option α → Except Refusal α
  | some value => .ok value
  | none => .error .misuse

/-- Set an option that may be set once. -/
def once {α : Type} (current : Option α) (value : α) : Except Refusal (Option α) :=
  if current.isSome then .error .misuse else .ok (some value)

def readPort (text : String) : Except Refusal Nat :=
  match Text.readSigned text.toList with
  | .ok value => if 0 ≤ value ∧ value ≤ 65535 then .ok value.toNat else .error .misuse
  | .error _ => .error .misuse

def readSeconds (text : String) : Except Refusal Nat :=
  match Text.readUnsigned (wordCount - 1) text.toList with
  | .ok value => .ok value
  | .error _ => .error .misuse

def readFlag (text : String) : Except Refusal Bool :=
  match text with
  | "true" => .ok true
  | "false" => .ok false
  | _ => .error .misuse

/-- Several arguments to the worker may be given in one, with blanks between them. -/
def splitArguments (text : String) : List String :=
  (text.toList.splitOn ' ').map String.ofList

/-- Set an option to a value. -/
def set (arguments : Arguments) (name : Name) (value : String) : Except Refusal Arguments :=
  match name with
  | .portNumber => do
    let portNumber ← readPort value
    return { arguments with portNumber := ← once arguments.portNumber portNumber }
  | .host => do
    let host ← required (IpAddress.ofText? value)
    return { arguments with host := ← once arguments.host host }
  | .worker => do return { arguments with worker := ← once arguments.worker value }
  | .workerArgument =>
    let all := arguments.workerArguments.getD [] ++ splitArguments value
    .ok { arguments with workerArguments := some all }
  | .storeMetadata => do
    let stored ← readFlag value
    return { arguments with storeMetadata := ← once arguments.storeMetadata stored }
  | .timeoutSeconds => do
    let seconds ← readSeconds value
    return { arguments with timeoutSeconds := ← once arguments.timeoutSeconds seconds }
  | .listing =>
    if value = "" then .error .misuse
    else do return { arguments with listing := ← once arguments.listing (some value) }
  | .help => .error .help

/-- Set an option that stands without a value. -/
def setBare (arguments : Arguments) (name : Name) : Except Refusal Arguments :=
  match name with
  | .storeMetadata => arguments.set .storeMetadata "true"
  | .listing => do return { arguments with listing := ← once arguments.listing none }
  | .help => .error .help
  | _ => .error .misuse

/-! ## Reading arguments -/

/-- The arguments so far, with an option that waits for its value. -/
structure Pending where
  arguments : Arguments
  waiting : Option Name

/-- No value comes for an option that waits for one. -/
def settle (pending : Pending) : Except Refusal Arguments :=
  match pending.waiting with
  | some name => pending.arguments.setBare name
  | none => .ok pending.arguments

/-- An option that is named, with what follows its name. -/
def takeOption (arguments : Arguments) (name : Name) (value : Option String) :
    Except Refusal Pending :=
  match name.takesValue, value with
  | true, some value => do return ⟨← arguments.set name value, none⟩
  | true, none => .ok ⟨arguments, some name⟩
  | false, some _ => .error .misuse
  | false, none => do return ⟨← arguments.setBare name, none⟩

/-- An argument with two dashes in front. -/
def takeLong (arguments : Arguments) (text : List Char) : Except Refusal Pending :=
  match Text.splitOnce ['='] text with
  | some (name, value) => do
    takeOption arguments (← required (Name.ofLong? (String.ofList name)))
      (some (String.ofList value))
  | none => do takeOption arguments (← required (Name.ofLong? (String.ofList text))) none

/-- The value that follows the letter of an option at once. -/
def attached? : List Char → Option String
  | [] => none
  | '=' :: value => some (String.ofList value)
  | value => some (String.ofList value)

/-- An argument with one dash in front. -/
def takeLetter (arguments : Arguments) : List Char → Except Refusal Pending
  | [] => .error .misuse
  | letter :: rest => do
    takeOption arguments (← required (Name.ofLetter? letter)) (attached? rest)

/-- Take one argument. -/
def take (pending : Pending) (argument : String) : Except Refusal Pending :=
  match pending.waiting, argument.toList with
  | some .workerArgument, _ => do
    return ⟨← pending.arguments.set .workerArgument argument, none⟩
  | _, '-' :: '-' :: c :: rest => do takeLong (← settle pending) (c :: rest)
  | _, '-' :: c :: rest =>
    if c = '-' then .error .misuse else do takeLetter (← settle pending) (c :: rest)
  | some name, _ => do return ⟨← pending.arguments.set name argument, none⟩
  | none, _ => .error .misuse

/-- Two dashes alone end the options, and nothing may follow the options. -/
def takeAll (pending : Pending) : List String → Except Refusal Arguments
  | [] => settle pending
  | argument :: rest =>
    if argument = "--" && pending.waiting ≠ some .workerArgument then do
      let arguments ← settle pending
      if rest.isEmpty then return arguments else .error .misuse
    else do takeAll (← take pending argument) rest

/-! ## The environment -/

def isSet (arguments : Arguments) : Name → Bool
  | .portNumber => arguments.portNumber.isSome
  | .host => arguments.host.isSome
  | .worker => arguments.worker.isSome
  | .workerArgument => arguments.workerArguments.isSome
  | .storeMetadata => arguments.storeMetadata.isSome
  | .timeoutSeconds => arguments.timeoutSeconds.isSome
  | .listing => arguments.listing.isSome
  | .help => false

/-- Set an option from the environment unless it is given. -/
def setFromEnvironment (environment : List (String × String)) (arguments : Arguments)
    (name : Name) : Except Refusal Arguments :=
  if arguments.isSet name then .ok arguments
  else match name.environmentName?.bind (List.lookup · environment) with
    | some value => arguments.set name value
    | none => .ok arguments

/-- The options that the environment may set, in their order. -/
def environmentNames : List Name :=
  [.portNumber, .host, .worker, .workerArgument, .storeMetadata, .timeoutSeconds]

/-- Read arguments and environment. -/
def read (environment : List (String × String)) (arguments : List String) :
    Except Refusal Arguments := do
  let read ← takeAll ⟨blank, none⟩ arguments
  environmentNames.foldlM (setFromEnvironment environment) read

/-! ## Settings -/

/-- The settings that the arguments ask for. A worker that is named gets no arguments but those
given. -/
def settings (arguments : Arguments) : Settings :=
  let initial := Settings.initial
  let given := arguments.workerArguments.getD []
  let settings : Settings := { initial with
    portNumber := arguments.portNumber.getD initial.portNumber
    host := arguments.host.getD initial.host
    storeMetadata := arguments.storeMetadata.getD false
    limit := arguments.timeoutSeconds.map (1000 * ·) }
  match arguments.worker, given with
  | some worker, _ => settings.withWorker worker given
  | none, [] => settings
  | none, _ :: _ => settings.withWorker settings.worker given

end Arguments

end DataflowEditor

import DataflowEditor.Http.MediaType
import DataflowEditor.Service.Daemon

/-! # Routes

Each action has a path to which its request is posted as a document. Whatever becomes of it, the
answer has status 200 and is the envelope of the outcome: the editor never looks at the status. A
body that cannot be used is a failed outcome too. Two paths are for getting: one tells that the
daemon is alive, the other gives the property metadata.
-/

namespace DataflowEditor

namespace Http

/-- An answer with its status: a document, or a text. -/
inductive Answer where
  | document (status : Nat) (value : Json)
  | text (status : Nat) (value : String)
deriving DecidableEq, Inhabited

structure Message where
  method : String
  path : String
  contentType : Option String
  body : List UInt8
deriving DecidableEq, Inhabited

/-! ## Bodies -/

/-- Why a body cannot be used. -/
inductive BodyFault where
  | contentType
  | tooLong
  | decode (fault : DecodeFault)
deriving DecidableEq, Inhabited

def BodyFault.details : BodyFault → String
  | .contentType =>
    "MissingJsonContentType: Expected request with `Content-Type: application/json`"
  | .tooLong => "BytesRejection: Failed to buffer the request body: length limit exceeded"
  | .decode .unreadable => "JsonSyntaxError: <syntax>"
  | .decode fault =>
    "JsonDataError: Failed to deserialize the JSON body into the target type: " ++ fault.messageAt

def BodyFault.toError (fault : BodyFault) : Failure :=
  ⟨"Invalid request", fault.details⟩

/-- The number of octets that a body may have. -/
def bodyLimit : Nat := 2097152

/-- The request in the body of a message. -/
def decodeBody {α : Type} (decode : Decoder α) (message : Message) : Except BodyFault α :=
  if !(message.contentType.bind MediaType.ofText?).any MediaType.isJson then .error .contentType
  else if bodyLimit < message.body.length then .error .tooLong
  else (Source.decodeAs decode (Text.characters message.body)).mapError .decode

/-! ## Paths -/

/-- The decoder for the request of an action. -/
def decodeTo {α : Type} (shape : RecordShape α) (build : α → Action) : Decoder Action :=
  fun draft => (shape.decode draft).map build

/-- The decoder for the requests that are posted to a path. -/
def posted? (path : String) : Option (Decoder Action) :=
  match path with
  | "/transformations" => some (decodeTo ListingRequest.shape .list)
  | "/apply_transformation" => some (decodeTo ApplicationRequest.shape .apply)
  | "/apply_transformations" => some (decodeTo BatchRequest.shape .applyAll)
  | "/expand_library_node" => some (decodeTo ExpansionRequest.shape .expand)
  | "/reapply_history_until" => some (decodeTo ReplayRequest.shape .replay)
  | "/specialize_sdfg" => some (decodeTo SymbolRequest.shape .specialize)
  | "/add_transformations" => some (decodeTo LoadRequest.shape .load)
  | "/get_arith_ops" => some (decodeTo AssumptionRequest.shape .countOperations)
  | "/get_work" => some (decodeTo AssumptionRequest.shape .work)
  | "/get_depth" => some (decodeTo AssumptionRequest.shape .depth)
  | "/get_avg_parallelism" => some (decodeTo AssumptionRequest.shape .averageParallelism)
  | "/get_operational_intensity" => some (decodeTo IntensityRequest.shape .operationalIntensity)
  | "/insert_sdfg_element" => some (decodeTo InsertionRequest.shape .insert)
  | "/remove_sdfg_elements" => some (decodeTo RemovalRequest.shape .remove)
  | "/compile_sdfg_from_file" => some (decodeTo CompilationRequest.shape .compile)
  | _ => none

/-- What is got from a path. -/
inductive Resource where
  | liveness
  | metadata
deriving DecidableEq

def resource? (path : String) : Option Resource :=
  match path with
  | "/" => some .liveness
  | "/get_metadata" => some .metadata
  | _ => none

/-- The path without a query behind it. -/
def pathOf (target : String) : String :=
  String.ofList (target.toList.takeWhile fun c => c ≠ '?' && c ≠ '#')

/-- The envelope of an outcome as an answer. -/
def answerWith (outcome : Attempt Json) : Answer :=
  .document 200 (answerEnvelope (outcome.map .document))

end Http

namespace Daemon

open Http

variable {τ : Type} [Channel τ]

/-- Get what stands under a path. -/
def get (daemon : Daemon τ) : Resource → Answer × Daemon τ
  | .liveness => (.text 200 "success!", daemon)
  | .metadata =>
    let (outcome, daemon) := daemon.describeProperties
    (answerWith outcome, daemon)

/-- Take a request that is posted. -/
def post (daemon : Daemon τ) (files : FileLookup) (decode : Decoder Action) (message : Message) :
    Answer × Daemon τ :=
  match decodeBody decode message with
  | .error fault => (answerWith (.error fault.toError), daemon)
  | .ok action =>
    let (outcome, daemon) := daemon.perform files action
    (answerWith outcome, daemon)

/-- Answer a message. Asking only for the head of what could be got is answered without a body. -/
def handle (daemon : Daemon τ) (files : FileLookup) (message : Message) : Answer × Daemon τ :=
  match posted? (pathOf message.path), resource? (pathOf message.path) with
  | some decode, _ =>
    if message.method = "POST" then daemon.post files decode message
    else (.text 405 "", daemon)
  | none, some resource =>
    if message.method = "GET" then daemon.get resource
    else if message.method = "HEAD" then
      let (_, daemon) := daemon.get resource
      (.text 200 "", daemon)
    else (.text 405 "", daemon)
  | none, none => (.text 404 "", daemon)

end Daemon

end DataflowEditor

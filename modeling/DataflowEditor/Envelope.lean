import DataflowEditor.Graph.Decode
import DataflowEditor.Json.Decode

/-! # Envelopes

Every operation answers with one object. A success has the members of the operation; a failure has
the single member `error` with a message, which is fixed for what was attempted, and details, which
give the cause. The editor may send an answer back as if it were a graph, so an error envelope is
recognized where a graph is loaded.
-/

namespace DataflowEditor

/-- A failed operation. -/
structure Failure where
  message : String
  details : String
deriving DecidableEq, Inhabited

abbrev Attempt (α : Type) := Except Failure α

namespace Failure

/-- An underlying failure under the message for what was attempted. -/
def ofGraphError (message : String) (error : GraphError) : Failure :=
  ⟨message, error.details⟩

def display (error : Failure) : String :=
  error.message ++ " (" ++ error.details ++ ")"

/-- The error envelope. -/
def toJson (error : Failure) : Json :=
  .obj [("error", .obj [("message", .str error.message), ("details", .str error.details)])]

def bodyShape : RecordShape Failure where
  name := "struct ErrorBody"
  blank := ⟨"", ""⟩
  fields := [
    .needed "message" Draft.string fun error message => { error with message },
    .defaulted "details" Draft.string fun error details => { error with details }]

def shape : RecordShape Failure where
  name := "struct Envelope"
  blank := ⟨"", ""⟩
  fields := [.needed "error" bodyShape.decode fun _ error => error]

/-- The failure that an error envelope reports. -/
def ofJson (document : Json) : Except DecodeFault Failure :=
  document.decodeAs shape.decode

end Failure

/-- What a success has to say: a document, or something that no document can hold. -/
inductive Payload where
  | document (value : Json)
  | keyNotText
deriving DecidableEq, Inhabited

/-- The answer for an outcome. A success that is no object is wrapped as `result`. -/
def answerEnvelope : Attempt Payload → Json
  | .ok (.document (.obj members)) => .obj members
  | .ok (.document other) => .obj [("result", other)]
  | .ok .keyNotText =>
    Failure.toJson ⟨"Failed to serialize the response", "TypeError: key must be a string"⟩
  | .error error => error.toJson

/-- The message for a graph that is an error envelope. -/
def invalidGraphMessage : String :=
  "Invalid SDFG provided"

/-- The message for a graph that cannot be decoded. -/
def parseFailedMessage : String :=
  "Failed to parse the provided SDFG"

/-- Decode the graph that a request brings. A failed answer that is sent back is refused with the
message it carries. -/
def readPayload (payload : Json) : Attempt Arena :=
  match payload.member? "error" with
  | some error =>
    .error ⟨invalidGraphMessage, ((error.member? "message").bind Json.asString?).getD ""⟩
  | none => (Arena.ofJson payload).mapError (.ofGraphError parseFailedMessage)

/-- Decode a graph that comes as a document or as the text of one. -/
def readPayloadOrText : Json → Attempt Arena
  | .str text =>
    match Json.ofText? text with
    | some document => readPayload document
    | none => .error (.ofGraphError parseFailedMessage .unreadable)
  | document => readPayload document

end DataflowEditor

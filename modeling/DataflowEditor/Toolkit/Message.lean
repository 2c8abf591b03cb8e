import DataflowEditor.Json.Decode

/-! # Messages

The daemon and the toolkit exchange messages that follow version 2.0 of the remote call protocol: a
request with an identifier, a notification without one, and a response that carries the identifier
of the request it answers. Each message has a document form. A member that is optional is left out
of the document where it has no value, and null stands for no value where it is decoded.
-/

namespace DataflowEditor

/-- Append a member unless it has no value. -/
def Fields.append? (fields : Fields) (key : String) : Option Json → Fields
  | some value => fields ++ [(key, value)]
  | none => fields

/-! ## Identifiers -/

inductive MessageId where
  | number (value : Int)
  | text (value : String)
deriving DecidableEq, Inhabited

namespace MessageId

def toJson : MessageId → Json
  | .number value => .int value
  | .text value => .str value

/-- An identifier is an integer of 64 bits with a sign, or a text. -/
def ofJson? (document : Json) : Option MessageId :=
  match document.asInt?, document.asString? with
  | some value, _ => some (.number value)
  | none, some value => some (.text value)
  | none, none => none

def decode : Decoder MessageId := fun draft => do
  match ofJson? (← draft.json) with
  | some id => return id
  | none => .error (.mismatch [] (.noVariant "RequestId"))

/-- The identifier as an index, if it is a number from zero up. -/
def asIndex? : MessageId → Option Nat
  | .number value => if 0 ≤ value then some value.toNat else none
  | .text _ => none

end MessageId

/-- The version that every message names. -/
def protocolVersion : String :=
  "2.0"

/-! ## Requests and notifications -/

structure Request where
  version : String
  id : MessageId
  method : String
  params : Option Json
deriving DecidableEq, Inhabited

namespace Request

def toJson (request : Request) : Json :=
  .obj (Fields.append? [("jsonrpc", .str request.version), ("id", request.id.toJson),
    ("method", .str request.method)] "params" request.params)

def shape : RecordShape Request where
  name := "struct JsonRpcRequest"
  blank := ⟨"", .number 0, "", none⟩
  fields := [
    .needed "jsonrpc" Draft.string fun request version => { request with version },
    .needed "id" MessageId.decode fun request id => { request with id },
    .needed "method" Draft.string fun request method => { request with method },
    .defaulted "params" (Draft.optional Draft.json) fun request params => { request with params }]

end Request

structure Notification where
  version : String
  method : String
  params : Option Json
deriving DecidableEq, Inhabited

namespace Notification

def toJson (notification : Notification) : Json :=
  .obj (Fields.append? [("jsonrpc", .str notification.version),
    ("method", .str notification.method)] "params" notification.params)

def shape : RecordShape Notification where
  name := "struct JsonRpcNotification"
  blank := ⟨"", "", none⟩
  fields := [
    .needed "jsonrpc" Draft.string fun note version => { note with version },
    .needed "method" Draft.string fun note method => { note with method },
    .defaulted "params" (Draft.optional Draft.json) fun note params => { note with params }]

end Notification

/-! ## Responses -/

/-- An error that a response carries. An exception of the toolkit has the name of its type in the
data. -/
structure RemoteError where
  code : Int
  message : String
  data : Option Json
deriving DecidableEq, Inhabited

namespace RemoteError

/-- The code of an exception that the toolkit raised while it served a call. -/
def exceptionCode : Int :=
  -32000

def ofException (type message : String) : RemoteError :=
  ⟨exceptionCode, message, some (.obj [("type", .str type)])⟩

def exception? (error : RemoteError) : Option String :=
  (error.data.bind (Json.member? · "type")).bind Json.asString?

def display (error : RemoteError) : String :=
  "JSON-RPC error " ++ Text.decimalInt error.code ++ ": " ++ error.message

def toJson (error : RemoteError) : Json :=
  .obj (Fields.append? [("code", .int error.code), ("message", .str error.message)] "data"
    error.data)

def shape : RecordShape RemoteError where
  name := "struct JsonRpcError"
  blank := ⟨0, "", none⟩
  fields := [
    .needed "code" (Draft.integer (-2147483648) 2147483647 "i32") fun error code =>
      { error with code },
    .needed "message" Draft.string fun error message => { error with message },
    .defaulted "data" (Draft.optional Draft.json) fun error data => { error with data }]

end RemoteError

structure Response where
  version : String
  id : MessageId
  result : Option Json
  error : Option RemoteError
deriving DecidableEq, Inhabited

namespace Response

/-- The response of a call that went well. Null is a result like any other. -/
def success (id : MessageId) (result : Json) : Response :=
  ⟨protocolVersion, id, some result, none⟩

def failure (id : MessageId) (error : RemoteError) : Response :=
  ⟨protocolVersion, id, none, some error⟩

def isFailure (response : Response) : Bool :=
  response.error.isSome

def toJson (response : Response) : Json :=
  .obj (Fields.append? (Fields.append? [("jsonrpc", .str response.version),
    ("id", response.id.toJson)] "result" response.result) "error"
    (response.error.map RemoteError.toJson))

def shape : RecordShape Response where
  name := "struct JsonRpcResponse"
  blank := ⟨"", .number 0, none, none⟩
  fields := [
    .needed "jsonrpc" Draft.string fun response version => { response with version },
    .needed "id" MessageId.decode fun response id => { response with id },
    .defaulted "result" (Draft.optional Draft.json) fun response result =>
      { response with result },
    .defaulted "error" (Draft.optional RemoteError.shape.decode) fun response error =>
      { response with error }]

end Response

end DataflowEditor

import DataflowEditor.Graph.Error
import DataflowEditor.Toolkit.Message

/-! # What can go wrong with the toolkit

A call can fail on the way, in the toolkit, or when its answer is decoded. An error that the toolkit
reports with the name of an exception type is shown as that exception; every other error is shown
under a name of its own.
-/

namespace DataflowEditor

inductive ToolkitFault where
  | transport (message : String)
  /-- The toolkit answered with an error. -/
  | protocol (error : RemoteError)
  | decode (fault : DecodeFault)
  | file (fault : FileFault)
  | connectionClosed
  | noResult
  | timeout
  /-- The toolkit lacks a capability that the call needs. -/
  | unsupported (feature : String)
deriving DecidableEq, Inhabited

namespace ToolkitFault

def message : ToolkitFault → String
  | .transport message => "Transport error: " ++ message
  | .protocol error =>
    "Protocol error " ++ Text.decimalInt error.code ++ ": " ++ error.message
  | .decode fault => "JSON error: " ++ fault.message
  | .file fault => "IO error: " ++ fault.message
  | .connectionClosed => "Connection closed"
  | .noResult => "No result in response"
  | .timeout => "Timeout"
  | .unsupported feature => "Toolkit does not support " ++ feature

/-- The type of the exception that the toolkit raised. -/
def exception? : ToolkitFault → Option String
  | .protocol error => error.exception?
  | _ => none

/-- The name of an error that is no exception of the toolkit. -/
def localName : ToolkitFault → String
  | .transport _ => "TransportError"
  | .protocol _ => "ProtocolError"
  | .decode _ => "JSONDecodeError"
  | .file _ => "IOError"
  | .connectionClosed => "ConnectionClosed"
  | .noResult => "NoResult"
  | .timeout => "TimeoutError"
  | .unsupported _ => "NotImplementedError"

def name (error : ToolkitFault) : String :=
  error.exception?.getD error.localName

/-- Name and message together. An exception keeps the message that it was raised with. -/
def details (error : ToolkitFault) : String :=
  match error with
  | .protocol remote =>
    match remote.exception? with
    | some type => type ++ ": " ++ remote.message
    | none => error.name ++ ": " ++ error.message
  | _ => error.name ++ ": " ++ error.message

/-- Whether a new worker might do better. -/
def isTransient : ToolkitFault → Bool
  | .timeout => true
  | .transport _ => true
  | .connectionClosed => true
  | _ => false

end ToolkitFault

end DataflowEditor

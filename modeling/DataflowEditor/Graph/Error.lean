import DataflowEditor.Text.Integer

/-! # What can go wrong with a graph

Every failure of decoding, addressing or editing a graph is one of the causes below. A cause has a
name and a message; the editor is shown both. An address can be malformed on its own, an element can
be missing from a graph, a document can fail to be a graph, and an element can be of the wrong kind
for what is asked.
-/

namespace DataflowEditor

/-- An index of 64 bits read as a signed word, as messages and addresses hold it. -/
def signedWord (n : Nat) : Int :=
  Int.bmod n wordCount

/-- Where edges are kept. -/
inductive Container where
  | graph (graph : Nat)
  | state (graph state : Nat)
deriving DecidableEq, Inhabited

def Container.message : Container → String
  | .graph id => "graph " ++ Text.decimal id
  | .state id place => "state " ++ Text.decimal place ++ " of graph " ++ Text.decimal id

/-- The parts of a graph document. -/
inductive Part where
  | graph
  | state
  | node
  | edge
  | nested
deriving DecidableEq, Inhabited

def Part.name : Part → String
  | .graph => "SDFG"
  | .state => "state"
  | .node => "node"
  | .edge => "edge"
  | .nested => "nested SDFG"

/-- A part that holds lists of others, as a message about such a list names it. -/
def Part.holder : Part → String
  | .graph => "graph"
  | part => part.name

/-- Why a text or a descriptor is no address. -/
inductive AddressFault where
  | componentCount (found : Nat)
  | notInteger (text : String)
  | belowUnset (component : String)
  | nodeAndEdge
  | nodeWithoutState
  | noGraph
  | missingGraphId
  | missingElementId
  | negativeId (component : String)
deriving DecidableEq, Inhabited

def AddressFault.message : AddressFault → String
  | .componentCount found => "expected 4 components, found " ++ Text.decimal found
  | .notInteger text => "'" ++ text ++ "' is not an integer"
  | .belowUnset component => component ++ " component must be -1 or a non-negative index"
  | .nodeAndEdge => "node and edge components are mutually exclusive"
  | .nodeWithoutState => "a node address requires a state"
  | .noGraph => "a graph component is required"
  | .missingGraphId => "missing graph id"
  | .missingElementId => "missing element id"
  | .negativeId component => component ++ " id must be non-negative"

/-- Why a document is not what it should describe. -/
inductive DocumentFault where
  | notObject (part : Part) (kind : String)
  | notArray (key : String) (part : Part) (kind : String)
  | otherType (name : String)
  | nothingNested
  | noEndpoint (edge : Nat) (container : Container) (key : String)
  | endpointOutside (edge : Nat) (container : Container) (index bound : Nat)
  | nodesOutside (source target bound : Nat)
  | statesOutside (source target bound : Nat)
  | transformationNotObject
  | transformationUnnamed
  | transformationGraph
deriving DecidableEq, Inhabited

def DocumentFault.message : DocumentFault → String
  | .notObject part kind => "expected " ++ part.name ++ " to be an object, found " ++ kind
  | .notArray key part kind =>
    "expected '" ++ key ++ "' of " ++ part.holder ++ " to be an array, found " ++ kind
  | .otherType name => "expected a graph of type 'SDFG', found '" ++ name ++ "'"
  | .nothingNested => "nested SDFG node without an embedded graph"
  | .noEndpoint edge container key =>
    "edge " ++ Text.decimal edge ++ " in " ++ container.message ++ " has no valid '" ++ key ++
      "' endpoint"
  | .endpointOutside edge container index bound =>
    "edge " ++ Text.decimal edge ++ " in " ++ container.message ++ " references element " ++
      Text.decimal index ++ ", only " ++ Text.decimal bound ++ " exist"
  | .nodesOutside source target bound =>
    "edge endpoints " ++ Text.decimal source ++ " -> " ++ Text.decimal target ++
      " outside state with " ++ Text.decimal bound ++ " nodes"
  | .statesOutside source target bound =>
    "edge endpoints " ++ Text.decimal source ++ " -> " ++ Text.decimal target ++
      " outside graph with " ++ Text.decimal bound ++ " states"
  | .transformationNotObject => "transformation is not an object"
  | .transformationUnnamed => "transformation has no 'transformation' class name"
  | .transformationGraph => "transformation graph id is not an integer"

/-- Why an element is of the wrong kind. Elements are shown by their addresses. -/
inductive KindFault where
  | rootRemoval
  | nestedNode
  | selection (name : Option String)
  | stateUnderNode (address : String)
  | stateUnder (address : String)
  | nodeUnder (address : String)
deriving DecidableEq, Inhabited

def KindFault.message : KindFault → String
  | .rootRemoval => "the root graph cannot be removed"
  | .nestedNode => "nested graphs must be added with add_nested_node"
  | .selection name => "selection type " ++ name.getD "<missing>"
  | .stateUnderNode address =>
    "states can only be added to a graph or a nested SDFG, not node " ++ address
  | .stateUnder address => "states can only be added to a graph or a nested SDFG, not " ++ address
  | .nodeUnder address => "nodes can only be added to a state, not " ++ address

/-- Why the octets of a file are not at hand. The wording for a file that cannot be unpacked or
named is left open. -/
inductive FileFault where
  | system (code : Nat)
  | unusable
deriving DecidableEq, Inhabited

/-- The system's words for the codes of failed calls. -/
def systemMessage (code : Nat) : String :=
  match code with
  | 1 => "Operation not permitted"
  | 2 => "No such file or directory"
  | 3 => "No such process"
  | 4 => "Interrupted system call"
  | 5 => "Input/output error"
  | 6 => "No such device or address"
  | 7 => "Argument list too long"
  | 8 => "Exec format error"
  | 9 => "Bad file descriptor"
  | 10 => "No child processes"
  | 11 => "Resource temporarily unavailable"
  | 12 => "Cannot allocate memory"
  | 13 => "Permission denied"
  | 14 => "Bad address"
  | 15 => "Block device required"
  | 16 => "Device or resource busy"
  | 17 => "File exists"
  | 18 => "Invalid cross-device link"
  | 19 => "No such device"
  | 20 => "Not a directory"
  | 21 => "Is a directory"
  | 22 => "Invalid argument"
  | 23 => "Too many open files in system"
  | 24 => "Too many open files"
  | 25 => "Inappropriate ioctl for device"
  | 26 => "Text file busy"
  | 27 => "File too large"
  | 28 => "No space left on device"
  | 29 => "Illegal seek"
  | 30 => "Read-only file system"
  | 31 => "Too many links"
  | 32 => "Broken pipe"
  | 33 => "Numerical argument out of domain"
  | 34 => "Numerical result out of range"
  | 35 => "Resource deadlock avoided"
  | 36 => "File name too long"
  | 38 => "Function not implemented"
  | 39 => "Directory not empty"
  | 40 => "Too many levels of symbolic links"
  | 71 => "Protocol error"
  | 98 => "Address already in use"
  | 99 => "Cannot assign requested address"
  | 100 => "Network is down"
  | 101 => "Network is unreachable"
  | 103 => "Software caused connection abort"
  | 104 => "Connection reset by peer"
  | 107 => "Transport endpoint is not connected"
  | 110 => "Connection timed out"
  | 111 => "Connection refused"
  | 113 => "No route to host"
  | _ => "Unknown error " ++ Text.decimal code

def FileFault.message : FileFault → String
  | .system code => systemMessage code ++ " (os error " ++ Text.decimal code ++ ")"
  | .unusable => "<io>"

inductive GraphError where
  | malformedAddress (input : String) (reason : AddressFault)
  | graphNotFound (graph : Int)
  | stateOutOfRange (graph : Nat) (state : Int)
  | nodeOutOfRange (graph state : Nat) (node : Int)
  | edgeOutOfRange (container : Container) (edge : Int)
  | invalidGraph (fault : DocumentFault)
  | unsupportedElement (fault : KindFault)
  /-- A text that is no document. -/
  | unreadable
  | file (fault : FileFault)
deriving DecidableEq, Inhabited

namespace GraphError

def name : GraphError → String
  | .malformedAddress _ _ => "MalformedAddress"
  | .graphNotFound _ => "GraphNotFound"
  | .stateOutOfRange _ _ => "StateOutOfRange"
  | .nodeOutOfRange _ _ _ => "NodeOutOfRange"
  | .edgeOutOfRange _ _ => "EdgeOutOfRange"
  | .invalidGraph _ => "InvalidGraph"
  | .unsupportedElement _ => "UnsupportedElement"
  | .unreadable => "JSONDecodeError"
  | .file _ => "IOError"

def message : GraphError → String
  | .malformedAddress input reason => "Malformed address '" ++ input ++ "': " ++ reason.message
  | .graphNotFound graph => "Graph " ++ Text.decimalInt graph ++ " does not exist"
  | .stateOutOfRange graph state =>
    "State " ++ Text.decimalInt state ++ " does not exist in graph " ++ Text.decimal graph
  | .nodeOutOfRange graph state node =>
    "Node " ++ Text.decimalInt node ++ " does not exist in state " ++ Text.decimal state ++
      " of graph " ++ Text.decimal graph
  | .edgeOutOfRange container edge =>
    "Edge " ++ Text.decimalInt edge ++ " does not exist in " ++ container.message
  | .invalidGraph fault => "Invalid SDFG: " ++ fault.message
  | .unsupportedElement fault => "Unsupported element: " ++ fault.message
  | .unreadable => "JSON error: <syntax>"
  | .file fault => "IO error: " ++ fault.message

/-- Name and message together. -/
def details (error : GraphError) : String :=
  error.name ++ ": " ++ error.message

/-- The caller sent something that no graph could answer. -/
def isUnanswerable : GraphError → Bool
  | .malformedAddress _ _ => true
  | .unsupportedElement _ => true
  | _ => false

/-- The address is well formed and names nothing in this graph. -/
def isDangling : GraphError → Bool
  | .graphNotFound _ => true
  | .stateOutOfRange _ _ => true
  | .nodeOutOfRange _ _ _ => true
  | .edgeOutOfRange _ _ => true
  | _ => false

end GraphError

end DataflowEditor

import DataflowEditor.Toolkit.Channel
import DataflowEditor.Toolkit.Dialogue

/-! # The client of the toolkit

The client numbers its requests from one, greets the toolkit, remembers what the toolkit says about
itself, and answers the calls of a dialogue by requests. A call that needs a capability which the
toolkit did not state is refused without a request. Before the greeting nothing is refused.
-/

namespace DataflowEditor

structure Client (τ : Type) where
  channel : τ
  /-- The number of the next request. -/
  nextId : Nat
  /-- How long a request may take, in milliseconds. -/
  limit : Option Nat
  info : Option ToolkitProfile

namespace Client

variable {τ : Type} [Channel τ]

def ofChannel (channel : τ) (limit : Option Nat) : Client τ :=
  ⟨channel, 1, limit, none⟩

/-- The result that a response carries. An error counts before a result. -/
def resultOf (response : Response) : Except ToolkitFault Json :=
  match response.error, response.result with
  | some error, _ => .error (.protocol error)
  | none, some result => .ok result
  | none, none => .error .noResult

/-- Send a request and decode its result. Every request has a number of its own, also one that
fails. -/
def exchange {α : Type} (client : Client τ) (method : String) (params : Json)
    (decode : Decoder α) : Except ToolkitFault α × Client τ :=
  let request : Request := ⟨protocolVersion, .number client.nextId, method, some params⟩
  let (reply, channel) := Channel.request client.channel request client.limit
  let answer := do
    let result ← resultOf (← reply)
    (result.decodeAs decode).mapError .decode
  (answer, { client with channel, nextId := client.nextId + 1 })

/-- What the client says about itself. -/
def greeting : Json :=
  .obj [("client", .str "sdfgd"), ("version", .str "0.3.0")]

/-- Greet the toolkit. A greeting that fails leaves what was known before. -/
def greet (client : Client τ) : Except ToolkitFault ToolkitProfile × Client τ :=
  match client.exchange "initialize" greeting ToolkitProfile.shape.decode with
  | (.ok info, client) => (.ok info, { client with info := some info })
  | (.error error, client) => (.error error, client)

/-- Whether an analysis may be asked for, as far as is known. -/
def allows (client : Client τ) (analysis : Analysis) : Bool :=
  match analysis.needs?, client.info with
  | some capability, some info => info.offers capability
  | _, _ => true

/-- Answer one call. -/
def answer (call : Call) (client : Client τ) : Except ToolkitFault call.Answer × Client τ :=
  match call.analysis?.filter fun analysis => !client.allows analysis with
  | some analysis => (.error (.unsupported analysis.title), client)
  | none => client.exchange call.method call.params call.decodeAnswer

def isConnected (client : Client τ) : Bool :=
  Channel.isConnected client.channel

/-- Ask the worker to exit, if there is a connection, and close the channel. -/
def close (client : Client τ) : Client τ :=
  let channel :=
    if client.isConnected then
      (Channel.notify client.channel ⟨protocolVersion, "shutdown", none⟩).2
    else client.channel
  { client with channel := Channel.close channel }

end Client

end DataflowEditor

import DataflowEditor.Toolkit.Error

/-! # Channels

A channel carries messages to the toolkit and responses back. This file says what a channel is
and holds the simplest one, which has its responses prepared beforehand and keeps a record of all
that was sent. Prepared responses are given out in order, whatever identifier they carry.
-/

namespace DataflowEditor

/-- A way to the toolkit, with its state. A request waits for its response no longer than a number
of milliseconds. Without such a limit a wait that would never end counts as timed out. -/
class Channel (τ : Type) where
  request : τ → Request → (limit : Option Nat) → Except ToolkitFault Response × τ
  notify : τ → Notification → Except ToolkitFault Unit × τ
  close : τ → τ
  isConnected : τ → Bool

/-- What happens to one request. -/
inductive Prepared where
  | response (response : Response)
  | failure (error : ToolkitFault)
  | silence
deriving DecidableEq, Inhabited

structure PreparedChannel where
  queue : List Prepared
  requests : List Request
  notifications : List Notification
  connected : Bool
deriving DecidableEq, Inhabited

namespace PreparedChannel

def ofQueue (queue : List Prepared) : PreparedChannel :=
  ⟨queue, [], [], true⟩

def push (channel : PreparedChannel) (entry : Prepared) : PreparedChannel :=
  { channel with queue := channel.queue ++ [entry] }

def outcome : Prepared → Except ToolkitFault Response
  | .response response => .ok response
  | .failure error => .error error
  | .silence => .error .timeout

/-- A request is recorded unless the channel is closed. When nothing is prepared it has no
result. -/
def request (channel : PreparedChannel) (request : Request) :
    Except ToolkitFault Response × PreparedChannel :=
  if !channel.connected then (.error .connectionClosed, channel)
  else
    let channel := { channel with requests := channel.requests ++ [request] }
    match channel.queue with
    | [] => (.error .noResult, channel)
    | entry :: rest => (outcome entry, { channel with queue := rest })

/-- Notifications are recorded even when the channel is closed. -/
def notify (channel : PreparedChannel) (notification : Notification) : PreparedChannel :=
  { channel with notifications := channel.notifications ++ [notification] }

instance : Channel PreparedChannel where
  request channel message _ := channel.request message
  notify channel message := (.ok (), channel.notify message)
  close channel := { channel with connected := false }
  isConnected := PreparedChannel.connected

end PreparedChannel

end DataflowEditor

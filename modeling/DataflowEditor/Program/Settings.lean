import DataflowEditor.Net.IpAddress
import DataflowEditor.Toolkit.Exchange

/-! # Settings

What the daemon has to know before it starts: where to listen, which worker to run, how the worker
writes graphs and how long a request to it may take. Only editors on the same machine reach the
daemon unless another address is set.
-/

namespace DataflowEditor

structure Settings where
  host : IpAddress
  portNumber : Nat
  worker : String
  workerArguments : List String
  /-- What the worker finds in its environment besides the environment of the daemon. -/
  workerEnvironment : List (String × String)
  storeMetadata : Bool
  /-- The limit for a request, in milliseconds. -/
  limit : Option Nat
deriving DecidableEq, Inhabited

namespace Settings

def initial : Settings where
  host := .v4 [127, 0, 0, 1]
  portNumber := 5000
  worker := "python"
  workerArguments := ["-m", "dace_worker"]
  workerEnvironment := []
  storeMetadata := false
  limit := none

/-- Run another worker. The arguments of the first go with it. -/
def withWorker (settings : Settings) (command : String) (arguments : List String) : Settings :=
  { settings with worker := command, workerArguments := arguments }

def options (settings : Settings) : WriteOptions :=
  ⟨settings.storeMetadata⟩

/-- The address to listen on. -/
def socketText (settings : Settings) : String :=
  settings.host.socketText settings.portNumber

end Settings

end DataflowEditor

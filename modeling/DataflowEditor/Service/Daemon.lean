import DataflowEditor.Service.Action
import DataflowEditor.Toolkit.Client

/-! # The daemon

The daemon carries out actions with one client of the toolkit, one after the other. Of all that
passes it keeps one thing: the property metadata, which cannot change while the worker runs. They
are asked for when they are first wanted, and again as long as they could not be had.
-/

namespace DataflowEditor

structure Daemon (τ : Type) where
  client : Client τ
  options : WriteOptions
  /-- The property metadata, once they have been had. -/
  metadata : Option Json

def metadataFailedMessage : String :=
  "Failed to load metadata"

namespace Daemon

variable {τ : Type} [Channel τ]

def ofClient (client : Client τ) (options : WriteOptions) : Daemon τ :=
  ⟨client, options, none⟩

/-- Carry out an operation with the client of the daemon. -/
def run {α : Type} (daemon : Daemon τ) (operation : Operation α) : Attempt α × Daemon τ :=
  let (outcome, client) := Dialogue.run Client.answer operation.run daemon.client
  (outcome, { daemon with client })

def perform (daemon : Daemon τ) (files : FileLookup) (action : Action) :
    Attempt Json × Daemon τ :=
  daemon.run (action.perform daemon.options files)

def metadataAnswer (metadata : Json) : Json :=
  .obj [("meta_dict", metadata)]

/-- The property metadata, kept or asked for. -/
def describeProperties (daemon : Daemon τ) : Attempt Json × Daemon τ :=
  match daemon.metadata with
  | some metadata => (.ok (metadataAnswer metadata), daemon)
  | none =>
    match daemon.run (Operation.ask .describeProperties metadataFailedMessage) with
    | (.ok metadata, daemon) =>
      (.ok (metadataAnswer metadata), { daemon with metadata := some metadata })
    | (.error error, daemon) => (.error error, daemon)

/-- Greet the toolkit. -/
def greet (daemon : Daemon τ) : Except ToolkitFault ToolkitProfile × Daemon τ :=
  let (answer, client) := daemon.client.greet
  (answer, { daemon with client })

def close (daemon : Daemon τ) : Daemon τ :=
  { daemon with client := daemon.client.close }

end Daemon

end DataflowEditor

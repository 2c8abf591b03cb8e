import DataflowEditor.Json.Printer
import DataflowEditor.Toolkit.Link
import DataflowEditor.Toolkit.Channel

/-! # Pipes to a worker

The toolkit usually runs as a worker process. Messages are written to its input, one a line, and its
output is read line by line. The output ends when the worker exits, and it counts as ended at a line
that is no text. From then on the pipe is not connected. Writing to a worker that has exited fails.
-/

namespace DataflowEditor

/-- A process that reads lines. -/
class Worker (ω : Type) where
  /-- What the worker writes when it has read a line, and how it goes on unless it exits. -/
  read : ω → String → List UInt8 × Option ω

/-- A worker with what it has written behind the last line break. -/
structure Pipe (ω : Type) where
  worker : Option ω
  unread : List UInt8
  link : Link

/-- A worker that cannot be started. -/
def ToolkitFault.notStarted (command : String) (fault : FileFault) : ToolkitFault :=
  .transport ("Failed to spawn " ++ command ++ ": " ++ fault.message)

namespace Pipe

variable {ω : Type}

def toWorker (worker : ω) : Pipe ω :=
  ⟨some worker, [], .opened⟩

/-! ## Output of the worker -/

def endOutput (link : Link) : Link :=
  link.run [.endOutput, .dropWaiters]

/-- Take lines up to the first that is no text. -/
def takeLines (link : Link) : List (List UInt8) → Link
  | [] => link
  | line :: rest =>
    match Text.ofOctets? line with
    | some text => takeLines (link.step (.line text)) rest
    | none => endOutput link

/-- Take what the worker wrote before it went on as `next` or exited. What stands behind the last
line break is a line of its own once the worker has exited. A worker that writes when nobody reads
any more does not survive it. -/
def hear (pipe : Pipe ω) (output : List UInt8) (next : Option ω) : Pipe ω :=
  if pipe.link.reader ≠ .reading then
    { pipe with worker := if output.isEmpty then next else none }
  else
    let parts := (pipe.unread ++ output).splitOn 0x0a
    let rest := parts.getLastD []
    match next with
    | some worker => ⟨some worker, rest, takeLines pipe.link parts.dropLast⟩
    | none =>
      let lines := if rest.isEmpty then parts.dropLast else parts
      ⟨none, [], endOutput (takeLines pipe.link lines)⟩

/-! ## Messages to the worker -/

/-- The system's code for writing where nobody reads. -/
def brokenPipe : FileFault :=
  .system 32

/-- Send a request that may be matched by its number. A limit of nothing has passed before the
worker can answer. -/
def send [Worker ω] (pipe : Pipe ω) (id : Nat) (message : Request) (limit : Option Nat) :
    Pipe ω :=
  let link := pipe.link.run [.check id, .act id .register, .act id .recheck]
  match pipe.worker with
  | none => { pipe with link := link.step (.act id (.send (some brokenPipe))) }
  | some worker =>
    let (output, next) := Worker.read worker message.toJson.print
    let link := link.step (.act id (.send none))
    let link := if limit = some 0 then link.step (.act id .cancel) else link
    let pipe := { pipe with link }.hear output next
    { pipe with link := pipe.link.run [.act id .collect, .act id .cancel] }

def request [Worker ω] (pipe : Pipe ω) (message : Request) (limit : Option Nat) :
    Except ToolkitFault Response × Pipe ω :=
  if !pipe.link.connected then (.error .connectionClosed, pipe)
  else match message.id.asIndex? with
  | none =>
    (.error (.transport "Only non-negative numeric request IDs are supported over stdio"), pipe)
  | some id =>
    let pipe := pipe.send id message limit
    ((pipe.link.outcome? id).getD (.error .timeout), { pipe with link := pipe.link.forget id })

def notify [Worker ω] (pipe : Pipe ω) (message : Notification) :
    Except ToolkitFault Unit × Pipe ω :=
  match pipe.worker with
  | none => (.error (.file brokenPipe), pipe)
  | some worker =>
    let (output, next) := Worker.read worker message.toJson.print
    (.ok (), pipe.hear output next)

/-- Close the pipe and stop the worker. -/
def close (pipe : Pipe ω) : Pipe ω :=
  { pipe with link := pipe.link.step .close }.hear [] none

instance [Worker ω] : Channel (Pipe ω) where
  request := request
  notify := notify
  close := close
  isConnected pipe := pipe.link.connected

end Pipe

end DataflowEditor

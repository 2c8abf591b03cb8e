import DataflowEditor.Text.Blank
import DataflowEditor.Toolkit.Error

/-! # Matching responses to requests

Several requests may wait on one worker, which answers in any order, or not at all. A link keeps the
numbers of the requests that wait, and hands each response to the request with its number. The link
moves by steps that no other step can divide, so that a run is a list of steps: those of the
requests, those of the reader of the worker's output, and those of callers that give up.

A request looks whether the link is connected, registers, looks again, is sent, and collects what
the reader left for it. Looking twice is what keeps a request from waiting on a reader that finished
between the first look and the registration.
-/

namespace DataflowEditor

namespace Link

/-- What the reader left for a request. -/
inductive Inbox where
  | empty
  | response (response : Response)
  /-- The reader finished before there was a response. -/
  | dropped
deriving DecidableEq, Inhabited

/-- How far a request has come. -/
inductive Progress where
  | checked
  | registered
  | cleared
  | sent
  | completed (outcome : Except ToolkitFault Response)
  | cancelled
deriving Inhabited

/-- The reader notes that the output ended before it lets go of the requests that wait. -/
inductive Reader where
  | reading
  | ended
  | finished
deriving DecidableEq, Inhabited

structure Waiter where
  id : Nat
  progress : Progress
  inbox : Inbox
deriving Inhabited

/-- What a request does next. -/
inductive Act where
  | register
  | recheck
  /-- The request is written out, or cannot be. -/
  | send (fault : Option FileFault)
  | collect
  /-- The caller no longer waits. -/
  | cancel
deriving DecidableEq, Inhabited

inductive Step where
  /-- A new request looks whether the link is connected. -/
  | check (id : Nat)
  | act (id : Nat) (act : Act)
  /-- The reader takes a line of the worker's output. -/
  | line (text : String)
  | endOutput
  | dropWaiters
  | close
deriving DecidableEq, Inhabited

end Link

structure Link where
  connected : Bool
  reader : Link.Reader
  /-- The numbers of the requests that a response may be handed to. -/
  pending : List Nat
  /-- The requests that have been made, the latest last. -/
  waiters : List Link.Waiter
deriving Inhabited

namespace Link

def opened : Link :=
  ⟨true, .reading, [], []⟩

def waiter? (link : Link) (id : Nat) : Option Waiter :=
  link.waiters.find? fun waiter => waiter.id = id

def modifyWaiter (link : Link) (id : Nat) (change : Waiter → Waiter) : Link :=
  { link with waiters := link.waiters.map fun waiter =>
      if waiter.id = id then change waiter else waiter }

def advance (link : Link) (id : Nat) (progress : Progress) : Link :=
  link.modifyWaiter id fun waiter => { waiter with progress }

def unregister (link : Link) (id : Nat) : Link :=
  { link with pending := link.pending.filter (· ≠ id) }

/-- A request that comes to its end no longer waits for a response. -/
def complete (link : Link) (id : Nat) (outcome : Except ToolkitFault Response) : Link :=
  (link.advance id (.completed outcome)).unregister id

/-! ## Lines of the worker -/

/-- The response that a line of output holds. Any other line is passed over. -/
def response? (line : String) : Option Response :=
  match Text.trim line.toList with
  | [] => none
  | text => (Source.decodeAs Response.shape.decode (text.map some)).toOption

/-- Hand over a response to the request that waits for it. -/
def deliver (link : Link) (response : Response) : Link :=
  match response.id.asIndex? with
  | none => link
  | some id =>
    if id ∈ link.pending then
      (link.unregister id).modifyWaiter id fun waiter =>
        { waiter with inbox := .response response }
    else link

def takeLine (link : Link) (line : String) : Link :=
  match response? line with
  | some response => link.deliver response
  | none => link

/-- Every request that is still registered learns that there will be no response. -/
def dropPending (link : Link) : Link :=
  { link with pending := [],
              waiters := link.waiters.map fun waiter =>
                if waiter.id ∈ link.pending then { waiter with inbox := .dropped } else waiter }

/-! ## Steps -/

def collect (link : Link) (waiter : Waiter) : Link :=
  match waiter.inbox with
  | .empty => link
  | .response response => link.complete waiter.id (.ok response)
  | .dropped => link.complete waiter.id (.error .connectionClosed)

/-- The next step of a request. What it cannot do from where it stands changes nothing. -/
def act (link : Link) (waiter : Waiter) (act : Act) : Link :=
  match act, waiter.progress with
  | .register, .checked =>
    { link.advance waiter.id .registered with
      pending := link.pending.filter (· ≠ waiter.id) ++ [waiter.id] }
  | .recheck, .registered =>
    if link.connected then link.advance waiter.id .cleared
    else link.complete waiter.id (.error .connectionClosed)
  | .send none, .cleared => link.advance waiter.id .sent
  | .send (some fault), .cleared => link.complete waiter.id (.error (.file fault))
  | .collect, .sent => link.collect waiter
  | .cancel, .completed _ => link
  | .cancel, _ => (link.advance waiter.id .cancelled).unregister waiter.id
  | _, _ => link

def step (link : Link) : Step → Link
  | .check id =>
    if (link.waiter? id).isSome then link
    else
      let progress := if link.connected then .checked else .completed (.error .connectionClosed)
      { link with waiters := link.waiters ++ [⟨id, progress, .empty⟩] }
  | .act id act =>
    match link.waiter? id with
    | some waiter => link.act waiter act
    | none => link
  | .line text => if link.reader = .reading then link.takeLine text else link
  | .endOutput =>
    if link.reader = .reading then { link with reader := .ended, connected := false } else link
  | .dropWaiters =>
    if link.reader = .ended then { link.dropPending with reader := .finished } else link
  | .close => { link with connected := false }

/-- A run of steps. -/
def run (link : Link) (steps : List Step) : Link :=
  steps.foldl step link

/-- What a request came to, once it has come to an end. -/
def outcome? (link : Link) (id : Nat) : Option (Except ToolkitFault Response) :=
  match (link.waiter? id).map Waiter.progress with
  | some (.completed outcome) => some outcome
  | _ => none

/-- Forget a request that has come to an end, so that its number may be used again. -/
def forget (link : Link) (id : Nat) : Link :=
  { link with waiters := link.waiters.filter fun waiter => waiter.id ≠ id }

end Link

end DataflowEditor

import DataflowEditor.Envelope
import DataflowEditor.Toolkit.Call
import DataflowEditor.Toolkit.Error

/-! # Dialogues with the toolkit

An operation that needs the toolkit is a dialogue: it is done, or it asks a call and goes on with
the answer. What the toolkit answers is left open, so a dialogue says which calls are made, in which
order and with which parameters, whatever comes back. Run against something that answers calls, a
dialogue gives its result and the calls it made.
-/

namespace DataflowEditor

inductive Dialogue (α : Type) where
  | done (result : α)
  | ask (call : Call) (next : Except ToolkitFault call.Answer → Dialogue α)

namespace Dialogue

variable {α β γ : Type}

def bind (dialogue : Dialogue α) (more : α → Dialogue β) : Dialogue β :=
  match dialogue with
  | .done result => more result
  | .ask call next => .ask call fun answer => (next answer).bind more

instance : Monad Dialogue where
  pure := .done
  bind := bind

theorem bind_done (dialogue : Dialogue α) : dialogue.bind .done = dialogue := by
  induction dialogue with
  | done result => rfl
  | ask call next ih =>
    simp only [bind]
    exact congrArg _ (funext ih)

theorem bind_assoc (dialogue : Dialogue α) (more : α → Dialogue β)
    (last : β → Dialogue γ) :
    (dialogue.bind more).bind last = dialogue.bind fun result => (more result).bind last := by
  induction dialogue with
  | done result => rfl
  | ask call next ih =>
    simp only [bind]
    exact congrArg _ (funext ih)

instance : LawfulMonad Dialogue :=
  LawfulMonad.mk' Dialogue bind_done (fun _ _ => rfl) bind_assoc

/-- Ask one call and take its answer as it is. -/
def call (question : Call) : Dialogue (Except ToolkitFault question.Answer) :=
  .ask question .done

/-! ## Running -/

variable {σ : Type}

/-- Whoever answers calls, with a state that may change with every call. -/
abbrev Answerer (σ : Type) :=
  (call : Call) → σ → Except ToolkitFault call.Answer × σ

/-- The result of a dialogue with this answerer, and the state it is left in. -/
def run (answerer : Answerer σ) : Dialogue α → σ → α × σ
  | .done result, state => (result, state)
  | .ask call next, state =>
    let (answer, state) := answerer call state
    run answerer (next answer) state

/-- The calls of a dialogue with this answerer, in order. -/
def calls (answerer : Answerer σ) : Dialogue α → σ → List Call
  | .done _, _ => []
  | .ask call next, state =>
    let (answer, state) := answerer call state
    call :: calls answerer (next answer) state

theorem run_bind (answerer : Answerer σ) (dialogue : Dialogue α) (more : α → Dialogue β)
    (state : σ) :
    (dialogue.bind more).run answerer state =
      (more (dialogue.run answerer state).1).run answerer (dialogue.run answerer state).2 := by
  induction dialogue generalizing state with
  | done result => rfl
  | ask call next ih => exact ih _ _

end Dialogue

/-- A dialogue that ends well or with an error for the editor. -/
abbrev Operation (α : Type) := ExceptT Failure Dialogue α

namespace Operation

variable {α : Type}

/-- Give the result of a computation that asks nothing. -/
def ofAttempt (attempt : Attempt α) : Operation α :=
  ExceptT.mk (pure attempt)

/-- A failure of the toolkit under the message for what was attempted. -/
def toolkitFailure (message : String) (error : ToolkitFault) : Failure :=
  ⟨message, error.details⟩

/-- Ask one call; where it fails, the operation fails with this message. -/
def ask (call : Call) (message : String) : Operation call.Answer :=
  ExceptT.mk do return (← Dialogue.call call).mapError (toolkitFailure message)

/-- A step on a graph; where it fails, the operation fails with this message. -/
def onGraph (result : Except GraphError α) (message : String) : Operation α :=
  ofAttempt (result.mapError (.ofGraphError message))

end Operation

end DataflowEditor

import DataflowEditor.Proofs.Json.Records
import DataflowEditor.Proofs.Service.Payload
import DataflowEditor.Proofs.Service.Unreadable
import DataflowEditor.Proofs.Toolkit.Dialogue
import DataflowEditor.Service.Daemon

/-! # What an answer tells the editor

A success and a failure are answered by objects alike, and the editor has nothing but their members
to tell them apart. A failure has the one member `error`, from which it can be read back, and which
no request accepts as a graph. A success has the members of what was asked for, whatever they hold.
-/

namespace DataflowEditor

/-! ## Failures -/

/-- The answer reports this failure and nothing else, and is no graph to any action. -/
structure Json.Reports (answer : Json) (failure : Failure) : Prop where
  written : answer = .obj [("error",
    .obj [("message", .str failure.message), ("details", .str failure.details)])]
  read : Failure.ofJson answer = .ok failure
  refused : ∀ payload, payloadDocument? payload = some answer →
    readPayloadOrText payload = .error ⟨"Invalid SDFG provided", failure.message⟩
  ends : ∀ (action : Action) payload, action.payload? = some payload →
    payloadDocument? payload = some answer → ∀ options files,
      action.perform options files =
        Operation.ofAttempt
          (.error (action.misread?.getD ⟨"Invalid SDFG provided", failure.message⟩))

namespace Failure

variable (failure : Failure)

/-- A failure is read back from its document. -/
theorem ofJson_toJson : ofJson failure.toJson = .ok failure := by
  have hbody : bodyShape.decode (.ofJson (.obj [("message", .str failure.message),
      ("details", .str failure.details)])) = .ok failure := by
    simp [bodyShape, RecordShape.decodeMembers, RecordShape.missing?, RecordField.needed,
      RecordField.defaulted, Draft.ofMembers, Except.map]
  rw [ofJson, toJson, Json.decodeAs]
  simp [shape, hbody, RecordShape.decodeMembers, RecordShape.missing?, RecordField.needed,
    Draft.ofMembers, Except.map]

theorem reports : Json.Reports failure.toJson failure where
  written := rfl
  read := failure.ofJson_toJson
  refused := fun _ hdocument => readPayloadOrText_of_document hdocument
  ends := fun _ _ hpayload hdocument options files =>
    Action.perform_refused hpayload (readPayloadOrText_of_document hdocument) options files

end Failure

/-! ## Successes -/

namespace Action

/-- The members that a successful answer may have. -/
def answerKeys : Action → List (List String)
  | .list _ => [["transformations", "docstrings"], ["transformations", "docstrings", "warnings"]]
  | .apply _ => [["sdfg"]]
  | .applyAll _ => [["sdfg"]]
  | .expand _ => [["sdfg"]]
  | .replay _ => [["sdfg"]]
  | .specialize _ => [["sdfg"]]
  | .load _ => [["done"]]
  | .countOperations _ => [["arithOpsMap"]]
  | .work _ => [["arithOpsMap"]]
  | .depth _ => [["depthMap"]]
  | .averageParallelism _ => [["avgParallelismMap"]]
  | .operationalIntensity _ => [["opInMap"]]
  | .insert _ => [["sdfg", "uuid"]]
  | .remove _ => [["sdfg"]]
  | .compile _ => [["filename"]]

/-- An action that succeeds answers with the documented keys. -/
theorem perform_ok_keys {σ : Type} {answerer : Dialogue.Answerer σ} {state : σ} {action : Action}
    {options : WriteOptions} {files : FileLookup} {document : Json}
    (h : ((action.perform options files).run.run answerer state).1 = .ok document) :
    ∃ members, document = .obj members ∧ members.map Prod.fst ∈ action.answerKeys := by
  cases action with
  | list request =>
      obtain ⟨⟨found, warning⟩, rfl⟩ := Operation.map_ends_ok h
      refine ⟨_, rfl, ?_⟩
      cases warning <;> simp [answerKeys, Findings.toFields, Fields.append?]
  | insert request | remove request =>
      obtain ⟨_, _, rfl⟩ := map_eq_ok.mp h
      exact ⟨_, rfl, List.mem_singleton_self _⟩
  | _ =>
      obtain ⟨_, rfl⟩ := Operation.map_ends_ok h
      exact ⟨_, rfl, List.mem_singleton_self _⟩

/-- The key of a failure is not among them. -/
theorem error_notMem_answerKeys (action : Action) : ∀ keys ∈ action.answerKeys, "error" ∉ keys := by
  cases action <;> simp [answerKeys]

end Action

/-! ## All that is asked for -/

/-- What the daemon is asked for: an action, or the property metadata, which it may have kept. -/
inductive Inquiry where
  | act (files : FileLookup) (action : Action)
  | describe (kept : Option Json)

namespace Inquiry

def operation (options : WriteOptions) : Inquiry → Operation Json
  | .act files action => action.perform options files
  | .describe (some metadata) => return Daemon.metadataAnswer metadata
  | .describe none =>
    Daemon.metadataAnswer <$> Operation.ask .describeProperties metadataFailedMessage

def answerKeys : Inquiry → List (List String)
  | .act _ action => action.answerKeys
  | .describe _ => [["meta_dict"]]

/-- An inquiry that succeeds answers with the documented keys. -/
theorem operation_ok_keys {σ : Type} {answerer : Dialogue.Answerer σ} {state : σ}
    {inquiry : Inquiry} {options : WriteOptions} {document : Json}
    (h : ((inquiry.operation options).run.run answerer state).1 = .ok document) :
    ∃ members, document = .obj members ∧ members.map Prod.fst ∈ inquiry.answerKeys := by
  cases inquiry with
  | act files action => exact Action.perform_ok_keys h
  | describe kept =>
      cases kept with
      | some metadata => exact ⟨_, (Except.ok.inj h).symm, List.mem_singleton_self _⟩
      | none =>
          obtain ⟨metadata, rfl⟩ := Operation.map_ends_ok h
          exact ⟨_, rfl, List.mem_singleton_self _⟩

theorem error_notMem_answerKeys (inquiry : Inquiry) :
    ∀ keys ∈ inquiry.answerKeys, "error" ∉ keys := by
  cases inquiry with
  | act files action => exact action.error_notMem_answerKeys
  | describe kept => simp [answerKeys]

end Inquiry

namespace Daemon

variable {τ : Type} [Channel τ] (daemon : Daemon τ)

theorem run_eq {α : Type} (operation : Operation α) :
    daemon.run operation = ((operation.run.run Client.answer daemon.client).1,
      { daemon with client := (operation.run.run Client.answer daemon.client).2 }) :=
  rfl

/-- The daemon performs an action by running it through its client. -/
theorem perform_eq (files : FileLookup) (action : Action) :
    (daemon.perform files action).map id Daemon.client =
      ((Inquiry.act files action).operation daemon.options).run.run Client.answer daemon.client :=
  rfl

theorem describeProperties_eq : daemon.describeProperties.map id Daemon.client =
    ((Inquiry.describe daemon.metadata).operation daemon.options).run.run Client.answer
      daemon.client := by
  unfold describeProperties
  cases daemon.metadata with
  | some metadata => rfl
  | none =>
      rw [Inquiry.operation, ExceptT.run_map, Dialogue.run_map, run_eq]
      cases ((Operation.ask .describeProperties metadataFailedMessage).run.run Client.answer
        daemon.client).1 <;> rfl

end Daemon

/-- However the toolkit answers, the outcome can be told from the members of the answer. -/
theorem Inquiry.answer_tells (inquiry : Inquiry) (options : WriteOptions) {σ : Type}
    (answerer : Dialogue.Answerer σ) (state : σ) :
    let outcome := ((inquiry.operation options).run.run answerer state).1
    ∃ members, answerEnvelope (outcome.map .document) = .obj members ∧
      ("error" ∈ members.map Prod.fst ↔ ∃ failure, outcome = .error failure) ∧
      (∀ failure, outcome = .error failure → Json.Reports (.obj members) failure) ∧
      ∀ document, outcome = .ok document →
        document = .obj members ∧ members.map Prod.fst ∈ inquiry.answerKeys := by
  intro outcome
  cases houtcome : outcome with
  | error failure =>
      refine ⟨_, rfl, by simp, ?_, by simp⟩
      rintro _ ⟨⟩
      exact failure.reports
  | ok document =>
      obtain ⟨members, rfl, hkeys⟩ := inquiry.operation_ok_keys houtcome
      refine ⟨members, rfl, by simpa using inquiry.error_notMem_answerKeys _ hkeys, by simp, ?_⟩
      rintro _ ⟨⟩
      exact ⟨rfl, hkeys⟩

/-- A toolkit that gives back what reads like a failure. -/
def misleadingToolkit : Dialogue.Answerer Unit
  | .apply _ _ _, state => (.ok (Failure.toJson ⟨"Timeout", ""⟩), state)
  | _, state => (.error .noResult, state)

example : answerEnvelope (((((Inquiry.act (fun _ => .ok [])
      (.apply ⟨.obj [], .obj [("transformation", .str "A")]⟩)).operation ⟨false⟩).run.run
        misleadingToolkit ()).1).map .document) =
    .obj [("sdfg", Failure.toJson ⟨"Timeout", ""⟩)] := by
  decide

end DataflowEditor

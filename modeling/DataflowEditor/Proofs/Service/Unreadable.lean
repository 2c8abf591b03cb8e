import DataflowEditor.Service.Action

/-! # Graphs that cannot be read

An action that brings a graph reads it before it does anything else, and a graph that cannot be read
ends the action: with the failure of reading it, whatever else was asked for, and without a word to
the toolkit. There is one exception. What a request for the operational intensity says about symbols
and the cache is read before its graph is, so that it may be refused for another reason.
-/

namespace DataflowEditor

/-! ## Failures of reading -/

theorem readPayload_message {payload : Json} {failure : Failure}
    (h : readPayload payload = .error failure) :
    failure.message = invalidGraphMessage ∨ failure.message = parseFailedMessage := by
  unfold readPayload at h
  split at h
  · cases h
    exact .inl rfl
  · cases hdecoded : Arena.ofJson payload with
    | ok arena =>
        rw [hdecoded] at h
        cases h
    | error error =>
        rw [hdecoded] at h
        cases h
        exact .inr rfl

/-- A graph is refused with one of two messages. -/
theorem readPayloadOrText_message {payload : Json} {failure : Failure}
    (h : readPayloadOrText payload = .error failure) :
    failure.message = invalidGraphMessage ∨ failure.message = parseFailedMessage := by
  unfold readPayloadOrText at h
  split at h
  · split at h
    · exact readPayload_message h
    · cases h
      exact .inr rfl
  · exact readPayload_message h

/-! ## Operations that read a graph first -/

namespace Operation

variable {α β : Type} {payload : Json} {operation : Operation α}

/-- The operation reads a graph, and whatever else it does depends on the arena that it reads. -/
def ReadsFirst (payload : Json) (operation : Operation α) : Prop :=
  ∃ more : Arena → Operation α, operation = ofAttempt (readPayloadOrText payload) >>= more

theorem ReadsFirst.bind (h : operation.ReadsFirst payload) (more : α → Operation β) :
    (operation >>= more).ReadsFirst payload := by
  obtain ⟨first, rfl⟩ := h
  exact ⟨fun arena => first arena >>= more, bind_assoc _ _ _⟩

theorem ReadsFirst.map (h : operation.ReadsFirst payload) (change : α → β) :
    (change <$> operation).ReadsFirst payload := by
  rw [map_eq_pure_bind]
  exact h.bind _

/-- An operation that reads its payload first fails as reading it fails. -/
theorem ReadsFirst.refused (h : operation.ReadsFirst payload) {failure : Failure}
    (hread : readPayloadOrText payload = .error failure) :
    operation = ofAttempt (.error failure) := by
  obtain ⟨more, rfl⟩ := h
  rw [hread]
  rfl

/-- An attempt that reads a graph first, with a change to what it gives. -/
theorem readsFirst_ofAttempt {attempt : Attempt α} {more : Arena → Attempt α}
    (h : attempt = readPayloadOrText payload >>= more) (change : α → β) :
    (ofAttempt (change <$> attempt)).ReadsFirst payload := by
  rw [h]
  refine ⟨fun arena => ofAttempt (change <$> more arena), ?_⟩
  cases readPayloadOrText payload <;> rfl

end Operation

/-- An analysis reads its graph first. -/
theorem analyzeGraph_readsFirst (analysis : Analysis) (graph : Json)
    (build : Json → AnalysisQuery) : (analyzeGraph analysis graph build).ReadsFirst graph :=
  ⟨_, rfl⟩

/-- The failure over what a request says about symbols and the cache, if it cannot be read. -/
def IntensityRequest.misread? (request : IntensityRequest) : Option Failure :=
  match readAssignments request.assumptions, readCache request.cache with
  | .error details, _ => some ⟨Analysis.operationalIntensity.failedMessage, details⟩
  | .ok _, .error details => some ⟨Analysis.operationalIntensity.failedMessage, details⟩
  | .ok _, .ok _ => none

namespace IntensityRequest

variable {request : IntensityRequest} {failure : Failure}

theorem run_of_misread (h : request.misread? = some failure) :
    request.run = Operation.ofAttempt (.error failure) := by
  unfold misread? at h
  unfold run
  split at h
  next details hassignments =>
    cases h
    rw [hassignments]
    rfl
  next hassignments hcache =>
    cases h
    rw [hassignments, hcache]
    rfl
  next => cases h

/-- Operational intensity reads its graph first, once the rest of the request could be read. -/
theorem run_readsFirst (h : request.misread? = none) : request.run.ReadsFirst request.graph := by
  unfold misread? at h
  unfold run
  split at h
  next => cases h
  next => cases h
  next hassignments hcache =>
    rw [hassignments, hcache]
    exact ⟨_, rfl⟩

theorem message_of_misread (h : request.misread? = some failure) :
    failure.message = Analysis.operationalIntensity.failedMessage := by
  unfold misread? at h
  split at h <;> cases h <;> rfl

end IntensityRequest

/-! ## Actions -/

namespace Action

/-- The graph that an action brings, if it brings one. -/
def payload? : Action → Option Json
  | .list request => some request.graph
  | .apply request => some request.graph
  | .applyAll request => some request.graph
  | .expand request => request.graph
  | .replay request => some request.graph
  | .specialize request => some request.graph
  | .load _ => none
  | .countOperations request => some request.graph
  | .work request => some request.graph
  | .depth request => some request.graph
  | .averageParallelism request => some request.graph
  | .operationalIntensity request => some request.graph
  | .insert request => some request.graph
  | .remove request => some request.graph
  | .compile _ => none

/-- The failure of an action that is refused before its graph is looked at. -/
def misread? : Action → Option Failure
  | .operationalIntensity request => request.misread?
  | _ => none

variable {action : Action} {payload : Json} {failure : Failure}

/-- Nothing comes before the graph but what is misread. -/
theorem perform_readsFirst (hpayload : action.payload? = some payload)
    (hmisread : action.misread? = none) (options : WriteOptions) (files : FileLookup) :
    (action.perform options files).ReadsFirst payload := by
  cases action
  case list request | apply request | applyAll request | replay request | specialize request =>
    obtain rfl := Option.some.inj hpayload
    exact Operation.ReadsFirst.map ⟨_, rfl⟩ _
  case expand request =>
    obtain ⟨graph, node⟩ := request
    obtain rfl : graph = some payload := hpayload
    exact Operation.ReadsFirst.map ⟨_, rfl⟩ _
  case countOperations request =>
    obtain rfl := Option.some.inj hpayload
    exact ((analyzeGraph_readsFirst _ _ _).bind _).map _
  case work request | depth request | averageParallelism request =>
    obtain rfl := Option.some.inj hpayload
    exact (analyzeGraph_readsFirst _ _ _).map _
  case operationalIntensity request =>
    obtain rfl := Option.some.inj hpayload
    exact (IntensityRequest.run_readsFirst hmisread).map _
  case insert request | remove request =>
    obtain rfl := Option.some.inj hpayload
    exact Operation.readsFirst_ofAttempt rfl _
  case load request | compile request => cases hpayload

/-- An action whose request cannot be read fails without asking the toolkit. -/
theorem perform_of_misread (hmisread : action.misread? = some failure) (options : WriteOptions)
    (files : FileLookup) :
    action.perform options files = Operation.ofAttempt (.error failure) := by
  cases action with
  | operationalIntensity request =>
      rw [perform, IntensityRequest.run_of_misread hmisread]
      rfl
  | _ => cases hmisread

theorem message_of_misread (hmisread : action.misread? = some failure) :
    failure.message = Analysis.operationalIntensity.failedMessage := by
  cases action with
  | operationalIntensity request => exact IntensityRequest.message_of_misread hmisread
  | _ => cases hmisread

/-- What is misread counts before the graph. -/
theorem perform_refused (hpayload : action.payload? = some payload)
    (hread : readPayloadOrText payload = .error failure) (options : WriteOptions)
    (files : FileLookup) :
    action.perform options files =
      Operation.ofAttempt (.error (action.misread?.getD failure)) := by
  cases hmisread : action.misread? with
  | none => exact (perform_readsFirst hpayload hmisread options files).refused hread
  | some other => exact perform_of_misread hmisread options files

/-- An action that brings a graph that cannot be read is over without a word to the toolkit. It
fails as the reading did, whatever else it asks for, unless it is refused before its graph is looked
at. -/
theorem perform_unreadable (hpayload : action.payload? = some payload)
    (hread : readPayloadOrText payload = .error failure) (options : WriteOptions)
    (files : FileLookup) :
    (failure.message = invalidGraphMessage ∨ failure.message = parseFailedMessage) ∧
      action.perform options files =
        Operation.ofAttempt (.error (action.misread?.getD failure)) ∧
      (action.perform options files = Operation.ofAttempt (.error failure) ↔
        action.misread? = none) := by
  have hmessage := readPayloadOrText_message hread
  cases hmisread : action.misread? with
  | none =>
      have hrefused := (perform_readsFirst hpayload hmisread options files).refused hread
      exact ⟨hmessage, hrefused, iff_of_true hrefused rfl⟩
  | some other =>
      have hother := perform_of_misread hmisread options files
      refine ⟨hmessage, hother, iff_of_false (fun hsame => ?_) (by simp)⟩
      -- The two failures differ in what they say was attempted.
      obtain rfl : other = failure := by
        rw [hother] at hsame
        exact Except.error.inj (Dialogue.done.inj (congrArg ExceptT.run hsame))
      rw [message_of_misread hmisread] at hmessage
      revert hmessage
      decide

/-- A failed answer that is sent back as if it were a graph, to expand a node that is in no
graph. -/
def returnedFailure : Json :=
  .obj [("error", .obj [("message", .str "Timeout"), ("details", .null)])]

theorem returnedFailure_unreadable :
    readPayloadOrText returnedFailure = .error ⟨"Invalid SDFG provided", "Timeout"⟩ ∧
    (Action.expand ⟨some returnedFailure, some ⟨7, 0, 9⟩⟩).perform ⟨false⟩ (fun _ => .ok []) =
      Operation.ofAttempt (.error ⟨"Invalid SDFG provided", "Timeout"⟩) := by
  have hread : readPayloadOrText returnedFailure =
      .error ⟨"Invalid SDFG provided", "Timeout"⟩ :=
    rfl
  exact ⟨hread, (perform_unreadable rfl hread ⟨false⟩ fun _ => .ok []).2.1⟩

/-- Neither the graph nor the assumption can be read. -/
def misreadAction : Action :=
  .operationalIntensity ⟨.obj [("nodes", .nat 3)], "1024 64", "N>0"⟩

/-- The assumption is refused, and the editor does not learn about its graph. -/
theorem misreadAction_overtakes :
    readPayloadOrText (.obj [("nodes", .nat 3)]) =
      .error ⟨"Failed to parse the provided SDFG", "InvalidGraph: Invalid SDFG: expected " ++
        "'nodes' of graph to be an array, found a number"⟩ ∧
    misreadAction.perform ⟨false⟩ (fun _ => .ok []) =
      Operation.ofAttempt (.error ⟨"Failed to analyze operational intensity",
        "ValueError: Assumption 'N>0' is not of the form SYMBOL==value"⟩) ∧
    misreadAction.perform ⟨false⟩ (fun _ => .ok []) ≠
      Operation.ofAttempt (.error ⟨"Failed to parse the provided SDFG", "InvalidGraph: " ++
        "Invalid SDFG: expected 'nodes' of graph to be an array, found a number"⟩) := by
  have hmisread : misreadAction.misread? = some ⟨"Failed to analyze operational intensity",
      "ValueError: Assumption 'N>0' is not of the form SYMBOL==value"⟩ := by
    decide +kernel
  have hrefused := perform_of_misread hmisread ⟨false⟩ fun _ => .ok []
  refine ⟨rfl, hrefused, fun hsame => ?_⟩
  rw [hrefused] at hsame
  have hfailure := Except.error.inj (Dialogue.done.inj (congrArg ExceptT.run hsame))
  revert hfailure
  decide

end Action

end DataflowEditor

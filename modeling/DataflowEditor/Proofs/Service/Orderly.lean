import DataflowEditor.Proofs.Service.Unreadable
import DataflowEditor.Proofs.Toolkit.Dialogue

/-! # Operations that a failed call ends

No action goes on after a call that failed: it ends with a failure that tells what happened to the
call. And no action asks for the property metadata, which are none of its business.
-/

namespace DataflowEditor

/-- The failure tells how the call failed. An analysis has failures of its own. -/
def Call.Explains (call : Call) (fault : ToolkitFault) (failure : Failure) : Prop :=
  match call.analysis? with
  | some analysis => failure = analysis.failure fault
  | none => failure.details = fault.details

namespace Dialogue

variable {α : Type}

/-- Answered like this, a dialogue asks these calls and has this result. -/
inductive Plays : Dialogue α → List Answered → α → Prop where
  | done (result : α) : Plays (.done result) [] result
  | ask {call : Call} {next : Except ToolkitFault call.Answer → Dialogue α}
      {answer : Except ToolkitFault call.Answer} {said : List Answered} {result : α}
      (h : Plays (next answer) said result) : Plays (.ask call next) (⟨call, answer⟩ :: said) result

/-- Running a dialogue against an answerer plays what was said. -/
theorem plays_run {σ : Type} (answerer : Answerer σ) (dialogue : Dialogue α) (state : σ) :
    dialogue.Plays (dialogue.trace answerer state) (dialogue.run answerer state).1 := by
  induction dialogue generalizing state with
  | done result => exact .done result
  | ask call next ih => exact .ask (ih _ _)

/-- The dialogue makes no calls but those that it may, and a call that fails is the last one. -/
inductive Orderly (may : Call → Prop) : Dialogue (Attempt α) → Prop where
  | done (outcome : Attempt α) : Orderly may (.done outcome)
  | ask {call : Call} {next : Except ToolkitFault call.Answer → Dialogue (Attempt α)}
      (hmay : may call)
      (hfault : ∀ fault, ∃ failure, next (.error fault) = .done (.error failure) ∧
        call.Explains fault failure)
      (hnext : ∀ answer, Orderly may (next (.ok answer))) : Orderly may (.ask call next)

namespace Orderly

variable {may other : Call → Prop} {dialogue : Dialogue (Attempt α)} {said : List Answered}
  {outcome : Attempt α}

theorem mono (h : dialogue.Orderly may) (hother : ∀ call, may call → other call) :
    dialogue.Orderly other := by
  induction h with
  | done outcome => exact .done outcome
  | ask hmay hfault _ ih => exact .ask (hother _ hmay) hfault ih

/-- In an orderly dialogue every call that is made is one that may be made. -/
theorem may_of_mem (h : dialogue.Orderly may) (hplays : dialogue.Plays said outcome) :
    ∀ answered ∈ said, may answered.1 := by
  induction h generalizing said with
  | done result =>
      cases hplays
      simp
  | ask hmay hfault _ ih =>
      cases hplays with
      | @ask _ _ answer _ _ hmore =>
          refine List.forall_mem_cons.mpr ⟨hmay, ?_⟩
          cases answer with
          | ok value => exact ih value hmore
          | error fault =>
              obtain ⟨failure, hdone, _⟩ := hfault fault
              rw [hdone] at hmore
              cases hmore
              simp

/-- Nothing is asked after a call that failed, and the outcome is its failure. -/
theorem of_fault (h : dialogue.Orderly may) (hplays : dialogue.Plays said outcome)
    {before after : List Answered} {call : Call} {fault : ToolkitFault}
    (hsaid : said = before ++ ⟨call, .error fault⟩ :: after) :
    after = [] ∧ ∃ failure, outcome = .error failure ∧ call.Explains fault failure := by
  induction h generalizing said before with
  | done result =>
      cases hplays
      simp at hsaid
  | ask _ hfault _ ih =>
      cases hplays with
      | @ask _ _ answer _ _ hmore =>
          cases before with
          | nil =>
              obtain ⟨⟨⟩, rfl⟩ := List.cons.inj hsaid
              obtain ⟨failure, hdone, hexplains⟩ := hfault fault
              rw [hdone] at hmore
              cases hmore
              exact ⟨rfl, failure, rfl, hexplains⟩
          | cons first before =>
              have hrest := (List.cons.inj hsaid).2
              cases answer with
              | ok value => exact ih value hmore hrest
              | error fault =>
                  obtain ⟨failure, hdone, _⟩ := hfault fault
                  rw [hdone] at hmore
                  cases hmore
                  simp at hrest

end Orderly

end Dialogue

/-! ## Operations -/

namespace Operation

variable {α β : Type} {operation : Operation α}

/-- The operation does not ask for the property metadata, and ends with a call that fails. -/
def Orderly (operation : Operation α) : Prop :=
  operation.run.Orderly (· ≠ .describeProperties)

theorem orderly_ofAttempt (attempt : Attempt α) : (ofAttempt attempt).Orderly :=
  .done attempt

theorem orderly_onGraph (result : Except GraphError α) (message : String) :
    (onGraph result message).Orderly :=
  orderly_ofAttempt _

theorem orderly_ask {call : Call} (hcall : call ≠ .describeProperties)
    (hanalysis : call.analysis? = none) (message : String) : (ask call message).Orderly := by
  refine .ask hcall (fun fault => ⟨_, rfl, ?_⟩) fun answer => .done (.ok answer)
  rw [Call.Explains, hanalysis]
  rfl

theorem Orderly.bind (h : operation.Orderly) {more : α → Operation β}
    (hmore : ∀ value, (more value).Orderly) : (operation >>= more).Orderly := by
  have hbind : ∀ dialogue : Dialogue (Attempt α), dialogue.Orderly (· ≠ .describeProperties) →
      (dialogue.bind (ExceptT.bindCont more)).Orderly (· ≠ .describeProperties) := by
    intro dialogue horderly
    induction horderly with
    | done outcome =>
        cases outcome with
        | ok value => exact hmore value
        | error failure => exact .done (.error failure)
    | ask hmay hfault _ ih =>
        refine .ask hmay (fun fault => ?_) ih
        obtain ⟨failure, hdone, hexplains⟩ := hfault fault
        exact ⟨failure, by rw [hdone]; rfl, hexplains⟩
  exact hbind operation.run h

theorem Orderly.map (h : operation.Orderly) (change : α → β) : (change <$> operation).Orderly := by
  rw [map_eq_pure_bind]
  exact h.bind fun value => .done (.ok (change value))

end Operation

/-! ## Actions -/

theorem applyStep_orderly (options : WriteOptions) (arena : Arena) (current transformation : Json)
    (message : String) : (applyStep options arena current transformation message).Orderly :=
  (Operation.orderly_onGraph _ _).bind fun _ => (Operation.orderly_onGraph _ _).bind fun _ =>
    Operation.orderly_ask (by simp) rfl message

/-- A batch never asks for the metadata, and a call that fails ends it. -/
theorem applyFrom_orderly (options : WriteOptions) (arena : Arena) (current : Json)
    (position : Nat) (transformations : List Json) :
    (applyFrom options arena current position transformations).Orderly := by
  fun_induction applyFrom options arena current position transformations with
  | case1 arena current => exact .done (.ok current)
  | case2 => exact applyStep_orderly _ _ _ _ _
  | case3 arena current position transformation next rest ih =>
      exact (applyStep_orderly _ _ _ _ _).bind fun returned =>
        (Operation.orderly_onGraph _ _).bind fun again => ih returned again

theorem replayed_orderly (options : WriteOptions) (ancestor : Arena) (history : List Json)
    (count : Nat) : (replayed options ancestor history count).Orderly := by
  induction count with
  | zero => exact .done (.ok ancestor.toJson)
  | succ count ih =>
      rw [replayed]
      refine ih.bind fun current => ?_
      split
      · exact applyStep_orderly _ _ _ _ _
      · exact (Operation.orderly_onGraph _ _).bind fun arena => applyStep_orderly _ _ _ _ _

theorem analyzeGraph_orderly (analysis : Analysis) (graph : Json) (build : Json → AnalysisQuery)
    (hbuild : ∀ document, (build document).analysis = analysis) :
    (analyzeGraph analysis graph build).Orderly := by
  refine (Operation.orderly_ofAttempt _).bind fun arena =>
    .ask (by simp) (fun fault => ⟨_, rfl, ?_⟩) fun results => .done (.ok results)
  rw [Call.Explains, Call.analysis?, hbuild]

theorem ListingRequest.run_orderly (request : ListingRequest) (options : WriteOptions) :
    (request.run options).Orderly := by
  refine (Operation.orderly_ofAttempt _).bind fun arena => (Operation.orderly_onGraph _ _).bind
    fun selection => (Operation.orderly_ask (by simp) rfl _).bind fun found => ?_
  split
  · exact .done _
  · split
    · exact .done _
    · exact (Operation.orderly_ask (by simp) rfl _).bind fun more => .done _

theorem ApplicationRequest.run_orderly (request : ApplicationRequest) (options : WriteOptions) :
    (request.run options).Orderly :=
  (Operation.orderly_ofAttempt _).bind fun _ => applyStep_orderly _ _ _ _ _

theorem BatchRequest.run_orderly (request : BatchRequest) (options : WriteOptions) :
    (request.run options).Orderly :=
  (Operation.orderly_ofAttempt _).bind fun _ => applyFrom_orderly _ _ _ _ _

theorem ExpansionRequest.run_orderly (request : ExpansionRequest) (options : WriteOptions) :
    (request.run options).Orderly := by
  unfold ExpansionRequest.run
  split
  · exact .done _
  · refine (Operation.orderly_ofAttempt _).bind fun arena => ?_
    split
    · exact (Operation.orderly_ofAttempt _).bind fun _ => Operation.orderly_ask (by simp) rfl _
    · exact Operation.orderly_ask (by simp) rfl _

theorem ReplayRequest.run_orderly (request : ReplayRequest) (options : WriteOptions) :
    (request.run options).Orderly := by
  refine (Operation.orderly_ofAttempt _).bind fun arena => ?_
  split
  · exact .done _
  · dsimp only
    split
    · exact .done _
    · exact (Operation.orderly_onGraph _ _).bind fun ancestor => replayed_orderly _ _ _ _

theorem SymbolRequest.run_orderly (request : SymbolRequest) (options : WriteOptions) :
    (request.run options).Orderly :=
  (Operation.orderly_ofAttempt _).bind fun _ => Operation.orderly_ask (by simp) rfl _

theorem LoadRequest.run_orderly (request : LoadRequest) : request.run.Orderly := by
  unfold LoadRequest.run
  split
  · exact .done _
  · exact Operation.orderly_ask (by simp) rfl _

theorem AssumptionRequest.run_orderly (request : AssumptionRequest) (analysis : Analysis) :
    (request.run analysis).Orderly :=
  analyzeGraph_orderly analysis _ _ fun _ => rfl

theorem IntensityRequest.run_orderly (request : IntensityRequest) : request.run.Orderly :=
  (Operation.orderly_ofAttempt _).bind fun _ => (Operation.orderly_ofAttempt _).bind
    fun _ => analyzeGraph_orderly .operationalIntensity _ _ fun _ => rfl

theorem CompilationRequest.run_orderly (request : CompilationRequest) (options : WriteOptions)
    (files : FileLookup) : (request.run options files).Orderly :=
  (Operation.orderly_onGraph _ _).bind fun _ => Operation.orderly_ask (by simp) rfl _

namespace Action

/-- No action asks for the metadata, and a call that fails ends it. -/
theorem perform_orderly (action : Action) (options : WriteOptions) (files : FileLookup) :
    (action.perform options files).Orderly := by
  cases action with
  | list request => exact (request.run_orderly options).map _
  | apply request => exact (request.run_orderly options).map _
  | applyAll request => exact (request.run_orderly options).map _
  | expand request => exact (request.run_orderly options).map _
  | replay request => exact (request.run_orderly options).map _
  | specialize request => exact (request.run_orderly options).map _
  | load request => exact request.run_orderly.map _
  | countOperations request =>
      exact ((request.run_orderly .arithmeticOps).bind fun results => .done _).map _
  | work request => exact (request.run_orderly .work).map _
  | depth request => exact (request.run_orderly .depth).map _
  | averageParallelism request => exact (request.run_orderly .averageParallelism).map _
  | operationalIntensity request => exact request.run_orderly.map _
  | insert request | remove request => exact Operation.orderly_ofAttempt _
  | compile request => exact (request.run_orderly options files).map _

end Action

/-! ## Analyses -/

/-- The operation begins with the call for an analysis. -/
def Operation.Analyzes {α : Type} (operation : Operation α) (analysis : Analysis) : Prop :=
  ∃ query next, query.analysis = analysis ∧ operation.run = .ask (.analyze query) next

/-- An operation that begins with an analysis still does when more follows. -/
theorem Operation.Analyzes.bind {α β : Type} {operation : Operation α} {analysis : Analysis}
    (h : operation.Analyzes analysis) (more : α → Operation β) :
    (operation >>= more).Analyzes analysis := by
  obtain ⟨query, next, hquery, hrun⟩ := h
  refine ⟨query, fun answer => (next answer).bind (ExceptT.bindCont more), hquery, ?_⟩
  rw [ExceptT.run_bind, hrun]
  rfl

theorem Operation.Analyzes.map {α β : Type} {operation : Operation α} {analysis : Analysis}
    (h : operation.Analyzes analysis) (change : α → β) :
    (change <$> operation).Analyzes analysis := by
  rw [map_eq_pure_bind]
  exact h.bind _

/-- On a graph that can be read, the analysis comes first. -/
theorem analyzeGraph_analyzes {analysis : Analysis} {graph : Json} {build : Json → AnalysisQuery}
    {arena : Arena} (hread : readPayloadOrText graph = .ok arena)
    (hbuild : ∀ document, (build document).analysis = analysis) :
    (analyzeGraph analysis graph build).Analyzes analysis := by
  rw [analyzeGraph, hread]
  exact ⟨build arena.toJson, _, hbuild _, rfl⟩

theorem AssumptionRequest.run_analyzes {request : AssumptionRequest} {arena : Arena}
    (hread : readPayloadOrText request.graph = .ok arena) (analysis : Analysis) :
    (request.run analysis).Analyzes analysis := by
  unfold AssumptionRequest.run
  exact analyzeGraph_analyzes hread fun _ => rfl

/-- So it does for operational intensity, once the request itself could be read. -/
theorem IntensityRequest.run_analyzes {request : IntensityRequest} {arena : Arena}
    (hread : readPayloadOrText request.graph = .ok arena) (hmisread : request.misread? = none) :
    request.run.Analyzes .operationalIntensity := by
  unfold misread? at hmisread
  unfold run
  split at hmisread
  next => cases hmisread
  next => cases hmisread
  next values cache hassignments hcache =>
    rw [hassignments, hcache]
    show (analyzeGraph .operationalIntensity request.graph fun graph =>
      ⟨.operationalIntensity, graph, [], values, some cache⟩).Analyzes .operationalIntensity
    exact analyzeGraph_analyzes hread fun _ => rfl

namespace Action

/-- The analysis that an action asks for. -/
def analysis? : Action → Option Analysis
  | .countOperations _ => some .arithmeticOps
  | .work _ => some .work
  | .depth _ => some .depth
  | .averageParallelism _ => some .averageParallelism
  | .operationalIntensity _ => some .operationalIntensity
  | _ => none

/-- An action that asks for an analysis calls for it, if its graph can be read and it is not refused
before that. -/
theorem perform_analyzes {action : Action} {analysis : Analysis} {payload : Json} {arena : Arena}
    (hanalysis : action.analysis? = some analysis) (hpayload : action.payload? = some payload)
    (hread : readPayloadOrText payload = .ok arena) (hmisread : action.misread? = none)
    (options : WriteOptions) (files : FileLookup) :
    (action.perform options files).Analyzes analysis := by
  cases action <;> cases hanalysis <;> cases hpayload
  case countOperations request =>
    exact ((AssumptionRequest.run_analyzes hread .arithmeticOps).bind _).map _
  case operationalIntensity request =>
    exact (IntensityRequest.run_analyzes hread hmisread).map _
  all_goals exact (AssumptionRequest.run_analyzes hread _).map _

end Action

end DataflowEditor

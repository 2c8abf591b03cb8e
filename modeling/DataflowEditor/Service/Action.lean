import DataflowEditor.Service.Analysis
import DataflowEditor.Service.Compilation
import DataflowEditor.Service.History
import DataflowEditor.Service.Insertion
import DataflowEditor.Service.Removal
import DataflowEditor.Service.Transformation

/-! # Actions

An action is one request of the editor, decoded: everything it may ask for, apart from the property
metadata, which is the same for all. What an action does is an operation on the toolkit that gives
the document of the answer.
-/

namespace DataflowEditor

inductive Action where
  | list (request : ListingRequest)
  | apply (request : ApplicationRequest)
  | applyAll (request : BatchRequest)
  | expand (request : ExpansionRequest)
  | replay (request : ReplayRequest)
  | specialize (request : SymbolRequest)
  | load (request : LoadRequest)
  | countOperations (request : AssumptionRequest)
  | work (request : AssumptionRequest)
  | depth (request : AssumptionRequest)
  | averageParallelism (request : AssumptionRequest)
  | operationalIntensity (request : IntensityRequest)
  | insert (request : InsertionRequest)
  | remove (request : RemovalRequest)
  | compile (request : CompilationRequest)
deriving DecidableEq, Inhabited

namespace Action

/-- Carry out an action. -/
def perform (options : WriteOptions) (files : FileLookup) : Action → Operation Json
  | .list request => Listing.toJson <$> request.run options
  | .apply request => graphAnswer <$> request.run options
  | .applyAll request => graphAnswer <$> request.run options
  | .expand request => graphAnswer <$> request.run options
  | .replay request => graphAnswer <$> request.run options
  | .specialize request => graphAnswer <$> request.run options
  | .load request => (fun _ => .obj [("done", .bool true)]) <$> request.run
  | .countOperations request => AnalysisResults.answer .arithmeticOps <$> request.countOperations
  | .work request => AnalysisResults.answer .work <$> request.run .work
  | .depth request => AnalysisResults.answer .depth <$> request.run .depth
  | .averageParallelism request =>
    AnalysisResults.answer .averageParallelism <$> request.run .averageParallelism
  | .operationalIntensity request =>
    AnalysisResults.answer .operationalIntensity <$> request.run
  | .insert request => Operation.ofAttempt (Inserted.toJson <$> request.run)
  | .remove request => Operation.ofAttempt (graphAnswer <$> request.run)
  | .compile request => CompiledLibrary.toJson <$> request.run options files

end Action

end DataflowEditor

import DataflowEditor.Toolkit.Analysis
import DataflowEditor.Toolkit.Exchange

/-! # Calls

Everything the daemon asks of the toolkit is one of nine calls. Each has a method name, a document
of parameters and an answer of its own type. Graphs go out in the form that the editor uses, and
every call that brings a graph back says how that graph is to be written.
-/

namespace DataflowEditor

inductive Call where
  /-- Every transformation that applies somewhere in a graph. -/
  | findMatches (graph : Json) (permissive : Bool) (options : WriteOptions)
  /-- The transformations that apply to a selection as a whole. -/
  | findForSubgraph (graph : Json) (selection : SelectedSubgraph) (options : WriteOptions)
  | apply (graph transformation : Json) (options : WriteOptions)
  /-- Expand one library node, or all of them. -/
  | expand (graph : Json) (node : Option Location) (options : WriteOptions)
  /-- Replace symbols by values. -/
  | specialize (graph : Json) (symbols : Fields) (options : WriteOptions)
  | analyze (request : AnalysisQuery)
  /-- The description of every property that elements can have. -/
  | describeProperties
  | compile (graph : Json) (options : WriteOptions)
  /-- Load modules with transformations of the user. -/
  | load (paths : List String)
deriving DecidableEq, Inhabited

namespace Call

@[reducible]
def Answer : Call → Type
  | .findMatches _ _ _ => Findings
  | .findForSubgraph _ _ _ => Findings
  | .apply _ _ _ => Json
  | .expand _ _ _ => Json
  | .specialize _ _ _ => Json
  | .analyze _ => AnalysisResults
  | .describeProperties => Json
  | .compile _ _ => CompiledLibrary
  | .load _ => Unit

def method : Call → String
  | .findMatches _ _ _ => "pattern_matches"
  | .findForSubgraph _ _ _ => "subgraph_transformations"
  | .apply _ _ _ => "apply_transformation"
  | .expand _ _ _ => "expand_library_nodes"
  | .specialize _ _ _ => "specialize"
  | .analyze _ => "analyze"
  | .describeProperties => "property_metadata"
  | .compile _ _ => "compile"
  | .load _ => "load_custom_transformations"

/-- The parameters of a call that brings a graph back. -/
def graphParams (graph : Json) (options : WriteOptions) (more : Fields) : Json :=
  .obj ([("sdfg", graph), ("options", options.toJson)] ++ more)

def params : Call → Json
  | .findMatches graph permissive options =>
    graphParams graph options [("permissive", .bool permissive)]
  | .findForSubgraph graph selection options =>
    graphParams graph options [("selection", selection.toJson)]
  | .apply graph transformation options =>
    graphParams graph options [("transformation", transformation)]
  | .expand graph node options =>
    graphParams graph options [("node", (node.map Location.toJson).getD .null)]
  | .specialize graph symbols options => graphParams graph options [("symbols", .obj symbols)]
  | .analyze request => request.toJson
  | .describeProperties => .null
  | .compile graph options => graphParams graph options []
  | .load paths => .obj [("paths", .arr (paths.map .str))]

def decodeGraph : Decoder Json := fun draft =>
  (ReturnedGraph.shape.decode draft).map ReturnedGraph.graph

def decodeAnswer : (call : Call) → Decoder call.Answer
  | .findMatches _ _ _ => Findings.shape.decode
  | .findForSubgraph _ _ _ => Findings.shape.decode
  | .apply _ _ _ => decodeGraph
  | .expand _ _ _ => decodeGraph
  | .specialize _ _ _ => decodeGraph
  | .analyze _ => AnalysisResults.decode
  | .describeProperties => Draft.json
  | .compile _ _ => CompiledLibrary.shape.decode
  | .load _ => fun draft => draft.json.map fun _ => ()

/-- The analysis that a call runs. -/
def analysis? : Call → Option Analysis
  | .analyze request => some request.analysis
  | _ => none

end Call

end DataflowEditor

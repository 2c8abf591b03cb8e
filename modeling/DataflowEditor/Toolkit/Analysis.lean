import DataflowEditor.Json.Canonical
import DataflowEditor.Toolkit.Message

/-! # Analyses

The toolkit can run five static analyses. Counting operations is always there; the others depend on
a capability that the toolkit states when it is greeted. A request names the analysis and the graph,
with assumptions about symbols, values of symbols and a cache model where the analysis takes them.
-/

namespace DataflowEditor

inductive Analysis where
  | arithmeticOps
  | work
  | depth
  | averageParallelism
  | operationalIntensity
deriving DecidableEq, Inhabited

namespace Analysis

def all : List Analysis :=
  [.arithmeticOps, .work, .depth, .averageParallelism, .operationalIntensity]

/-- The name in messages. -/
def name : Analysis → String
  | .arithmeticOps => "arithmetic_ops"
  | .work => "work"
  | .depth => "depth"
  | .averageParallelism => "average_parallelism"
  | .operationalIntensity => "operational_intensity"

/-- The capability that the toolkit must have. -/
def needs? : Analysis → Option String
  | .arithmeticOps => none
  | .work => some "work_depth"
  | .depth => some "work_depth"
  | .averageParallelism => some "work_depth"
  | .operationalIntensity => some "operational_intensity"

/-- The name for people. -/
def title : Analysis → String
  | .arithmeticOps => "arithmetic operations"
  | .work => "work"
  | .depth => "depth"
  | .averageParallelism => "average parallelism"
  | .operationalIntensity => "operational intensity"

def toJson (analysis : Analysis) : Json :=
  .str analysis.name

def ofName (name : String) : Except DecodeFault Analysis :=
  match all.find? fun analysis => analysis.name = name with
  | some analysis => .ok analysis
  | none => .error (.mismatch [] (.variant name (all.map Analysis.name)))

/-- An analysis is given by its name, or by an object that maps its name to null. -/
def decode : Decoder Analysis
  | .text (some name) => ofName name
  | .object false [(some name, value)] true => do
    let analysis ← ofName name
    match value with
    | .null => return analysis
    | value => value.refuse "unit"
  | .object _ _ _ => .error (.mismatch [] (.value .map "map with a single key"))
  | draft => draft.refuse "string or map"

end Analysis

/-- The cache that operational intensity is worked out for, in octets. -/
structure CacheModel where
  size : Nat
  lineSize : Nat
deriving DecidableEq, Inhabited

namespace CacheModel

def toJson (cache : CacheModel) : Json :=
  .obj [("size", .nat cache.size), ("line_size", .nat cache.lineSize)]

def shape : RecordShape CacheModel where
  name := "struct CacheParams"
  blank := ⟨0, 0⟩
  fields := [
    .needed "size" (Draft.natural "u64") fun cache size => { cache with size },
    .needed "line_size" (Draft.natural "u64") fun cache lineSize => { cache with lineSize }]

end CacheModel

/-- Put the entries of a mapping into the order of their keys. -/
def sortEntries {α : Type} (entries : List (String × α)) : List (String × α) :=
  entries.mergeSort fun a b => a.1 ≤ b.1

structure AnalysisQuery where
  analysis : Analysis
  graph : Json
  /-- What may be taken for granted about symbols, such as `N>0`. -/
  assumptions : List String
  /-- Values of symbols, in the order of their names. -/
  symbolValues : List (String × Int)
  cache : Option CacheModel
deriving DecidableEq, Inhabited

namespace AnalysisQuery

def toFields (request : AnalysisQuery) : Fields :=
  let assumptions := if request.assumptions.isEmpty then none
    else some (Json.arr (request.assumptions.map .str))
  let values := if request.symbolValues.isEmpty then none
    else some (Json.obj (request.symbolValues.map fun (name, value) => (name, .int value)))
  Fields.append? (Fields.append? (Fields.append?
    [("kind", request.analysis.toJson), ("sdfg", request.graph)] "assumptions" assumptions)
    "symbol_values" values) "cache" (request.cache.map CacheModel.toJson)

def toJson (request : AnalysisQuery) : Json :=
  .obj request.toFields

def decodeValues : Decoder (List (String × Int)) := fun draft =>
  (draft.mapping (Draft.integer (-halfWordCount) (halfWordCount - 1) "i64")).map sortEntries

def shape : RecordShape AnalysisQuery where
  name := "struct AnalysisRequest"
  blank := ⟨.arithmeticOps, .null, [], [], none⟩
  fields := [
    .needed "kind" Analysis.decode fun request analysis => { request with analysis },
    .needed "sdfg" Draft.json fun request graph => { request with graph },
    .defaulted "assumptions" (Draft.list Draft.string) fun request assumptions =>
      { request with assumptions },
    .defaulted "symbol_values" decodeValues fun request symbolValues =>
      { request with symbolValues },
    .defaulted "cache" (Draft.optional CacheModel.shape.decode) fun request cache =>
      { request with cache }]

end AnalysisQuery

/-- The results of an analysis: an expression for each address, in the order of the addresses. -/
abbrev AnalysisResults := List (String × String)

namespace AnalysisResults

def decode : Decoder AnalysisResults := fun draft =>
  (draft.mapping Draft.string).map sortEntries

def toJson (results : AnalysisResults) : Json :=
  .obj (results.map fun (address, expression) => (address, .str expression))

end AnalysisResults

end DataflowEditor

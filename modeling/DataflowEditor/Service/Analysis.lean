import DataflowEditor.Graph.Encode
import DataflowEditor.Text.Blank
import DataflowEditor.Toolkit.Dialogue

/-! # Analyses of a graph

A request for an analysis brings the graph and assumptions about its symbols, written as words with
blanks between them. Operational intensity wants a value for each symbol that it mentions, and a
cache to reckon with. The results come back by address and are passed on as they are, but powers in
operation counts are written with a caret.
-/

namespace DataflowEditor

namespace Analysis

/-- The member of the answer that holds the results. -/
def answerKey : Analysis → String
  | .arithmeticOps => "arithOpsMap"
  | .work => "arithOpsMap"
  | .depth => "depthMap"
  | .averageParallelism => "avgParallelismMap"
  | .operationalIntensity => "opInMap"

def failedMessage (analysis : Analysis) : String :=
  "Failed to analyze " ++ analysis.title

def outdatedMessage : Analysis → String
  | .operationalIntensity => "Toolkit does not support operational intensity analysis"
  | _ => "Toolkit does not support work depth analysis"

/-- The failure of an analysis. A toolkit that cannot run it is too old. -/
def failure (analysis : Analysis) : ToolkitFault → Failure
  | .unsupported _ =>
    ⟨analysis.outdatedMessage, "Please update the toolkit to a newer version"⟩
  | error => ⟨analysis.failedMessage, error.details⟩

end Analysis

/-- The answer to a request for an analysis. -/
def AnalysisResults.answer (analysis : Analysis) (results : AnalysisResults) : Json :=
  .obj [(analysis.answerKey, results.toJson)]

/-- Decode the graph and have it analyzed, with a request that is built from its document. -/
def analyzeGraph (analysis : Analysis) (graph : Json) (build : Json → AnalysisQuery) :
    Operation AnalysisResults := do
  let arena ← Operation.ofAttempt (readPayloadOrText graph)
  ExceptT.mk do
    return (← Dialogue.call (.analyze (build arena.toJson))).mapError analysis.failure

/-! ## With assumptions -/

structure AssumptionRequest where
  graph : Json
  assumptions : String
deriving DecidableEq, Inhabited

def AssumptionRequest.shape : RecordShape AssumptionRequest where
  name := "struct AnalyzeRequest"
  blank := ⟨.null, ""⟩
  fields := [
    .needed "sdfg" Draft.json fun request graph => { request with graph },
    .defaulted "assumptions" Draft.string fun request assumptions =>
      { request with assumptions }]

/-- The words of a text. -/
def wordsOf (text : String) : List String :=
  (Text.words text.toList).map String.ofList

/-- The expression with each `**` written as a caret, taken from the left. -/
def caretPowers : List Char → List Char
  | '*' :: '*' :: rest => '^' :: caretPowers rest
  | c :: rest => c :: caretPowers rest
  | [] => []

/-- Run an analysis that takes assumptions. -/
def AssumptionRequest.run (request : AssumptionRequest) (analysis : Analysis) :
    Operation AnalysisResults :=
  analyzeGraph analysis request.graph fun graph =>
    ⟨analysis, graph, wordsOf request.assumptions, [], none⟩

/-- Count operations. -/
def AssumptionRequest.countOperations (request : AssumptionRequest) :
    Operation AnalysisResults := do
  let results ← request.run .arithmeticOps
  return results.map fun (address, expression) =>
    (address, String.ofList (caretPowers expression.toList))

/-! ## Operational intensity -/

structure IntensityRequest where
  graph : Json
  /-- The size of the cache and of its lines, in octets. -/
  cache : String
  /-- Values of symbols, such as `N==4`. -/
  assumptions : String
deriving DecidableEq, Inhabited

def IntensityRequest.shape : RecordShape IntensityRequest where
  name := "struct OperationalIntensityRequest"
  blank := ⟨.null, "1024 64", ""⟩
  fields := [
    .needed "sdfg" Draft.json fun request graph => { request with graph },
    .defaulted "cacheParams" Draft.string fun request cache => { request with cache },
    .defaulted "assumptions" Draft.string fun request assumptions =>
      { request with assumptions }]

/-- A symbol and its value, from a word. The details of the failure come first. -/
def readAssignment (word : List Char) : Except String (String × Int) :=
  match Text.splitOnce ['=', '='] word with
  | none =>
    .error ("ValueError: Assumption '" ++ String.ofList word ++
      "' is not of the form SYMBOL==value")
  | some (symbol, value) =>
    match Text.readSigned value with
    | .ok value => .ok (String.ofList symbol, value)
    | .error fault =>
      .error ("ValueError: Invalid value for '" ++ String.ofList symbol ++ "': " ++ fault.message)

/-- The values of symbols in the order of their names; the last value of a symbol counts. -/
def readAssignments (text : String) : Except String (List (String × Int)) := do
  let entries ← (Text.words text.toList).mapM readAssignment
  return sortEntries (entries.foldl (fun all entry => Draft.putEntry all entry.1 entry.2) [])

/-- One of the numbers of a cache. -/
def readCacheNumber (what : String) : Option (List Char) → Except String Nat
  | none => .error ("IndexError: Cache parameters are missing the " ++ what)
  | some word =>
    match Text.readUnsigned (wordCount - 1) word with
    | .ok value => .ok value
    | .error fault =>
      .error ("ValueError: Invalid cache " ++ what ++ " '" ++ String.ofList word ++ "': " ++
        fault.message)

/-- A cache, from the first two words of a text. -/
def readCache (text : String) : Except String CacheModel := do
  let words := Text.words text.toList
  let size ← readCacheNumber "size" words[0]?
  let lineSize ← readCacheNumber "line size" words[1]?
  return ⟨size, lineSize⟩

/-- Work out the operational intensity. What is written about symbols and cache is read before the
graph is looked at. -/
def IntensityRequest.run (request : IntensityRequest) : Operation AnalysisResults := do
  let failed := Analysis.operationalIntensity.failedMessage
  let values ← Operation.ofAttempt
    ((readAssignments request.assumptions).mapError (⟨failed, ·⟩))
  let cache ← Operation.ofAttempt ((readCache request.cache).mapError (⟨failed, ·⟩))
  analyzeGraph .operationalIntensity request.graph fun graph =>
    ⟨.operationalIntensity, graph, [], values, some cache⟩

end DataflowEditor

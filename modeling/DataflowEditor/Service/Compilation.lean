import DataflowEditor.Graph.Edit
import DataflowEditor.Graph.Encode
import DataflowEditor.Toolkit.Dialogue

/-! # Compiling a graph file

The graph to compile is named by the path of its file. What the file holds is looked up beforehand,
so that an operation reads nothing itself.
-/

namespace DataflowEditor

def fileFailedMessage : String :=
  "Failed to load the provided SDFG file path"

def compileFailedMessage : String :=
  "Failed to compile the SDFG"

structure CompilationRequest where
  path : String
  /-- Measure nothing when the graph runs. -/
  suppressInstrumentation : Bool
deriving DecidableEq, Inhabited

def CompilationRequest.shape : RecordShape CompilationRequest where
  name := "struct CompileRequest"
  blank := ⟨"", false⟩
  fields := [
    .needed "path" (Draft.textAs "path string") fun request path => { request with path },
    .defaulted "suppress_instrumentation" Draft.boolean fun request suppressInstrumentation =>
      { request with suppressInstrumentation }]

/-- What is found under paths. -/
abbrev FileLookup := String → Except FileFault (List UInt8)

/-- The arena in the file under a path. -/
def loadFile (files : FileLookup) (path : String) : Except GraphError Arena := do
  Arena.ofFile (← (files path).mapError .file)

def CompilationRequest.run (request : CompilationRequest) (options : WriteOptions)
    (files : FileLookup) : Operation CompiledLibrary := do
  let arena ← Operation.onGraph (loadFile files request.path) fileFailedMessage
  let arena := if request.suppressInstrumentation then arena.uninstrumented else arena
  Operation.ask (.compile arena.toJson options) compileFailedMessage

end DataflowEditor

import DataflowEditor.Program.Run

/-! # The program

The outermost layer: it reads the arguments and the environment, and prints what a run comes to.
Here no worker can be started, since a program of this kind has no processes of its own to hand; a
run gets as far as that.
-/

namespace DataflowEditor.Console

/-- The variables that the program looks at. -/
def readEnvironment : IO (List (String × String)) := do
  let names := Arguments.environmentNames.filterMap Arguments.Name.environmentName?
  let found ← names.mapM fun name => do return (name, ← IO.getEnv name)
  return found.filterMap fun (name, value) => value.map fun value => (name, value)

/-- Surroundings in which no call of the system can start a worker. -/
def surroundings : Surroundings PreparedChannel :=
  ⟨fun _ => .error (.system 38), fun _ => .error (.system 38), []⟩

/-- Report an error and leave. -/
def fail (error : ProgramError) : IO UInt32 := do
  IO.eprintln error.report
  return 1

end DataflowEditor.Console

open DataflowEditor DataflowEditor.Console

def main (arguments : List String) : IO UInt32 := do
  match Arguments.read (← readEnvironment) arguments with
  | .error .help =>
    IO.println "Usage: sdfgd [OPTIONS]"
    return 0
  | .error .misuse =>
    IO.eprintln "Usage: sdfgd [OPTIONS]"
    return 2
  | .ok arguments =>
    match arguments.listing with
    | some source =>
      match Program.list surroundings arguments.settings source with
      | .ok text =>
        IO.print text
        return 0
      | .error error => fail error
    | none =>
      match Program.begin surroundings arguments.settings with
      | .ok _ => return 0
      | .error error => fail error

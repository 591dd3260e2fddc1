import ApiGraph.CommandLine.Run

/-!
# The program

Reads the files that the arguments name, runs the program on them and does what is
left to do: print, write, and answer with an exit code.
-/

namespace ApiGraph.CommandLine

def Refusal.ofError : IO.Error → Refusal
  | .noFileOrDirectory .. | .noSuchThing .. => noSuchFile
  | .permissionDenied .. => permissionDenied
  | .inappropriateType _ 20 _ => notDirectory
  | .inappropriateType .. => isDirectory
  | .invalidArgument _ 36 _ => nameTooLong
  | e => other e.toString

def readText (path : String) : IO (Except Refusal String) := do
  try
    return .ok (← IO.FS.readFile path)
  catch e =>
    return .error (.ofError e)

def inputPaths (args : List String) : List String :=
  match Request.ofArgs args with
  | some (.normalize a) => a.input :: a.config.toList
  | _ => []

def writeText (path text : String) : IO (Option Refusal) := do
  try
    IO.FS.writeFile path text
    return none
  catch e =>
    return some (.ofError e)

/-- A wording that names the objection, without its place in the text. -/
def Wording.brief : Wording where
  config
    | _, .malformed => "invalid TOML"
    | _, .mismatch m => m.message
  document
    | _, .ended => "EOF while parsing a value"
    | _, .malformed => "expected value"
    | _, .mismatch m => m.message

end ApiGraph.CommandLine

open ApiGraph.CommandLine in
/-- Runs the program and answers with its exit code. -/
def main (args : List String) : IO UInt32 := do
  let texts ← (inputPaths args).mapM fun path => do return (path, ← readText path)
  let read := fun path => (texts.lookup path).getD (.error .noSuchFile)
  let plan := plan read args
  let refusal ←
    match plan with
    | .save path text => writeText path text
    | _ => pure none
  let outcome := Outcome.ofPlan refusal plan
  IO.print outcome.stdout
  IO.eprint (outcome.report .brief)
  return outcome.code.toUInt32

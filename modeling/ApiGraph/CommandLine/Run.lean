import ApiGraph.CommandLine.Arguments
import ApiGraph.CommandLine.Refusal
import ApiGraph.Config.Reader
import ApiGraph.GeneratedApi
import ApiGraph.Json.Printer

/-!
# Running the program

What the program does for its arguments, with the reading of files given as a
function. `normalize` goes through its steps in a fixed order (read the input, read the
configuration, judge the configuration, judge the input, generate) and fails with the
first step that fails. Nothing is printed or written before all of them have succeeded.

A `Plan` says what is left to do to the outside; `Outcome.ofPlan` turns it into an exit
code, the text that is printed and the failure that is reported. What else goes to the error
stream, the log and the advice on misuse, is left out. So is the wording of the readers of TOML
and JSON, which point at the place of an error in its text: a `Failure` keeps the error and the
text, and its message takes the wording as a parameter.
-/

namespace ApiGraph.CommandLine

inductive Failure where
  | unreadable (path : String) (reason : Refusal)
  /-- A configuration cannot be read from its text. -/
  | badConfig (text : String) (e : ConfigError)
  /-- A document cannot be read from its text. -/
  | badDocument (text : String) (e : Json.ReadError)
  | naming (e : Identifier.Exhausted)
  | unwritable (path : String) (reason : Refusal)

/-- How the readers of configurations and documents word the errors in a text. -/
structure Wording where
  config (text : String) (e : ConfigError) : String
  document (text : String) (e : Json.ReadError) : String

def Failure.message (w : Wording) : Failure → String
  | unreadable path reason => "Failed to read " ++ path ++ ": " ++ reason.message
  | badConfig text e => "Failed to parse generator config: " ++ w.config text e
  | badDocument text e => "Failed to parse source document: " ++ w.document text e
  | naming e => e.message
  | unwritable path reason => "Failed to write " ++ path ++ ": " ++ reason.message

/-- What a run leaves to do. -/
inductive Plan where
  | print (text : String)
  | save (path text : String)
  /-- Report a failure that came up after a text was printed. -/
  | fail (f : Failure) (printed : String := "")
  /-- Report that the arguments ask for nothing sensible. -/
  | misuse

def readFile (read : String → Except Refusal String) (path : String) : Except Failure String :=
  (read path).mapError (.unreadable path)

/-- Reads and judges the configuration, or takes the default one. -/
def readConfig (read : String → Except Refusal String) :
    Option String → Except Failure Config
  | none => .ok {}
  | some path => do
    let text ← readFile read path
    (Config.ofText text).mapError (.badConfig text)

/-- The result of a run over a text, as it is printed. -/
def render (api : GeneratedApi) : String := api.toJson.pretty ++ "\n"

def generate (config : Config) (text : String) : Except Failure GeneratedApi :=
  match GeneratedApi.generateFromText config text with
  | .ok api => .ok api
  | .error (.document e) => .error (.badDocument text e)
  | .error (.naming e) => .error (.naming e)

def normalize (read : String → Except Refusal String) (args : NormalizeArgs) :
    Except Failure String := do
  let input ← readFile read args.input
  let config ← readConfig read args.config
  let config := { config with packageName := args.packageName.getD config.packageName }
  return render (← generate config input)

/-- What `sanitize` prints: one identifier a line, from one session. The lines before the first
failure are printed all the same. -/
def sanitize (role : Role) (s : Session) : List String → String × Option Failure
  | [] => ("", none)
  | name :: names =>
    match (Naming.sanitize name role).run s with
    | .ok identifier s =>
      let (printed, failure) := sanitize role s names
      (identifier ++ "\n" ++ printed, failure)
    | .error e _ => ("", some (.naming e))

def versionText : String := "matgen 0.1.0\n"

def Request.plan (read : String → Except Refusal String) : Request → Plan
  | .help => .print ""
  | .version => .print versionText
  | .sanitize role names =>
    match CommandLine.sanitize role .start names with
    | (printed, none) => .print printed
    | (printed, some f) => .fail f printed
  | .normalize args =>
    match CommandLine.normalize read args, args.output with
    | .error f, _ => .fail f
    | .ok text, some path => .save path text
    | .ok text, none => .print text

def plan (read : String → Except Refusal String) (args : List String) : Plan :=
  match Request.ofArgs args with
  | some request => request.plan read
  | none => .misuse

structure Outcome where
  code : Nat
  stdout : String
  /-- The failure that is reported on the error stream. -/
  error : Option Failure

namespace Outcome

def report (w : Wording) (o : Outcome) : String :=
  match o.error with
  | some f => f.message w ++ "\n"
  | none => ""

/-- The outcome of a failure after a text was printed. -/
def ofFailure (f : Failure) (printed : String := "") : Outcome := ⟨1, printed, some f⟩

/-- The outcome of a plan; `refusal` is the reason why a file could not be written, if it could
not. -/
def ofPlan (refusal : Option Refusal) : Plan → Outcome
  | .print text => ⟨0, text, none⟩
  | .save path _ =>
    match refusal with
    | none => ⟨0, "", none⟩
    | some reason => ofFailure (.unwritable path reason)
  | .fail f printed => ofFailure f printed
  | .misuse => ⟨2, "", none⟩

end Outcome

end ApiGraph.CommandLine

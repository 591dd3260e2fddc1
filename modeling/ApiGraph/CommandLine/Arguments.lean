import ApiGraph.Identifier.Role

/-!
# Arguments

What the arguments of the program ask for. `normalize` takes one input and up to three
options; `sanitize` takes a role and one or more names. An option is given at most
once, its value follows it, or is attached to it. An argument that starts with a
hyphen is an option, except for a lone hyphen and for everything after `--`. Arguments
that ask for nothing sensible are misuse, which is all that is said about them.
-/

namespace ApiGraph.CommandLine

structure NormalizeArgs where
  input : String
  config : Option String := none
  output : Option String := none
  packageName : Option String := none
  deriving DecidableEq

inductive Request where
  | help
  | version
  | normalize (args : NormalizeArgs)
  | sanitize (role : Role) (names : List String)

inductive OptionName where
  | config
  | output
  | packageName
  deriving DecidableEq

def OptionName.long : List (String × OptionName) :=
  [("config", config), ("output", output), ("package-name", packageName)]

def OptionName.short : List (Char × OptionName) := [('c', config), ('o', output)]

/-- Whether the value of an option is a path, which cannot be empty. -/
def OptionName.isPath : OptionName → Bool
  | config | output => true
  | packageName => false

inductive Argument where
  /-- Two hyphens: no options after this. -/
  | endOfOptions
  /-- Two hyphens and a name, with a value after an equals sign. -/
  | long (name : String) (value : Option String)
  /-- A hyphen and a letter, with what is attached to it. -/
  | short (letter : Char) (attached : String)
  /-- Anything else. -/
  | plain (s : String)

def Argument.ofText (s : String) : Argument :=
  match s.toList with
  | ['-', '-'] => endOfOptions
  | '-' :: '-' :: rest =>
    let name := String.ofList (rest.takeWhile (· ≠ '='))
    match rest.dropWhile (· ≠ '=') with
    | [] => long name none
    | _ :: value => long name (some (String.ofList value))
  | '-' :: c :: rest => short c (String.ofList rest)
  | _ => plain s

/-- An attached value without the equals sign in front of it. -/
def attachedValue (s : String) : Option String :=
  match s.toList with
  | [] => none
  | '=' :: rest => some (String.ofList rest)
  | cs => some (String.ofList cs)

structure NormalizeDraft where
  input : Option String := none
  options : List (OptionName × String) := []

namespace NormalizeDraft

/-- Sets an option that is not set yet. -/
def set (d : NormalizeDraft) (name : OptionName) (value : String) : Option NormalizeDraft :=
  if (d.options.lookup name).isSome ∨ (name.isPath ∧ value.isEmpty) then none
  else some { d with options := (name, value) :: d.options }

def setInput (d : NormalizeDraft) (input : String) : Option NormalizeDraft :=
  if d.input.isSome ∨ input.isEmpty then none else some { d with input := some input }

def finish (d : NormalizeDraft) : Option Request :=
  d.input.map fun input =>
    .normalize
      { input
        config := d.options.lookup .config
        output := d.options.lookup .output
        packageName := d.options.lookup .packageName }

end NormalizeDraft

def normalizeArgs (plainOnly : Bool) (d : NormalizeDraft) : List String → Option Request
  | [] => d.finish
  | s :: rest =>
    if plainOnly then do normalizeArgs true (← d.setInput s) rest
    else
      match Argument.ofText s with
      | .endOfOptions => normalizeArgs true d rest
      | .plain s => do normalizeArgs false (← d.setInput s) rest
      | .long "help" none | .short 'h' _ => some .help
      | .long name value => do
        let option ← OptionName.long.lookup name
        withValue option value rest
      | .short letter attached => do
        let option ← OptionName.short.lookup letter
        withValue option (attachedValue attached) rest
where
  /-- Takes the value of an option from where it is attached, else from the next argument. -/
  withValue (option : OptionName) (value : Option String) (rest : List String) :
      Option Request :=
    match value, rest with
    | some value, rest => do normalizeArgs false (← d.set option value) rest
    | none, s :: rest =>
      match Argument.ofText s with
      | .plain value => do normalizeArgs false (← d.set option value) rest
      | _ => none
    | none, [] => none

structure SanitizeDraft where
  role : Option Role := none
  names : List String := []

namespace SanitizeDraft

/-- Takes an argument that is no option: the first one has to name a role. -/
def take (d : SanitizeDraft) (s : String) : Option SanitizeDraft :=
  match d.role with
  | some _ => some { d with names := d.names ++ [s] }
  | none =>
    match Role.ofText s with
    | .ok role => some { d with role := some role }
    | .error _ => none

def finish (d : SanitizeDraft) : Option Request :=
  if d.names.isEmpty then none else d.role.map fun role => .sanitize role d.names

end SanitizeDraft

def sanitizeArgs (plainOnly : Bool) (d : SanitizeDraft) : List String → Option Request
  | [] => d.finish
  | s :: rest =>
    if plainOnly then do sanitizeArgs true (← d.take s) rest
    else
      match Argument.ofText s with
      | .endOfOptions => sanitizeArgs true d rest
      | .plain s => do sanitizeArgs false (← d.take s) rest
      | .long "help" none | .short 'h' _ => some .help
      | _ => none

/-- What the arguments ask for; `none` for misuse. -/
def Request.ofArgs : List String → Option Request
  | "normalize" :: rest => normalizeArgs false {} rest
  | "sanitize" :: rest => sanitizeArgs false {} rest
  | ["help"] | ["help", "normalize"] | ["help", "sanitize"] | ["help", "help"] => some .help
  | "help" :: _ => none
  | s :: _ =>
    match Argument.ofText s with
    | .long "version" none | .short 'V' _ => some .version
    | .long "help" none | .short 'h' _ => some .help
    | _ => none
  | [] => none

end ApiGraph.CommandLine

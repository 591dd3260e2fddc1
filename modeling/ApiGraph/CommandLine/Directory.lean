import ApiGraph.CommandLine.Run

/-!
# A directory of text files

A tree of text files in memory, in which the program can be run without an operating
system. Files are known by the segments of their paths from the root; a directory exists
as far as some file lies in it. The program works in a directory that stands in the root
under the empty name. No path can spell that name, so a path that starts at the root or
leaves the working directory does not come back to its files. Besides it the root holds
the null device alone. What cannot be read or written is refused with the wording of the
system.
-/

namespace ApiGraph.CommandLine

/-- Text files under the segments of their paths from the root. -/
structure Directory where
  files : List (List String × String)

namespace Directory

/-- The working directory. -/
def home : List String := [""]

/-- The null device, which is empty and stays so. -/
def nullDevice : List String := ["dev", "null"]

/-- The segments of a path. Slashes side by side count as one. -/
def segments (path : String) : List String := (path.splitToList (· = '/')).filter (· ≠ "")

def ofFiles (files : List (String × String)) : Directory :=
  ⟨(nullDevice, "") :: files.map fun (path, text) => (home ++ segments path, text)⟩

def isDirectory (d : Directory) (place : List String) : Bool :=
  place.isPrefixOf home || d.files.any fun (file, _) => place.isPrefixOf file && place ≠ file

/-- Steps from a place to a segment below it, which only a directory has. A dot stays there,
two dots go back as far as the root, and a name has at most 255 bytes. -/
def enter (d : Directory) (place : List String) (segment : String) :
    Except Refusal (List String) :=
  if !d.isDirectory place then
    .error (if (d.files.lookup place).isSome then .notDirectory else .noSuchFile)
  else if segment = "." then .ok place
  else if segment = ".." then .ok place.dropLast
  else if 255 < segment.utf8ByteSize then .error .nameTooLong
  else .ok (place ++ [segment])

/-- The place where a path starts. The empty path starts nowhere, and a path has at most 4095
bytes. -/
def start (path : String) : Except Refusal (List String) :=
  if path.isEmpty then .error .noSuchFile
  else if 4095 < path.utf8ByteSize then .error .nameTooLong
  else .ok (if path.toList.head? = some '/' then [] else home)

def endsInSlash (path : String) : Bool := path.toList.getLast? = some '/'

def read (d : Directory) (path : String) : Except Refusal String := do
  let place ← (segments path).foldlM d.enter (← start path)
  match d.files.lookup place with
  | some text => if endsInSlash path then .error .notDirectory else return text
  | none => .error (if d.isDirectory place then .isDirectory else .noSuchFile)

/-- Writes a file, in place of the one at the same path. -/
def write (d : Directory) (path text : String) : Except Refusal Directory := do
  let parent ← (segments path).dropLast.foldlM d.enter (← start path)
  let last := (segments path).getLast?.getD "."
  if endsInSlash path then
    let _ ← d.enter parent "."
    .error .isDirectory
  let target ← d.enter parent last
  if d.isDirectory target then .error .isDirectory
  if target = nullDevice then return d
  return ⟨(target, text) :: d.files.filter fun (file, _) => file ≠ target⟩

def run (d : Directory) (args : List String) : Outcome × Directory :=
  let plan := CommandLine.plan d.read args
  match plan with
  | .save path text =>
    match d.write path text with
    | .ok d => (Outcome.ofPlan none plan, d)
    | .error reason => (Outcome.ofPlan (some reason) plan, d)
  | _ => (Outcome.ofPlan none plan, d)

end Directory

end ApiGraph.CommandLine

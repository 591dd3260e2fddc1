/-!
# Refusals of the system

Why the system does not read or write a file, with its wording.
-/

namespace ApiGraph.CommandLine

inductive Refusal where
  /-- The path leads nowhere. -/
  | noSuchFile
  /-- The file is kept from the user. -/
  | permissionDenied
  /-- The path leads through a file. -/
  | notDirectory
  /-- The path leads to a directory. -/
  | isDirectory
  /-- The path, or a name in it, is too long. -/
  | nameTooLong
  /-- Anything else, in the words of the system. -/
  | other (wording : String)
  deriving DecidableEq

def Refusal.message : Refusal → String
  | noSuchFile => "No such file or directory (os error 2)"
  | permissionDenied => "Permission denied (os error 13)"
  | notDirectory => "Not a directory (os error 20)"
  | isDirectory => "Is a directory (os error 21)"
  | nameTooLong => "File name too long (os error 36)"
  | other wording => wording

end ApiGraph.CommandLine

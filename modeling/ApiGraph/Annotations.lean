import ApiGraph.Json.Basic

/-!
# Annotations

Hints for whoever renders the result. They are attached by this library alone, in
contrast to extensions, which come with the document.
-/

namespace ApiGraph

structure Annotations where
  /-- The value is written as seconds since the epoch. -/
  posixTime : Bool := false
  /-- The class name of the union a field refers to. -/
  oneOfName : Option String := none
  /-- That union has a member that is a scalar or an array. -/
  oneOfPrimitives : Bool := false
  /-- The class a parameter has to be passed as. -/
  objectParam : Option String := none
  /-- The root of the identifiers of errors that an operation raises. -/
  errorIdentifier : Option String := none
  /-- The name of the request method on a server. -/
  methodVerb : Option String := none
  deriving DecidableEq

/-- The annotations as a JSON value; what is not set is left out. -/
def Annotations.toJson (a : Annotations) : Json :=
  .object <|
    Json.memberIf a.posixTime "posix_time" (.bool true) ++
    Json.optional "one_of_name" .string a.oneOfName ++
    Json.memberIf a.oneOfPrimitives "one_of_primitives" (.bool true) ++
    Json.optional "object_param" .string a.objectParam ++
    Json.optional "error_identifier" .string a.errorIdentifier ++
    Json.optional "method_verb" .string a.methodVerb

end ApiGraph

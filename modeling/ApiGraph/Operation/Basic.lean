import ApiGraph.Annotations
import ApiGraph.Document.Basic
import ApiGraph.TypeRef.Basic

/-!
# Operations

An operation is a method of a generated class, with the parameters it takes and the
type it returns. Arrays and maps are described as they are for fields: the type is
the one inside.
-/

namespace ApiGraph

structure Parameter where
  name : String
  /-- The name in the document. -/
  baseName : String
  dataType : TypeRef
  isArray : Bool := false
  isMap : Bool := false
  required : Bool := false
  /-- The declared default as a text. -/
  defaultValue : Option String := none
  /-- The declared example as a text. -/
  declaredExample : Option String := none
  /-- The example made for the documentation, or nothing. -/
  exampleValue : String := ""
  extensions : Extensions := ∅
  annotations : Annotations := {}

def Parameter.new (name : String) (dataType : TypeRef) : Parameter :=
  { name, baseName := name, dataType }

structure Operation where
  operationId : String
  /-- The name in the document. -/
  baseId : String
  method : HttpMethod
  path : String
  /-- The class the operation belongs to. -/
  tag : Option String
  parameters : List Parameter
  returnType : Option TypeRef
  returnsArray : Bool
  authMethods : List String
  extensions : Extensions
  annotations : Annotations := {}

end ApiGraph

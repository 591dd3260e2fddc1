import ApiGraph.Schema.Basic

/-!
# Source documents

A document declares named schemas and operations. Schemas are kept in the order of
their names, whatever their order in the text; operations keep their order.
-/

namespace ApiGraph

inductive HttpMethod where
  | get
  | put
  | post
  | delete
  | options
  | head
  | patch
  | trace
  deriving DecidableEq

namespace HttpMethod

def word : HttpMethod → String
  | get => "get"
  | put => "put"
  | post => "post"
  | delete => "delete"
  | options => "options"
  | head => "head"
  | patch => "patch"
  | trace => "trace"

def words : List (String × HttpMethod) :=
  [get, put, post, delete, options, head, patch, trace].map fun m => (m.word, m)

/-- The name of the method that a server implements; `delete` is taken there. -/
def serverVerb : HttpMethod → String
  | delete => "del"
  | m => m.word

end HttpMethod

structure ParameterSpec where
  name : String
  required : Bool
  schema : Schema
  extensions : Extensions

structure OperationSpec where
  operationId : String
  method : HttpMethod
  path : String
  /-- The tags, of which the first names the class of the operation. -/
  tags : List String
  parameters : List ParameterSpec
  response : Option Schema
  authMethods : List String
  extensions : Extensions

structure Document where
  schemas : Dictionary Schema
  operations : List OperationSpec

instance : Inhabited Document := ⟨⟨∅, []⟩⟩

def Document.unionNames (d : Document) : List String :=
  (d.schemas.toList.filter fun (_, s) => s.isUnion).map (·.1)

end ApiGraph

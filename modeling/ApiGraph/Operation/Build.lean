import ApiGraph.Operation.Basic
import ApiGraph.TypeRef.Resolve

/-!
# Building operations

Operations are built in the order of the document. An operation whose identifier is
that of an earlier one gets the first of the suffixes `_1`, `_2` and so on that leads
to a new identifier; the earlier one keeps its name. The candidates repeat at most
once each, so twice the number of taken names and one more are enough tries. The
numbers have 32 bits and start at one, so there are no more tries than such numbers.
-/

namespace ApiGraph

namespace Parameter

/-- The literal that a schema declares, else the one that its element declares, as a text. -/
def declaredLiteral (s : Schema) (pick : Schema → Option Json) : Option String :=
  ((pick s).or (s.element?.bind pick)).map Json.text

def build (packageName : String) (spec : ParameterSpec) : Naming Parameter := do
  let s := spec.schema
  let inner := s.element?.getD s
  let name ← Naming.sanitize spec.name .parameter
  let dataType ← TypeRef.resolve packageName inner
  return {
    name
    baseName := spec.name
    dataType
    isArray := s.isArray
    isMap := s.isMap
    required := spec.required
    defaultValue := declaredLiteral s (·.defaultValue)
    declaredExample := declaredLiteral s (·.exampleValue)
    extensions := spec.extensions
    annotations := { posixTime := inner.isPosixTime } }

end Parameter

namespace Operation

def build (packageName : String) (spec : OperationSpec) : Naming Operation := do
  let operationId ← Naming.sanitize spec.operationId .operation
  let tag ← spec.tags.head?.mapM fun tag => Naming.sanitize tag .tag
  let parameters ← spec.parameters.mapM (Parameter.build packageName)
  let returnType ← spec.response.mapM (TypeRef.resolve packageName)
  return {
    operationId
    baseId := spec.operationId
    method := spec.method
    path := spec.path
    tag
    parameters
    returnType
    returnsArray := spec.response.any Schema.isArray
    authMethods := spec.authMethods
    extensions := spec.extensions }

def freeId (operationId : String) (taken : List String) : Nat → Nat → Naming String
  | 0, n => throw ⟨⟨operationId, "_" ++ n.repr⟩⟩
  | tries + 1, n => do
    let candidate ← Naming.truncate operationId ("_" ++ n.repr)
    if taken.contains candidate then freeId operationId taken tries (n + 1)
    else return candidate

/-- Gives an operation a new identifier if its own is taken. -/
def distinguish (taken : List String) (o : Operation) : Naming Operation := do
  if taken.contains o.operationId then
    let renamed ← freeId o.operationId taken
      (min (2 * taken.length + 1) (Naming.renameLimit - 1)) 1
    Naming.report (.duplicateOperation o.baseId o.operationId renamed)
    return { o with operationId := renamed }
  else return o

def buildAfter (packageName : String) :
    List String → List OperationSpec → Naming (List Operation)
  | _, [] => return []
  | taken, spec :: specs => do
    let o ← distinguish taken (← build packageName spec)
    return o :: (← buildAfter packageName (o.operationId :: taken) specs)

def buildAll (packageName : String) (specs : List OperationSpec) : Naming (List Operation) :=
  buildAfter packageName [] specs

end Operation

end ApiGraph

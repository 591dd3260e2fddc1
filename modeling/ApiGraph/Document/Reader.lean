import ApiGraph.Document.Basic
import ApiGraph.Schema.Reader

/-!
# Reading documents

Operations and parameters are read like schemas: known members once, all others into
the extensions. Members that have to be there are missed at the closing brace, in a
fixed order. The document itself tolerates any other member without keeping it, and
may also be written as an array of its schemas and its operations.
-/

namespace ApiGraph

open Json

namespace ParameterSpec

structure Draft where
  name : Option String := none
  required : Bool := false
  schema : Schema := {}
  extensions : Extensions := ∅

def knownMembers : List String := ["name", "required", "schema"]

def read (levels : Nat) : Tree → Read ParameterSpec
  | .object members ending => do
    Tree.checkLevels levels
    let d : Draft ← readMembers knownMembers (fun (d : Draft) name t => do
      if name = "name" then
        return { d with name := some (← t.readString) }
      else if name = "required" then
        return { d with required := ← t.readBool }
      else if name = "schema" then
        return { d with schema := ← Schema.read (levels - 1) t }
      else
        return { d with extensions := d.extensions.set name (← t.readAny (levels - 1)) })
      [] {} members
    ending.check
    return {
      name := ← requireField "name" d.name
      required := d.required
      schema := d.schema
      extensions := d.extensions }
  | t => t.wrongKind "struct ParameterSpec"

end ParameterSpec

namespace OperationSpec

structure Draft where
  operationId : Option String := none
  method : Option HttpMethod := none
  path : Option String := none
  tags : List String := []
  parameters : List ParameterSpec := []
  response : Option Schema := none
  authMethods : List String := []
  extensions : Extensions := ∅

def knownMembers : List String :=
  ["operationId", "method", "path", "tags", "parameters", "response", "authMethods"]

def read (levels : Nat) : Tree → Read OperationSpec
  | .object members ending => do
    Tree.checkLevels levels
    let inner := levels - 1
    let d : Draft ← readMembers knownMembers (fun (d : Draft) name t => do
      if name = "operationId" then
        return { d with operationId := some (← t.readString) }
      else if name = "method" then
        return { d with method := some (← t.readChoice inner HttpMethod.words) }
      else if name = "path" then
        return { d with path := some (← t.readString) }
      else if name = "tags" then
        return { d with tags := ← t.readList inner Tree.readString }
      else if name = "parameters" then
        return { d with parameters := ← t.readList inner (ParameterSpec.read (inner - 1)) }
      else if name = "response" then
        return { d with response := ← t.readOptional (Schema.read inner) }
      else if name = "authMethods" then
        return { d with authMethods := ← t.readList inner Tree.readString }
      else
        return { d with extensions := d.extensions.set name (← t.readAny inner) })
      [] {} members
    ending.check
    return {
      operationId := ← requireField "operationId" d.operationId
      method := ← requireField "method" d.method
      path := ← requireField "path" d.path
      tags := d.tags
      parameters := d.parameters
      response := d.response
      authMethods := d.authMethods
      extensions := d.extensions }
  | t => t.wrongKind "struct OperationSpec"

end OperationSpec

namespace Document

def knownMembers : List String := ["schemas", "operations"]

def readSchemas (levels : Nat) (t : Tree) : Read (Dictionary Schema) := do
  return Keyed.ofList (← t.readMap levels (Schema.read (levels - 1)))

def readOperations (levels : Nat) (t : Tree) : Read (List OperationSpec) :=
  t.readList levels (OperationSpec.read (levels - 1))

def read (levels : Nat) : Tree → Read Document
  | .object members ending => do
    Tree.checkLevels levels
    let d ← readMembers knownMembers (fun (d : Document) name t => do
      if name = "schemas" then
        return { d with schemas := ← readSchemas (levels - 1) t }
      else if name = "operations" then
        return { d with operations := ← readOperations (levels - 1) t }
      else
        t.skip
        return d)
      [] ⟨∅, []⟩ members
    ending.check
    return d
  | .array items ending => do
    Tree.checkLevels levels
    match items with
    | [] =>
      ending.check
      return ⟨∅, []⟩
    | [schemas] =>
      let schemas ← readSchemas (levels - 1) schemas
      ending.check
      return ⟨schemas, []⟩
    | schemas :: operations :: more =>
      let schemas ← readSchemas (levels - 1) schemas
      let operations ← readOperations (levels - 1) operations
      if more.isEmpty then
        ending.check
        return ⟨schemas, operations⟩
      else .error .malformed
  | t => t.wrongKind "struct SourceDocument"

def ofText (s : String) : Read Document := readWhole read s

end Document

end ApiGraph

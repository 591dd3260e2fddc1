import ApiGraph.DefaultValue
import ApiGraph.Document.Basic
import ApiGraph.Model.Basic
import ApiGraph.TypeRef.Resolve

/-!
# Building models

Every named schema becomes one model under its class name. An enumeration keeps its
literals and nothing else; any other schema gets its union members and its fields,
with every name made for its role and every type resolved. An enumeration on a field
is only noted here; giving it a model of its own is left to normalization.

A field refers to a union when the name in its reference is the name of a union of the
document. Two schemas with the same class name leave the later one.
-/

namespace ApiGraph

/-- The field of a property, apart from its items. -/
def Field.ofProperty (unions : List String) (baseName : String) (required : Bool) (s : Schema)
    (name : String) (typeRef : TypeRef) (items : Option Field) : Field :=
  let declaresEnum := s.isEnum && s.reference.isNone
  let refersToUnion := s.referenceName?.any unions.contains
  { name
    baseName
    typeRef
    isPrimitive := typeRef.isPrimitive
    isArray := s.isArray
    isMap := s.isMap
    isEnum := declaresEnum
    required
    enumName := if declaresEnum then some (enumSuffix name) else none
    enumValues := if declaresEnum then s.enumValues else []
    defaultValue := s.defaultSuffix
    items
    extensions := s.extensions
    annotations :=
      { posixTime := s.isPosixTime
        oneOfName := if refersToUnion then typeRef.modelName? else none } }

def Field.build (packageName : String) (unions : List String) (baseName : String)
    (required : Bool) (s : Schema) : Naming Field := do
  let name ← Naming.sanitize baseName .field
  let typeRef ← TypeRef.resolve packageName s
  match _ : s.element? with
  | none => return ofProperty unions baseName required s name typeRef none
  | some element =>
    let items ← build packageName unions baseName false element
    return ofProperty unions baseName required s name typeRef (some items)
termination_by sizeOf s
decreasing_by exact Schema.sizeOf_element_lt (by assumption)

def UnionMember.build (packageName : String) (s : Schema) : Naming UnionMember := do
  let typeRef ← TypeRef.resolve packageName s
  return { typeRef, isPrimitive := s.isPrimitive, isArray := s.isArray }

def Model.build (packageName : String) (unions : List String) (name : String) (s : Schema) :
    Naming Model := do
  let className ← Naming.sanitize name .model
  if s.isEnum then
    return { name, className, isEnum := true, enumValues := s.enumValues,
             extensions := s.extensions }
  else
    let oneOf ← s.oneOf.mapM (UnionMember.build packageName)
    let fields ← s.properties.mapM fun (property, schema) =>
      Field.build packageName unions property (s.required.contains property) schema
    return { name, className, fields, oneOf, extensions := s.extensions }

namespace ModelSet

def buildInto (packageName : String) (unions : List String) :
    ModelSet → List (String × Schema) → Naming ModelSet
  | models, [] => return models
  | models, (name, s) :: rest => do
    let m ← Model.build packageName unions name s
    match models.get? m.className with
    | some previous => Naming.report (.classNameShared previous.name previous.className)
    | none => pure ()
    buildInto packageName unions (models.insert m) rest

def build (packageName : String) (d : Document) : Naming ModelSet :=
  buildInto packageName d.unionNames ∅ d.schemas.toList

end ModelSet

end ApiGraph

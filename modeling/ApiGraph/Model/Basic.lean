import ApiGraph.Annotations
import ApiGraph.EnumLiteral
import ApiGraph.Extensions
import ApiGraph.Text.Case
import ApiGraph.TypeRef.Basic

/-!
# Models

A model is a named class with fields, an enumeration, or a union. It was declared as
a schema of the document or lifted out of a field with an enumeration of its own.
The type of a field that is an array or a map is the type inside it, and `items`
describes that inside in full.
-/

namespace ApiGraph

inductive ModelOrigin where
  /-- It is declared in the document. -/
  | source
  /-- It was lifted from a field, given by its declared name, of the model `owner`. -/
  | liftedEnum (owner field : String)
  deriving DecidableEq

/-- A literal of an enumeration and the name of its member. -/
structure AllowableValue where
  name : String
  value : EnumLiteral

structure UnionMember where
  typeRef : TypeRef
  isPrimitive : Bool
  isArray : Bool
  deriving DecidableEq

structure Field where
  name : String
  /-- The name in the document. -/
  baseName : String
  typeRef : TypeRef
  isPrimitive : Bool
  isArray : Bool := false
  isMap : Bool := false
  /-- The field has an enumeration of its own, or refers to a lifted one. -/
  isEnum : Bool := false
  required : Bool := false
  /-- What the name of a lifted enumeration ends in. -/
  enumName : Option String := none
  enumValues : List EnumLiteral := []
  /-- The text of an assignment of the default, or nothing. -/
  defaultValue : String := ""
  items : Option Field := none
  extensions : Extensions := ∅
  annotations : Annotations := {}

def Field.new (name : String) (typeRef : TypeRef) : Field :=
  { name, baseName := name, typeRef, isPrimitive := typeRef.isPrimitive }

/-- What the name of an enumeration lifted from a field ends in. -/
def Field.enumSuffix (fieldName : String) : String := Text.capitalizeFirst fieldName ++ "Enum"

instance : Inhabited Field := ⟨Field.new "" TypeRef.freeFormObject⟩

structure Model where
  /-- The name in the document, or the class name of a lifted enumeration. -/
  name : String
  className : String
  isEnum : Bool := false
  /-- The fields in the order of their declaration. -/
  fields : List Field := []
  enumValues : List EnumLiteral := []
  allowableValues : List AllowableValue := []
  oneOf : List UnionMember := []
  origin : ModelOrigin := .source
  extensions : Extensions := ∅

namespace Model

def new (name className : String) : Model := { name, className }

instance : Inhabited Model := ⟨new "" ""⟩

def isUnion (m : Model) : Bool := !m.oneOf.isEmpty

/-- Whether a member of the union is a scalar or an array. -/
def isMixedUnion (m : Model) : Bool := m.oneOf.any fun u => u.isPrimitive || u.isArray

end Model

abbrev ModelSet := Keyed Model Model.className

end ApiGraph

import ApiGraph.EnumLiteral
import ApiGraph.Extensions

/-!
# Schemas

A schema describes the values of a property, a parameter or a named component. Its
members are independent of each other: a schema may declare a type, a reference and
an enumeration at once, and the predicates below say which of them count.
-/

namespace ApiGraph

inductive SchemaKind where
  | boolean
  | integer
  | number
  | string
  | array
  | object
  deriving DecidableEq

def SchemaKind.words : List (String × SchemaKind) :=
  [("boolean", boolean), ("integer", integer), ("number", number), ("string", string),
   ("array", array), ("object", object)]

/-- A node of the type graph of a document. -/
structure Schema where
  kind : Option SchemaKind := none
  /-- A refinement of the kind, such as `int64`. -/
  format : Option String := none
  /-- The schema referred to, with or without the path in front of its name. -/
  reference : Option String := none
  /-- The properties of an object in the order of their declaration. -/
  properties : List (String × Schema) := []
  /-- The names of the properties that have to be there. -/
  required : List String := []
  /-- The schema of the items of an array. -/
  items : Option Schema := none
  /-- The schema of the values of a map. -/
  additionalProperties : Option Schema := none
  /-- The members of a union. -/
  oneOf : List Schema := []
  /-- The literals of an enumeration. -/
  enumValues : List EnumLiteral := []
  defaultValue : Option Json := none
  exampleValue : Option Json := none
  extensions : Extensions := ∅

namespace Schema

instance : Inhabited Schema := ⟨{}⟩

def referencePath : String := "#/components/schemas/"

/-- A text without the given text at its start, if it starts with it. -/
def dropPath (path s : String) : String :=
  if path.toList.isPrefixOf s.toList then String.ofList (s.toList.drop path.length) else s

def referenceName? (s : Schema) : Option String := s.reference.map (dropPath referencePath)

def isEnum (s : Schema) : Bool := !s.enumValues.isEmpty

def isUnion (s : Schema) : Bool := !s.oneOf.isEmpty

def isArray (s : Schema) : Bool := s.kind = some .array

/-- Whether the schema describes values under free names and nothing else. -/
def isMap (s : Schema) : Bool := s.properties.isEmpty && s.additionalProperties.isSome

def isPrimitive (s : Schema) : Bool :=
  s.reference.isNone &&
    match s.kind with
    | some .boolean | some .integer | some .number | some .string => true
    | _ => false

/-- Whether the schema is marked as seconds since the epoch. -/
def isPosixTime (s : Schema) : Bool := s.format = some "unixtime"

/-- The schema of the items of an array or of the values of a map. -/
def element? (s : Schema) : Option Schema :=
  if s.isArray then s.items
  else if s.isMap then s.additionalProperties
  else none

end Schema

end ApiGraph

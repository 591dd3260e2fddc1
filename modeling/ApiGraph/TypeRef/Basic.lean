import ApiGraph.Json.Basic

/-!
# Type references

The type of a field, a parameter or a union member: a built-in class, a helper class
of the generated package, or the class of a model. Whether a value is an array or a
map of such a type is not part of the reference.
-/

namespace ApiGraph

inductive Primitive where
  | logical
  | string
  | int32
  | int64
  | single
  | double
  | datetime
  deriving DecidableEq

def Primitive.name : Primitive → String
  | logical => "logical"
  | string => "string"
  | int32 => "int32"
  | int64 => "int64"
  | single => "single"
  | double => "double"
  | datetime => "datetime"

/-- The type of a value, of the items of an array or of the values of a map. -/
inductive TypeRef where
  | primitive (p : Primitive)
  /-- A helper class, with the package it lives in. -/
  | packaged (name : String)
  /-- The class of a model. -/
  | model (className : String)
  deriving DecidableEq

namespace TypeRef

def isPrimitive : TypeRef → Bool
  | primitive _ => true
  | packaged _ | model _ => false

def primitive? : TypeRef → Option Primitive
  | primitive p => some p
  | packaged _ | model _ => none

def modelName? : TypeRef → Option String
  | model className => some className
  | primitive _ | packaged _ => none

def text : TypeRef → String
  | primitive p => p.name
  | packaged name | model name => name

def kindName : TypeRef → String
  | primitive _ => "primitive"
  | packaged _ => "packaged"
  | model _ => "model"

def toJson (t : TypeRef) : Json :=
  .object [("kind", .string t.kindName), ("name", .string t.text)]

/-- The class of values without a model of their own. -/
def freeFormObject : TypeRef := .model "FreeFormObject"

end TypeRef

end ApiGraph

import ApiGraph.Schema.Basic
import ApiGraph.TypeRef.Basic

/-!
# Scalars

A scalar is a kind of schema, refined by some formats, that has a class of its own in
the target language. A schema with a reference is no scalar. Maps count as scalars:
they have a helper class in the generated package.
-/

namespace ApiGraph

/-- An entry of the table of scalars. -/
inductive Scalar where
  | boolean
  | string
  | integer
  | long
  | number
  | numberFloat
  | numberDouble
  | dateTime
  | date
  | file
  | uuid
  | unixTime
  | map
  deriving DecidableEq

namespace Scalar

def name : Scalar → String
  | boolean => "Boolean"
  | string => "String"
  | integer => "Integer"
  | long => "Long"
  | number => "Number"
  | numberFloat => "NumberFloat"
  | numberDouble => "NumberDouble"
  | dateTime => "DateTime"
  | date => "Date"
  | file => "File"
  | uuid => "Uuid"
  | unixTime => "UnixTime"
  | map => "Map"

def ofIntegerFormat (format : Option String) : Scalar :=
  if format = some "int64" then long
  else if format = some "unixtime" then unixTime
  else integer

def ofNumberFormat (format : Option String) : Scalar :=
  if format = some "float" then numberFloat
  else if format = some "double" then numberDouble
  else number

def ofStringFormat (format : Option String) : Scalar :=
  if format = some "date-time" then dateTime
  else if format = some "date" then date
  else if format = some "binary" then file
  else if format = some "uuid" then uuid
  else string

/-- The scalar of a schema. An enumeration without a kind is one of strings. -/
def ofSchema? (s : Schema) : Option Scalar :=
  if s.reference.isSome then none
  else
    match s.kind with
    | some .boolean => some boolean
    | some .integer => some (ofIntegerFormat s.format)
    | some .number => some (ofNumberFormat s.format)
    | some .string => some (ofStringFormat s.format)
    | some .object => if s.isMap then some map else none
    | some .array => none
    | none => if s.isEnum then some string else none

/-- The helper class for maps in a package. -/
def mapContainer (packageName : String) : String := packageName ++ ".JSONMapperMap"

def target (packageName : String) : Scalar → TypeRef
  | boolean => .primitive .logical
  | string | file | uuid => .primitive .string
  | integer => .primitive .int32
  | long => .primitive .int64
  | number | numberDouble => .primitive .double
  | numberFloat => .primitive .single
  | dateTime | date | unixTime => .primitive .datetime
  | map => .packaged (mapContainer packageName)

end Scalar

end ApiGraph

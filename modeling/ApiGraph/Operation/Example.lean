import ApiGraph.Event
import ApiGraph.Operation.Basic
import ApiGraph.Text.Literal

/-!
# Examples of parameters

The example of a parameter is its declared default, else its declared example, else a
canned literal for its type. Texts are written between single quotes. The literal of
an array or a map is wrapped in the form of its container, and a type without a canned
literal falls back on a placeholder, which is never wrapped.
-/

namespace ApiGraph

/-- The canned example of a built-in class, without quotes. -/
def Primitive.cannedExample : Primitive → String
  | logical => "true"
  | string => "Example string"
  | int32 | int64 => "56"
  | single | double => "3.4"
  | datetime => "2013-10-20T19:20:30+01:00"

namespace Parameter

/-- Stands in when there is neither a declaration nor a canned literal. -/
def examplePlaceholder : String := "exampleNULL"

/-- The declared default, else the declared example. -/
def declared (p : Parameter) : Option String := p.defaultValue.or p.declaredExample

def exampleLiteral? (p : Parameter) : Option String :=
  match p.dataType.primitive? with
  | some .string => some (Text.literal (p.declared.getD (Primitive.cannedExample .string)))
  | some primitive => some (p.declared.getD primitive.cannedExample)
  | none => p.declared

def wrapExample (p : Parameter) (literal : String) : String :=
  if p.isArray then "ListContainerExample[" ++ literal ++ "]"
  else if p.isMap then "MapContainerExample\x7b'key': " ++ literal ++ "\x7d"
  else literal

def exampleText (p : Parameter) : String :=
  match p.exampleLiteral? with
  | none => examplePlaceholder
  | some literal => p.wrapExample literal

def exampleEvents (p : Parameter) : List Event :=
  match p.dataType.primitive? with
  | some _ => []
  | none => [.noExample p.name p.dataType.text]

end Parameter

end ApiGraph

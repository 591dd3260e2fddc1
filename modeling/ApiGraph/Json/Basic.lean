import ApiGraph.Keyed

/-!
# JSON values

The values that structured output is made of, and that documents hold where any
value may stand. Integers and floating-point numbers are kept apart, and the
members of an object are listed in the order in which they are written.
-/

namespace ApiGraph

inductive Json where
  | null
  | bool (b : Bool)
  | int (n : Int)
  | float (x : Float)
  | string (s : String)
  | array (items : List Json)
  | object (members : List (String × Json))

namespace Json

def strings (ss : List String) : Json := array (ss.map string)

/-- A member that is left out when its value is absent. -/
def optional (name : String) (write : α → Json) : Option α → List (String × Json)
  | none => []
  | some a => [(name, write a)]

/-- A member that is left out unless a condition holds. -/
def memberIf (shown : Bool) (name : String) (value : Json) : List (String × Json) :=
  if shown then [(name, value)] else []

end Json

end ApiGraph

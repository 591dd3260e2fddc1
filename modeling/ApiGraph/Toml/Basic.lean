/-!
# TOML values

The values of a TOML text. Entries of tables keep the order in which the text brings
them up. A table remembers how it came about, because that decides whether the text
may still add to it.
-/

namespace ApiGraph.Toml

/-- How a table came about. -/
inductive TableKind where
  /-- By a header of its own, or as the whole text. -/
  | explicit
  /-- As a step on the way to another header. -/
  | implicit
  /-- By a dotted key. -/
  | dotted
  /-- As a value between braces. -/
  | inline
  deriving DecidableEq

inductive Value where
  | string (s : String)
  | int (n : Int)
  | float (x : Float)
  | bool (b : Bool)
  | datetime
  | array (items : List Value)
  | table (kind : TableKind) (entries : List (String × Value))
  /-- The tables under a repeated header. -/
  | tables (tables : List (List (String × Value)))

abbrev Entries := List (String × Value)

def Value.kindName : Value → String
  | string _ => "string"
  | int _ => "integer"
  | float _ => "float"
  | bool _ => "boolean"
  | datetime => "datetime"
  | array _ | tables _ => "array"
  | table .. => "table"

end ApiGraph.Toml

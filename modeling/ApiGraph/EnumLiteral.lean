import ApiGraph.Json.Reader

/-!
# Enumeration literals

The values that an enumeration allows: strings, integers of 64 bits, doubles, truth
values and `null`. A number that is spelled as an integer but does not fit is taken
as a double. `EnumLiteral.text` is the plain text of a literal, which names an
enumeration member when nothing better is at hand.
-/

namespace ApiGraph

inductive EnumLiteral where
  | string (s : String)
  | int (n : Int)
  | float (x : Float)
  | bool (b : Bool)
  | null

namespace EnumLiteral

def text : EnumLiteral → String
  | string s => s
  | int n => n.repr
  | float x => Decimal.Layout.plain.write x
  | bool b => if b then "true" else "false"
  | null => "null"

def toJson : EnumLiteral → Json
  | string s => .string s
  | int n => .int n
  | float x => .float x
  | bool b => .bool b
  | null => .null

/-- The literal that a JSON value is; arrays and objects are none. -/
def ofJson? : Json → Option EnumLiteral
  | .null => some null
  | .bool b => some (bool b)
  | .int n => some (if Json.isSigned64 n then int n else float (Float.ofInt n))
  | .float x => some (float x)
  | .string s => some (string s)
  | .array _ | .object _ => none

/-- Reads a literal. The whole value is read before it is judged. -/
def read (levels : Nat) (t : Json.Tree) : Json.Read EnumLiteral := do
  match ofJson? (← t.readAny levels) with
  | some literal => return literal
  | none => .error (.mismatch .notALiteral)

def ofText (s : String) : Json.Read EnumLiteral := Json.readWhole read s

end EnumLiteral

end ApiGraph

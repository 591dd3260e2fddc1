import ApiGraph.Decimal.Layout
import ApiGraph.Json.Basic

/-!
# Writing JSON

`Json.compact` writes a value without blanks, `Json.pretty` writes it with one
member or item a line and two blanks for each level; an empty container stays on
its line in both. `Json.text` leaves a string alone and writes anything else
compactly. Strings escape what has to be escaped and nothing else, so
characters outside ASCII are written as they are. A number that is not finite has
no JSON text and is written as `null`.
-/

namespace ApiGraph.Json

def stringChar (c : Char) : List Char :=
  if c = '"' then ['\\', '"']
  else if c = '\\' then ['\\', '\\']
  else if c = '\n' then ['\\', 'n']
  else if c = '\r' then ['\\', 'r']
  else if c = '\t' then ['\\', 't']
  else if c = '\x08' then ['\\', 'b']
  else if c = '\x0c' then ['\\', 'f']
  else if c.toNat < 32 then
    ['\\', 'u', '0', '0', Nat.digitChar (c.toNat / 16), Nat.digitChar (c.toNat % 16)]
  else [c]

def quote (s : String) : String :=
  String.ofList ('"' :: s.toList.flatMap stringChar ++ ['"'])

/-- The text of a number that is not an integer. -/
def floatText (x : Float) : String :=
  if x.isFinite then Decimal.Layout.exact.write x else "null"

mutual

def compact : Json → String
  | null => "null"
  | bool b => if b then "true" else "false"
  | int n => n.repr
  | float x => floatText x
  | string s => quote s
  | array items => "[" ++ compactItems items ++ "]"
  | object members => "\x7b" ++ compactMembers members ++ "\x7d"
termination_by structural j => j

def compactItems : List Json → String
  | [] => ""
  | [j] => compact j
  | j :: rest => compact j ++ "," ++ compactItems rest
termination_by structural js => js

def compactMembers : List (String × Json) → String
  | [] => ""
  | [(name, j)] => quote name ++ ":" ++ compact j
  | (name, j) :: rest => quote name ++ ":" ++ compact j ++ "," ++ compactMembers rest
termination_by structural ms => ms

end

/-- The text of a value: a string as it is, anything else as JSON. -/
def text : Json → String
  | string s => s
  | j => compact j

def newline (level : Nat) : String :=
  String.ofList ('\n' :: List.replicate (2 * level) ' ')

mutual

/-- A value whose containers are spread over lines, at a level of indentation. -/
def prettyAt (level : Nat) : Json → String
  | null => "null"
  | bool b => if b then "true" else "false"
  | int n => n.repr
  | float x => floatText x
  | string s => quote s
  | array [] => "[]"
  | array items => "[" ++ prettyItems (level + 1) items ++ newline level ++ "]"
  | object [] => "\x7b\x7d"
  | object members => "\x7b" ++ prettyMembers (level + 1) members ++ newline level ++ "\x7d"
termination_by structural j => j

def prettyItems (level : Nat) : List Json → String
  | [] => ""
  | [j] => newline level ++ prettyAt level j
  | j :: rest => newline level ++ prettyAt level j ++ "," ++ prettyItems level rest
termination_by structural js => js

def prettyMembers (level : Nat) : List (String × Json) → String
  | [] => ""
  | [(name, j)] => newline level ++ quote name ++ ": " ++ prettyAt level j
  | (name, j) :: rest =>
    newline level ++ quote name ++ ": " ++ prettyAt level j ++ "," ++ prettyMembers level rest
termination_by structural ms => ms

end

def pretty (j : Json) : String := prettyAt 0 j

end ApiGraph.Json

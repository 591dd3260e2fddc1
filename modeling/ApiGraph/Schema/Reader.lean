import ApiGraph.Schema.Basic

/-!
# Reading schemas

The members of a schema are read in text order. A member known by name occurs at
most once, and any other member becomes an extension, of which the last of a name
stays. A property that is declared twice keeps its first place and its last schema.
-/

namespace ApiGraph

open Json

namespace Schema

def knownMembers : List String :=
  ["type", "format", "$ref", "properties", "required", "items", "additionalProperties", "oneOf",
   "enum", "default", "example"]

def declare (properties : List (String × Schema)) (p : String × Schema) :
    List (String × Schema) :=
  match properties with
  | [] => [p]
  | q :: rest => if q.1 = p.1 then p :: rest else q :: declare rest p

def read (levels : Nat) : Tree → Read Schema
  | .object members ending =>
    match levels with
    | 0 => .error .malformed
    | levels + 1 => do
      let s ← readMembers knownMembers (fun s name t => do
        if name = "type" then
          return { s with kind := ← t.readOptionalChoice levels SchemaKind.words }
        else if name = "format" then
          return { s with format := ← t.readOptional Tree.readString }
        else if name = "$ref" then
          return { s with reference := ← t.readOptional Tree.readString }
        else if name = "properties" then
          let declared ← t.readMap levels (read (levels - 1))
          return { s with properties := declared.foldl declare [] }
        else if name = "required" then
          return { s with required := ← t.readList levels Tree.readString }
        else if name = "items" then
          return { s with items := ← t.readOptional (read levels) }
        else if name = "additionalProperties" then
          return { s with additionalProperties := ← t.readOptional (read levels) }
        else if name = "oneOf" then
          return { s with oneOf := ← t.readList levels (read (levels - 1)) }
        else if name = "enum" then
          return { s with enumValues := ← t.readList levels (EnumLiteral.read (levels - 1)) }
        else if name = "default" then
          return { s with defaultValue := ← t.readOptional (Tree.readAny levels) }
        else if name = "example" then
          return { s with exampleValue := ← t.readOptional (Tree.readAny levels) }
        else
          return { s with extensions := s.extensions.set name (← t.readAny levels) })
        [] {} members
      ending.check
      return s
  | t => t.wrongKind "struct Schema"
termination_by levels
decreasing_by all_goals omega

def ofText (s : String) : Read Schema := readWhole read s

end Schema

end ApiGraph

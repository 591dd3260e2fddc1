import ApiGraph.Json.Reader

/-!
# Extensions

The members of a document that are not modelled are kept as they are, under their
names. An extension whose value is a list can be read as a list of texts.
-/

namespace ApiGraph

/-- Members that are not modelled, in the order of their names. -/
abbrev Extensions := Dictionary Json

namespace Extensions

def value? (e : Extensions) (name : String) : Option Json := (e.get? name).map (·.2)

def set (e : Extensions) (name : String) (value : Json) : Extensions := e.insert (name, value)

/-- The list under a name as texts, when there is a list under that name. -/
def stringList? (e : Extensions) (name : String) : Option (List String) :=
  match e.value? name with
  | some (.array items) => some (items.map Json.text)
  | _ => none

def toJson (e : Extensions) : Json := .object e.toList

def ofText (s : String) : Json.Read Extensions :=
  Json.readWhole
    (fun levels t => (t.readMap levels (Json.Tree.readAny (levels - 1))).map Keyed.ofList) s

end Extensions

end ApiGraph

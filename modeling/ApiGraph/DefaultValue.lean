import ApiGraph.Text.Literal
import ApiGraph.TypeRef.Scalar

/-!
# Default assignments

The text that assigns the default of a schema to a property. Defaults of dates and
times are not written, and neither are defaults that are no scalars.
-/

namespace ApiGraph

/-- The text of an assignment of the default, or nothing. -/
def Schema.defaultSuffix (s : Schema) : String :=
  match Scalar.ofSchema? s with
  | some .date | some .dateTime => ""
  | _ =>
    match s.defaultValue with
    | some (.string text) => " = " ++ Text.literal text
    | some (.bool b) => " = " ++ (Json.bool b).compact
    | some (.int n) => " = " ++ (Json.int n).compact
    | some (.float x) => " = " ++ (Json.float x).compact
    | _ => ""

end ApiGraph

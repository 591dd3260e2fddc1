import ApiGraph.Model.Encoding
import ApiGraph.Operation.Basic

/-!
# Operations as JSON

The structured form in which operations are handed on, with the same conventions on
what is left out as for models.
-/

namespace ApiGraph

def Parameter.toJson (p : Parameter) : Json :=
  .object <|
    [("name", .string p.name), ("base_name", .string p.baseName),
     ("data_type", p.dataType.toJson), ("is_array", .bool p.isArray), ("is_map", .bool p.isMap),
     ("required", .bool p.required)] ++
    Json.optional "default_value" .string p.defaultValue ++
    Json.optional "example" .string p.declaredExample ++
    Json.textMember "example_value" p.exampleValue ++
    p.extensions.members ++
    [("annotations", p.annotations.toJson)]

def Operation.toJson (o : Operation) : Json :=
  .object <|
    [("operation_id", .string o.operationId), ("base_id", .string o.baseId),
     ("method", .string o.method.word), ("path", .string o.path)] ++
    Json.optional "tag" .string o.tag ++
    [("parameters", .array (o.parameters.map Parameter.toJson))] ++
    Json.optional "return_type" TypeRef.toJson o.returnType ++
    [("returns_array", .bool o.returnsArray), ("auth_methods", Json.strings o.authMethods)] ++
    o.extensions.members ++
    [("annotations", o.annotations.toJson)]

end ApiGraph

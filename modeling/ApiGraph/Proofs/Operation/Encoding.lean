import ApiGraph.Operation.Encoding
import ApiGraph.Proofs.Model.Encoding

/-!
# Operations are written without loss

The same argument as for models, member by member. The word of a request method tells it apart
from the others.
-/

namespace ApiGraph

open Json

theorem lossless_parameter :
    Lossless (fun p : Parameter => p.extensions.Canonical) Parameter.toJson := by
  intro p q hp hq h
  have member := last?_eq_of_canonical h
  have name : p.name = q.name := by simpa using member "name"
  have baseName : p.baseName = q.baseName := by simpa using member "base_name"
  have dataType : p.dataType = q.dataType :=
    lossless_typeRef _ _ trivial trivial (by simpa using member "data_type")
  have isArray : p.isArray = q.isArray := by simpa using member "is_array"
  have isMap : p.isMap = q.isMap := by simpa using member "is_map"
  have required : p.required = q.required := by simpa using member "required"
  have defaultValue : p.defaultValue = q.defaultValue := by simpa using member "default_value"
  have declaredExample : p.declaredExample = q.declaredExample := by
    simpa using member "example"
  have exampleValue : p.exampleValue = q.exampleValue := by simpa using member "example_value"
  have extensions : p.extensions = q.extensions :=
    Extensions.eq_of_written? hp hq (by simpa using member "extensions")
  have annotations : p.annotations = q.annotations :=
    lossless_annotations _ _ trivial trivial (by simpa using member "annotations")
  cases p
  cases q
  congr

theorem HttpMethod.word_injective : Function.Injective HttpMethod.word := by
  intro m n h
  cases m <;> cases n <;> simp_all [HttpMethod.word]

structure Operation.Regular (o : Operation) : Prop where
  parameters : ∀ p ∈ o.parameters, p.extensions.Canonical
  extensions : o.extensions.Canonical

theorem lossless_operation : Lossless Operation.Regular Operation.toJson := by
  intro o p ho hp h
  have member := last?_eq_of_canonical h
  have operationId : o.operationId = p.operationId := by simpa using member "operation_id"
  have baseId : o.baseId = p.baseId := by simpa using member "base_id"
  have method : o.method = p.method :=
    HttpMethod.word_injective (by simpa using member "method")
  have path : o.path = p.path := by simpa using member "path"
  have tag : o.tag = p.tag := by simpa using member "tag"
  have parameters : o.parameters = p.parameters :=
    lossless_parameter.list ho.parameters hp.parameters (by simpa using member "parameters")
  have returnType : o.returnType = p.returnType :=
    lossless_typeRef.option (fun _ _ => trivial) (fun _ _ => trivial)
      (by simpa using member "return_type")
  have returnsArray : o.returnsArray = p.returnsArray := by simpa using member "returns_array"
  have authMethods : o.authMethods = p.authMethods :=
    lossless_string.list (fun _ _ => trivial) (fun _ _ => trivial)
      (by simpa [Json.strings] using member "auth_methods")
  have extensions : o.extensions = p.extensions :=
    Extensions.eq_of_written? ho.extensions hp.extensions (by simpa using member "extensions")
  have annotations : o.annotations = p.annotations :=
    lossless_annotations _ _ trivial trivial (by simpa using member "annotations")
  cases o
  cases p
  congr

end ApiGraph

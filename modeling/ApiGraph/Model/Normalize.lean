import ApiGraph.Model.Lift
import ApiGraph.Model.Unions

/-!
# Normalizing models

Normalization names the members of every enumeration, lifts the enumerations of fields
into models of their own, puts those models into the set and marks the fields that
refer to unions. Models are treated in the order of their class names. A lifted model
displaces a declared one of the same class name, which is reported.
-/

namespace ApiGraph

namespace Model

def normalize (nameExtensions : List String) (claimed : ModelSet) (m : Model) :
    Naming (Model × ModelSet) :=
  if m.isEnum then do
    let allowableValues ← AllowableValue.build nameExtensions m.enumValues m.extensions
    return ({ m with allowableValues }, claimed)
  else do
    let (fields, claimed) ← Field.liftAll nameExtensions m.className claimed m.fields
    return ({ m with fields }, claimed)

def normalizeAll (nameExtensions : List String) :
    ModelSet → List Model → Naming (List Model × ModelSet)
  | claimed, [] => return ([], claimed)
  | claimed, m :: models => do
    let (m, claimed) ← normalize nameExtensions claimed m
    let (models, claimed) ← normalizeAll nameExtensions claimed models
    return (m :: models, claimed)

end Model

namespace ModelSet

def merge : ModelSet → List Model → Naming ModelSet
  | s, [] => return s
  | s, lifted :: rest => do
    match s.get? lifted.className with
    | some existing =>
      if existing.origin = .source then
        Naming.report (.declaredModelReplaced lifted.className)
    | none => pure ()
    merge (s.insert lifted) rest

def normalize (nameExtensions : List String) (s : ModelSet) : Naming ModelSet := do
  let (models, lifted) ← Model.normalizeAll nameExtensions ∅ s.toList
  let merged ← merge (Keyed.ofList models) lifted.toList
  Naming.reportAll merged.annotationEvents
  let result := merged.annotateUnions
  Naming.report (.modelsNormalized result.size lifted.size)
  return result

end ModelSet

end ApiGraph

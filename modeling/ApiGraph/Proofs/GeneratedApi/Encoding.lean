import ApiGraph.GeneratedApi
import ApiGraph.Proofs.Operation.Encoding

/-!
# Results are written without loss

Two results that are handed on in the same form are equal, when their doubles are finite and their
extensions are values as a text gives them. So nothing that is left out has to be guessed.
-/

namespace ApiGraph

open Json

theorem lossless_packageInfo : Lossless (fun _ => True) PackageInfo.toJson := by
  intro p q _ _ h
  have member := last?_eq_of_canonical h
  have name : p.name = q.name := by simpa using member "name"
  have topLevel : p.topLevel = q.topLevel := by simpa using member "top_level"
  have version : p.version = q.version := by simpa using member "version"
  have modelPackage : p.modelPackage = q.modelPackage := by simpa using member "model_package"
  have apiPackage : p.apiPackage = q.apiPackage := by simpa using member "api_package"
  have errorIdentifier : p.errorIdentifier = q.errorIdentifier := by
    simpa using member "error_identifier"
  cases p
  cases q
  congr

namespace GeneratedApi

structure Regular (api : GeneratedApi) : Prop where
  models : ∀ m ∈ api.models.toList, m.Regular
  operations : ∀ o ∈ api.operations, o.Regular

/-- Regular results with the same canonical form are equal. -/
theorem eq_of_canonical_toJson {api api' : GeneratedApi} (hapi : api.Regular)
    (hapi' : api'.Regular) (h : api.toJson.canonical = api'.toJson.canonical) : api = api' := by
  have member := last?_eq_of_canonical h
  have package : api.package = api'.package :=
    lossless_packageInfo _ _ trivial trivial (by simpa using member "package")
  have models : api.models = api'.models :=
    lossless_modelSet _ _ hapi.models hapi'.models (by simpa using member "models")
  have operations : api.operations = api'.operations :=
    lossless_operation.list hapi.operations hapi'.operations (by simpa using member "operations")
  cases api
  cases api'
  congr

/-- A class with a list of readings, which are doubles and integers from an enumeration. -/
def gauge : Model :=
  { Model.new "gauge" "Gauge" with
    fields := [{ Field.new "readings" (.primitive .double) with
      isArray := true
      items := some { Field.new "items" (.primitive .double) with
        enumValues := [.float 1, .int 1]
        extensions := Keyed.ofList [("x-unit", .string "bar"), ("x-limit", .float 2.5)] } }] }

/-- A result whose models have been put in in the given order. -/
def withModels (models : List Model) : GeneratedApi where
  package := ⟨"shop.petstore", "shop", "1.0.0", "shop.petstore.models", "shop.petstore.api", "shop"⟩
  models := Keyed.ofList models
  operations :=
    [⟨"listGauges", "listGauges", .get, "/gauges", none,
      [Parameter.new "limit" (.primitive .int64)], some (.model "Gauge"), true, [], ∅, {}⟩]

theorem regular_withModels {models : List Model} (h : ∀ m ∈ models, m.Regular) :
    (withModels models).Regular where
  models m hm := h m (Keyed.mem_of_mem_ofList hm)
  operations o ho := by
    obtain rfl := List.mem_singleton.1 ho
    refine ⟨fun p hp => ?_, Extensions.canonical_empty⟩
    obtain rfl := List.mem_singleton.1 hp
    exact Extensions.canonical_empty

theorem regular_new (name className : String) : (Model.new name className).Regular :=
  ⟨by simp [Model.new], by simp [Model.new], by simp [Model.new], Extensions.canonical_empty⟩

theorem regular_gauge : gauge.Regular := by
  refine ⟨fun f hf => ?_, by simp [gauge, Model.new], by simp [gauge, Model.new],
    Extensions.canonical_empty⟩
  obtain rfl := List.mem_singleton.1 hf
  refine .mk (by simp [Field.new]) Extensions.canonical_empty fun i hi => ?_
  cases hi
  have hone : (1 : Float).isFinite = true := by decide +kernel
  have hlimit : (2.5 : Float).isFinite = true := by decide +kernel
  refine .mk (by simp [EnumLiteral.Finite, hone]) (fun p hp => ?_) (by simp [Field.new])
  rcases List.mem_pair.1 (Keyed.mem_of_mem_ofList hp) with rfl | rfl
  · rfl
  · exact canonical_float hlimit

/-- The order in which models are put in leaves no trace in what is handed on, and therefore none
in the result. -/
theorem eq_of_canonical_toJson_withModels :
    (withModels [gauge, Model.new "pet" "Pet"]).toJson.canonical =
        (withModels [Model.new "pet" "Pet", gauge]).toJson.canonical ∧
      withModels [gauge, Model.new "pet" "Pet"] = withModels [Model.new "pet" "Pet", gauge] := by
  have hpet := regular_new "pet" "Pet"
  have hsame : (withModels [gauge, Model.new "pet" "Pet"]).toJson.canonical =
      (withModels [Model.new "pet" "Pet", gauge]).toJson.canonical := rfl
  refine ⟨hsame, eq_of_canonical_toJson (regular_withModels ?_) (regular_withModels ?_) hsame⟩
  · simp [regular_gauge, hpet]
  · simp [regular_gauge, hpet]

end GeneratedApi

end ApiGraph

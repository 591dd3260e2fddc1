import ApiGraph.Document.Reader
import ApiGraph.Model.Build
import ApiGraph.Model.Encoding
import ApiGraph.Model.Normalize
import ApiGraph.Operation.Annotate
import ApiGraph.Operation.Build
import ApiGraph.Operation.Encoding

/-!
# Generated interfaces

`GeneratedApi.generate` is a whole run: models are built from a document and
normalized, operations are built and annotated, and both are handed on together with
the package names. A run starts from a fresh session and ends with a report of what
it did.
-/

namespace ApiGraph

structure PackageInfo where
  name : String
  /-- The first segment of the name. -/
  topLevel : String
  version : String
  modelPackage : String
  apiPackage : String
  /-- The root of the identifiers of errors. -/
  errorIdentifier : String
  deriving DecidableEq

namespace PackageInfo

def ofConfig (c : Config) : PackageInfo where
  name := c.packageName
  topLevel := c.topLevelPackage
  version := c.packageVersion
  modelPackage := c.qualifiedModelPackage
  apiPackage := c.apiPackage
  errorIdentifier := c.errorRoot

def toJson (p : PackageInfo) : Json :=
  .object
    [("name", .string p.name), ("top_level", .string p.topLevel), ("version", .string p.version),
     ("model_package", .string p.modelPackage), ("api_package", .string p.apiPackage),
     ("error_identifier", .string p.errorIdentifier)]

end PackageInfo

structure GeneratedApi where
  package : PackageInfo
  models : ModelSet
  /-- The operations in the order of the document. -/
  operations : List Operation

inductive GenerationError where
  /-- The text does not describe a document. -/
  | document (e : Json.ReadError)
  /-- The counters of a stem ran out. -/
  | naming (e : Identifier.Exhausted)

namespace GeneratedApi

def build (config : Config) (d : Document) : Naming GeneratedApi := do
  let built ← ModelSet.build config.packageName d
  let models ← ModelSet.normalize config.enumNameExtensions built
  let raw ← Operation.buildAll config.packageName d.operations
  Naming.reportAll (Operation.allAnnotationEvents config raw)
  let operations := Operation.annotateAll config raw
  Naming.report (.documentNormalized models.size (models.size - built.size) operations.length
    (← get).registry.size)
  return { package := .ofConfig config, models, operations }

/-- A run over a document, with the session it ends in. -/
def generate (config : Config) (d : Document) :
    EStateM.Result Identifier.Exhausted Session GeneratedApi :=
  (build config d).run .start

def generateFromText (config : Config) (s : String) : Except GenerationError GeneratedApi :=
  match Document.ofText s with
  | .error e => .error (.document e)
  | .ok d =>
    match generate config d with
    | .ok api _ => .ok api
    | .error e _ => .error (.naming e)

def toJson (api : GeneratedApi) : Json :=
  .object
    [("package", api.package.toJson), ("models", api.models.toJson),
     ("operations", .array (api.operations.map Operation.toJson))]

end GeneratedApi

end ApiGraph

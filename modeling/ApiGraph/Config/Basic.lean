/-!
# Configuration

The settings of a run and the package names that follow from them. Every setting has
a default, so a configuration may say as little as it likes.
-/

namespace ApiGraph

/-- The side of the interface that code is generated for. -/
inductive Flavor where
  | client
  | server
  deriving DecidableEq

namespace Flavor

def word : Flavor → String
  | client => "client"
  | server => "server"

def name : Flavor → String
  | client => "Client"
  | server => "Server"

def words : List (String × Flavor) := [(client.word, client), (server.word, server)]

def apiPackage : Flavor → String
  | client => "api"
  | server => "impl"

end Flavor

/-- A parameter that has to be passed as an object of a class. -/
structure ObjectParam where
  /-- The name of the parameter, as declared or as generated. -/
  name : String
  baseType : String
  deriving DecidableEq

structure Config where
  /-- The dotted package that holds everything generated. -/
  packageName : String := "OpenAPIClientPackage"
  packageVersion : String := "3.0.0"
  flavor : Flavor := .client
  /-- The part of the package that holds the models. -/
  modelPackage : String := "models"
  /-- The extensions that may name the members of an enumeration; the first that is there counts. -/
  enumNameExtensions : List String := ["x-enumNames"]
  /-- An authentication method for client operations that declare none. -/
  addAuth : Option String := none
  objectParams : List ObjectParam := []
  deriving DecidableEq

namespace Config

instance : Inhabited Config := ⟨{}⟩

def apiPackage (c : Config) : String := c.packageName ++ "." ++ c.flavor.apiPackage

def qualifiedModelPackage (c : Config) : String := c.packageName ++ "." ++ c.modelPackage

/-- The first segment of the package name. -/
def topLevelPackage (c : Config) : String :=
  String.ofList (c.packageName.toList.takeWhile (· ≠ '.'))

/-- The root of the identifiers of errors: the package name with colons between its segments. -/
def errorRoot (c : Config) : String :=
  String.ofList (c.packageName.toList.map fun ch => if ch = '.' then ':' else ch)

end Config

end ApiGraph

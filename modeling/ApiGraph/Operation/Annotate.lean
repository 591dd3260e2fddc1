import ApiGraph.Config.Basic
import ApiGraph.Operation.Example

/-!
# Annotating operations

Annotating an operation gives it the root of its error identifiers, and each of its
parameters an example and the class it has to be passed as, if one is configured. On
the server side the operation also learns the name of its request method; on the
client side the configured authentication method is added when it declares none.
-/

namespace ApiGraph

namespace Parameter

def objectParam? (config : Config) (p : Parameter) : Option ObjectParam :=
  config.objectParams.find? fun o => o.name = p.name || o.name = p.baseName

def annotate (config : Config) (p : Parameter) : Parameter :=
  { p with
    exampleValue := p.exampleText
    annotations :=
      { p.annotations with objectParam := (p.objectParam? config).map (·.baseType) } }

def annotationEvents (config : Config) (p : Parameter) : List Event :=
  (match p.objectParam? config, p.dataType.modelName? with
    | some o, some declared =>
      if declared = o.baseType then [] else [.objectTypeDiffers p.name declared o.baseType]
    | _, _ => []) ++
  p.exampleEvents

end Parameter

namespace Operation

def errorIdentifier (config : Config) (o : Operation) : String :=
  config.errorRoot ++ ":" ++ config.flavor.apiPackage ++ ":" ++ o.operationId

def addedAuth? (config : Config) (o : Operation) : Option String :=
  match config.flavor with
  | .server => none
  | .client => if o.authMethods.isEmpty then config.addAuth else none

def methodVerb? (config : Config) (o : Operation) : Option String :=
  match config.flavor with
  | .server => some o.method.serverVerb
  | .client => o.annotations.methodVerb

def annotate (config : Config) (o : Operation) : Operation :=
  { o with
    authMethods := o.authMethods ++ (o.addedAuth? config).toList
    parameters := o.parameters.map (Parameter.annotate config)
    annotations :=
      { o.annotations with
        errorIdentifier := some (o.errorIdentifier config)
        methodVerb := o.methodVerb? config } }

def annotationEvents (config : Config) (o : Operation) : List Event :=
  ((o.addedAuth? config).toList.map fun auth => .authAdded o.operationId auth) ++
  o.parameters.flatMap (Parameter.annotationEvents config)

def annotateAll (config : Config) (os : List Operation) : List Operation :=
  os.map (annotate config)

def allAnnotationEvents (config : Config) (os : List Operation) : List Event :=
  os.flatMap (annotationEvents config)

end Operation

end ApiGraph

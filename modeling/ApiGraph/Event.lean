import ApiGraph.Identifier.Role

/-!
# Events

What a run reports beside its result. An event holds the facts it is about; its
level, its wording and the fields shown with it are functions of it. Repairs and
surprises are warnings, routine steps are debug events, and the summary of a run
is an info event.
-/

namespace ApiGraph

inductive Level where
  | warn
  | info
  | debug
  deriving DecidableEq

def Level.name : Level → String
  | warn => "warn"
  | info => "info"
  | debug => "debug"

inductive Event where
  /-- Nothing legal was left of a name. -/
  | emptyName (raw : String) (role : Role)
  /-- A class-like name began with a digit. -/
  | leadingDigit (role : Role) (name renamed : String)
  /-- A class-like name was a reserved word. -/
  | reservedWord (role : Role) (name renamed : String)
  /-- The name of a variable was changed. -/
  | variableRenamed (raw name : String)
  /-- A name was too long and got a counter. -/
  | truncated (name suffix result : String)
  /-- An array schema does not describe its items. -/
  | untypedArray
  /-- A schema describes nothing. -/
  | freeFormObject
  /-- A schema describes an object or union but has no name to be referred to by. -/
  | anonymousSchema (properties members : Nat)
  /-- A model displaced an earlier one of the same class name. -/
  | classNameShared (name className : String)
  /-- An operation took the name of an earlier one. -/
  | duplicateOperation (baseId operationId renamed : String)
  /-- The name of a lifted enumeration was taken by another field. -/
  | liftedNameTaken (owner field className : String)
  /-- An enumeration has fewer display names than literals. -/
  | fewerDisplayNames (names values : Nat)
  /-- A lifted enumeration displaced a declared model. -/
  | declaredModelReplaced (className : String)
  /-- A field refers to a union that is not in the set. -/
  | unknownUnion (field union : String)
  /-- A model set was normalized. -/
  | modelsNormalized (models lifted : Nat)
  /-- An authentication method was added to an operation. -/
  | authAdded (operation auth : String)
  /-- An object parameter is configured with another class than it declares. -/
  | objectTypeDiffers (parameter declared configured : String)
  /-- There is no canned example for a type. -/
  | noExample (parameter dataType : String)
  /-- A whole document was normalized. -/
  | documentNormalized (models lifted operations truncations : Nat)
  deriving DecidableEq

namespace Event

def level : Event → Level
  | .emptyName _ role => if role.isVariable then .debug else .warn
  | .variableRenamed .. | .untypedArray | .freeFormObject | .unknownUnion ..
  | .modelsNormalized .. | .authAdded .. => .debug
  | .documentNormalized .. => .info
  | _ => .warn

def message : Event → String
  | emptyName _ role =>
    if role.isVariable then "Empty variable name, using placeholder."
    else "Empty " ++ role.name ++ " name not permitted, using placeholder."
  | leadingDigit role _ _ => role.name ++ " name cannot start with a number, renaming."
  | reservedWord role _ _ => "Cannot use reserved word as " ++ role.name ++ " name, renaming."
  | variableRenamed .. => "Variable name changed."
  | truncated .. => "Identifier exceeds 63 characters, truncating."
  | untypedArray => "Array schema without items, using free-form element type."
  | freeFormObject => "Free-form object schema."
  | anonymousSchema .. => "Anonymous inline schema cannot be named, using FreeFormObject."
  | classNameShared .. => "Two schemas share a class name, keeping the later one."
  | duplicateOperation .. => "Duplicate operation identifier, renaming."
  | liftedNameTaken .. => "Lifted enum name already taken by another field, renaming."
  | fewerDisplayNames .. => "Fewer enum display names than values, naming the rest by value."
  | declaredModelReplaced _ => "Lifted enum replaces a declared model of the same name."
  | unknownUnion .. => "Field refers to an unknown union model."
  | modelsNormalized .. => "Normalized model set."
  | authAdded .. => "Adding auth method."
  | objectTypeDiffers .. =>
    "Object parameter type differs from the declared model, using the configured type."
  | noExample .. => "No example literal for type."
  | documentNormalized .. => "Normalized source document."

def fields : Event → List (String × String)
  | emptyName raw role =>
    [("raw", raw), ("placeholder", role.placeholder)] ++
      if role.isVariable then [] else [("role", role.name)]
  | leadingDigit _ name renamed | reservedWord _ name renamed =>
    [("name", name), ("renamed", renamed)]
  | variableRenamed raw name => [("raw", raw), ("name", name)]
  | .truncated name suffix result => [("name", name), ("suffix", suffix), ("truncated", result)]
  | untypedArray | freeFormObject => []
  | anonymousSchema properties members =>
    [("properties", properties.repr), ("members", members.repr)]
  | classNameShared name className => [("name", name), ("class_name", className)]
  | duplicateOperation baseId operationId renamed =>
    [("base_id", baseId), ("operation_id", operationId), ("renamed", renamed)]
  | liftedNameTaken owner field className =>
    [("owner", owner), ("field", field), ("class_name", className)]
  | fewerDisplayNames names values => [("names", names.repr), ("values", values.repr)]
  | declaredModelReplaced className => [("class_name", className)]
  | unknownUnion field union => [("field", field), ("union", union)]
  | modelsNormalized models lifted => [("models", models.repr), ("lifted", lifted.repr)]
  | authAdded operation auth => [("operation", operation), ("auth", auth)]
  | objectTypeDiffers parameter declared configured =>
    [("parameter", parameter), ("declared", declared), ("configured", configured)]
  | noExample parameter dataType => [("parameter", parameter), ("data_type", dataType)]
  | documentNormalized models lifted operations truncations =>
    [("models", models.repr), ("lifted", lifted.repr), ("operations", operations.repr),
     ("truncated", truncations.repr)]

end Event

end ApiGraph

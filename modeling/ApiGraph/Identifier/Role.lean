/-!
# Roles of identifiers

A role is the position an identifier is emitted in. It decides which words are
reserved, how an illegal name is repaired and which name stands in when nothing
legal is left. Roles fall into two kinds: variables (fields and parameters), whose
repairs are routine, and class-like names (models, operations and tags), whose
repairs are worth a warning.
-/

namespace ApiGraph

/-- The position an identifier is emitted in. -/
inductive Role where
  /-- The class name of a model. -/
  | model
  /-- A property of a model, or a member of an enumeration. -/
  | field
  /-- A parameter of an operation. -/
  | parameter
  /-- The method generated for an operation. -/
  | operation
  /-- The class that collects the operations of one tag. -/
  | tag
  deriving DecidableEq

/-- A text that names no role, in lower case. -/
structure UnknownRole where
  text : String
  deriving DecidableEq

def UnknownRole.message (e : UnknownRole) : String :=
  "Unknown name role '" ++ e.text ++ "'"

namespace Role

def name : Role → String
  | model => "model"
  | field => "field"
  | parameter => "parameter"
  | operation => "operation"
  | tag => "tag"

def placeholder : Role → String
  | model => "ModelEmpty"
  | tag => "ApiEmpty"
  | operation => "callEmpty"
  | field | parameter => "xempty"

def isVariable : Role → Bool
  | field | parameter => true
  | model | operation | tag => false

/-- The role that a text names, in any ASCII letter case. -/
def ofText (s : String) : Except UnknownRole Role :=
  let lower := s.toLower
  if lower = "model" then .ok model
  else if lower = "field" ∨ lower = "property" ∨ lower = "var" then .ok field
  else if lower = "parameter" ∨ lower = "param" then .ok parameter
  else if lower = "operation" ∨ lower = "method" then .ok operation
  else if lower = "tag" ∨ lower = "api" then .ok tag
  else .error ⟨lower⟩

theorem toLower_name (r : Role) : r.name.toLower = r.name := by
  cases r <;> decide +kernel

/-- Every role is named by its own name. -/
theorem ofText_name (r : Role) : ofText r.name = .ok r := by
  unfold ofText
  rw [toLower_name]
  cases r <;> simp [name]

end Role

end ApiGraph

import ApiGraph.Model.AllowableValues

/-!
# Lifting enumerations

A field whose own values, or whose items, are an enumeration gets a model for that
enumeration and refers to it from then on. The class name of the model is the owner's
class name joined to the name of the enumeration; when an enumeration of another field
has claimed it, `_1`, `_2` and so on are tried. The candidates of one owner repeat at
most once, so twice the number of claimed names and one more are enough tries. The
numbers have 32 bits, so there are no more tries than such numbers.
-/

namespace ApiGraph

namespace Field

/-- The part of a field that declares an enumeration: the field, or the items of an array. -/
def enumSource? (f : Field) : Option Field :=
  if f.isEnum then some f
  else
    match f.items with
    | some items => if f.isArray && items.isEnum then some items else none
    | none => none

def liftedName (source : Field) : String :=
  source.enumName.getD (enumSuffix source.name)

/-- The field once it refers to a lifted enumeration. -/
def referTo (f : Field) (className : String) : Field :=
  { f with
    typeRef := .model className
    isPrimitive := false
    isEnum := true
    items := f.items.map fun items =>
      if items.isEnum then { items with typeRef := .model className, isPrimitive := false }
      else items }

end Field

namespace Model

def candidateSuffix (enumName : String) (attempt : Nat) : String :=
  if attempt = 0 then enumName else enumName ++ "_" ++ attempt.repr

/-- Whether a class name belongs to an enumeration of another origin. -/
def isClaimed (claimed : ModelSet) (origin : ModelOrigin) (className : String) : Bool :=
  match claimed.get? className with
  | some other => other.origin ≠ origin
  | none => false

/-- The first candidate from an attempt on that is not claimed, and its attempt. -/
def freeName (owner enumName : String) (origin : ModelOrigin) (claimed : ModelSet) :
    Nat → Nat → Naming (String × Nat)
  | 0, attempt => throw ⟨⟨owner, candidateSuffix enumName attempt⟩⟩
  | tries + 1, attempt => do
    let className ← Naming.truncate owner (candidateSuffix enumName attempt)
    if isClaimed claimed origin className then
      freeName owner enumName origin claimed tries (attempt + 1)
    else return (className, attempt)

def liftEnum (nameExtensions : List String) (owner : String) (baseName : String)
    (source : Field) (claimed : ModelSet) : Naming Model := do
  let origin : ModelOrigin := .liftedEnum owner baseName
  let (className, attempt) ←
    freeName owner source.liftedName origin claimed
      (min (2 * claimed.size + 1) Naming.renameLimit) 0
  if 0 < attempt then
    Naming.report (.liftedNameTaken owner baseName className)
  let allowableValues ←
    AllowableValue.build nameExtensions source.enumValues source.extensions
  return {
    name := className
    className
    isEnum := true
    enumValues := source.enumValues
    allowableValues
    origin
    extensions := source.extensions }

end Model

namespace Field

def lift (nameExtensions : List String) (owner : String) (claimed : ModelSet) (f : Field) :
    Naming (Field × ModelSet) :=
  match f.enumSource? with
  | none => return (f, claimed)
  | some source => do
    let m ← Model.liftEnum nameExtensions owner f.baseName source claimed
    return (f.referTo m.className, claimed.insert m)

def liftAll (nameExtensions : List String) (owner : String) :
    ModelSet → List Field → Naming (List Field × ModelSet)
  | claimed, [] => return ([], claimed)
  | claimed, f :: fields => do
    let (f, claimed) ← lift nameExtensions owner claimed f
    let (fields, claimed) ← liftAll nameExtensions owner claimed fields
    return (f :: fields, claimed)

end Field

end ApiGraph

import ApiGraph.Event
import ApiGraph.Model.Basic

/-!
# Fields that refer to unions

A field that refers to a union with a scalar or an array among its members is marked,
because such values need care when they are read back. For an array the items carry
the reference and the mark. The unions themselves are left as they are.
-/

namespace ApiGraph

/-- The part of a field that can refer to a union: the field, or the items of an array. -/
def Field.unionTarget? (f : Field) : Option Field := if f.isArray then f.items else some f

namespace ModelSet

def union? (s : ModelSet) (className : String) : Option Model :=
  (s.get? className).filter Model.isUnion

def refersToMixed (s : ModelSet) (f : Field) : Bool :=
  match f.annotations.oneOfName with
  | some name => (s.union? name).any Model.isMixedUnion
  | none => false

/-- Marks a field if it refers to a union with a scalar or an array among its members. -/
def markTarget (s : ModelSet) (f : Field) : Field :=
  if s.refersToMixed f then
    { f with annotations := { f.annotations with oneOfPrimitives := true } }
  else f

def markField (s : ModelSet) (f : Field) : Field :=
  if f.isArray then { f with items := f.items.map s.markTarget } else s.markTarget f

def markModel (s : ModelSet) (m : Model) : Model := { m with fields := m.fields.map s.markField }

def annotateUnions (s : ModelSet) : ModelSet where
  toList := s.toList.map s.markModel
  sorted := by
    rw [List.pairwise_map]
    exact s.sorted

def unionEvents (s : ModelSet) (f : Field) : List Event :=
  match f.unionTarget? with
  | none => []
  | some target =>
    match target.annotations.oneOfName with
    | none => []
    | some name => if (s.union? name).isSome then [] else [.unknownUnion target.name name]

def annotationEvents (s : ModelSet) : List Event :=
  s.toList.flatMap fun m => m.fields.flatMap s.unionEvents

end ModelSet

end ApiGraph

import ApiGraph.Session
import ApiGraph.TypeRef.Scalar

/-!
# Resolving schemas

`TypeRef.resolve` finds the type of a schema. An array resolves to the type of its
items, through any number of levels; a scalar to its class; a reference to the class
name of the schema referred to, which is made anew from its name; and everything
else to the free-form object, with a report of why.
-/

namespace ApiGraph

theorem Schema.sizeOf_items_lt {s e : Schema} (h : s.items = some e) : sizeOf e < sizeOf s := by
  cases s
  simp only at h
  subst h
  simp
  omega

theorem Schema.sizeOf_additionalProperties_lt {s e : Schema}
    (h : s.additionalProperties = some e) : sizeOf e < sizeOf s := by
  cases s
  simp only at h
  subst h
  simp
  omega

theorem Schema.sizeOf_element_lt {s e : Schema} (h : s.element? = some e) :
    sizeOf e < sizeOf s := by
  unfold Schema.element? at h
  split at h
  · exact sizeOf_items_lt h
  · split at h
    · exact sizeOf_additionalProperties_lt h
    · simp at h

/-- The type of a schema that is neither an array nor a scalar. -/
def TypeRef.resolveNamed (s : Schema) : Naming TypeRef :=
  match s.referenceName? with
  | some name => return .model (← Naming.sanitize name .model)
  | none => do
    if s.properties.isEmpty && !s.isUnion then
      Naming.report .freeFormObject
    else
      Naming.report (.anonymousSchema s.properties.length s.oneOf.length)
    return freeFormObject

def TypeRef.resolve (packageName : String) (s : Schema) : Naming TypeRef :=
  if s.isArray then
    match _ : s.items with
    | some items => resolve packageName items
    | none => do
      Naming.report .untypedArray
      return freeFormObject
  else
    match Scalar.ofSchema? s with
    | some scalar => return scalar.target packageName
    | none => resolveNamed s
termination_by sizeOf s
decreasing_by exact Schema.sizeOf_items_lt (by assumption)

end ApiGraph

import ApiGraph.Model.Basic

/-!
# Models as JSON

The structured form in which models are handed on. Lists and texts that are empty
and values that are absent are left out, except for the list of fields.
-/

namespace ApiGraph

def ModelOrigin.toJson : ModelOrigin → Json
  | source => .object [("kind", .string "source")]
  | liftedEnum owner field =>
    .object [("kind", .string "lifted_enum"), ("owner", .string owner), ("field", .string field)]

def AllowableValue.toJson (a : AllowableValue) : Json :=
  .object [("name", .string a.name), ("value", a.value.toJson)]

def UnionMember.toJson (u : UnionMember) : Json :=
  .object
    [("type_ref", u.typeRef.toJson), ("is_primitive", .bool u.isPrimitive),
     ("is_array", .bool u.isArray)]

def Json.listMember (name : String) (write : α → Json) (as : List α) : List (String × Json) :=
  Json.memberIf (!as.isEmpty) name (.array (as.map write))

def Json.textMember (name s : String) : List (String × Json) :=
  Json.memberIf (!s.isEmpty) name (.string s)

def Extensions.members (e : Extensions) : List (String × Json) :=
  Json.memberIf (!e.isEmpty) "extensions" e.toJson

theorem Field.sizeOf_items_lt {f i : Field} (h : f.items = some i) : sizeOf i < sizeOf f := by
  cases f
  simp only at h
  subst h
  simp
  omega

/-- The members of a field, with its items already written. -/
def Field.members (f : Field) (items : Option Json) : List (String × Json) :=
  [("name", .string f.name), ("base_name", .string f.baseName),
   ("type_ref", f.typeRef.toJson), ("is_primitive", .bool f.isPrimitive),
   ("is_array", .bool f.isArray), ("is_map", .bool f.isMap), ("is_enum", .bool f.isEnum),
   ("required", .bool f.required)] ++
  Json.optional "enum_name" .string f.enumName ++
  Json.listMember "enum_values" EnumLiteral.toJson f.enumValues ++
  Json.textMember "default_value" f.defaultValue ++
  Json.optional "items" id items ++
  f.extensions.members ++
  [("annotations", f.annotations.toJson)]

def Field.toJson (f : Field) : Json :=
  match _ : f.items with
  | none => .object (f.members none)
  | some items => .object (f.members (some items.toJson))
termination_by sizeOf f
decreasing_by exact Field.sizeOf_items_lt (by assumption)

def Model.toJson (m : Model) : Json :=
  .object <|
    [("name", .string m.name), ("class_name", .string m.className), ("is_enum", .bool m.isEnum),
     ("fields", .array (m.fields.map Field.toJson))] ++
    Json.listMember "enum_values" EnumLiteral.toJson m.enumValues ++
    Json.listMember "allowable_values" AllowableValue.toJson m.allowableValues ++
    Json.listMember "one_of" UnionMember.toJson m.oneOf ++
    [("origin", m.origin.toJson)] ++
    m.extensions.members

def ModelSet.toJson (s : ModelSet) : Json :=
  .object (s.toList.map fun m => (m.className, m.toJson))

end ApiGraph

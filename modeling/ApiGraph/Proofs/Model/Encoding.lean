import ApiGraph.Proofs.Json.Lossless

/-!
# Models are written without loss

Each record is taken apart by the names of its members: what two records with the same canonical
form have under a name is the same, so their fields are. The kinds of types, origins and literals
are told apart by what is written for them. A field is written with its items, so for fields the
argument goes down the items.

Literals that are doubles have to be finite, and extensions have to be as a text gives them;
`Model.Regular` says so of all parts of a model.
-/

namespace ApiGraph

open Json

/-! ## Types and literals -/

theorem lossless_annotations : Lossless (fun _ => True) Annotations.toJson := by
  intro a b _ _ h
  have member := last?_eq_of_canonical h
  have posixTime : a.posixTime = b.posixTime := by simpa using member "posix_time"
  have oneOfName : a.oneOfName = b.oneOfName := by simpa using member "one_of_name"
  have oneOfPrimitives : a.oneOfPrimitives = b.oneOfPrimitives := by
    simpa using member "one_of_primitives"
  have objectParam : a.objectParam = b.objectParam := by simpa using member "object_param"
  have errorIdentifier : a.errorIdentifier = b.errorIdentifier := by
    simpa using member "error_identifier"
  have methodVerb : a.methodVerb = b.methodVerb := by simpa using member "method_verb"
  cases a
  cases b
  congr

theorem Primitive.name_injective : Function.Injective Primitive.name := by
  intro p q h
  cases p <;> cases q <;> simp_all [Primitive.name]

/-- The kind and the name of a type tell it apart from all others. -/
theorem lossless_typeRef : Lossless (fun _ => True) TypeRef.toJson := by
  intro t u _ _ h
  have member := last?_eq_of_canonical h
  have kind : t.kindName = u.kindName := by simpa using member "kind"
  have text : t.text = u.text := by simpa using member "name"
  cases t with
  | primitive p =>
    cases u with
    | primitive q => rw [Primitive.name_injective text]
    | _ => exact absurd kind (by simp [TypeRef.kindName])
  | packaged name =>
    cases u with
    | packaged name' => exact congrArg TypeRef.packaged text
    | _ => exact absurd kind (by simp [TypeRef.kindName])
  | model className =>
    cases u with
    | model className' => exact congrArg TypeRef.model text
    | _ => exact absurd kind (by simp [TypeRef.kindName])

theorem lossless_origin : Lossless (fun _ => True) ModelOrigin.toJson := by
  intro o p _ _ h
  cases o with
  | source =>
    cases p with
    | source => rfl
    | liftedEnum owner field =>
      have kind := last?_eq_of_canonical h "kind"
      simp at kind
  | liftedEnum owner field =>
    cases p with
    | source =>
      have kind := last?_eq_of_canonical h "kind"
      simp at kind
    | liftedEnum owner' field' =>
      have member := last?_eq_of_canonical h
      have howner : owner = owner' := by simpa using member "owner"
      have hfield : field = field' := by simpa using member "field"
      rw [howner, hfield]

def EnumLiteral.Finite : EnumLiteral → Prop
  | float x => x.isFinite = true
  | string _ | int _ | bool _ | null => True

/-- No two literals are written alike: a double is no integer, even where it is a whole number. -/
theorem lossless_literal : Lossless EnumLiteral.Finite EnumLiteral.toJson := by
  intro l l' hl hl' h
  cases l <;> cases l' <;> simp_all [EnumLiteral.toJson, EnumLiteral.Finite, canonical_float]

/-! ## Parts of models -/

theorem lossless_allowableValue :
    Lossless (fun a : AllowableValue => a.value.Finite) AllowableValue.toJson := by
  intro a b ha hb h
  have member := last?_eq_of_canonical h
  have name : a.name = b.name := by simpa using member "name"
  have value : a.value = b.value := lossless_literal _ _ ha hb (by simpa using member "value")
  cases a
  cases b
  congr

theorem lossless_unionMember : Lossless (fun _ => True) UnionMember.toJson := by
  intro u v _ _ h
  have member := last?_eq_of_canonical h
  have typeRef : u.typeRef = v.typeRef :=
    lossless_typeRef _ _ trivial trivial (by simpa using member "type_ref")
  have isPrimitive : u.isPrimitive = v.isPrimitive := by simpa using member "is_primitive"
  have isArray : u.isArray = v.isArray := by simpa using member "is_array"
  cases u
  cases v
  congr

/-- Doubles are finite and extensions as a text gives them, in the field and in its items. -/
inductive Field.Regular : Field → Prop
  | mk {f : Field} (literals : ∀ l ∈ f.enumValues, l.Finite) (extensions : f.extensions.Canonical)
    (items : ∀ i, f.items = some i → Regular i) : Regular f

theorem Field.toJson_eq (f : Field) :
    f.toJson = .object (f.members (f.items.map Field.toJson)) := by
  rw [Field.toJson]
  split <;> rename_i h <;> rw [h] <;> rfl

theorem lossless_field : Lossless Field.Regular Field.toJson := by
  intro f g hf hg h
  induction hf generalizing g with
  | @mk f literals extensions _ ih =>
    obtain ⟨literals', extensions', items'⟩ := hg
    rw [Field.toJson_eq, Field.toJson_eq] at h
    have member := last?_eq_of_canonical h
    unfold Field.members at member
    have name : f.name = g.name := by simpa using member "name"
    have baseName : f.baseName = g.baseName := by simpa using member "base_name"
    have typeRef : f.typeRef = g.typeRef :=
      lossless_typeRef _ _ trivial trivial (by simpa using member "type_ref")
    have isPrimitive : f.isPrimitive = g.isPrimitive := by simpa using member "is_primitive"
    have isArray : f.isArray = g.isArray := by simpa using member "is_array"
    have isMap : f.isMap = g.isMap := by simpa using member "is_map"
    have isEnum : f.isEnum = g.isEnum := by simpa using member "is_enum"
    have required : f.required = g.required := by simpa using member "required"
    have enumName : f.enumName = g.enumName := by simpa using member "enum_name"
    have enumValues : f.enumValues = g.enumValues :=
      lossless_literal.list? literals literals' (by simpa using member "enum_values")
    have defaultValue : f.defaultValue = g.defaultValue := by simpa using member "default_value"
    have items : f.items = g.items := by
      have hitems : (f.items.map Field.toJson).map canonical =
          (g.items.map Field.toJson).map canonical := by simpa using member "items"
      cases hf : f.items with
      | none =>
        cases hg : g.items with
        | none => rfl
        | some j =>
          rw [hf, hg] at hitems
          cases hitems
      | some i =>
        cases hg : g.items with
        | none =>
          rw [hf, hg] at hitems
          cases hitems
        | some j =>
          rw [hf, hg] at hitems
          rw [ih i hf j (items' j hg) (Option.some.inj hitems)]
    have extensions : f.extensions = g.extensions :=
      Extensions.eq_of_written? extensions extensions' (by simpa using member "extensions")
    have annotations : f.annotations = g.annotations :=
      lossless_annotations _ _ trivial trivial (by simpa using member "annotations")
    cases f
    cases g
    congr

/-! ## Models -/

structure Model.Regular (m : Model) : Prop where
  fields : ∀ f ∈ m.fields, f.Regular
  literals : ∀ l ∈ m.enumValues, l.Finite
  allowableValues : ∀ a ∈ m.allowableValues, a.value.Finite
  extensions : m.extensions.Canonical

theorem lossless_model : Lossless Model.Regular Model.toJson := by
  intro m n hm hn h
  have member := last?_eq_of_canonical h
  have name : m.name = n.name := by simpa using member "name"
  have className : m.className = n.className := by simpa using member "class_name"
  have isEnum : m.isEnum = n.isEnum := by simpa using member "is_enum"
  have fields : m.fields = n.fields :=
    lossless_field.list hm.fields hn.fields (by simpa using member "fields")
  have enumValues : m.enumValues = n.enumValues :=
    lossless_literal.list? hm.literals hn.literals (by simpa using member "enum_values")
  have allowableValues : m.allowableValues = n.allowableValues :=
    lossless_allowableValue.list? hm.allowableValues hn.allowableValues
      (by simpa using member "allowable_values")
  have oneOf : m.oneOf = n.oneOf :=
    lossless_unionMember.list? (fun _ _ => trivial) (fun _ _ => trivial)
      (by simpa using member "one_of")
  have origin : m.origin = n.origin :=
    lossless_origin _ _ trivial trivial (by simpa using member "origin")
  have extensions : m.extensions = n.extensions :=
    Extensions.eq_of_written? hm.extensions hn.extensions (by simpa using member "extensions")
  cases m
  cases n
  congr

/-- Models stand under their class names, in the order of these. -/
theorem lossless_modelSet :
    Lossless (fun s : ModelSet => ∀ m ∈ s.toList, m.Regular) ModelSet.toJson := by
  intro s t hs ht h
  have hsorted (s : ModelSet) : (s.toList.map fun m => (m.className, m.toJson)).Pairwise
      fun p q => p.1 < q.1 := List.pairwise_map.2 s.sorted
  unfold ModelSet.toJson at h
  rw [canonical_object_of_sorted (hsorted s), canonical_object_of_sorted (hsorted t),
    object.injEq, List.map_map, List.map_map] at h
  refine Keyed.ext (lossless_model.list hs ht ?_)
  have hvalues := congrArg (List.map Prod.snd) h
  rwa [List.map_map, List.map_map] at hvalues

end ApiGraph

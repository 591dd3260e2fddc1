import ApiGraph.Operation.Build
import ApiGraph.Proofs.Model.References
import ApiGraph.Proofs.TypeRef.Classified

/-!
# What is read off a schema

A field, a union member and a parameter get some flags from members of their schema, and their
type by resolving it. `MadeOf` says both of each: which flag is which member, and that the type
is the one by the table of scalars. Nothing in it depends on the session.

Main statements: whatever is built is made of its schema, at every depth of a field, for every
member and property of a model, and for every schema of a document.
-/

namespace ApiGraph

open Naming

/-- The union members that a model of the schema gets: an enumeration gets none. -/
def Schema.ownMembers (s : Schema) : List Schema := if s.isEnum then [] else s.oneOf

def Schema.ownProperties (s : Schema) : List (String × Schema) :=
  if s.isEnum then [] else s.properties

/-- The flags of a field, and its type, are those of the schema. -/
structure Field.MadeOf (packageName : String) (unions : List String) (s : Schema) (f : Field) :
    Prop where
  typeRef : f.typeRef.Classifies packageName s
  isArray : f.isArray = s.isArray
  isMap : f.isMap = s.isMap
  annotations : f.annotations =
    { posixTime := s.isPosixTime
      oneOfName := if s.referenceName?.any unions.contains then f.typeRef.modelName? else none }

structure UnionMember.MadeOf (packageName : String) (s : Schema) (u : UnionMember) : Prop where
  typeRef : u.typeRef.Classifies packageName s
  isPrimitive : u.isPrimitive = s.isPrimitive
  isArray : u.isArray = s.isArray

structure Model.MadeOf (packageName : String) (unions : List String) (p : String × Schema)
    (m : Model) : Prop where
  name : m.name = p.1
  oneOf : List.Forall₂ (UnionMember.MadeOf packageName) p.2.ownMembers m.oneOf
  fields : List.Forall₂ (fun q f => f.Mirrors (Field.MadeOf packageName unions) q.2)
    p.2.ownProperties m.fields

def ModelSet.MadeOf (packageName : String) (d : Document) (models : ModelSet) : Prop :=
  ∀ m ∈ models.toList, ∃ p ∈ d.schemas.toList, m.MadeOf packageName d.unionNames p

def Schema.inner (s : Schema) : Schema := s.element?.getD s

structure Parameter.MadeOf (packageName : String) (s : Schema) (p : Parameter) : Prop where
  dataType : p.dataType.Classifies packageName s.inner
  isArray : p.isArray = s.isArray
  isMap : p.isMap = s.isMap
  posixTime : p.annotations.posixTime = s.inner.isPosixTime

theorem Field.yields_build_madeOf (packageName : String) (unions : List String)
    (baseName : String) (required : Bool) (s : Schema) :
    (build packageName unions baseName required s).Yields fun f =>
      f.Mirrors (MadeOf packageName unions) s := by
  induction required, s using Field.build.induct with
  | case1 required s ih =>
    unfold build
    refine yields_bind_of_forall fun name => ?_
    refine (TypeRef.yields_resolve_classifies packageName s).bind fun typeRef htype => ?_
    split
    · rename_i hnone
      exact yields_pure (.plain ⟨htype, rfl, rfl, rfl⟩ hnone rfl)
    · rename_i element helement
      refine (ih element helement).bind fun items hitems => ?_
      exact yields_pure (.inside ⟨htype, rfl, rfl, rfl⟩ helement rfl hitems)

theorem UnionMember.yields_build_madeOf (packageName : String) (s : Schema) :
    (build packageName s).Yields (MadeOf packageName s) :=
  (TypeRef.yields_resolve_classifies packageName s).bind fun _ htype =>
    yields_pure ⟨htype, rfl, rfl⟩

theorem Model.yields_build_madeOf (packageName : String) (unions : List String) (name : String)
    (s : Schema) :
    (build packageName unions name s).Yields (MadeOf packageName unions (name, s)) := by
  unfold build
  refine yields_bind_of_forall fun className => ?_
  split
  · rename_i henum
    refine yields_pure ⟨rfl, ?_, ?_⟩
    · rw [Schema.ownMembers, if_pos henum]
      exact .nil
    · rw [Schema.ownProperties, if_pos henum]
      exact .nil
  · rename_i henum
    refine (yields_mapM_forall₂ fun e _ => UnionMember.yields_build_madeOf packageName e).bind
      fun oneOf honeOf => ?_
    refine (yields_mapM_forall₂ fun q _ => Field.yields_build_madeOf packageName unions q.1
      (s.required.contains q.1) q.2).bind fun fields hfields => ?_
    refine yields_pure ⟨rfl, ?_, ?_⟩
    · rwa [Schema.ownMembers, if_neg henum]
    · rwa [Schema.ownProperties, if_neg henum]

theorem Parameter.yields_build_madeOf (packageName : String) (spec : ParameterSpec) :
    (build packageName spec).Yields (MadeOf packageName spec.schema) := by
  unfold build
  refine yields_bind_of_forall fun name => ?_
  refine (TypeRef.yields_resolve_classifies packageName _).bind fun dataType htype => ?_
  exact yields_pure ⟨htype, rfl, rfl, rfl⟩

namespace Model.MadeOf

variable {packageName : String} {unions : List String} {p : String × Schema} {m : Model}

/-- A schema makes a union when it has members and is no enumeration. -/
theorem isUnion_iff (h : m.MadeOf packageName unions p) :
    m.isUnion = true ↔ p.2.isUnion = true ∧ p.2.isEnum = false := by
  have hempty : m.oneOf.isEmpty = p.2.ownMembers.isEmpty := by
    rw [Bool.eq_iff_iff, List.isEmpty_iff_length_eq_zero, List.isEmpty_iff_length_eq_zero,
      h.oneOf.length_eq]
  unfold isUnion Schema.isUnion
  rw [hempty, Schema.ownMembers]
  cases p.2.isEnum <;> simp

end Model.MadeOf

namespace ModelSet

theorem yields_buildEach_madeOf (packageName : String) (unions : List String) (models : ModelSet)
    (schemas : List (String × Schema)) :
    (buildEach packageName unions models schemas).Yields
      (List.Forall₂ (Model.MadeOf packageName unions) schemas) := by
  induction schemas generalizing models with
  | nil => exact yields_pure .nil
  | cons p schemas ih =>
    unfold buildEach
    refine (Model.yields_build_madeOf packageName unions p.1 p.2).bind fun m hm => ?_
    refine yields_bind_of_forall fun _ => ?_
    exact (ih (models.insert m)).bind fun built hbuilt => yields_pure (.cons hm hbuilt)

theorem yields_build_madeOf (packageName : String) (d : Document) :
    (build packageName d).Yields (MadeOf packageName d) :=
  yields_buildInto_forall (fun _ hm => absurd hm List.not_mem_nil) fun p hp =>
    (Model.yields_build_madeOf packageName d.unionNames p.1 p.2).mono fun _ hm => ⟨p, hp, hm⟩

end ModelSet

end ApiGraph

import ApiGraph.Proofs.Flags.Parts
import ApiGraph.Proofs.Lifting.Frame

/-!
# Flags of union members

Whether a union member is a scalar is read off its schema, and so is its type, but not from the
same members. After normalization a field that refers to a union is marked when some member of
the union is flagged as a scalar or as an array.

Main statement: the flag of a member agrees with its type unless the member lists literals
without a kind, which is a string by its type and no scalar by its flag; and a field is marked
when the union that it refers to has an array among its members, or one with a built-in class
whose flag agrees.
-/

namespace ApiGraph

open Naming

/-! ## Members -/

/-- The flag of the member agrees with its type unless the schema is an untyped enumeration. -/
structure UnionMember.FlaggedAs (s : Schema) (u : UnionMember) : Prop where
  isArray : u.isArray = s.isArray
  agrees : (u.isPrimitive = true ↔ u.isArray = false ∧ u.typeRef.isPrimitive = true) ↔
    ¬ s.IsUntypedEnum

theorem Schema.IsUntypedEnum.isPrimitive {s : Schema} (h : s.IsUntypedEnum) :
    s.isPrimitive = false := by
  unfold Schema.isPrimitive
  rw [h.kind, Bool.and_false]

namespace UnionMember.MadeOf

variable {packageName : String} {s : Schema} {u : UnionMember}

/-- The members with a built-in class are those that are flagged, and the untyped enumerations. -/
theorem typeRef_isPrimitive_iff (h : u.MadeOf packageName s) :
    u.isArray = false ∧ u.typeRef.isPrimitive = true ↔
      u.isPrimitive = true ∨ s.IsUntypedEnum := by
  rw [h.isPrimitive, h.isArray, ← Scalar.exists_ofSchema?_ne_map_iff, h.typeRef.isPrimitive_iff]
  constructor
  · rintro ⟨harray, k, hk, hne⟩
    exact ⟨k, (Schema.typedAs_iff_of_not_isArray harray).1 hk, hne⟩
  · rintro ⟨k, hk, hne⟩
    have harray := Schema.isArray_of_ofSchema? hk
    exact ⟨harray, k, (Schema.typedAs_iff_of_not_isArray harray).2 hk, hne⟩

theorem not_isUntypedEnum (h : u.MadeOf packageName s) (hu : u.isPrimitive = true) :
    ¬ s.IsUntypedEnum := by
  intro huntyped
  rw [h.isPrimitive, huntyped.isPrimitive] at hu
  cases hu

theorem flaggedAs (h : u.MadeOf packageName s) : u.FlaggedAs s where
  isArray := h.isArray
  agrees := by
    have hnot := h.not_isUntypedEnum
    rw [h.typeRef_isPrimitive_iff]
    tauto

/-- What counts for the mark of a field, said by the type of the member. -/
theorem isPrimitive_or_isArray_iff (h : u.MadeOf packageName s) :
    (u.isPrimitive || u.isArray) = true ↔
      u.isArray = true ∨ u.typeRef.isPrimitive = true ∧ ¬ s.IsUntypedEnum := by
  have hnot := h.not_isUntypedEnum
  have htype := h.typeRef_isPrimitive_iff
  rw [Bool.or_eq_true]
  cases harray : u.isArray with
  | true => simp
  | false =>
    simp only [Bool.false_eq_true, or_false, false_or]
    tauto

end UnionMember.MadeOf

/-! ## Marks -/

namespace ModelSet

theorem unionTarget?_markField (s : ModelSet) (f : Field) :
    (s.markField f).unionTarget? = f.unionTarget?.map s.markTarget := by
  unfold markField Field.unionTarget?
  cases harray : f.isArray with
  | true => simp
  | false =>
    obtain ⟨annotations, heq⟩ := s.markTarget_eq f
    simp [heq, harray]

theorem oneOfName_markTarget (s : ModelSet) (f : Field) :
    (s.markTarget f).annotations.oneOfName = f.annotations.oneOfName := by
  unfold markTarget
  split <;> rfl

theorem oneOfPrimitives_markTarget (s : ModelSet) (f : Field) :
    (s.markTarget f).annotations.oneOfPrimitives =
      (f.annotations.oneOfPrimitives || s.refersToMixed f) := by
  unfold markTarget
  split
  · rename_i hmixed
    rw [hmixed, Bool.or_true]
  · rename_i hmixed
    rw [Bool.eq_false_iff.2 hmixed, Bool.or_false]

/-- A field refers to a mixed union when the set has one under the name that the field gives. -/
theorem refersToMixed_eq {s : ModelSet} {f : Field} {u : Model} (hu : u ∈ s.toList)
    (hunion : u.isUnion = true) (hname : f.annotations.oneOfName = some u.className) :
    s.refersToMixed f = u.isMixedUnion := by
  unfold refersToMixed union?
  rw [hname]
  dsimp only
  rw [Keyed.mem_toList_iff.1 hu, Option.filter_some, if_pos hunion, Option.any_some]

end ModelSet

/-- No part of the field that can refer to a union is marked. -/
def Field.Unmarked (f : Field) : Prop :=
  ∀ g ∈ f.unionTarget?, g.annotations.oneOfPrimitives = false

theorem Field.MadeOf.oneOfPrimitives {packageName : String} {unions : List String} {s : Schema}
    {f : Field} (h : f.MadeOf packageName unions s) : f.annotations.oneOfPrimitives = false := by
  rw [h.annotations]

/-- Fields are built without marks. -/
theorem Field.unmarked_of_mirrors {packageName : String} {unions : List String} {s : Schema}
    {f : Field} (h : f.Mirrors (MadeOf packageName unions) s) : f.Unmarked := by
  intro g hg
  unfold unionTarget? at hg
  split at hg
  · cases h with
    | plain _ _ items =>
      rw [items] at hg
      cases hg
    | inside _ _ items within =>
      rw [items] at hg
      cases hg
      exact within.node.oneOfPrimitives
  · cases hg
    exact h.node.oneOfPrimitives

/-- Lifting leaves no marks. -/
theorem Field.LiftedTo.unmarked {ofEnum : Bool} {f f' : Field} (h : f.LiftedTo ofEnum f')
    (hf : f.Unmarked) : f'.Unmarked := by
  cases h with
  | same => exact hf
  | retyped _ _ retyped =>
    obtain ⟨typeRef, isPrimitive, isEnum, items, hitems, rfl⟩ := retyped
    unfold Unmarked unionTarget? at hf ⊢
    dsimp only
    cases harray : f.isArray with
    | false =>
      rw [harray] at hf
      rintro g ⟨⟩
      exact hf f rfl
    | true =>
      rw [harray, if_pos rfl] at hf
      rw [if_pos rfl]
      intro g' hg'
      rw [hg'] at hitems
      generalize f.items = o at hf hitems
      cases hitems with
      | @some g _ hretyped =>
        have hg := hf g rfl
        cases hretyped with
        | same => exact hg
        | retyped _ _ _ => exact hg

/-! ## Normalized sets -/

namespace ModelSet

/-- Before marking, a set to be normalized is made of models without fields and members, which are
lifted, and of its own models with no more changed than their enumerations. -/
theorem exists_merged_of_normalize {nameExtensions : List String} {s t : ModelSet} {σ τ : Session}
    (h : normalize nameExtensions s σ = .ok t τ) :
    ∃ merged : ModelSet, t = merged.annotateUnions ∧ ∀ y ∈ merged.toList,
      (y.fields = [] ∧ y.oneOf = []) ∨ ∃ m ∈ s.toList, m.KeptUpTo Field.LiftedTo y := by
  obtain ⟨models, lifted, σ₁, merged, σ₂, hpass, -, hmerged, rfl, -⟩ := normalize_eq_ok h
  obtain ⟨hmodels, hlifted⟩ := yields_normalizeAll_makes nameExtensions s σ _ σ₁ hpass
  refine ⟨merged, rfl, fun y hy => ?_⟩
  rw [hmerged] at hy
  rcases Keyed.mem_of_mem_insertAll hy with hy | hy
  · obtain ⟨i, -, members, -, heq⟩ := hlifted y hy
    rw [heq]
    exact .inl ⟨rfl, rfl⟩
  · exact .inr (exists_of_mem_forall₂ hmodels (Keyed.mem_of_mem_ofList hy))

/-- A field that refers to a union of the set is marked when the union has an array among its
members, or a member with a built-in class that is no untyped enumeration. -/
def MarksMixed (d : Document) (t : ModelSet) : Prop :=
  ∀ x ∈ t.toList, ∀ f ∈ x.fields, ∀ g ∈ f.unionTarget?, ∀ u ∈ t.toList,
    g.annotations.oneOfName = some u.className → u.isUnion = true →
      ∃ p ∈ d.schemas.toList, u.name = p.1 ∧
        List.Forall₂ (fun s v => v.FlaggedAs s) p.2.ownMembers u.oneOf ∧
        (g.annotations.oneOfPrimitives = true ↔ ∃ q ∈ p.2.ownMembers.zip u.oneOf,
          q.2.isArray = true ∨ q.2.typeRef.isPrimitive = true ∧ ¬ q.1.IsUntypedEnum)

theorem marksMixed_of_normalize {packageName : String} {nameExtensions : List String}
    {d : Document} {built t : ModelSet} {σ τ : Session}
    (hbuilt : built.MadeOf packageName d) (h : normalize nameExtensions built σ = .ok t τ) :
    t.MarksMixed d := by
  obtain ⟨merged, rfl, hmerged⟩ := exists_merged_of_normalize h
  intro x hx f hf g hg u hu hname hunion
  obtain ⟨y, hy, rfl⟩ := List.mem_map.1 hx
  obtain ⟨f', hf', rfl⟩ := List.mem_map.1 hf
  obtain ⟨v, hv, rfl⟩ := List.mem_map.1 hu
  rw [unionTarget?_markField] at hg
  obtain ⟨g', hg', rfl⟩ := Option.map_eq_some_iff.1 hg
  rw [oneOfName_markTarget] at hname
  -- the field has not been marked before
  have hunmarked : f'.Unmarked := by
    rcases hmerged y hy with ⟨hnil, -⟩ | ⟨m, hm, allowableValues, fields, rfl, -, hfields⟩
    · rw [hnil] at hf'
      cases hf'
    · obtain ⟨f₀, hf₀, hlifted⟩ := exists_of_mem_forall₂ hfields hf'
      obtain ⟨p, -, hmade⟩ := hbuilt m hm
      obtain ⟨q, -, hmirrors⟩ := exists_of_mem_forall₂ hmade.fields hf₀
      exact hlifted.unmarked (Field.unmarked_of_mirrors hmirrors)
  -- the union is one of the document, with the members that it was built with
  rcases hmerged v hv with ⟨-, hnil⟩ | ⟨m, hm, allowableValues, fields, rfl, -, -⟩
  · have hnot : v.isUnion = false := by rw [Model.isUnion, hnil]; rfl
    have hunion : v.isUnion = true := hunion
    rw [hnot] at hunion
    cases hunion
  · obtain ⟨p, hp, hmade⟩ := hbuilt m hm
    refine ⟨p, hp, hmade.name, hmade.oneOf.imp fun _ _ hu => hu.flaggedAs, ?_⟩
    rw [oneOfPrimitives_markTarget, hunmarked g' hg', Bool.false_or,
      refersToMixed_eq hv hunion hname, Model.isMixedUnion, List.any_eq_true]
    exact (exists_mem_zip_iff hmade.oneOf fun s v hv =>
      hv.isPrimitive_or_isArray_iff.symm).symm

end ModelSet

/-- In every session the flag of each member that a model is built with agrees with its type
unless the member is an untyped enumeration; and a normalized set marks its fields by the members
whose flags agree. -/
theorem UnionMember.isPrimitive_agrees_iff (packageName : String) :
    (∀ unions name s σ m τ, Model.build packageName unions name s σ = .ok m τ →
      List.Forall₂ (fun s v => v.FlaggedAs s) s.ownMembers m.oneOf) ∧
    ∀ d nameExtensions σ built σ₁ t σ₂, ModelSet.build packageName d σ = .ok built σ₁ →
      ModelSet.normalize nameExtensions built σ₁ = .ok t σ₂ → t.MarksMixed d := by
  constructor
  · intro unions name s σ m τ h
    exact (Model.yields_build_madeOf _ _ _ _ _ _ _ h).oneOf.imp fun _ _ hv => hv.flaggedAs
  · intro d nameExtensions σ built σ₁ t σ₂ hbuild hnormalize
    have hbuilt := ModelSet.yields_build_madeOf _ _ _ _ _ hbuild
    exact ModelSet.marksMixed_of_normalize hbuilt hnormalize

/-- A union whose only member lists texts and does not say that they are texts. -/
def Schema.untypedSizes : Schema := { oneOf := [{ enumValues := [.string "small"] }] }

def Document.withUntypedSizes : Document where
  schemas := .ofList
    [("Owner", { properties := [("size", { reference := some "Size" })] }),
     ("Size", Schema.untypedSizes)]
  operations := []

theorem UnionMember.isPrimitive_untypedSizes_agrees :
    (∃ m τ, Model.build "Pets" [] "Size" Schema.untypedSizes .start = .ok m τ ∧
      List.Forall₂ (fun s v => v.FlaggedAs s) Schema.untypedSizes.ownMembers m.oneOf) ∧
    ∃ built s₁ t s₂, ModelSet.build "Pets" .withUntypedSizes .start = .ok built s₁ ∧
      ModelSet.normalize [] built s₁ = .ok t s₂ ∧ t.MarksMixed .withUntypedSizes := by
  obtain ⟨m, τ, hm, -⟩ := (succeedsWith_iff (s := .start) (p := fun _ => true)
    (x := Model.build "Pets" [] "Size" Schema.untypedSizes)).1 (by decide +kernel)
  obtain ⟨t, s₂, hrun, -⟩ := (succeedsWith_iff (s := .start) (p := fun _ => true)
    (x := ModelSet.build "Pets" .withUntypedSizes >>= ModelSet.normalize [])).1 (by decide +kernel)
  obtain ⟨built, s₁, hbuild, hnormalize⟩ := bind_eq_ok_iff.1 hrun
  exact ⟨⟨m, τ, hm, (isPrimitive_agrees_iff "Pets").1 _ _ _ _ m τ hm⟩, built, s₁, t, s₂, hbuild,
    hnormalize, (isPrimitive_agrees_iff "Pets").2 _ _ _ built s₁ t s₂ hbuild hnormalize⟩

/-- A member with a built-in class can be flagged as no scalar, and a field that refers to its union
is left without a mark. -/
theorem UnionMember.exists_isPrimitive_ne :
    ∃ built s₁ t s₂, ModelSet.build "Pets" .withUntypedSizes .start = .ok built s₁ ∧
      ModelSet.normalize [] built s₁ = .ok t s₂ ∧ ∃ u ∈ t.toList,
        (∃ v ∈ u.oneOf, v.isPrimitive = false ∧ v.isArray = false ∧
          v.typeRef.isPrimitive = true) ∧
        ∃ x ∈ t.toList, ∃ f ∈ x.fields, f.isArray = false ∧
          f.annotations.oneOfName = some u.className ∧ f.annotations.oneOfPrimitives = false := by
  obtain ⟨t, s₂, hrun, ht⟩ := (succeedsWith_iff (s := .start)
    (x := ModelSet.build "Pets" .withUntypedSizes >>= ModelSet.normalize [])
    (p := fun t => ∃ u ∈ t.toList,
      (∃ v ∈ u.oneOf, v.isPrimitive = false ∧ v.isArray = false ∧ v.typeRef.isPrimitive = true) ∧
      ∃ x ∈ t.toList, ∃ f ∈ x.fields, f.isArray = false ∧
        f.annotations.oneOfName = some u.className ∧
          f.annotations.oneOfPrimitives = false)).1 (by decide +kernel)
  obtain ⟨built, s₁, hbuild, hnormalize⟩ := bind_eq_ok_iff.1 hrun
  exact ⟨built, s₁, t, s₂, hbuild, hnormalize, of_decide_eq_true ht⟩

end ApiGraph

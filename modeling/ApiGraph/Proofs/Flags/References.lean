import ApiGraph.Proofs.Flags.Parts
import ApiGraph.Proofs.GeneratedApi.References

/-!
# Flags of references to unions

A field is flagged with the class of a union when the name in its reference is the name of a
schema with union members. What is found under that class in the set is a model, which is a
union when the schema that it is built of has members and is no enumeration, and which need not
be the model of the schema referred to. So the flag is decided on names and schemas, and read
back on class names and models.

Main statement: for every document the flag and the set agree on a field that is a reference,
at every depth, unless the reference misleads: it is to an enumeration with union members, to a
union whose model is displaced by one that is none, or to another schema of the class of a union.
-/

namespace ApiGraph

open Naming

namespace ModelSet

def HasUnion (models : ModelSet) (className : String) : Prop :=
  ∃ u, models.get? className = some u ∧ u.isUnion = true

def Stores (models : ModelSet) (className name : String) : Prop :=
  ∃ u, models.get? className = some u ∧ u.name = name

/-- Why the name in a reference and the model under its class name contradict each other. -/
inductive Misleads (d : Document) (models : ModelSet) (className name : String) : Prop
  /-- The schema has union members, but its model is an enumeration. -/
  | enumeration {s : Schema} (declared : (name, s) ∈ d.schemas.toList) (isUnion : s.isUnion = true)
      (isEnum : s.isEnum = true) (stored : models.Stores className name)
  /-- The schema has union members, but another one that makes no union has displaced it. -/
  | displaced {p : String × Schema} (union : name ∈ d.unionNames) (declared : p ∈ d.schemas.toList)
      (other : p.1 ≠ name) (stored : models.Stores className p.1)
      (noUnion : ¬ (p.2.isUnion = true ∧ p.2.isEnum = false))
  /-- The name is of no schema with union members, but has the class name of one. -/
  | shared {p : String × Schema} (noUnion : name ∉ d.unionNames) (declared : p ∈ d.schemas.toList)
      (stored : models.Stores className p.1) (isUnion : p.2.isUnion = true)
      (isEnum : p.2.isEnum = false)

end ModelSet

/-- A field that is a reference has the class of a model for its type, and the flag says whether the
set has a union there unless the reference misleads. -/
def Field.FlagsReference (d : Document) (models : ModelSet) (s : Schema) (f : Field) : Prop :=
  s.isArray = false → ∀ name, s.referenceName? = some name → ∃ c, f.typeRef = .model c ∧
    ((∀ c', f.annotations.oneOfName = some c' ↔ f.typeRef = .model c' ∧ models.HasUnion c') ↔
      ¬ models.Misleads d c name)

namespace Document

theorem mem_unionNames_iff {d : Document} {name : String} :
    name ∈ d.unionNames ↔ ∃ s, (name, s) ∈ d.schemas.toList ∧ s.isUnion = true := by
  unfold unionNames
  simp

/-- The schema of a name is unique. -/
theorem schema_unique {d : Document} {p q : String × Schema} (hp : p ∈ d.schemas.toList)
    (hq : q ∈ d.schemas.toList) (hname : p.1 = q.1) : p = q :=
  List.inj_on_of_nodup_map d.schemas.nodup_keys hp hq hname

end Document

namespace ModelSet

variable {packageName : String} {d : Document} {models : ModelSet}

/-- The set has a union under a class name when the schema that is stored there makes one. -/
theorem Stores.hasUnion_iff {className : String} {p : String × Schema}
    (h : models.Stores className p.1) (hp : p ∈ d.schemas.toList)
    (hmade : models.MadeOf packageName d) :
    models.HasUnion className ↔ p.2.isUnion = true ∧ p.2.isEnum = false := by
  obtain ⟨u, hu, hname⟩ := h
  obtain ⟨q, hq, hu'⟩ := hmade u (Keyed.get?_eq_some_iff.1 hu).1
  obtain rfl : q = p := Document.schema_unique hq hp (hu'.name.symm.trans hname)
  rw [← hu'.isUnion_iff, HasUnion, hu]
  simp

/-- Every model of the set is that of a schema. -/
theorem exists_stores {className : String} {u : Model} (hu : models.get? className = some u)
    (hmade : models.MadeOf packageName d) :
    ∃ p ∈ d.schemas.toList, models.Stores className p.1 := by
  obtain ⟨p, hp, hname, -⟩ := hmade u (Keyed.get?_eq_some_iff.1 hu).1
  exact ⟨p, hp, u, hu, hname⟩

/-- A reference misleads when its name is of a union and the model is none, or the other way. -/
theorem misleads_iff {className name : String}
    (hmade : models.MadeOf packageName d)
    (hkey : name ∈ d.unionNames → ∃ u, models.get? className = some u) :
    models.Misleads d className name ↔
      ¬ (name ∈ d.unionNames ↔ models.HasUnion className) := by
  constructor
  · intro h hiff
    cases h with
    | enumeration declared isUnion isEnum stored =>
      have hname := Document.mem_unionNames_iff.2 ⟨_, declared, isUnion⟩
      obtain ⟨-, hnot⟩ := (stored.hasUnion_iff declared hmade).1 (hiff.1 hname)
      rw [isEnum] at hnot
      cases hnot
    | displaced union declared _ stored noUnion =>
      exact noUnion ((stored.hasUnion_iff declared hmade).1 (hiff.1 union))
    | shared noUnion declared stored isUnion isEnum =>
      exact noUnion (hiff.2 ((stored.hasUnion_iff declared hmade).2 ⟨isUnion, isEnum⟩))
  · intro h
    by_cases hname : name ∈ d.unionNames
    · have hnone : ¬ models.HasUnion className := fun hunion => h (iff_of_true hname hunion)
      obtain ⟨u, hu⟩ := hkey hname
      obtain ⟨p, hp, hstored⟩ := exists_stores hu hmade
      rw [hstored.hasUnion_iff hp hmade] at hnone
      by_cases hother : p.1 = name
      · obtain ⟨s, hs, hunion⟩ := Document.mem_unionNames_iff.1 hname
        obtain rfl : p = (name, s) := Document.schema_unique hp hs hother
        exact .enumeration hs hunion (by simpa [hunion] using hnone) hstored
      · exact .displaced hname hp hother hstored hnone
    · obtain ⟨u, hu, hunion⟩ : models.HasUnion className :=
        by_contra fun hnot => h (iff_of_false hname hnot)
      obtain ⟨p, hp, hstored⟩ := exists_stores hu hmade
      obtain ⟨hmembers, hliterals⟩ := (hstored.hasUnion_iff hp hmade).1 ⟨u, hu, hunion⟩
      exact .shared hname hp hstored hmembers hliterals

end ModelSet

/-! ## Fields -/

namespace Field

/-- The flag is given on the condition `P`, and says `Q` of the class, when these are the same. -/
theorem oneOfName_ite_iff {P : Prop} [Decidable P] {Q : String → Prop} {c : String} :
    (∀ c', (if P then some c else none) = some c' ↔ TypeRef.model c = .model c' ∧ Q c') ↔
      (P ↔ Q c) := by
  simp only [Option.ite_none_right_eq_some, Option.some.injEq, TypeRef.model.injEq]
  constructor
  · intro h
    have hc := h c
    tauto
  · rintro h c'
    constructor
    · rintro ⟨hP, rfl⟩
      exact ⟨rfl, h.1 hP⟩
    · rintro ⟨rfl, hQ⟩
      exact ⟨h.2 hQ, rfl⟩

theorem exists_typeRef_eq_model {packageName : String} {unions : List String} {s : Schema}
    {f : Field} (hf : f.MadeOf packageName unions s) (hs : s.isArray = false) {name : String}
    (hname : s.referenceName? = some name) :
    ∃ c, f.typeRef = .model c ∧
      f.annotations.oneOfName = if name ∈ unions then some c else none := by
  cases hf.typeRef with
  | scalar typed _ =>
    rw [Schema.typedAs_iff_of_not_isArray hs, Schema.ofSchema?_of_reference hname] at typed
    cases typed
  | @model c _ eq =>
    refine ⟨c, eq, ?_⟩
    rw [hf.annotations, hname, eq]
    simp [TypeRef.modelName?]

/-- A field that follows its reference is flagged as the set has it, unless the reference misleads.
The set has to have a model for each union, under the class name that references to it get. -/
theorem flagsReference {packageName : String} {d : Document} {models : ModelSet}
    {classOf : String → String → Prop} {s : Schema} {f : Field}
    (hmade : models.MadeOf packageName d)
    (hclass : ∀ name ∈ d.unionNames, ∃ c ∈ models.keys, classOf name c)
    (hresolves : f.Resolves classOf s) (hf : f.MadeOf packageName d.unionNames s) :
    f.FlagsReference d models s := by
  intro harray name hname
  obtain ⟨c, htype, hflag⟩ := exists_typeRef_eq_model hf harray hname
  have hkey : name ∈ d.unionNames → ∃ u, models.get? c = some u := by
    intro hunion
    obtain ⟨c', hc', hanswer⟩ := hclass name hunion
    have heq : f.typeRef = .model c' := hresolves.refers harray name c' hname hanswer
    rw [htype, TypeRef.model.injEq] at heq
    exact Keyed.mem_keys_iff.1 (heq ▸ hc')
  refine ⟨c, htype, ?_⟩
  rw [ModelSet.misleads_iff hmade hkey, not_not, hflag, htype]
  exact oneOfName_ite_iff

end Field

/-! ## Building -/

namespace ModelSet

/-- The list of models that are built, with what is made of each schema and what its references
lead to. -/
theorem exists_buildEach {packageName : String} {d : Document} {σ τ : Session} {models : ModelSet}
    (h : build packageName d σ = .ok models τ) :
    ∃ built, models = Keyed.ofList built ∧
      List.Forall₂ (fun p m => m.MadeOf packageName d.unionNames p ∧
          KnownClass τ.registry p.1 m.className ∧ m.BuiltOf (KnownClass τ.registry) p)
        d.schemas.toList built := by
  obtain ⟨built, t, hbuilt, hlist⟩ := bind_eq_ok_iff.1 (build_eq _ _ ▸ h)
  obtain ⟨rfl, rfl⟩ := pure_eq_ok_iff.1 hlist
  obtain ⟨-, hestablished⟩ := establishes_buildEach _ _ _ _ _ _ _ hbuilt
  refine ⟨built, rfl, ?_⟩
  exact (yields_buildEach_madeOf _ _ _ _ _ _ _ hbuilt).mp (fun _ _ hmade hm => ⟨hmade, hm⟩)
    (hestablished _ (le_refl t.registry))

/-- In the set that is built of a document, every field that is a reference is flagged when there is
a union under the class of its type, unless the reference misleads. -/
theorem oneOfName_agrees_iff (packageName : String) (d : Document) (σ τ : Session)
    (models : ModelSet) (h : build packageName d σ = .ok models τ) :
    ∀ m ∈ models.toList, ∃ p ∈ d.schemas.toList, m.name = p.1 ∧
      List.Forall₂ (fun q f => f.baseName = q.1 ∧ f.Mirrors (Field.FlagsReference d models) q.2)
        p.2.ownProperties m.fields := by
  have hmade := yields_build_madeOf _ _ _ _ _ h
  obtain ⟨built, rfl, hbuilt⟩ := exists_buildEach h
  have hclass : ∀ name ∈ d.unionNames, ∃ c ∈ (Keyed.ofList built : ModelSet).keys,
      KnownClass τ.registry name c := by
    intro name hname
    obtain ⟨s, hs, -⟩ := Document.mem_unionNames_iff.1 hname
    obtain ⟨m, hm, -, hanswer, -⟩ := exists_of_mem_forall₂ hbuilt.flip hs
    exact ⟨m.className, Keyed.mem_keys_insertAll.2 (.inl (List.mem_map_of_mem hm)), hanswer⟩
  intro m hm
  obtain ⟨p, hp, hmade', -, hm⟩ := exists_of_mem_forall₂ hbuilt (Keyed.mem_of_mem_ofList hm)
  refine ⟨p, hp, hmade'.name, ?_⟩
  have hfields := hmade'.fields
  unfold Schema.ownProperties at hfields ⊢
  cases henum : p.2.isEnum with
  | true =>
    rw [henum, if_pos rfl] at hfields
    rw [if_pos rfl, List.forall₂_nil_left_iff.1 hfields]
    exact .nil
  | false =>
    rw [henum, if_neg Bool.false_ne_true] at hfields
    rw [if_neg Bool.false_ne_true]
    refine hfields.mp (fun q f hf hmirrors => ⟨hmirrors.1, ?_⟩) (hm.mirrors henum).fields
    exact (hmirrors.2.and hf).mono fun s f h => Field.flagsReference hmade hclass h.1 h.2

/-- A model with references to an enumeration that has union members, and to a schema that shares
its class name with a union. -/
def misleading : Document where
  schemas := .ofList
    [("Owner", { properties :=
        [("shade", { reference := some "Shade" }), ("shape", { reference := some "my-shape" })] }),
     ("Shade", { enumValues := [.string "dark"], oneOf := [{ kind := some .string }] }),
     ("my-shape", { kind := some .object }),
     ("my_shape", { oneOf := [{ kind := some .string }] })]
  operations := []

theorem oneOfName_misleading_agrees :
    ∃ models τ, build "Pets" misleading .start = .ok models τ ∧
      ∀ m ∈ models.toList, ∃ p ∈ misleading.schemas.toList, m.name = p.1 ∧
        List.Forall₂ (fun q f => f.baseName = q.1 ∧
          f.Mirrors (Field.FlagsReference misleading models) q.2) p.2.ownProperties m.fields := by
  obtain ⟨models, τ, h, -⟩ := (succeedsWith_iff (s := .start) (p := fun _ => true)
    (x := build "Pets" misleading)).1 (by decide +kernel)
  exact ⟨models, τ, h, oneOfName_agrees_iff "Pets" misleading .start τ models h⟩

/-- A reference to an enumeration can be flagged as one to a union, and a reference whose class is
that of a union can be left without a flag. -/
theorem exists_oneOfName_ne :
    ∃ models τ, build "Pets" misleading .start = .ok models τ ∧ ∃ m ∈ models.toList,
      (∃ f ∈ m.fields, f.isArray = false ∧ ∃ u ∈ models.toList,
        f.annotations.oneOfName = some u.className ∧ u.isUnion = false) ∧
      ∃ f ∈ m.fields, f.isArray = false ∧ f.annotations.oneOfName = none ∧
        ∃ u ∈ models.toList, f.typeRef = .model u.className ∧ u.isUnion = true := by
  obtain ⟨models, τ, h, hm⟩ := (succeedsWith_iff (s := .start)
    (p := fun models => ∃ m ∈ models.toList,
      (∃ f ∈ m.fields, f.isArray = false ∧ ∃ u ∈ models.toList,
        f.annotations.oneOfName = some u.className ∧ u.isUnion = false) ∧
      ∃ f ∈ m.fields, f.isArray = false ∧ f.annotations.oneOfName = none ∧
        ∃ u ∈ models.toList, f.typeRef = .model u.className ∧ u.isUnion = true)
    (x := build "Pets" misleading)).1 (by decide +kernel)
  exact ⟨models, τ, h, of_decide_eq_true hm⟩

end ModelSet

end ApiGraph

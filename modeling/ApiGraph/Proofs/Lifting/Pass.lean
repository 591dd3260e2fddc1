import ApiGraph.Proofs.Lifting.Candidates
import ApiGraph.Proofs.Model.Steps

/-!
# Lifting as a pure function

Over a registry that knows all names, a pass over models is described by a function
`modelOf` from the origins of inline enumerations to their models. `LiftsTo` says that
the enumerations, taken one after the other, are lifted to the models that `modelOf` has
for them; a field then refers to the model of its own origin, which is `Field.settle`.

Main statements: what a pass over models recalls is described by such a function, and
whatever is described by one is recalled. The first direction finds the models as a
list; `LiftsBetween` holds what is known of the list until the function is chosen.
-/

namespace ApiGraph

open Identifier Naming

def Event.isLifting : Event → Bool
  | .fewerDisplayNames .. | .liftedNameTaken .. => true
  | e => e.isNaming

theorem Event.isLifting_of_isNaming {e : Event} (h : e.isNaming = true) : e.isLifting = true := by
  cases e <;> first | rfl | exact h

/-! ## Members -/

namespace AllowableValue

theorem composed_ofRaw (raw : String) (value : EnumLiteral) :
    (ofRaw raw value).Composed fun e => e.isLifting = true :=
  .bind ((composed_trySanitize raw .field).mono fun _ => Event.isLifting_of_isNaming)
    fun _ => .pure _

theorem composed_build (nameExtensions : List String) (values : List EnumLiteral)
    (e : Extensions) :
    (build nameExtensions values e).Composed fun e => e.isLifting = true := by
  rw [build_eq]
  refine .bind (.reportIf _ rfl rfl) fun _ => ?_
  exact .mapM fun (raw, value) _ => composed_ofRaw raw value

theorem memoizing_build (nameExtensions : List String) (values : List EnumLiteral)
    (e : Extensions) : (build nameExtensions values e).Memoizing :=
  (composed_build nameExtensions values e).memoizing

/-- Every literal gets one member, in the same order. -/
theorem yields_build_values (nameExtensions : List String) (values : List EnumLiteral)
    (e : Extensions) :
    (build nameExtensions values e).Yields fun members =>
      members.map AllowableValue.value = values := by
  rw [build_eq]
  refine yields_bind_of_forall fun _ => ?_
  refine (yields_mapM_map (g := AllowableValue.value) (h := Prod.snd) ?_).mono
    fun members hmembers => hmembers.trans (map_snd_rawNames _ values)
  rintro ⟨raw, value⟩ -
  exact yields_bind_of_forall fun _ => yields_pure rfl

end AllowableValue

/-! ## One enumeration -/

namespace InlineEnum

def model (i : InlineEnum) (className : String) (allowableValues : List AllowableValue) :
    Model where
  name := className
  className
  isEnum := true
  enumValues := i.source.enumValues
  allowableValues
  origin := i.origin
  extensions := i.source.extensions

/-- The model is one of the enumeration: it has the literals and a member for each of them. -/
def Makes (i : InlineEnum) (e : Model) : Prop :=
  ∃ members, members.map AllowableValue.value = i.source.enumValues ∧
    e = i.model e.className members

theorem Makes.origin_eq {i : InlineEnum} {e : Model} (h : i.Makes e) : e.origin = i.origin := by
  obtain ⟨members, -, heq⟩ := h
  rw [heq]
  rfl

/-- Over the registry the enumeration gets the model when the names `taken` are not free. -/
structure Gets (nameExtensions : List String) (r : Registry) (taken : List String)
    (i : InlineEnum) (e : Model) : Prop where
  className : ∃ attempt < renameLimit, i.IsFirstFree r taken attempt e.className
  contents : ∃ members,
    (AllowableValue.build nameExtensions i.source.enumValues i.source.extensions).Recalls r
      members ∧ e = i.model e.className members

end InlineEnum

namespace Model

variable {nameExtensions : List String} {r : Registry}

theorem composed_liftEnum (nameExtensions : List String) (owner baseName : String)
    (source : Field) (claimed : ModelSet) :
    (liftEnum nameExtensions owner baseName source claimed).Composed
      (fun e => e.isLifting = true) PastNumbers := by
  rw [liftEnum_eq]
  refine .bind ((composed_freeName _ _ _ _).mono fun _ => Event.isLifting_of_isNaming)
    fun (c, attempt) => ?_
  refine .bind (.reportIf _ rfl rfl) fun _ => ?_
  exact .bind (AllowableValue.composed_build _ _ _).within fun _ => .pure _

theorem memoizing_liftEnum (nameExtensions : List String) (owner baseName : String)
    (source : Field) (claimed : ModelSet) :
    (liftEnum nameExtensions owner baseName source claimed).Memoizing :=
  (composed_liftEnum nameExtensions owner baseName source claimed).memoizing

theorem yields_liftEnum_makes (nameExtensions : List String) (i : InlineEnum) (claimed : ModelSet) :
    (liftEnum nameExtensions i.owner i.field.baseName i.source claimed).Yields i.Makes := by
  rw [liftEnum_eq]
  refine yields_bind_of_forall fun (c, attempt) => ?_
  refine yields_bind_of_forall fun _ => ?_
  refine (AllowableValue.yields_build_values _ _ _).bind fun members hmembers => ?_
  exact yields_pure ⟨members, hmembers, rfl⟩

/-- When no other enumeration of its origin has been lifted, an enumeration gets the first name
that is not claimed. -/
theorem recalls_liftEnum_iff {i : InlineEnum} {claimed : ModelSet}
    (horigin : ∀ e ∈ claimed.toList, e.origin ≠ i.origin) {e : Model} :
    (liftEnum nameExtensions i.owner i.field.baseName i.source claimed).Recalls r e ↔
      i.Gets nameExtensions r claimed.keys e := by
  have hmembers (c : String) :=
    (AllowableValue.memoizing_build nameExtensions i.source.enumValues
      i.source.extensions).bind fun members => memoizing_pure (i.model c members)
  have hlift : (liftEnum nameExtensions i.owner i.field.baseName i.source claimed).Recalls r e ↔
      ∃ c attempt, (attempt < renameLimit ∧ i.IsFirstFree r claimed.keys attempt c) ∧
        ∃ members, (AllowableValue.build nameExtensions i.source.enumValues
          i.source.extensions).Recalls r members ∧ i.model c members = e := by
    rw [liftEnum_eq]
    refine (recalls_bind_iff (memoizing_freeName _ _ _ _ _ _) fun (c, attempt) =>
      (memoizing_reportIf _ _).bind fun _ => hmembers c).trans ?_
    rw [Prod.exists]
    refine exists_congr fun c => exists_congr fun attempt => and_congr
      (recalls_freeName_lift_iff horigin) ?_
    refine (recalls_bind_unit_iff (memoizing_reportIf _ _) (hmembers c) recalls_reportIf).trans ?_
    refine (recalls_bind_iff (AllowableValue.memoizing_build _ _ _) fun members =>
      memoizing_pure _).trans ?_
    exact exists_congr fun members => and_congr_right fun _ => recalls_pure_iff
  rw [hlift]
  constructor
  · rintro ⟨c, attempt, hname, members, hmembers, rfl⟩
    exact ⟨⟨attempt, hname⟩, members, hmembers, rfl⟩
  · rintro ⟨⟨attempt, hname⟩, members, hmembers, heq⟩
    exact ⟨e.className, attempt, hname, members, hmembers, heq.symm⟩

end Model

/-! ## Enumerations one after the other -/

def InlineEnum.models (modelOf : ModelOrigin → Model) (is : List InlineEnum) : List Model :=
  is.map (modelOf ∘ InlineEnum.origin)

theorem InlineEnum.models_append (modelOf : ModelOrigin → Model) (is is' : List InlineEnum) :
    models modelOf (is ++ is') = models modelOf is ++ models modelOf is' :=
  List.map_append

section Lifts

variable (nameExtensions : List String) (r : Registry)

/-- Enumerations are lifted from left to right to the models that the function has for them. -/
def LiftsTo (modelOf : ModelOrigin → Model) : ModelSet → List InlineEnum → Prop
  | _, [] => True
  | claimed, i :: is =>
    (Model.liftEnum nameExtensions i.owner i.field.baseName i.source claimed).Recalls r
        (modelOf i.origin) ∧
      LiftsTo modelOf (claimed.insert (modelOf i.origin)) is

/-- Lifting the enumerations leads from one set of claimed models to the other, and every function
that has the lifted models for their origins has the property. -/
def LiftsBetween (claimed claimed' : ModelSet) (is : List InlineEnum)
    (P : (ModelOrigin → Model) → Prop) : Prop :=
  ∃ es : List Model, es.map (·.origin) = is.map InlineEnum.origin ∧
    claimed' = claimed.insertAll es ∧
      ∀ modelOf, (∀ e ∈ es, modelOf e.origin = e) →
        LiftsTo nameExtensions r modelOf claimed is ∧ P modelOf

end Lifts

section Lifts

variable {nameExtensions : List String} {r : Registry}

theorem liftsTo_append {modelOf : ModelOrigin → Model} {claimed : ModelSet}
    {is is' : List InlineEnum} :
    LiftsTo nameExtensions r modelOf claimed (is ++ is') ↔
      LiftsTo nameExtensions r modelOf claimed is ∧
        LiftsTo nameExtensions r modelOf (claimed.insertAll (InlineEnum.models modelOf is))
          is' := by
  induction is generalizing claimed with
  | nil => simp [LiftsTo, InlineEnum.models, Keyed.insertAll_nil]
  | cons i is ih =>
    rw [List.cons_append, LiftsTo, ih, LiftsTo, InlineEnum.models, InlineEnum.models, List.map_cons,
      Keyed.insertAll_cons, and_assoc]
    rfl

theorem liftsBetween_nil {claimed : ModelSet} {P : (ModelOrigin → Model) → Prop}
    (hP : ∀ modelOf, P modelOf) : LiftsBetween nameExtensions r claimed claimed [] P :=
  ⟨[], rfl, rfl, fun modelOf _ => ⟨trivial, hP modelOf⟩⟩

theorem LiftsBetween.append {claimed claimed' claimed'' : ModelSet} {is is' : List InlineEnum}
    {P Q R : (ModelOrigin → Model) → Prop}
    (h : LiftsBetween nameExtensions r claimed claimed' is P)
    (h' : LiftsBetween nameExtensions r claimed' claimed'' is' Q)
    (hR : ∀ modelOf, P modelOf → Q modelOf → R modelOf) :
    LiftsBetween nameExtensions r claimed claimed'' (is ++ is') R := by
  obtain ⟨es, horigins, hclaimed, hlifts⟩ := h
  obtain ⟨es', horigins', hclaimed', hlifts'⟩ := h'
  refine ⟨es ++ es', ?_, ?_, fun modelOf hmodelOf => ?_⟩
  · rw [List.map_append, List.map_append, horigins, horigins']
  · rw [Keyed.insertAll_append, ← hclaimed, hclaimed']
  · have hes : ∀ e ∈ es, modelOf e.origin = e :=
      fun e he => hmodelOf e (List.mem_append_left es' he)
    obtain ⟨hto, hp⟩ := hlifts modelOf hes
    obtain ⟨hto', hq⟩ := hlifts' modelOf fun e he => hmodelOf e (List.mem_append_right es he)
    have hmodels : InlineEnum.models modelOf is = es := by
      rw [InlineEnum.models, ← List.map_map, ← horigins, List.map_map]
      exact (List.map_congr_left hes).trans (List.map_id es)
    refine ⟨liftsTo_append.2 ⟨hto, ?_⟩, hR modelOf hp hq⟩
    rw [hmodels, ← hclaimed]
    exact hto'

end Lifts

/-! ## Fields -/

def Field.inlineEnum? (owner : String) (f : Field) : Option InlineEnum :=
  f.enumSource?.map fun source => ⟨owner, f, source⟩

/-- The field once it refers to the model of its enumeration. -/
def Field.settle (modelOf : ModelOrigin → Model) (owner : String) (f : Field) : Field :=
  match f.enumSource? with
  | none => f
  | some _ => f.referTo (modelOf (.liftedEnum owner f.baseName)).className

namespace Field

variable {nameExtensions : List String} {r : Registry} {owner : String}

theorem composed_lift (nameExtensions : List String) (owner : String) (claimed : ModelSet)
    (f : Field) :
    (lift nameExtensions owner claimed f).Composed (fun e => e.isLifting = true)
      PastNumbers := by
  unfold lift
  split
  · exact .pure _
  · exact .bind (Model.composed_liftEnum _ _ _ _ _) fun _ => .pure _

theorem memoizing_lift (nameExtensions : List String) (owner : String) (claimed : ModelSet)
    (f : Field) : (lift nameExtensions owner claimed f).Memoizing :=
  (composed_lift nameExtensions owner claimed f).memoizing

theorem composed_liftAll (nameExtensions : List String) (owner : String) (claimed : ModelSet)
    (fields : List Field) :
    (liftAll nameExtensions owner claimed fields).Composed (fun e => e.isLifting = true)
      PastNumbers := by
  induction fields generalizing claimed with
  | nil => exact .pure _
  | cons f fields ih =>
    unfold liftAll
    refine .bind (composed_lift _ _ _ _) fun (_, claimed) => ?_
    exact .bind (ih claimed) fun _ => .pure _

theorem memoizing_liftAll (nameExtensions : List String) (owner : String) (claimed : ModelSet)
    (fields : List Field) : (liftAll nameExtensions owner claimed fields).Memoizing :=
  (composed_liftAll nameExtensions owner claimed fields).memoizing

theorem liftsBetween_of_recalls_lift {claimed claimed' : ModelSet} {f f' : Field}
    (h : (lift nameExtensions owner claimed f).Recalls r (f', claimed')) :
    LiftsBetween nameExtensions r claimed claimed' (f.inlineEnum? owner).toList
      fun modelOf => f' = f.settle modelOf owner := by
  unfold lift at h
  unfold inlineEnum? settle
  cases hsource : f.enumSource? with
  | none =>
    rw [hsource] at h
    obtain ⟨rfl, rfl⟩ := Prod.mk.inj (recalls_pure_iff.1 h)
    exact liftsBetween_nil fun _ => rfl
  | some source =>
    rw [hsource] at h
    obtain ⟨e, he, h⟩ := (recalls_bind_iff (Model.memoizing_liftEnum _ _ _ _ _) fun _ =>
      memoizing_pure _).1 h
    obtain ⟨rfl, rfl⟩ := Prod.mk.inj (recalls_pure_iff.1 h)
    have horigin : e.origin = .liftedEnum owner f.baseName :=
      (he.of_yields (Model.yields_liftEnum_makes _ ⟨owner, f, source⟩ _)).origin_eq
    refine ⟨[e], ?_, rfl, fun modelOf hmodelOf => ?_⟩
    · simp [horigin, InlineEnum.origin]
    · have he' : modelOf (.liftedEnum owner f.baseName) = e := by
        rw [← horigin]
        exact hmodelOf e List.mem_cons_self
      simp only [Option.map_some, Option.toList_some, LiftsTo, InlineEnum.origin, he', and_true]
      exact he

theorem filterMap_inlineEnum?_cons (owner : String) (f : Field) (fields : List Field) :
    (f :: fields).filterMap (inlineEnum? owner) =
      (f.inlineEnum? owner).toList ++ fields.filterMap (inlineEnum? owner) := by
  rw [List.filterMap_cons]
  cases f.inlineEnum? owner <;> rfl

theorem liftsBetween_of_recalls_liftAll {claimed claimed' : ModelSet} {fields fields' : List Field}
    (h : (liftAll nameExtensions owner claimed fields).Recalls r (fields', claimed')) :
    LiftsBetween nameExtensions r claimed claimed' (fields.filterMap (inlineEnum? owner))
      fun modelOf => fields' = fields.map (settle modelOf owner) := by
  induction fields generalizing claimed fields' with
  | nil =>
    obtain ⟨rfl, rfl⟩ := Prod.mk.inj (recalls_pure_iff.1 h)
    exact liftsBetween_nil fun _ => rfl
  | cons f fields ih =>
    unfold liftAll at h
    obtain ⟨⟨f', claimed₁⟩, hf, h⟩ := (recalls_bind_iff (memoizing_lift _ _ _ _)
      fun (_, claimed) => (memoizing_liftAll _ _ claimed _).bind fun _ => memoizing_pure _).1 h
    obtain ⟨⟨fields₁, claimed₂⟩, hfields, h⟩ := (recalls_bind_iff (memoizing_liftAll _ _ _ _)
      fun _ => memoizing_pure _).1 h
    obtain ⟨rfl, rfl⟩ := Prod.mk.inj (recalls_pure_iff.1 h)
    rw [filterMap_inlineEnum?_cons]
    refine (liftsBetween_of_recalls_lift hf).append (ih hfields) ?_
    rintro modelOf rfl rfl
    rfl

theorem recalls_lift_of_liftsTo {modelOf : ModelOrigin → Model} {claimed : ModelSet} {f : Field}
    (h : LiftsTo nameExtensions r modelOf claimed (f.inlineEnum? owner).toList) :
    (lift nameExtensions owner claimed f).Recalls r
      (f.settle modelOf owner,
        claimed.insertAll (InlineEnum.models modelOf (f.inlineEnum? owner).toList)) := by
  unfold lift
  unfold inlineEnum? settle at *
  cases hsource : f.enumSource? with
  | none => exact recalls_pure_iff.2 rfl
  | some source =>
    rw [hsource] at h
    refine (recalls_bind_iff (Model.memoizing_liftEnum _ _ _ _ _) fun _ => memoizing_pure _).2 ?_
    exact ⟨_, h.1, recalls_pure_iff.2 rfl⟩

theorem recalls_liftAll_of_liftsTo {modelOf : ModelOrigin → Model} {claimed : ModelSet}
    {fields : List Field}
    (h : LiftsTo nameExtensions r modelOf claimed (fields.filterMap (inlineEnum? owner))) :
    (liftAll nameExtensions owner claimed fields).Recalls r
      (fields.map (settle modelOf owner),
        claimed.insertAll (InlineEnum.models modelOf (fields.filterMap (inlineEnum? owner)))) := by
  induction fields generalizing claimed with
  | nil => exact recalls_pure_iff.2 rfl
  | cons f fields ih =>
    rw [filterMap_inlineEnum?_cons, liftsTo_append] at h
    rw [filterMap_inlineEnum?_cons, InlineEnum.models_append, Keyed.insertAll_append]
    unfold liftAll
    refine (recalls_bind_iff (memoizing_lift _ _ _ _) fun (_, claimed) =>
      (memoizing_liftAll _ _ claimed _).bind fun _ => memoizing_pure _).2 ?_
    refine ⟨_, recalls_lift_of_liftsTo h.1, ?_⟩
    refine (recalls_bind_iff (memoizing_liftAll _ _ _ _) fun _ => memoizing_pure _).2 ?_
    exact ⟨_, ih h.2, recalls_pure_iff.2 rfl⟩

end Field

/-! ## Models -/

def Model.inlineEnums (m : Model) : List InlineEnum :=
  if m.isEnum then [] else m.fields.filterMap (Field.inlineEnum? m.className)

/-- What a pass makes of a model: an enumeration gets its members, and the fields of any other
model refer to the models of their enumerations. -/
inductive Model.Settled (nameExtensions : List String) (r : Registry)
    (modelOf : ModelOrigin → Model) : Model → Model → Prop
  | members {m : Model} {allowableValues : List AllowableValue} (isEnum : m.isEnum = true)
      (build : (AllowableValue.build nameExtensions m.enumValues m.extensions).Recalls r
        allowableValues) :
      Settled nameExtensions r modelOf m { m with allowableValues }
  | fields {m : Model} (isEnum : m.isEnum = false) :
      Settled nameExtensions r modelOf m
        { m with fields := m.fields.map (Field.settle modelOf m.className) }

namespace Model

variable {nameExtensions : List String} {r : Registry}

theorem composed_normalize (nameExtensions : List String) (claimed : ModelSet) (m : Model) :
    (normalize nameExtensions claimed m).Composed (fun e => e.isLifting = true)
      PastNumbers := by
  unfold normalize
  split
  · exact .bind (AllowableValue.composed_build _ _ _).within fun _ => .pure _
  · exact .bind (Field.composed_liftAll _ _ _ _) fun _ => .pure _

theorem memoizing_normalize (nameExtensions : List String) (claimed : ModelSet) (m : Model) :
    (normalize nameExtensions claimed m).Memoizing :=
  (composed_normalize nameExtensions claimed m).memoizing

theorem composed_normalizeAll (nameExtensions : List String) (claimed : ModelSet)
    (models : List Model) :
    (normalizeAll nameExtensions claimed models).Composed (fun e => e.isLifting = true)
      PastNumbers := by
  induction models generalizing claimed with
  | nil => exact .pure _
  | cons m models ih =>
    unfold normalizeAll
    refine .bind (composed_normalize _ _ _) fun (_, claimed) => ?_
    exact .bind (ih claimed) fun _ => .pure _

theorem memoizing_normalizeAll (nameExtensions : List String) (claimed : ModelSet)
    (models : List Model) : (normalizeAll nameExtensions claimed models).Memoizing :=
  (composed_normalizeAll nameExtensions claimed models).memoizing

theorem liftsBetween_of_recalls_normalize {claimed claimed' : ModelSet} {m m' : Model}
    (h : (normalize nameExtensions claimed m).Recalls r (m', claimed')) :
    LiftsBetween nameExtensions r claimed claimed' m.inlineEnums
      fun modelOf => Settled nameExtensions r modelOf m m' := by
  unfold normalize at h
  unfold inlineEnums
  split at h
  · rename_i henum
    obtain ⟨members, hmembers, h⟩ := (recalls_bind_iff (AllowableValue.memoizing_build _ _ _)
      fun _ => memoizing_pure _).1 h
    obtain ⟨rfl, rfl⟩ := Prod.mk.inj (recalls_pure_iff.1 h)
    rw [if_pos henum]
    exact liftsBetween_nil fun _ => .members henum hmembers
  · rename_i henum
    obtain ⟨⟨fields, claimed₁⟩, hfields, h⟩ := (recalls_bind_iff
      (Field.memoizing_liftAll _ _ _ _) fun _ => memoizing_pure _).1 h
    obtain ⟨rfl, rfl⟩ := Prod.mk.inj (recalls_pure_iff.1 h)
    rw [if_neg henum]
    obtain ⟨es, horigins, hclaimed, hlifts⟩ := Field.liftsBetween_of_recalls_liftAll hfields
    refine ⟨es, horigins, hclaimed, fun modelOf hmodelOf => ?_⟩
    obtain ⟨hto, rfl⟩ := hlifts modelOf hmodelOf
    exact ⟨hto, .fields (by simpa using henum)⟩

/-- A pass over models lifts their enumerations one after the other and settles the models. -/
theorem liftsBetween_of_recalls_normalizeAll {claimed claimed' : ModelSet}
    {models models' : List Model}
    (h : (normalizeAll nameExtensions claimed models).Recalls r (models', claimed')) :
    LiftsBetween nameExtensions r claimed claimed' (models.flatMap inlineEnums)
      fun modelOf => List.Forall₂ (Settled nameExtensions r modelOf) models models' := by
  induction models generalizing claimed models' with
  | nil =>
    obtain ⟨rfl, rfl⟩ := Prod.mk.inj (recalls_pure_iff.1 h)
    exact liftsBetween_nil fun _ => .nil
  | cons m models ih =>
    unfold normalizeAll at h
    obtain ⟨⟨m', claimed₁⟩, hm, h⟩ := (recalls_bind_iff (memoizing_normalize _ _ _)
      fun (_, claimed) => (memoizing_normalizeAll _ claimed _).bind fun _ => memoizing_pure _).1 h
    obtain ⟨⟨models₁, claimed₂⟩, hmodels, h⟩ := (recalls_bind_iff
      (memoizing_normalizeAll _ _ _) fun _ => memoizing_pure _).1 h
    obtain ⟨rfl, rfl⟩ := Prod.mk.inj (recalls_pure_iff.1 h)
    rw [List.flatMap_cons]
    exact (liftsBetween_of_recalls_normalize hm).append (ih hmodels) fun _ => .cons

theorem recalls_normalize_of_liftsTo {modelOf : ModelOrigin → Model} {claimed : ModelSet}
    {m m' : Model} (h : LiftsTo nameExtensions r modelOf claimed m.inlineEnums)
    (hm : Settled nameExtensions r modelOf m m') :
    (normalize nameExtensions claimed m).Recalls r
      (m', claimed.insertAll (InlineEnum.models modelOf m.inlineEnums)) := by
  unfold normalize
  unfold inlineEnums at *
  cases hm with
  | members henum hmembers =>
    rw [if_pos henum, if_pos henum]
    refine (recalls_bind_iff (AllowableValue.memoizing_build _ _ _) fun _ => memoizing_pure _).2 ?_
    exact ⟨_, hmembers, recalls_pure_iff.2 rfl⟩
  | fields henum =>
    have hneg : ¬ m.isEnum = true := by simp [henum]
    rw [if_neg hneg] at h ⊢
    rw [if_neg hneg]
    refine (recalls_bind_iff (Field.memoizing_liftAll _ _ _ _) fun _ => memoizing_pure _).2 ?_
    exact ⟨_, Field.recalls_liftAll_of_liftsTo h, recalls_pure_iff.2 rfl⟩

theorem recalls_normalizeAll_of_liftsTo {modelOf : ModelOrigin → Model} {claimed : ModelSet}
    {models models' : List Model}
    (h : LiftsTo nameExtensions r modelOf claimed (models.flatMap inlineEnums))
    (hmodels : List.Forall₂ (Settled nameExtensions r modelOf) models models') :
    (normalizeAll nameExtensions claimed models).Recalls r
      (models', claimed.insertAll (InlineEnum.models modelOf (models.flatMap inlineEnums))) := by
  induction hmodels generalizing claimed with
  | nil => exact recalls_pure_iff.2 rfl
  | cons hm _ ih =>
    rw [List.flatMap_cons, liftsTo_append] at h
    rw [List.flatMap_cons, InlineEnum.models_append, Keyed.insertAll_append]
    unfold normalizeAll
    refine (recalls_bind_iff (memoizing_normalize _ _ _) fun (_, claimed) =>
      (memoizing_normalizeAll _ claimed _).bind fun _ => memoizing_pure _).2 ?_
    refine ⟨_, recalls_normalize_of_liftsTo h.1 hm, ?_⟩
    refine (recalls_bind_iff (memoizing_normalizeAll _ _ _) fun _ => memoizing_pure _).2 ?_
    exact ⟨_, ih h.2, recalls_pure_iff.2 rfl⟩

end Model

end ApiGraph

import ApiGraph.Proofs.GeneratedApi.Stages
import ApiGraph.Proofs.Renaming

/-!
# Numbers do not run out

A search for a free name gives up when it has tried all numbers of 32 bits. It takes `2 ^ 31` names
for that, all of them claimed by enumerations that were lifted before, or taken by operations that
were built before. Every lifted enumeration belongs to a field of its own, which is built from a
property of its own.

Main statement: when a run fails over a document with fewer than `2 ^ 31` properties and as few
operations, a stem is full.
-/

namespace ApiGraph

open Identifier Naming

def Document.propertyCount (d : Document) : Nat :=
  (d.schemas.toList.flatMap fun p => p.2.properties).length

/-- There are so many properties or operations that numbers for their names may run out. -/
def Document.Outnumbers (d : Document) : Prop :=
  2 ^ 31 ≤ d.propertyCount ∨ 2 ^ 31 ≤ d.operations.length

def ModelSet.fieldCount (s : ModelSet) : Nat := (s.toList.flatMap Model.fields).length

/-- A step that never gives up fails on a full stem only. -/
theorem Naming.Composed.failsWithAny {α : Type} {P : Event → Prop} {F : Request → Prop}
    {x : Naming α} (hx : x.Composed P) : x.FailsWith F :=
  hx.failsWith.mono fun _ h => h.elim

/-! ## Lifting -/

theorem Model.failsWith_freeName (owner enumName : String) (origin : ModelOrigin)
    (claimed : ModelSet) :
    (freeName owner enumName origin claimed (min (2 * claimed.size + 1) renameLimit) 0).FailsWith
      fun _ => 2 ^ 31 ≤ claimed.size := by
  intro s e t h
  obtain ⟨tried, result, hends, hrun⟩ := freeName_endsSoon owner enumName origin claimed s
  by_cases hmany : 2 ^ 31 ≤ claimed.size
  · exact .inr hmany
  · have htried : tried ≤ renameLimit := by simpa using hends.numbers_le (Nat.not_le.1 hmany)
    rw [hrun htried] at h
    cases h
    cases hends.outcome with
    | failed _ _ full _ => exact .inl full

theorem Model.failsWith_liftEnum (nameExtensions : List String) (owner baseName : String)
    (source : Field) (claimed : ModelSet) :
    (liftEnum nameExtensions owner baseName source claimed).FailsWith
      fun _ => 2 ^ 31 ≤ claimed.size := by
  rw [liftEnum_eq]
  refine (failsWith_freeName _ _ _ _).bind fun found => ?_
  refine (Composed.reportIf (P := fun _ => True) _ trivial rfl).failsWithAny.bind fun _ => ?_
  exact (AllowableValue.composed_build _ _ _).failsWithAny.bind fun _ => failsWith_pure _

namespace Field

/-- Lifting claims one name at most. -/
theorem yields_lift_size (nameExtensions : List String) (owner : String) (claimed : ModelSet)
    (f : Field) :
    (lift nameExtensions owner claimed f).Yields fun p => p.2.size ≤ claimed.size + 1 := by
  unfold lift
  split
  · exact yields_pure (Nat.le_succ _)
  · refine yields_bind_of_forall fun e => yields_pure ?_
    have hinsert := Keyed.size_insert claimed e
    dsimp only
    omega

theorem yields_liftAll_size (nameExtensions : List String) (owner : String) (claimed : ModelSet)
    (fields : List Field) :
    (liftAll nameExtensions owner claimed fields).Yields fun p =>
      p.2.size ≤ claimed.size + fields.length := by
  induction fields generalizing claimed with
  | nil => exact yields_pure (le_refl _)
  | cons f fields ih =>
    unfold liftAll
    refine (yields_lift_size _ _ _ f).bind fun p hp => ?_
    refine (ih p.2).bind fun q hq => yields_pure ?_
    change q.2.size ≤ claimed.size + (fields.length + 1)
    omega

theorem failsWith_lift (nameExtensions : List String) (owner : String) (claimed : ModelSet)
    (f : Field) :
    (lift nameExtensions owner claimed f).FailsWith fun _ => 2 ^ 31 ≤ claimed.size := by
  unfold lift
  split
  · exact failsWith_pure _
  · exact (Model.failsWith_liftEnum _ _ _ _ _).bind fun _ => failsWith_pure _

theorem failsWith_liftAll (nameExtensions : List String) (owner : String) (claimed : ModelSet)
    (fields : List Field) :
    (liftAll nameExtensions owner claimed fields).FailsWith
      fun _ => 2 ^ 31 ≤ claimed.size + fields.length := by
  induction fields generalizing claimed with
  | nil => exact failsWith_pure _
  | cons f fields ih =>
    unfold liftAll
    refine ((failsWith_lift _ _ claimed f).mono fun _ h => ?_).bind_yields
      (yields_lift_size _ _ claimed f) fun p hp => ?_
    · omega
    · refine ((ih p.2).mono fun _ h => ?_).bind fun _ => failsWith_pure _
      rw [List.length_cons]
      omega

end Field

namespace Model

theorem yields_normalize_size (nameExtensions : List String) (claimed : ModelSet) (m : Model) :
    (normalize nameExtensions claimed m).Yields fun p =>
      p.2.size ≤ claimed.size + m.fields.length := by
  unfold normalize
  split
  · exact yields_bind_of_forall fun _ => yields_pure (Nat.le_add_right _ _)
  · exact (Field.yields_liftAll_size _ _ _ _).bind fun p hle => yields_pure hle

theorem failsWith_normalize (nameExtensions : List String) (claimed : ModelSet) (m : Model) :
    (normalize nameExtensions claimed m).FailsWith
      fun _ => 2 ^ 31 ≤ claimed.size + m.fields.length := by
  unfold normalize
  split
  · exact (AllowableValue.composed_build _ _ _).failsWithAny.bind fun _ => failsWith_pure _
  · exact (Field.failsWith_liftAll _ _ _ _).bind fun _ => failsWith_pure _

theorem failsWith_normalizeAll (nameExtensions : List String) (claimed : ModelSet)
    (models : List Model) :
    (normalizeAll nameExtensions claimed models).FailsWith
      fun _ => 2 ^ 31 ≤ claimed.size + (models.flatMap fields).length := by
  induction models generalizing claimed with
  | nil => exact failsWith_pure _
  | cons m models ih =>
    unfold normalizeAll
    refine ((failsWith_normalize _ claimed m).mono fun _ h => ?_).bind_yields
      (yields_normalize_size _ claimed m) fun p hp => ?_
    · rw [List.flatMap_cons, List.length_append]
      omega
    · refine ((ih p.2).mono fun _ h => ?_).bind fun _ => failsWith_pure _
      rw [List.flatMap_cons, List.length_append]
      omega

end Model

theorem ModelSet.failsWith_normalize (nameExtensions : List String) (s : ModelSet) :
    (normalize nameExtensions s).FailsWith fun _ => 2 ^ 31 ≤ s.fieldCount := by
  unfold normalize
  refine ((Model.failsWith_normalizeAll _ ∅ s.toList).mono fun _ h => ?_).bind
    fun p => ?_
  · rwa [Keyed.size, Keyed.toList_empty, List.length_nil, Nat.zero_add] at h
  · -- what is left only reports
    refine (composed_merge _ _).failsWithAny.bind fun merged => ?_
    exact failsWith_of_ok fun _ => ⟨_, _, rfl⟩

/-! ## Building -/

theorem Model.yields_build_length (packageName : String) (unions : List String) (name : String)
    (s : Schema) :
    (build packageName unions name s).Yields fun m => m.fields.length ≤ s.properties.length := by
  unfold build
  refine yields_bind_of_forall fun className => ?_
  split
  · exact yields_pure (Nat.zero_le _)
  · refine yields_bind_of_forall fun oneOf => ?_
    refine (yields_mapM_forall₂ (R := fun _ _ => True) fun _ _ _ _ _ _ => trivial).bind
      fun fields hfields => yields_pure ?_
    exact hfields.length_eq.ge

theorem ModelSet.fieldCount_insert_le (s : ModelSet) (m : Model) :
    fieldCount (s.insert m) ≤ s.fieldCount + m.fields.length := by
  unfold fieldCount
  rw [Keyed.toList_insert]
  exact Keyed.length_flatMap_insertInto_le _ _ _

theorem ModelSet.yields_buildInto_fieldCount (packageName : String) (unions : List String)
    (models : ModelSet) (schemas : List (String × Schema)) :
    (buildInto packageName unions models schemas).Yields fun s =>
      s.fieldCount ≤ models.fieldCount + (schemas.flatMap fun p => p.2.properties).length := by
  induction schemas generalizing models with
  | nil => exact yields_pure (le_refl _)
  | cons p schemas ih =>
    rw [buildInto_cons]
    refine (Model.yields_build_length _ _ p.1 p.2).bind fun m hm => ?_
    refine yields_bind_of_forall fun _ => (ih (models.insert m)).mono fun s hs => ?_
    have hinsert := fieldCount_insert_le models m
    rw [List.flatMap_cons, List.length_append]
    omega

/-! ## Operations -/

namespace Operation

theorem failsWith_freeId (operationId : String) (taken : List String) :
    (freeId operationId taken (min (2 * taken.length + 1) (renameLimit - 1)) 1).FailsWith
      fun _ => 2 ^ 31 ≤ taken.length := by
  intro s e t h
  obtain ⟨tried, result, hends, hrun⟩ := freeId_endsSoon operationId taken s
  by_cases hmany : 2 ^ 31 ≤ taken.length
  · exact .inr hmany
  · have hlength := (List.dedup_sublist taken).length_le
    rw [hrun (hends.numbers_le (by omega))] at h
    have houtcome := hends.outcome
    cases result with
    | ok found t => cases h
    | error e t =>
      cases h
      cases houtcome with
      | failed _ _ full _ => exact .inl full

theorem failsWith_distinguish (taken : List String) (o : Operation) :
    (distinguish taken o).FailsWith fun _ => 2 ^ 31 ≤ taken.length := by
  unfold distinguish
  split
  · refine (failsWith_freeId _ _).bind fun renamed => ?_
    exact (Composed.report (P := fun _ => True) trivial rfl).failsWithAny.bind
      fun _ => failsWith_pure _
  · exact failsWith_pure o

theorem failsWith_buildAfter (packageName : String) (taken : List String)
    (specs : List OperationSpec) :
    (buildAfter packageName taken specs).FailsWith
      fun _ => 2 ^ 31 ≤ taken.length + specs.length := by
  induction specs generalizing taken with
  | nil => exact failsWith_pure _
  | cons spec specs ih =>
    unfold buildAfter
    refine (composed_build packageName spec).failsWithAny.bind fun o => ?_
    refine ((failsWith_distinguish taken o).mono fun _ h => by omega).bind fun o' => ?_
    refine ((ih (o'.operationId :: taken)).mono fun _ h => ?_).bind fun _ => failsWith_pure _
    rw [List.length_cons] at h ⊢
    omega

end Operation

/-! ## Runs -/

namespace GeneratedApi

/-- Apart from a full stem, a run fails on a number beyond 32 bits only. -/
theorem failsWith_pastNumbers (config : Config) (d : Document) :
    (build config d).FailsWith PastNumbers := by
  unfold build
  refine (ModelSet.composed_buildInto _ _ _ _).failsWithAny.bind fun built => ?_
  refine (ModelSet.composed_normalize _ built).failsWith.bind fun models => ?_
  refine (Operation.composed_buildAfter _ [] d.operations).failsWith.bind fun raw => ?_
  -- what is left only reports
  exact failsWith_of_ok fun _ => ⟨_, _, rfl⟩

/-- Over a document that does not outnumber the searches, a run fails on a full stem only. -/
theorem failsWith_outnumbers (config : Config) (d : Document) :
    (build config d).FailsWith fun _ => d.Outnumbers := by
  unfold build
  refine (ModelSet.composed_buildInto _ _ _ _).failsWithAny.bind_yields
    (ModelSet.yields_buildInto_fieldCount _ _ ∅ _) fun built hbuilt => ?_
  refine ((ModelSet.failsWith_normalize _ built).mono fun _ h => ?_).bind fun models => ?_
  · exact .inl (h.trans (hbuilt.trans (Nat.zero_add _).le))
  refine ((Operation.failsWith_buildAfter _ [] d.operations).mono fun _ h => ?_).bind fun raw => ?_
  · exact .inr (h.trans (Nat.zero_add _).le)
  -- what is left only reports
  exact failsWith_of_ok fun _ => ⟨_, _, rfl⟩

end GeneratedApi

end ApiGraph

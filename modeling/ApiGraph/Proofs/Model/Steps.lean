import ApiGraph.Model.Build
import ApiGraph.Model.Normalize
import ApiGraph.Proofs.Keyed
import ApiGraph.Proofs.Naming.Step

/-!
# Stages as sequences of steps

Some stages report an event when a condition holds and then go on. Here each of them is
written as one sequence of steps, in which the report is a step like any other, so that what
is proved of steps and of their sequences applies to the stages without a case distinction.
-/

namespace ApiGraph

open Naming

def AllowableValue.buildMembers (rawNames : List (String × EnumLiteral)) :
    Naming (List AllowableValue) :=
  rawNames.mapM fun (raw, value) => ofRaw raw value

theorem AllowableValue.build_eq (nameExtensions : List String) (values : List EnumLiteral)
    (e : Extensions) :
    build nameExtensions values e = (do
      let names := (displayNames? nameExtensions e).getD []
      reportIf ((displayNames? nameExtensions e).isSome && names.length < values.length)
        (.fewerDisplayNames names.length values.length)
      buildMembers (rawNames names values)) := by
  unfold build
  cases displayNames? nameExtensions e with
  | none => rfl
  | some names =>
    dsimp only [Option.getD_some, Option.isSome_some]
    rw [Bool.true_and]
    by_cases h : names.length < values.length
    · rw [if_pos h, decide_eq_true h, reportIf_true_bind]
      rfl
    · rw [if_neg h, decide_eq_false h, reportIf_false_bind]
      rfl

theorem Model.liftEnum_eq (nameExtensions : List String) (owner baseName : String)
    (source : Field) (claimed : ModelSet) :
    liftEnum nameExtensions owner baseName source claimed = (do
      let (className, attempt) ← freeName owner source.liftedName (.liftedEnum owner baseName)
        claimed (min (2 * claimed.size + 1) renameLimit) 0
      reportIf (0 < attempt) (.liftedNameTaken owner baseName className)
      let allowableValues ← AllowableValue.build nameExtensions source.enumValues source.extensions
      return {
        name := className
        className
        isEnum := true
        enumValues := source.enumValues
        allowableValues
        origin := .liftedEnum owner baseName
        extensions := source.extensions }) := by
  unfold liftEnum
  refine bind_congr fun (className, attempt) => ?_
  dsimp only
  by_cases h : 0 < attempt
  · rw [if_pos h, decide_eq_true h, reportIf_true_bind]
  · rw [if_neg h, decide_eq_false h, reportIf_false_bind]

theorem ModelSet.merge_cons (s : ModelSet) (e : Model) (lifted : List Model) :
    merge s (e :: lifted) = (do
      reportIf ((s.get? e.className).any fun m => m.origin = .source)
        (.declaredModelReplaced e.className)
      merge (s.insert e) lifted) := by
  rw [merge]
  cases s.get? e.className with
  | none => rfl
  | some m =>
    dsimp only
    rw [Option.any_some]
    by_cases h : m.origin = .source
    · rw [if_pos h, decide_eq_true h, reportIf_true_bind]
    · rw [if_neg h, decide_eq_false h, reportIf_false_bind]

theorem ModelSet.buildInto_cons (packageName : String) (unions : List String) (models : ModelSet)
    (p : String × Schema) (schemas : List (String × Schema)) :
    buildInto packageName unions models (p :: schemas) = (do
      let m ← Model.build packageName unions p.1 p.2
      let previous := (models.get? m.className).getD m
      reportIf (models.get? m.className).isSome
        (.classNameShared previous.name previous.className)
      buildInto packageName unions (models.insert m) schemas) := by
  rw [buildInto]
  refine bind_congr fun m => ?_
  dsimp only
  cases models.get? m.className <;> rfl

/-- What holds of every model that is built holds of all models in the set. -/
theorem ModelSet.yields_buildInto_forall {packageName : String} {unions : List String}
    {P : Model → Prop} {models : ModelSet} {schemas : List (String × Schema)}
    (hmodels : ∀ m ∈ models.toList, P m)
    (hP : ∀ p ∈ schemas, (Model.build packageName unions p.1 p.2).Yields P) :
    (buildInto packageName unions models schemas).Yields fun s => ∀ m ∈ s.toList, P m := by
  induction schemas generalizing models with
  | nil => exact yields_pure hmodels
  | cons p schemas ih =>
    obtain ⟨hp, hschemas⟩ := List.forall_mem_cons.1 hP
    rw [buildInto_cons]
    refine hp.bind fun m hm => yields_bind_of_forall fun _ => ih (fun m' hm' => ?_) hschemas
    rcases Keyed.mem_toList_insert.1 hm' with rfl | ⟨hm', -⟩
    · exact hm
    · exact hmodels m' hm'

end ApiGraph

import ApiGraph.GeneratedApi
import ApiGraph.Proofs.Lifting.Outcome
import ApiGraph.Proofs.Model.Displaced
import ApiGraph.Proofs.Operation.Identifiers

/-!
# The stages of a run

`Stages config d api s` takes a run apart that has led to the result `api` and the session `s`:
models are built, models are normalized, operations are built, each in the session that the
stage before has left; then the operations are annotated and a summary is reported. In every
one of these sessions the log tells exactly which truncations are on record.
-/

namespace ApiGraph

open Identifier Naming

/-- All that is reported on annotating operations is about authentication, object types and
examples. -/
def Event.isAnnotating : Event → Bool
  | .authAdded .. | .objectTypeDiffers .. | .noExample .. => true
  | _ => false

namespace GeneratedApi

inductive Stages (config : Config) (d : Document) : GeneratedApi → Session → Prop
  | run {built models : ModelSet} {raw : List Operation} {s₁ s₂ s₃ : Session}
      (build : ModelSet.build config.packageName d .start = .ok built s₁)
      (normalize : ModelSet.normalize config.enumNameExtensions built s₁ = .ok models s₂)
      (operations : Operation.buildAll config.packageName d.operations s₂ = .ok raw s₃) :
      Stages config d
        { package := .ofConfig config, models, operations := Operation.annotateAll config raw }
        { registry := s₃.registry
          log := (s₃.log ++ Operation.allAnnotationEvents config raw).push
            (.documentNormalized models.size (models.size - built.size)
              (Operation.annotateAll config raw).length s₃.registry.size) }

theorem generate_eq (config : Config) (d : Document) : generate config d = build config d .start :=
  rfl

theorem stages_of_generate {config : Config} {d : Document} {api : GeneratedApi} {s : Session}
    (h : generate config d = .ok api s) : Stages config d api s := by
  rw [generate_eq] at h
  obtain ⟨built, s₁, hbuild, h⟩ := bind_eq_ok_iff.1 h
  obtain ⟨models, s₂, hmodels, h⟩ := bind_eq_ok_iff.1 h
  obtain ⟨raw, s₃, hraw, h⟩ := bind_eq_ok_iff.1 h
  obtain ⟨_, s₄, hevents, h⟩ := bind_eq_ok_iff.1 h
  obtain ⟨_, s₅, hget, h⟩ := bind_eq_ok_iff.1 h
  obtain ⟨_, s₆, hsummary, h⟩ := bind_eq_ok_iff.1 h
  obtain ⟨rfl, rfl⟩ := pure_eq_ok_iff.1 h
  cases hevents
  cases hget
  cases hsummary
  exact .run hbuild hmodels hraw

/-- When models have been built and normalized, the log tells which truncations are on record. -/
theorem booked_models {config : Config} {d : Document} {built models : ModelSet} {s₁ s₂ : Session}
    (hbuild : ModelSet.build config.packageName d .start = .ok built s₁)
    (hnormalize : ModelSet.normalize config.enumNameExtensions built s₁ = .ok models s₂) :
    s₂.Booked := by
  have hbuilt := (ModelSet.composed_buildInto _ _ _ _).booked hbuild Session.booked_start
  exact (ModelSet.composed_normalize _ _).booked hnormalize hbuilt

end GeneratedApi

end ApiGraph

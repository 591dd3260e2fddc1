import ApiGraph.Proofs.Keyed
import ApiGraph.Proofs.Model.Steps
import ApiGraph.Proofs.TypeRef.Resolve

/-!
# Displaced models

The model of a schema displaces the model of an earlier schema with the same class name, which
is reported. Apart from that, building models reports nothing but how names are made and types
are found.

Main statement: the models that are built and the warnings that are given are together as many
as the schemas, so that no model is lost without a warning.
-/

namespace ApiGraph

open Naming

def Event.isClassNameShared : Event → Bool
  | .classNameShared .. => true
  | _ => false

/-- The events that account for models: that one was displaced, or how many there are. -/
def Event.isAccount : Event → Bool
  | .classNameShared .. | .declaredModelReplaced .. | .modelsNormalized .. => true
  | .documentNormalized .. => true
  | _ => false

/-- The accounts of models in the log. -/
def Session.accounts (s : Session) : List Event := s.log.toList.filter Event.isAccount

/-- An account that is given on a condition is one account or none. -/
theorem accounts_reportIf {c : Bool} {e : Event} {s t : Session} {u : Unit}
    (h : reportIf c e s = .ok u t) (he : e.isAccount = true) :
    ∃ own, t.accounts = s.accounts ++ own ∧ (∀ e' ∈ own, e' = e) ∧
      own.length = if c then 1 else 0 := by
  refine ⟨if c then [e] else [], ?_, ?_, ?_⟩
  · rw [Session.accounts, filter_reportIf _ h, he, Bool.and_true]
    rfl
  · cases c <;> simp
  · cases c <;> rfl

def Event.isBuilding : Event → Bool
  | .classNameShared .. => true
  | e => e.isTyping

theorem Event.isBuilding_of_isTyping {e : Event} (h : e.isTyping = true) : e.isBuilding = true := by
  cases e <;> first | rfl | exact h

theorem Event.isAccount_of_isTyping {e : Event} (h : e.isTyping = true) : e.isAccount = false := by
  cases e <;> first | rfl | cases h

theorem Field.composed_build (packageName : String) (unions : List String) (baseName : String)
    (required : Bool) (s : Schema) :
    (build packageName unions baseName required s).Composed fun e => e.isTyping = true := by
  induction required, s using Field.build.induct with
  | case1 required s ih =>
    unfold build
    refine .bind (composed_typing_sanitize baseName .field) fun name => ?_
    refine .bind (TypeRef.composed_resolve packageName s) fun typeRef => ?_
    split
    · exact .pure _
    · rename_i element helement
      exact .bind (ih element helement) fun items => .pure _

theorem UnionMember.composed_build (packageName : String) (s : Schema) :
    (build packageName s).Composed fun e => e.isTyping = true :=
  .bind (TypeRef.composed_resolve packageName s) fun _ => .pure _

theorem Model.composed_build (packageName : String) (unions : List String) (name : String)
    (s : Schema) :
    (build packageName unions name s).Composed fun e => e.isTyping = true := by
  unfold build
  refine .bind (composed_typing_sanitize name .model) fun className => ?_
  split
  · exact .pure _
  · refine .bind (.mapM fun s _ => UnionMember.composed_build packageName s) fun oneOf => ?_
    refine .bind (.mapM fun p _ => Field.composed_build packageName unions p.1 _ p.2)
      fun fields => ?_
    exact .pure _

namespace ModelSet

theorem composed_buildInto (packageName : String) (unions : List String) (models : ModelSet)
    (schemas : List (String × Schema)) :
    (buildInto packageName unions models schemas).Composed fun e => e.isBuilding = true := by
  induction schemas generalizing models with
  | nil => exact .pure models
  | cons p schemas ih =>
    rw [buildInto_cons]
    refine .bind ((Model.composed_build packageName unions p.1 p.2).mono
      fun _ => Event.isBuilding_of_isTyping) fun m => ?_
    exact .bind (.reportIf _ rfl rfl) fun _ => ih _

/-- Every schema adds a model to the set or a warning to the log. -/
theorem accounts_buildInto {packageName : String} {unions : List String} {models built : ModelSet}
    {schemas : List (String × Schema)} {s t : Session}
    (h : buildInto packageName unions models schemas s = .ok built t) :
    ∃ shared, t.accounts = s.accounts ++ shared ∧ (∀ e ∈ shared, e.isClassNameShared = true) ∧
      built.size + shared.length = models.size + schemas.length := by
  induction schemas generalizing models s with
  | nil =>
    obtain ⟨rfl, rfl⟩ := pure_eq_ok_iff.1 h
    exact ⟨[], by simp, by simp, rfl⟩
  | cons p schemas ih =>
    rw [buildInto_cons] at h
    obtain ⟨m, s₁, hm, h⟩ := bind_eq_ok_iff.1 h
    obtain ⟨_, s₂, hreport, h⟩ := bind_eq_ok_iff.1 h
    have hbuild : s₁.accounts = s.accounts :=
      ((Model.composed_build packageName unions p.1 p.2).reports
        fun _ => Event.isTyping_of_isSome_truncation?).filter_eq
        (fun _ => Event.isAccount_of_isTyping) hm
    obtain ⟨own, hwarn, hown, hlength⟩ := accounts_reportIf hreport rfl
    obtain ⟨shared, haccounts, hshared, hsize⟩ := ih h
    refine ⟨own ++ shared, ?_, List.forall_mem_append.2 ⟨fun e he => ?_, hshared⟩, ?_⟩
    · rw [haccounts, hwarn, hbuild, List.append_assoc]
    · rw [hown e he]
      rfl
    · have hinsert := Keyed.size_insert models m
      rw [← hlength] at hinsert
      rw [List.length_append, List.length_cons]
      omega

end ModelSet

end ApiGraph

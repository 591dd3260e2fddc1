import ApiGraph.Proofs.Flags.Members

/-!
# Marks of fields that refer to unions

Marking the fields of a set touches a single flag, and that on a single part of each field: the
items of an array, and else the field itself. `m.MarkedFor s m'` says that nothing else in the
model is changed and that the flag is set where the part names a model of `s` with a scalar or
an array among its union members, and where it was set before.

Main statement: every model of a set, whatever flags its fields come with, is marked in this
sense and keeps its place. As marking leaves the names and the unions alone, which decide about
the flag, a set that has been marked is not changed by marking it again, and a normalized set
is such a set.
-/

namespace ApiGraph

open Naming

/-- The field names a model of the set that has a scalar or an array among its union members. -/
def ModelSet.NamesMixed (s : ModelSet) (f : Field) : Prop :=
  ∃ u ∈ s.toList, f.annotations.oneOfName = some u.className ∧
    ∃ v ∈ u.oneOf, v.isPrimitive = true ∨ v.isArray = true

/-- The fields are the same, apart from the mark on the part that can refer to a union, which is
set where it was set before and where that part names such a model. -/
structure Field.MarkedFor (s : ModelSet) (f f' : Field) : Prop where
  marked : f.Marked f'
  oneOfPrimitives : Option.Rel (fun g g' => g'.annotations.oneOfPrimitives = true ↔
    g.annotations.oneOfPrimitives = true ∨ s.NamesMixed g) f.unionTarget? f'.unionTarget?

def Model.MarkedFor (s : ModelSet) (m m' : Model) : Prop :=
  ∃ fields, m' = { m with fields } ∧ List.Forall₂ (Field.MarkedFor s) m.fields fields

/-! ## What is marked -/

theorem Model.isMixedUnion_iff (m : Model) :
    m.isMixedUnion = true ↔ ∃ v ∈ m.oneOf, v.isPrimitive = true ∨ v.isArray = true := by
  simp [isMixedUnion]

theorem Model.isUnion_of_isMixedUnion {m : Model} (h : m.isMixedUnion = true) :
    m.isUnion = true := by
  obtain ⟨v, hv, -⟩ := m.isMixedUnion_iff.1 h
  simpa [isUnion] using List.ne_nil_of_mem hv

namespace ModelSet

theorem refersToMixed_iff (s : ModelSet) (f : Field) :
    s.refersToMixed f = true ↔ s.NamesMixed f := by
  constructor
  · intro h
    unfold refersToMixed at h
    split at h
    · rename_i name hname
      obtain ⟨u, hu, hmixed⟩ := (Option.any_eq_true _ _).1 h
      obtain ⟨hget, -⟩ := Option.filter_eq_some_iff.1 hu
      obtain ⟨hmem, rfl⟩ := Keyed.get?_eq_some_iff.1 hget
      exact ⟨u, hmem, hname, u.isMixedUnion_iff.1 hmixed⟩
    · cases h
  · rintro ⟨u, hu, hname, hmember⟩
    have hmixed := u.isMixedUnion_iff.2 hmember
    rw [refersToMixed_eq hu (Model.isUnion_of_isMixedUnion hmixed) hname, hmixed]

theorem markedFor_markField (s : ModelSet) (f : Field) : f.MarkedFor s (s.markField f) where
  marked := s.marked_markField f
  oneOfPrimitives := by
    -- Both targets are there or none is: marking a field marks its target in place.
    rw [unionTarget?_markField]
    cases f.unionTarget? with
    | none => exact .none
    | some g =>
      refine .some ?_
      rw [oneOfPrimitives_markTarget, Bool.or_eq_true, refersToMixed_iff]

theorem markedFor_markModel (s : ModelSet) (m : Model) : m.MarkedFor s (s.markModel m) := by
  refine ⟨m.fields.map s.markField, rfl, ?_⟩
  exact forall₂_map_of_forall fun f _ => s.markedFor_markField f

theorem annotateUnions_of_normalize {nameExtensions : List String} {s t : ModelSet}
    {σ τ : Session} (h : normalize nameExtensions s σ = .ok t τ) : t.annotateUnions = t := by
  -- The last thing that normalizing does is to mark the merged set.
  obtain ⟨_, _, _, merged, _, _, _, _, rfl, _⟩ := normalize_eq_ok h
  exact merged.annotateUnions_annotateUnions

/-- Marking sets the marks that the unions of the set call for and changes nothing else; it
changes nothing at all in a set that has been marked or normalized. -/
theorem annotateUnions_markedFor (s : ModelSet) :
    List.Forall₂ (Model.MarkedFor s) s.toList s.annotateUnions.toList ∧
      s.annotateUnions.annotateUnions = s.annotateUnions ∧
      ∀ nameExtensions σ t τ, normalize nameExtensions s σ = .ok t τ → t.annotateUnions = t := by
  refine ⟨?_, s.annotateUnions_annotateUnions, ?_⟩
  · exact forall₂_map_of_forall fun m _ => s.markedFor_markModel m
  · intro nameExtensions σ t τ h
    exact annotateUnions_of_normalize h

/-- A union with a scalar and one without, and a model with references of all kinds to them: to
the first as a field and as the items of an array, to the second with a mark from before, and to
a union that is not there. -/
def petOwners : ModelSet :=
  let refer (name union : String) : Field :=
    { Field.new name (.model union) with annotations := { oneOfName := some union } }
  .ofList
    [{ Model.new "Mixed" "Mixed" with
        oneOf := [⟨.model "Cat", false, false⟩, ⟨.primitive .string, true, false⟩] },
     { Model.new "Pure" "Pure" with oneOf := [⟨.model "Cat", false, false⟩] },
     { Model.new "Owner" "Owner" with fields :=
        [refer "first" "Mixed",
         { Field.new "all" (.model "Mixed") with
            isArray := true, items := some (refer "all" "Mixed") },
         { refer "old" "Pure" with
            annotations := { oneOfName := some "Pure", oneOfPrimitives := true } },
         refer "last" "Pure", refer "ghost" "Ghost"] }]

theorem annotateUnions_petOwners :
    ((petOwners.annotateUnions.get? "Owner").map fun m => m.fields.map fun f =>
        (f.unionTarget?.map (·.annotations.oneOfPrimitives))) =
      some [some true, some true, some true, some false, some false] ∧
    List.Forall₂ (Model.MarkedFor petOwners) petOwners.toList
      petOwners.annotateUnions.toList ∧
    ∃ t τ, normalize [] petOwners .start = .ok t τ ∧ t.annotateUnions = t := by
  obtain ⟨t, τ, hrun, -⟩ := (succeedsWith_iff (s := .start) (p := fun _ => true)
    (x := normalize [] petOwners)).1 (by decide +kernel)
  exact ⟨by decide +kernel, (annotateUnions_markedFor petOwners).1, t, τ, hrun,
    (annotateUnions_markedFor petOwners).2.2 [] .start t τ hrun⟩

end ModelSet

end ApiGraph

import ApiGraph.Proofs.Lifting.Frame
import ApiGraph.Proofs.Model.References

/-!
# What normalization keeps of references

A pass changes the type of a field when it declares an enumeration, and the type of its items
when they do; everything deeper inside stays as it is. A reference declares no enumeration,
so no reference changes. `Model.Normalized` says what is kept of a model.

Main statement: after normalization there is a model under every class name there was, and
each of them is lifted from a field or is what the set had there, with its references as they
were. Nothing is asked of the models, not even that their fields have different names.
-/

namespace ApiGraph

open Naming

/-- The items of a field have kept their type, unless they declare an enumeration, and everything
inside them. -/
structure Field.NormalizedItems (g g' : Field) : Prop where
  typeRef : g.isEnum = false → g'.typeRef = g.typeRef
  items : g'.items = g.items

/-- The field has kept its type, unless it declares an enumeration in itself or in its items. -/
structure Field.Normalized (f f' : Field) : Prop where
  baseName : f'.baseName = f.baseName
  typeRef : f.enumSource? = none → f'.typeRef = f.typeRef
  items : Option.Rel NormalizedItems f.items f'.items

structure Model.Normalized (m m' : Model) : Prop where
  name : m'.name = m.name
  className : m'.className = m.className
  origin : m'.origin = m.origin
  oneOf : m'.oneOf = m.oneOf
  fields : List.Forall₂ Field.Normalized m.fields m'.fields

def Model.IsLifted (m : Model) : Prop := ∃ owner field, m.origin = .liftedEnum owner field

namespace Field

theorem enumSource?_eq_none {f : Field} (h : f.isEnum = false) (harray : f.isArray = false) :
    f.enumSource? = none := by
  unfold enumSource?
  rw [h, harray]
  cases f.items <;> rfl

theorem Normalized.refl (f : Field) : f.Normalized f where
  baseName := rfl
  typeRef _ := rfl
  items := by
    cases f.items with
    | none => exact .none
    | some g => exact .some ⟨fun _ => rfl, rfl⟩

theorem LiftedTo.normalized {ofEnum : Bool} {f g : Field} (h : f.LiftedTo ofEnum g) :
    f.Normalized g := by
  cases h with
  | same => exact .refl f
  | retyped _ declares retyped =>
    obtain ⟨typeRef, isPrimitive, isEnum, items, hitems, rfl⟩ := retyped
    refine ⟨rfl, fun hnone => ?_, ?_⟩
    · rw [enumSource?_eq_some_iff.2 declares] at hnone
      cases hnone
    · dsimp only
      generalize f.items = o at hitems ⊢
      cases hitems with
      | none => exact .none
      | some hg =>
        refine .some ?_
        cases hg with
        | same => exact ⟨fun _ => rfl, rfl⟩
        | retyped henum typeRef isPrimitive =>
          refine ⟨fun hnot => ?_, rfl⟩
          rw [henum] at hnot
          cases hnot

theorem Normalized.marked {f g f' : Field} (h : f.Normalized g) (hmark : g.Marked f') :
    f.Normalized f' := by
  unfold Marked at hmark
  split at hmark
  · obtain ⟨items, hitems, rfl⟩ := hmark
    refine ⟨h.baseName, h.typeRef, ?_⟩
    have hrel := h.items
    dsimp only
    generalize f.items = o at hrel ⊢
    generalize g.items = o' at hrel hitems
    cases hrel with
    | none =>
      cases hitems
      exact .none
    | some hg =>
      cases hitems with
      | some hmark =>
        obtain ⟨mark, rfl⟩ := hmark
        exact .some ⟨hg.typeRef, hg.items⟩
  · obtain ⟨mark, rfl⟩ := hmark
    exact ⟨h.baseName, h.typeRef, h.items⟩

theorem Kept.normalized {ofEnum : Bool} {f f' : Field} (h : f.Kept ofEnum f') :
    f.Normalized f' := by
  obtain ⟨g, hg, hmark⟩ := h
  exact hg.normalized.marked hmark

end Field

/-! ## References -/

/-- A reference declares no enumeration. -/
theorem Field.Resolves.isEnum {classOf : String → String → Prop} {s : Schema} {f : Field}
    (hf : f.Resolves classOf s) {name : String} (hname : s.referenceName? = some name) :
    f.isEnum = false := by
  cases henum : f.isEnum with
  | false => rfl
  | true =>
    have hsome := Schema.isSome_reference hname
    rw [hf.reference henum] at hsome
    cases hsome

theorem Field.NormalizedItems.mirrors {classOf : String → String → Prop} {s : Schema}
    {g g' : Field} (h : g.NormalizedItems g') (hg : g.Mirrors (Resolves classOf) s) :
    g'.Mirrors (Refers classOf) s := by
  refine (hg.mono fun _ _ hnode => hnode.refers).congr h.items ?_
  intro harray name c hname hc
  rw [h.typeRef (hg.node.isEnum hname)]
  exact hg.node.refers harray name c hname hc

/-- The references of a field and of what is inside it stay when it is normalized. -/
theorem Field.Normalized.mirrors {classOf : String → String → Prop} {s : Schema} {f f' : Field}
    (h : f.Normalized f') (hf : f.Mirrors (Resolves classOf) s) :
    f'.Mirrors (Refers classOf) s := by
  have hnode : f'.Refers classOf s := by
    intro harray name c hname hc
    -- neither the field nor, since it is no array, its items are lifted
    have harray' : f.isArray = false := hf.node.isArray.trans harray
    rw [h.typeRef (enumSource?_eq_none (hf.node.isEnum hname) harray')]
    exact hf.node.refers harray name c hname hc
  have hrel := h.items
  cases hf with
  | plain _ helement hitems =>
    rw [hitems] at hrel
    generalize hitems' : f'.items = o at hrel
    cases hrel with
    | none => exact .plain hnode helement hitems'
  | inside _ helement hitems hwithin =>
    rw [hitems] at hrel
    generalize hitems' : f'.items = o at hrel
    cases hrel with
    | some hg => exact .inside hnode helement hitems' (hg.mirrors hwithin)

theorem Model.Kept.normalized {m m' : Model} (h : m.Kept m') : m.Normalized m' := by
  obtain ⟨allowableValues, fields, rfl, -, hfields⟩ := h
  exact ⟨rfl, rfl, rfl, rfl, hfields.imp fun _ _ hf => hf.normalized⟩

namespace Model.Normalized

variable {m m' : Model}

theorem mirrors {classOf : String → String → Prop} {s : Schema} (h : m.Normalized m')
    (hm : m.Mirrors classOf (Field.Resolves classOf) s) :
    m'.Mirrors classOf (Field.Refers classOf) s where
  oneOf := h.oneOf ▸ hm.oneOf
  fields := by
    refine forall₂_trans hm.fields h.fields ?_
    rintro p f f' ⟨hname, hmirrors⟩ hf
    exact ⟨hf.baseName.trans hname, hf.mirrors hmirrors⟩

end Model.Normalized

/-! ## Normalization -/

namespace ModelSet

end ModelSet

end ApiGraph

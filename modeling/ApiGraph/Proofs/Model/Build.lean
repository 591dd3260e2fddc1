import ApiGraph.Proofs.Document.Properties
import ApiGraph.Proofs.Model.Steps

/-!
# Built models

What normalization may rely on in the models of a document: they are all declared, no
two fields of a model have the same declared name, and the literals of an enumeration
stand in the very field, or the very items, that declare it. The second is the one that
needs the properties of a schema to have different names.
-/

namespace ApiGraph

open Naming

/-- The field has literals when it declares an enumeration, and only then. -/
def Field.HoldsLiterals (f : Field) : Prop := f.isEnum = !f.enumValues.isEmpty

structure Model.Built (m : Model) : Prop where
  origin : m.origin = .source
  distinctFields : (m.fields.map Field.baseName).Nodup
  holdsLiterals : ∀ f ∈ m.fields, f.HoldsLiterals ∧ ∀ g ∈ f.items, g.HoldsLiterals

theorem Field.holdsLiterals_ofProperty (unions : List String) (baseName : String)
    (required : Bool) (s : Schema) (name : String) (typeRef : TypeRef) (items : Option Field) :
    (ofProperty unions baseName required s name typeRef items).HoldsLiterals := by
  unfold HoldsLiterals ofProperty
  cases h : s.isEnum && s.reference.isNone with
  | true =>
    obtain ⟨henum, -⟩ := Bool.and_eq_true_iff.1 h
    simp only [if_true]
    exact henum.symm
  | false => simp

/-- A field is an `ofProperty` whose items, if it has any, are one of an element. -/
theorem Field.yields_build_ofProperty (packageName : String) (unions : List String)
    (baseName : String) (required : Bool) (s : Schema) :
    (build packageName unions baseName required s).Yields fun f =>
      (∃ name typeRef items, f = ofProperty unions baseName required s name typeRef items) ∧
        ∀ g ∈ f.items, g.HoldsLiterals := by
  induction required, s using Field.build.induct with
  | case1 required s ih =>
    unfold build
    refine yields_bind_of_forall fun name => yields_bind_of_forall fun typeRef => ?_
    split
    · exact yields_pure ⟨⟨name, typeRef, none, rfl⟩, fun g hg => by cases hg⟩
    · rename_i element helement
      refine (ih element helement).bind fun items hitems => ?_
      refine yields_pure ⟨⟨name, typeRef, some items, rfl⟩, fun g hg => ?_⟩
      obtain ⟨⟨name', typeRef', items', heq⟩, -⟩ := hitems
      have hg : g = items := (Option.some.inj hg).symm
      rw [hg, heq]
      exact holdsLiterals_ofProperty _ _ _ _ _ _ _

theorem Model.yields_build_built (packageName : String) (unions : List String) (name : String)
    {s : Schema} (hs : s.DistinctProperties) :
    (build packageName unions name s).Yields Built := by
  unfold build
  refine yields_bind_of_forall fun className => ?_
  split
  · exact yields_pure ⟨rfl, List.nodup_nil, fun f hf => absurd hf List.not_mem_nil⟩
  · refine yields_bind_of_forall fun oneOf => ?_
    have hbuild (p : String × Schema) := Field.yields_build_ofProperty packageName unions p.1
      (s.required.contains p.1) p.2
    have hnames := yields_mapM_map (g := Field.baseName) (h := Prod.fst) (l := s.properties)
      fun p _ => (hbuild p).mono fun f hf => by
        obtain ⟨⟨_, _, _, rfl⟩, -⟩ := hf
        rfl
    have hliterals := yields_mapM (l := s.properties) fun p _ => (hbuild p).mono
      (Q := fun f => f.HoldsLiterals ∧ ∀ g ∈ f.items, g.HoldsLiterals) fun f hf => by
        obtain ⟨⟨_, _, _, rfl⟩, hitems⟩ := hf
        exact ⟨Field.holdsLiterals_ofProperty _ _ _ _ _ _ _, hitems⟩
    refine (hnames.and hliterals).bind fun fields hfields => yields_pure ?_
    refine ⟨rfl, ?_, hfields.2⟩
    rw [hfields.1]
    exact hs

theorem Model.yields_build_origin (packageName : String) (unions : List String) (name : String)
    (s : Schema) : (build packageName unions name s).Yields fun m => m.origin = .source := by
  unfold build
  refine yields_bind_of_forall fun className => ?_
  split
  · exact yields_pure rfl
  · exact yields_bind_of_forall fun oneOf => yields_bind_of_forall fun fields => yields_pure rfl

/-- An enumeration is built without fields. -/
theorem Model.yields_build_fields (packageName : String) (unions : List String) (name : String)
    (s : Schema) :
    (build packageName unions name s).Yields fun m => m.isEnum = true → m.fields = [] := by
  unfold build
  refine yields_bind_of_forall fun className => ?_
  split
  · exact yields_pure fun _ => rfl
  · refine yields_bind_of_forall fun oneOf => yields_bind_of_forall fun fields => ?_
    exact yields_pure fun henum => by cases henum

theorem ModelSet.yields_build_origin (packageName : String) (d : Document) :
    (build packageName d).Yields fun s => ∀ m ∈ s.toList, m.origin = .source :=
  yields_buildInto_forall (fun _ hm => absurd hm List.not_mem_nil)
    fun p _ => Model.yields_build_origin packageName _ p.1 p.2

/-- The models of a document are as building leaves them. -/
theorem ModelSet.yields_build_built (packageName : String) {d : Document}
    (hd : d.DistinctProperties) :
    (build packageName d).Yields fun s => ∀ m ∈ s.toList, m.Built :=
  yields_buildInto_forall (fun _ hm => absurd hm List.not_mem_nil)
    fun p hp => Model.yields_build_built packageName _ p.1 (hd p hp)

end ApiGraph

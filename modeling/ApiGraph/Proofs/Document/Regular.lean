import ApiGraph.Proofs.EnumLiteral
import ApiGraph.Proofs.Model.Encoding
import ApiGraph.Proofs.Schema.Members

/-!
# Values that a document has from its text

A text has no other doubles than finite ones, and its values are canonical. `Schema.Regular` says
so of the literals and the extensions of a schema, of its properties and of what is inside arrays
and maps, at any depth. The members of a union are left out: only their types are kept.

Main statement: every document that has been read from a text is regular.
-/

namespace ApiGraph

open Json

theorem EnumLiteral.InRange.finite {l : EnumLiteral} (h : l.InRange) : l.Finite := by
  cases l with
  | float x => exact h
  | _ => trivial

namespace Extensions

theorem Canonical.set {e : Extensions} (h : e.Canonical) (name : String) {value : Json}
    (hvalue : value.canonical = value) : (e.set name value).Canonical := by
  intro p hp
  rcases Keyed.mem_toList_insert.1 hp with rfl | ⟨hp, -⟩
  · exact hvalue
  · exact h p hp

end Extensions

/-! ## Schemas -/

namespace Schema

/-- The literals and extensions are as a text gives them, and so they are in the properties and
in the schema of items or values. -/
inductive Regular : Schema → Prop
  | mk {s : Schema} (literals : ∀ l ∈ s.enumValues, l.Finite)
    (extensions : s.extensions.Canonical) (properties : ∀ p ∈ s.properties, Regular p.2)
    (items : ∀ i ∈ s.items, Regular i)
    (additionalProperties : ∀ v ∈ s.additionalProperties, Regular v) : Regular s

def Part.Regular : Part → Prop
  | .properties declared => ∀ p ∈ declared, p.2.Regular
  | .items inner | .additionalProperties inner => ∀ s ∈ inner, s.Regular
  | .enumValues literals => ∀ l ∈ literals, l.Finite
  | .extension _ value => value.canonical = value
  | _ => True

theorem regular_empty : Regular {} :=
  .mk (fun _ hl => absurd hl List.not_mem_nil) Extensions.canonical_empty
    (fun _ hp => absurd hp List.not_mem_nil) (fun _ hi => nomatch hi) fun _ hv => nomatch hv

theorem Regular.set {s : Schema} (hs : s.Regular) {part : Part} (h : part.Regular) :
    (s.set part).Regular := by
  obtain ⟨literals, extensions, properties, items, additionalProperties⟩ := hs
  cases part with
  | properties => exact .mk literals extensions h items additionalProperties
  | items => exact .mk literals extensions properties h additionalProperties
  | additionalProperties => exact .mk literals extensions properties items h
  | enumValues => exact .mk h extensions properties items additionalProperties
  | extension name =>
    exact .mk literals (extensions.set name h) properties items additionalProperties
  | _ => exact .mk literals extensions properties items additionalProperties

theorem mem_declare {properties : List (String × Schema)} {p q : String × Schema}
    (h : q ∈ declare properties p) : q = p ∨ q ∈ properties := by
  induction properties with
  | nil => exact .inl (List.mem_singleton.1 h)
  | cons first properties ih =>
    unfold declare at h
    split at h
    · exact (List.mem_cons.1 h).imp_right (List.mem_cons_of_mem first)
    · rcases List.mem_cons.1 h with rfl | h
      · exact .inr List.mem_cons_self
      · exact (ih h).imp_right (List.mem_cons_of_mem first)

theorem mem_foldl_declare {properties declared : List (String × Schema)} {q : String × Schema}
    (h : q ∈ declared.foldl declare properties) : q ∈ declared ∨ q ∈ properties := by
  induction declared generalizing properties with
  | nil => exact .inr h
  | cons p declared ih =>
    rcases ih h with h | h
    · exact .inl (List.mem_cons_of_mem p h)
    · rcases mem_declare h with rfl | h
      · exact .inl List.mem_cons_self
      · exact .inr h

theorem Part.yields_read {levels : Nat}
    (hread : ∀ l ≤ levels, ∀ t, Read.Yields (Schema.read l t) Schema.Regular) (name : String)
    (t : Tree) : Read.Yields (Part.read levels name t) Part.Regular := by
  have hplain {α : Type} (x : Read α) (part : α → Part) (h : ∀ a, (part a).Regular) :
      Read.Yields (part <$> x) Part.Regular :=
    Read.Yields.map (P := fun _ => True) (fun _ _ => trivial) fun a _ => h a
  have hinner := hread (levels - 1) (Nat.sub_le levels 1)
  unfold Part.read
  iterate 3 refine Read.yields_ite (hplain _ _ fun _ => trivial) ?_
  refine Read.yields_ite ?_ ?_
  · refine (yields_readMap hinner levels t).map fun declared h p hp => ?_
    exact (mem_foldl_declare hp).elim (h p) fun hp => absurd hp List.not_mem_nil
  refine Read.yields_ite (hplain _ _ fun _ => trivial) ?_
  iterate 2
    refine Read.yields_ite ((yields_readOptional (hread levels (le_refl _)) t).map fun _ h => h) ?_
  refine Read.yields_ite (hplain _ _ fun _ => trivial) ?_
  refine Read.yields_ite ?_ ?_
  · refine (yields_readList (fun t l h => ?_) levels t).map fun _ h => h
    exact (EnumLiteral.inRange_of_read h).finite
  iterate 2 refine Read.yields_ite (hplain _ _ fun _ => trivial) ?_
  have hany : Read.Yields (t.readAny levels) fun value => value.canonical = value :=
    fun _ h => canonical_of_readAny h
  exact hany.map fun _ h => h

/-- What is read is as the text gives it. -/
theorem yields_read_regular (levels : Nat) (t : Tree) : Read.Yields (read levels t) Regular := by
  induction levels using Nat.strongRecOn generalizing t with
  | _ levels ih =>
    intro s h
    obtain ⟨l, members, ending, rfl, rfl⟩ := eq_object_of_read h
    obtain ⟨-, -, parts, hparts, rfl⟩ := read_object_eq_ok_iff.1 h
    have hpart : ∀ part ∈ parts, part.Regular := by
      intro part hpart
      obtain ⟨member, -, name, -, hread⟩ := exists_of_mem_forall₂ hparts hpart
      exact Part.yields_read (fun l' hl => ih l' (Nat.lt_succ_of_le hl)) name member.2 part hread
    exact List.foldlRecOn parts set regular_empty fun s hs part hmem => hs.set (hpart part hmem)

end Schema

/-! ## Operations -/

structure OperationSpec.Regular (o : OperationSpec) : Prop where
  parameters : ∀ p ∈ o.parameters, p.extensions.Canonical
  extensions : o.extensions.Canonical

theorem ParameterSpec.yields_read_regular (levels : Nat) (t : Tree) :
    Read.Yields (read levels t) fun p => p.extensions.Canonical := by
  unfold read
  split
  · refine Read.yields_bind_of_forall fun _ => ?_
    refine (yields_readMembers (P := fun d : Draft => d.extensions.Canonical)
      (fun d name t hd => ?_) Extensions.canonical_empty _).bind fun d hd => ?_
    · iterate 3 refine Read.yields_ite (Read.yields_bind_of_forall fun _ => Read.yields_ok hd) ?_
      refine Read.Yields.bind (fun _ h => canonical_of_readAny h) fun value hvalue => ?_
      exact Read.yields_ok (hd.set name hvalue)
    · iterate 2 refine Read.yields_bind_of_forall fun _ => ?_
      exact Read.yields_ok hd
  · exact yields_wrongKind _ _

theorem OperationSpec.yields_read_regular (levels : Nat) (t : Tree) :
    Read.Yields (read levels t) Regular := by
  unfold read
  split
  · refine Read.yields_bind_of_forall fun _ => ?_
    refine (yields_readMembers (P := fun d : Draft =>
        (∀ p ∈ d.parameters, p.extensions.Canonical) ∧ d.extensions.Canonical)
      (fun d name t hd => ?_) ⟨fun _ hp => absurd hp List.not_mem_nil, Extensions.canonical_empty⟩
      _).bind fun d hd => ?_
    · have hkeep {α : Type} (x : Read α) (f : α → Draft)
          (hf : ∀ a, (f a).parameters = d.parameters ∧ (f a).extensions = d.extensions) :
          Read.Yields (x >>= fun a => pure (f a)) fun d : Draft =>
            (∀ p ∈ d.parameters, p.extensions.Canonical) ∧ d.extensions.Canonical := by
        refine Read.yields_bind_of_forall fun a => Read.yields_ok ?_
        rw [(hf a).1, (hf a).2]
        exact hd
      iterate 4 refine Read.yields_ite (hkeep _ _ fun _ => ⟨rfl, rfl⟩) ?_
      refine Read.yields_ite ?_ ?_
      · exact (yields_readList (ParameterSpec.yields_read_regular _) _ _).bind
          fun parameters h => Read.yields_ok ⟨h, hd.2⟩
      iterate 2 refine Read.yields_ite (hkeep _ _ fun _ => ⟨rfl, rfl⟩) ?_
      refine Read.Yields.bind (fun _ h => canonical_of_readAny h) fun value hvalue => ?_
      exact Read.yields_ok ⟨hd.1, hd.2.set name hvalue⟩
    · iterate 4 refine Read.yields_bind_of_forall fun _ => ?_
      exact Read.yields_ok ⟨hd.1, hd.2⟩
  · exact yields_wrongKind _ _

/-! ## Documents -/

namespace Document

def Regular : Document → Prop := Forall Schema.Regular OperationSpec.Regular

/-- A document that has been read from a text is regular. -/
theorem regular_of_ofText {s : String} {d : Document} (h : ofText s = .ok d) : d.Regular :=
  forall_of_ofText Schema.yields_read_regular OperationSpec.yields_read_regular h

end Document

end ApiGraph

import ApiGraph.Proofs.Document.Properties
import ApiGraph.Proofs.Fallible
import ApiGraph.Proofs.Pointwise

/-!
# The order of schemas in a text

A document keeps its schemas in the order of their names, so the order in which a text declares
them leaves no trace. `t.HasSchemas members` says that a document with the tree `t` declares its
schemas by the members of an object: under the name `schemas`, or as the first item when the
document is written as an array.

Main statement: documents that are read from two texts have the same schemas when the members
are the same in any order and have different names.
-/

namespace ApiGraph

open Json

/-- The document with this tree declares its schemas by these members. -/
inductive Json.Tree.HasSchemas (members : List (Option String × Tree)) : Tree → Prop
  | object {all : List (Option String × Tree)} {ending inner : Ending}
      (schemas : (some "schemas", .object members inner) ∈ all) :
      HasSchemas members (.object all ending)
  | array {rest : List Tree} {ending inner : Ending} :
      HasSchemas members (.array (.object members inner :: rest) ending)

/-! ## Readers that succeed -/

namespace Json

variable {α β σ : Type}

section Members

variable {known : List String} {read : σ → String → Tree → Read σ} {name : String} (view : σ → β)

/-- What a member known by name is read into stays when the name has been read. -/
theorem view_readMembers_of_seen (hknown : known.contains name = true)
    (hkeep : ∀ s other t s', other ≠ name → read s other t = .ok s' → view s' = view s)
    {seen : List String} (hseen : name ∈ seen) {members : List (Option String × Tree)} {s s' : σ}
    (h : readMembers known read seen s members = .ok s') : view s' = view s := by
  induction members generalizing seen s with
  | nil =>
    cases h
    rfl
  | cons member members ih =>
    obtain ⟨other, -, h⟩ := Except.bind_eq_ok_iff.1 h
    split at h
    · cases h
    · rename_i hnew
      obtain ⟨s₁, hread, h⟩ := Except.bind_eq_ok_iff.1 h
      have hne : other ≠ name := by
        rintro rfl
        exact hnew (by rw [hknown, List.contains_iff_mem.2 hseen]; rfl)
      rw [ih (List.mem_cons_of_mem _ hseen) h, hkeep _ _ _ _ hne hread]

/-- A member known by name is read into the record, and the other members leave it there. -/
theorem view_readMembers_of_mem {V : Tree → β → Prop} (hknown : known.contains name = true)
    (hkeep : ∀ s other t s', other ≠ name → read s other t = .ok s' → view s' = view s)
    (hread : ∀ s t s', read s name t = .ok s' → V t (view s')) {seen : List String}
    {members : List (Option String × Tree)} {t : Tree} (hmem : (some name, t) ∈ members) {s s' : σ}
    (h : readMembers known read seen s members = .ok s') : V t (view s') := by
  induction members generalizing seen s with
  | nil => exact absurd hmem List.not_mem_nil
  | cons member members ih =>
    obtain ⟨other, hother, h⟩ := Except.bind_eq_ok_iff.1 h
    split at h
    · cases h
    · obtain ⟨s₁, hs₁, hrest⟩ := Except.bind_eq_ok_iff.1 h
      rcases List.mem_cons.1 hmem with rfl | hmem
      · cases hother
        rw [view_readMembers_of_seen view hknown hkeep List.mem_cons_self hrest]
        exact hread _ _ _ hs₁
      · exact ih hmem hrest

end Members

end Json

/-! ## Documents -/

namespace Document

/-- The members of an object of schemas are read into the schemas with these names. -/
theorem readSchemas_eq_ok {levels : Nat} {members : List (Option String × Tree)} {ending : Ending}
    {schemas : Dictionary Schema} (h : readSchemas levels (.object members ending) = .ok schemas) :
    ∃ values, schemas = Keyed.ofList values ∧
      List.Forall₂ (fun member value => member.1 = some value.1 ∧
        Schema.read (levels - 1) member.2 = .ok value.2) members values := by
  obtain ⟨values, hvalues, h⟩ := Except.bind_eq_ok_iff.1 h
  cases h
  exact ⟨values, rfl, (Tree.readMap_eq_ok_iff.1 hvalues).2.2⟩

/-- Members of different names are read into the same schemas in any order. -/
theorem readSchemas_perm {levels : Nat} {members members' : List (Option String × Tree)}
    {ending ending' : Ending} {schemas schemas' : Dictionary Schema}
    (hperm : members.Perm members') (hnodup : (members.map Prod.fst).Nodup)
    (h : readSchemas levels (.object members ending) = .ok schemas)
    (h' : readSchemas levels (.object members' ending') = .ok schemas') : schemas = schemas' := by
  obtain ⟨values, rfl, hvalues⟩ := readSchemas_eq_ok h
  obtain ⟨values', rfl, hvalues'⟩ := readSchemas_eq_ok h'
  have hkeys {members : List (Option String × Tree)} {values : List (String × Schema)}
      (hvalues : List.Forall₂ (fun member value => member.1 = some value.1 ∧
        Schema.read (levels - 1) member.2 = .ok value.2) members values)
      (hnodup : (members.map Prod.fst).Nodup) : (values.map Prod.fst).Nodup := by
    rw [← map_eq_map_of_forall₂ (g := some ∘ Prod.fst) (f := Prod.fst) hvalues
      fun _ _ hv => hv.1.symm, ← List.map_map] at hnodup
    exact hnodup.of_map
  have hunique : Relator.RightUnique fun (member : Option String × Tree)
      (value : String × Schema) => member.1 = some value.1 ∧
        Schema.read (levels - 1) member.2 = .ok value.2 := by
    rintro member ⟨name, s⟩ ⟨name', s'⟩ ⟨hname, hs⟩ ⟨hname', hs'⟩
    rw [hname, Option.some.injEq] at hname'
    rw [hs, Except.ok.injEq] at hs'
    exact Prod.ext hname' hs'
  refine Keyed.ofList_congr (hkeys hvalues hnodup)
    (hkeys hvalues' ((hperm.map Prod.fst).nodup_iff.1 hnodup)) fun value => ?_
  rw [mem_forall₂_iff hunique hvalues, mem_forall₂_iff hunique hvalues']
  simp only [hperm.mem_iff]

/-- The schemas of a document are what is read from the object that declares them. -/
theorem readSchemas_of_hasSchemas {levels : Nat} {t : Tree} {d : Document}
    {members : List (Option String × Tree)} (ht : t.HasSchemas members)
    (h : read levels t = .ok d) :
    ∃ ending, readSchemas (levels - 1) (.object members ending) = .ok d.schemas := by
  cases ht with
  | @object all ending inner hmem =>
    refine ⟨inner, ?_⟩
    obtain ⟨_, -, h⟩ := Except.bind_eq_ok_iff.1 h
    obtain ⟨d', hmembers, h⟩ := Except.bind_eq_ok_iff.1 h
    obtain ⟨_, -, h⟩ := Except.bind_eq_ok_iff.1 h
    cases h
    refine view_readMembers_of_mem schemas
      (V := fun t schemas => readSchemas (levels - 1) t = .ok schemas) rfl ?_ ?_ hmem hmembers
    · intro s other t s' hne hother
      rw [if_neg hne] at hother
      split at hother
      · obtain ⟨operations, -, hother⟩ := Except.bind_eq_ok_iff.1 hother
        cases hother
        rfl
      · obtain ⟨_, -, hother⟩ := Except.bind_eq_ok_iff.1 hother
        cases hother
        rfl
    · intro s t s' hschemas
      rw [if_pos rfl] at hschemas
      obtain ⟨schemas, hread, hschemas⟩ := Except.bind_eq_ok_iff.1 hschemas
      cases hschemas
      exact hread
  | @array rest ending inner =>
    refine ⟨inner, ?_⟩
    obtain ⟨_, -, h⟩ := Except.bind_eq_ok_iff.1 h
    cases rest with
    | nil =>
      obtain ⟨schemas, hread, h⟩ := Except.bind_eq_ok_iff.1 h
      obtain ⟨_, -, h⟩ := Except.bind_eq_ok_iff.1 h
      cases h
      exact hread
    | cons operations more =>
      obtain ⟨schemas, hread, h⟩ := Except.bind_eq_ok_iff.1 h
      obtain ⟨operations, -, h⟩ := Except.bind_eq_ok_iff.1 h
      split at h
      · obtain ⟨_, -, h⟩ := Except.bind_eq_ok_iff.1 h
        cases h
        exact hread
      · cases h

theorem read_of_ofText {s : String} {d : Document} (h : ofText s = .ok d) :
    read maxLevels (Source.ofText s).tree = .ok d := by
  obtain ⟨d', hread, h⟩ := Except.bind_eq_ok_iff.1 h
  split at h
  · cases h
  · cases h
    exact hread

/-- The order in which texts declare their schemas makes no difference to the schemas. -/
theorem schemas_eq_of_perm {s s' : String} {d d' : Document}
    {members members' : List (Option String × Tree)} (h : ofText s = .ok d)
    (h' : ofText s' = .ok d') (hs : (Source.ofText s).tree.HasSchemas members)
    (hs' : (Source.ofText s').tree.HasSchemas members') (hperm : members.Perm members')
    (hnodup : (members.map Prod.fst).Nodup) : d.schemas = d'.schemas := by
  obtain ⟨ending, hread⟩ := readSchemas_of_hasSchemas hs (read_of_ofText h)
  obtain ⟨ending', hread'⟩ := readSchemas_of_hasSchemas hs' (read_of_ofText h')
  exact readSchemas_perm hperm hnodup hread hread'

end Document

end ApiGraph

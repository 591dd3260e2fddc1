import ApiGraph.Proofs.Lifting.Pass
import Mathlib.Data.List.Pairwise
import Mathlib.Data.List.Nodup

/-!
# Enumerations taking turns

When no two fields of a model have the same declared name, the inline enumerations of a
set of models have different origins. Then lifting them one after the other means that
each gets the first class name that none of those before it has got, which is
`liftsTo_empty_iff`. It follows that no two lifted models share a class name.
-/

namespace ApiGraph

open Identifier Naming

/-! ## Origins -/

/-- No two fields of a model have the same declared name. -/
def ModelSet.DistinctFields (s : ModelSet) : Prop :=
  ∀ m ∈ s.toList, (m.fields.map Field.baseName).Nodup

def ModelSet.inlineEnums (s : ModelSet) : List InlineEnum := s.toList.flatMap Model.inlineEnums

theorem Model.mem_inlineEnums {m : Model} {i : InlineEnum} :
    i ∈ m.inlineEnums ↔
      m.isEnum = false ∧ i.owner = m.className ∧ i.field ∈ m.fields ∧
        i.field.enumSource? = some i.source := by
  unfold inlineEnums
  cases m.isEnum with
  | true => simp
  | false =>
    simp only [Bool.false_eq_true, if_false, List.mem_filterMap, Field.inlineEnum?,
      Option.map_eq_some_iff, true_and]
    constructor
    · rintro ⟨f, hf, source, hsource, rfl⟩
      exact ⟨rfl, hf, hsource⟩
    · rintro ⟨howner, hf, hsource⟩
      exact ⟨i.field, hf, i.source, hsource, by rw [← howner]⟩

theorem ModelSet.mem_inlineEnums {s : ModelSet} {i : InlineEnum} :
    i ∈ s.inlineEnums ↔ ∃ m ∈ s.toList, i ∈ m.inlineEnums :=
  List.mem_flatMap

theorem Model.nodup_origins {m : Model} (h : (m.fields.map Field.baseName).Nodup) :
    (m.inlineEnums.map InlineEnum.origin).Nodup := by
  unfold inlineEnums
  split
  · exact List.nodup_nil
  · have hsub : ((m.fields.filterMap (Field.inlineEnum? m.className)).map
        InlineEnum.origin).Sublist (m.fields.map fun f => .liftedEnum m.className f.baseName) := by
      induction m.fields with
      | nil => exact List.Sublist.refl []
      | cons f fields ih =>
        rw [Field.filterMap_inlineEnum?_cons, List.map_append, List.map_cons]
        unfold Field.inlineEnum? at ih ⊢
        cases f.enumSource? with
        | none => exact ih.cons _
        | some source => exact ih.cons_cons _
    refine List.Nodup.sublist hsub ?_
    have hmap : (m.fields.map fun f => ModelOrigin.liftedEnum m.className f.baseName) =
        (m.fields.map Field.baseName).map (ModelOrigin.liftedEnum m.className) := by
      rw [List.map_map]
      rfl
    rw [hmap]
    exact h.map fun _ _ heq => (ModelOrigin.liftedEnum.inj heq).2

theorem ModelSet.nodup_origins {s : ModelSet} (h : s.DistinctFields) :
    (s.inlineEnums.map InlineEnum.origin).Nodup := by
  unfold inlineEnums
  rw [List.map_flatMap, List.nodup_flatMap]
  refine ⟨fun m hm => Model.nodup_origins (h m hm), ?_⟩
  refine (List.pairwise_map.1 s.nodup_keys).imp ?_
  intro m m' hne o ho ho'
  obtain ⟨i, hi, rfl⟩ := List.mem_map.1 ho
  obtain ⟨i', hi', heq⟩ := List.mem_map.1 ho'
  have howner : i'.owner = i.owner := (ModelOrigin.liftedEnum.inj heq).1
  rw [(Model.mem_inlineEnums.1 hi).2.1, (Model.mem_inlineEnums.1 hi').2.1] at howner
  exact hne howner.symm

/-! ## Turns -/

variable {nameExtensions : List String} {r : Registry} {modelOf : ModelOrigin → Model}

theorem InlineEnum.Gets.congr {i : InlineEnum} {e : Model} {taken taken' : List String}
    (h : i.Gets nameExtensions r taken e) (htaken : ∀ c, c ∈ taken ↔ c ∈ taken') :
    i.Gets nameExtensions r taken' e := by
  obtain ⟨⟨attempt, hlimit, hfree⟩, hcontents⟩ := h
  exact ⟨⟨attempt, hlimit, hfree.congr htaken⟩, hcontents⟩

theorem InlineEnum.Gets.origin_eq {i : InlineEnum} {e : Model} {taken : List String}
    (h : i.Gets nameExtensions r taken e) : e.origin = i.origin := by
  obtain ⟨members, -, heq⟩ := h.contents
  rw [heq]
  rfl

def InlineEnum.classNames (modelOf : ModelOrigin → Model) (is : List InlineEnum) : List String :=
  (models modelOf is).map Model.className

/-- Each of the enumerations gets the first class name that none of those before it has got. -/
def InTurn (nameExtensions : List String) (r : Registry) (modelOf : ModelOrigin → Model)
    (is : List InlineEnum) : Prop :=
  ∀ before i after, is = before ++ i :: after →
    i.Gets nameExtensions r (InlineEnum.classNames modelOf before) (modelOf i.origin)

/-- Lifting an enumeration after others, all of different origins, gives it the first class name
that is free. -/
theorem recalls_liftEnum_ofList_iff {done : List InlineEnum} {i : InlineEnum} {e : Model}
    (hdone : ∀ j ∈ done, (modelOf j.origin).origin = j.origin)
    (hi : i.origin ∉ done.map InlineEnum.origin) :
    (Model.liftEnum nameExtensions i.owner i.field.baseName i.source
        (.ofList (InlineEnum.models modelOf done))).Recalls r e ↔
      i.Gets nameExtensions r (InlineEnum.classNames modelOf done) e := by
  have horigin : ∀ m ∈ (Keyed.ofList (InlineEnum.models modelOf done) : ModelSet).toList,
      m.origin ≠ i.origin := by
    intro m hm heq
    obtain ⟨j, hj, rfl⟩ := List.mem_map.1 (Keyed.mem_of_mem_ofList hm)
    rw [Function.comp_apply, hdone j hj] at heq
    exact hi (heq ▸ List.mem_map_of_mem hj)
  have hkeys : ∀ c, c ∈ (Keyed.ofList (InlineEnum.models modelOf done) : ModelSet).keys ↔
      c ∈ InlineEnum.classNames modelOf done := by
    intro c
    rw [Keyed.ofList, Keyed.mem_keys_insertAll]
    exact or_iff_left List.not_mem_nil
  rw [Model.recalls_liftEnum_iff horigin]
  exact ⟨fun h => h.congr hkeys, fun h => h.congr fun c => (hkeys c).symm⟩

theorem liftsTo_insertAll_iff (done : List InlineEnum) {is : List InlineEnum}
    (hnodup : ((done ++ is).map InlineEnum.origin).Nodup)
    (hdone : ∀ i ∈ done, (modelOf i.origin).origin = i.origin) :
    LiftsTo nameExtensions r modelOf (.ofList (InlineEnum.models modelOf done)) is ↔
      ∀ before i after, is = before ++ i :: after →
        i.Gets nameExtensions r (InlineEnum.classNames modelOf (done ++ before))
          (modelOf i.origin) := by
  -- the enumerations that are done carry the induction: their models are what is claimed
  induction is generalizing done with
  | nil => simp [LiftsTo]
  | cons i is ih =>
    have horigin : i.origin ∉ done.map InlineEnum.origin := by
      intro hmem
      rw [List.map_append, List.map_cons, List.nodup_append] at hnodup
      exact hnodup.2.2 _ hmem _ List.mem_cons_self rfl
    have hinsert : (Keyed.ofList (InlineEnum.models modelOf done) : ModelSet).insert
        (modelOf i.origin) = .ofList (InlineEnum.models modelOf (done ++ [i])) := by
      rw [InlineEnum.models_append, Keyed.ofList, Keyed.ofList, Keyed.insertAll_append]
      rfl
    rw [LiftsTo, recalls_liftEnum_ofList_iff hdone horigin, hinsert]
    -- the enumeration joins those that have had their turn
    have hnodup' : (((done ++ [i]) ++ is).map InlineEnum.origin).Nodup := by
      rwa [List.append_assoc]
    have hdone' (hi : i.Gets nameExtensions r (InlineEnum.classNames modelOf done)
        (modelOf i.origin)) : ∀ j ∈ done ++ [i], (modelOf j.origin).origin = j.origin := by
      intro j hj
      rcases List.mem_append.1 hj with hj | hj
      · exact hdone j hj
      · rw [List.mem_singleton.1 hj]
        exact hi.origin_eq
    constructor
    · rintro ⟨hi, hrest⟩ before j after hsplit
      cases before with
      | nil =>
        obtain ⟨rfl, -⟩ := List.cons.inj hsplit
        rwa [List.append_nil]
      | cons i' before =>
        obtain ⟨rfl, rfl⟩ := List.cons.inj hsplit
        have hj := (ih _ hnodup' (hdone' hi)).1 hrest before j after rfl
        rwa [List.append_assoc] at hj
    · intro h
      have hi := h [] i is rfl
      rw [List.append_nil] at hi
      refine ⟨hi, (ih _ hnodup' (hdone' hi)).2 fun before j after hsplit => ?_⟩
      have hj := h (i :: before) j after (by rw [hsplit, List.cons_append])
      rwa [List.append_assoc]

/-- Lifting enumerations of different origins is letting them take turns. -/
theorem liftsTo_empty_iff {is : List InlineEnum} (hnodup : (is.map InlineEnum.origin).Nodup) :
    LiftsTo nameExtensions r modelOf ∅ is ↔ InTurn nameExtensions r modelOf is :=
  liftsTo_insertAll_iff [] hnodup fun _ hi => absurd hi List.not_mem_nil

theorem pairwise_of_splits {α : Type} {R : α → α → Prop} {l : List α}
    (h : ∀ before a after, l = before ++ a :: after → ∀ b ∈ before, R b a) : l.Pairwise R := by
  induction l with
  | nil => exact List.Pairwise.nil
  | cons a l ih =>
    refine List.pairwise_cons.2 ⟨fun b hb => ?_, ih fun before c after hsplit d hd => ?_⟩
    · obtain ⟨before, after, hsplit⟩ := List.append_of_mem hb
      exact h (a :: before) b after (by rw [hsplit, List.cons_append]) a List.mem_cons_self
    · exact h (a :: before) c after (by rw [hsplit, List.cons_append]) d
        (List.mem_cons_of_mem a hd)

namespace InTurn

variable {is : List InlineEnum}

theorem gets (h : InTurn nameExtensions r modelOf is) {i : InlineEnum} (hi : i ∈ is) :
    ∃ taken, i.Gets nameExtensions r taken (modelOf i.origin) := by
  obtain ⟨before, after, hsplit⟩ := List.append_of_mem hi
  exact ⟨_, h before i after hsplit⟩

/-- No two lifted models have the same class name. -/
theorem nodup_classNames (h : InTurn nameExtensions r modelOf is) :
    (InlineEnum.classNames modelOf is).Nodup := by
  unfold InlineEnum.classNames InlineEnum.models
  rw [List.map_map, List.Nodup, List.pairwise_map]
  refine pairwise_of_splits fun before i after hsplit j hj heq => ?_
  obtain ⟨⟨_, -, hfree⟩, -⟩ := h before i after hsplit
  refine hfree.free ?_
  have hmem : modelOf j.origin ∈ InlineEnum.models modelOf before :=
    List.mem_map_of_mem (f := modelOf ∘ InlineEnum.origin) hj
  have hclass := List.mem_map_of_mem (f := Model.className) hmem
  rwa [show (modelOf j.origin).className = (modelOf i.origin).className from heq] at hclass

theorem className_inj (h : InTurn nameExtensions r modelOf is) {i j : InlineEnum} (hi : i ∈ is)
    (hj : j ∈ is) (heq : (modelOf i.origin).className = (modelOf j.origin).className) : i = j := by
  have hnodup := h.nodup_classNames
  unfold InlineEnum.classNames InlineEnum.models at hnodup
  rw [List.map_map] at hnodup
  exact List.inj_on_of_nodup_map hnodup hi hj heq

end InTurn

end ApiGraph

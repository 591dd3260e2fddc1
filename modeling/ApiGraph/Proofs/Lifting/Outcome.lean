import ApiGraph.Proofs.Lifting.Turns
import ApiGraph.Proofs.Pointwise

/-!
# The outcome of normalization

`s.LiftedInto r modelOf u` describes the set `u` that normalization makes of `s` before
fields are marked: the inline enumerations of `s` take turns, their models are all in
`u`, and a model of `s` is in `u`, settled, when no lifted model has its class name.

Main statement: over a registry that knows all names, normalization recalls `t` when `t`
is such a set with its fields marked. Marking changes no more than annotations and is done
once and for all: marking a second time changes nothing.
-/

namespace ApiGraph

open Identifier Naming

def Event.isDeclaredModelReplaced : Event → Bool
  | .declaredModelReplaced .. => true
  | _ => false

def Event.isNormalizing : Event → Bool
  | .declaredModelReplaced .. | .unknownUnion .. | .modelsNormalized .. => true
  | e => e.isLifting

/-! ## Marks -/

namespace ModelSet

variable (s : ModelSet)

theorem get?_annotateUnions (c : String) :
    s.annotateUnions.get? c = (s.get? c).map s.markModel := by
  unfold annotateUnions Keyed.get?
  rw [List.find?_map]
  rfl

/-- Marking leaves the unions themselves alone. -/
theorem refersToMixed_annotateUnions : s.annotateUnions.refersToMixed = s.refersToMixed := by
  funext f
  unfold refersToMixed
  cases f.annotations.oneOfName with
  | none => rfl
  | some name =>
    dsimp only
    unfold union?
    rw [get?_annotateUnions, Option.filter_map, Option.any_map]
    rfl

/-- Marking a model depends on which fields refer to unions that count. -/
theorem markModel_congr {s u : ModelSet} (h : s.refersToMixed = u.refersToMixed) :
    s.markModel = u.markModel := by
  have htarget : s.markTarget = u.markTarget := by
    funext f
    unfold markTarget
    rw [h]
  have hfield : s.markField = u.markField := by
    funext f
    unfold markField
    rw [htarget]
  funext m
  unfold markModel
  rw [hfield]

theorem markModel_annotateUnions : s.annotateUnions.markModel = s.markModel :=
  markModel_congr s.refersToMixed_annotateUnions

theorem markTarget_eq (f : Field) :
    ∃ annotations, s.markTarget f = { f with annotations } := by
  unfold markTarget
  split
  · exact ⟨_, rfl⟩
  · cases f
    exact ⟨_, rfl⟩

/-- Marking a field changes its annotations or those of its items. -/
theorem markField_eq (f : Field) :
    ∃ annotations items, s.markField f = { f with annotations, items } ∧
      (items = f.items ∨ items = f.items.map s.markTarget) := by
  unfold markField
  split
  · cases f
    exact ⟨_, _, rfl, .inr rfl⟩
  · obtain ⟨annotations, heq⟩ := s.markTarget_eq f
    exact ⟨annotations, f.items, heq, .inl rfl⟩

theorem markTarget_markTarget (f : Field) : s.markTarget (s.markTarget f) = s.markTarget f := by
  unfold markTarget
  by_cases h : s.refersToMixed f = true
  · rw [if_pos h]
    split <;> rfl
  · rw [if_neg h, if_neg h]

theorem markField_markField (f : Field) : s.markField (s.markField f) = s.markField f := by
  unfold markField
  by_cases h : f.isArray = true
  · rw [if_pos h, if_pos h, Option.map_map]
    congr 1
    refine Option.map_congr fun g _ => ?_
    exact s.markTarget_markTarget g
  · obtain ⟨annotations, heq⟩ := s.markTarget_eq f
    have hmark : ¬ (s.markTarget f).isArray = true := by
      rwa [heq]
    rw [if_neg h, if_neg hmark]
    exact s.markTarget_markTarget f

theorem markModel_markModel (m : Model) : s.markModel (s.markModel m) = s.markModel m := by
  unfold markModel
  rw [List.map_map]
  congr 1
  refine List.map_congr_left fun f _ => ?_
  exact s.markField_markField f

/-- Marking is idempotent. -/
theorem annotateUnions_annotateUnions : s.annotateUnions.annotateUnions = s.annotateUnions := by
  refine Keyed.ext_get? fun c => ?_
  rw [get?_annotateUnions s.annotateUnions, markModel_annotateUnions, get?_annotateUnions,
    Option.map_map]
  congr 1
  funext m
  exact s.markModel_markModel m

end ModelSet

namespace ModelSet

/-- All that is reported on marking is references to unions that are not in the set. -/
theorem exists_of_mem_annotationEvents {s : ModelSet} {e : Event} (h : e ∈ s.annotationEvents) :
    ∃ field union, e = .unknownUnion field union := by
  obtain ⟨m, -, he⟩ := List.mem_flatMap.1 h
  obtain ⟨f, -, he⟩ := List.mem_flatMap.1 he
  unfold unionEvents at he
  split at he
  · cases he
  · split at he
    · cases he
    · split at he
      · cases he
      · exact ⟨_, _, List.mem_singleton.1 he⟩

end ModelSet

/-! ## Settled models -/

variable {nameExtensions : List String} {r : Registry} {modelOf : ModelOrigin → Model}

namespace Model.Settled

variable {m m' : Model}

theorem className_eq (h : m.Settled nameExtensions r modelOf m') : m'.className = m.className := by
  cases h <;> rfl

theorem origin_eq (h : m.Settled nameExtensions r modelOf m') : m'.origin = m.origin := by
  cases h <;> rfl

theorem rightUnique : Relator.RightUnique (Settled nameExtensions r modelOf) := by
  intro m x y hx hy
  cases hx with
  | members henum hx =>
    cases hy with
    | members _ hy => rw [hx.unique hy]
    | fields henum' =>
      rw [henum'] at henum
      cases henum
  | fields henum =>
    cases hy with
    | members henum' _ =>
      rw [henum'] at henum
      cases henum
    | fields _ => rfl

end Model.Settled

theorem Model.Settled.map_className {models models' : List Model}
    (h : List.Forall₂ (Model.Settled nameExtensions r modelOf) models models') :
    models'.map Model.className = models.map Model.className :=
  map_eq_map_of_forall₂ h fun _ _ hm => hm.className_eq

/-! ## Merging -/

namespace ModelSet

theorem composed_merge (s : ModelSet) (lifted : List Model) :
    (merge s lifted).Composed fun e => e.isDeclaredModelReplaced = true := by
  induction lifted generalizing s with
  | nil => exact .pure s
  | cons e lifted ih =>
    rw [merge_cons]
    exact .bind (.reportIf _ rfl rfl) fun _ => ih _

theorem memoizing_merge (s : ModelSet) (lifted : List Model) : (merge s lifted).Memoizing :=
  (composed_merge s lifted).memoizing

theorem recalls_merge_iff {s t : ModelSet} {lifted : List Model} :
    (merge s lifted).Recalls r t ↔ s.insertAll lifted = t := by
  induction lifted generalizing s with
  | nil => exact recalls_pure_iff
  | cons e lifted ih =>
    rw [Keyed.insertAll_cons, ← ih, merge_cons]
    exact recalls_bind_unit_iff (memoizing_reportIf _ _) (memoizing_merge _ _) recalls_reportIf

/-- What a set of models becomes before its fields are marked: the models of its inline
enumerations, and for the class names that are left its own models. -/
structure LiftedInto (nameExtensions : List String) (r : Registry) (modelOf : ModelOrigin → Model)
    (s u : ModelSet) : Prop where
  inTurn : InTurn nameExtensions r modelOf s.inlineEnums
  settles : ∀ m ∈ s.toList, ∃ m', m.Settled nameExtensions r modelOf m'
  get?_eq_some_iff : ∀ c x, u.get? c = some x ↔
    x ∈ InlineEnum.models modelOf s.inlineEnums ∧ x.className = c ∨
      c ∉ InlineEnum.classNames modelOf s.inlineEnums ∧
        ∃ m, s.get? c = some m ∧ m.Settled nameExtensions r modelOf x

theorem liftedInto_insertAll {s : ModelSet} {models : List Model}
    (hturn : InTurn nameExtensions r modelOf s.inlineEnums)
    (hmodels : List.Forall₂ (Model.Settled nameExtensions r modelOf) s.toList models) :
    s.LiftedInto nameExtensions r modelOf ((Keyed.ofList models : ModelSet).insertAll
      (Keyed.ofList (InlineEnum.models modelOf s.inlineEnums) : ModelSet).toList) where
  inTurn := hturn
  settles := fun m hm => by
    obtain ⟨n, hn⟩ := List.getElem_of_mem hm
    obtain ⟨hlt, rfl⟩ := hn
    have hlt' : n < models.length := by rwa [← hmodels.length_eq]
    exact ⟨models[n], hmodels.get hlt hlt'⟩
  get?_eq_some_iff := fun c x => by
    have hlifted : ∀ e, e ∈ (Keyed.ofList (InlineEnum.models modelOf s.inlineEnums) :
        ModelSet).toList ↔ e ∈ InlineEnum.models modelOf s.inlineEnums :=
      fun e => Keyed.mem_toList_ofList hturn.nodup_classNames
    have hclasses : ∀ c, c ∈ (Keyed.ofList (InlineEnum.models modelOf s.inlineEnums) :
        ModelSet).toList.map Model.className ↔
          c ∈ InlineEnum.classNames modelOf s.inlineEnums := by
      intro c
      simp only [InlineEnum.classNames, List.mem_map, hlifted]
    have hnodup : (models.map Model.className).Nodup := by
      rw [Model.Settled.map_className hmodels]
      exact s.nodup_keys
    have hown : (Keyed.ofList models : ModelSet).get? c = some x ↔
        ∃ m, s.get? c = some m ∧ m.Settled nameExtensions r modelOf x := by
      rw [Keyed.get?_eq_some_iff, Keyed.mem_toList_ofList hnodup,
        mem_forall₂_iff Model.Settled.rightUnique hmodels]
      simp only [Keyed.get?_eq_some_iff]
      constructor
      · rintro ⟨⟨m, hm, hsettled⟩, rfl⟩
        exact ⟨m, ⟨hm, hsettled.className_eq.symm⟩, hsettled⟩
      · rintro ⟨m, ⟨hm, rfl⟩, hsettled⟩
        exact ⟨⟨m, hm, hsettled⟩, hsettled.className_eq⟩
    rw [Keyed.get?_insertAll_eq_some_iff (Keyed.nodup_keys _), hlifted, hclasses, hown]

namespace LiftedInto

variable {s u : ModelSet}

theorem unique {u' : ModelSet} (h : s.LiftedInto nameExtensions r modelOf u)
    (h' : s.LiftedInto nameExtensions r modelOf u') : u = u' := by
  refine Keyed.ext_get? fun c => Option.ext fun x => ?_
  rw [h.get?_eq_some_iff, h'.get?_eq_some_iff]

/-- The model of an enumeration is nothing but its literals, and marking leaves it alone. -/
theorem exists_members (h : s.LiftedInto nameExtensions r modelOf u) {i : InlineEnum}
    (hi : i ∈ s.inlineEnums) :
    ∃ members, (AllowableValue.build nameExtensions i.source.enumValues
        i.source.extensions).Recalls r members ∧
      modelOf i.origin = i.model (modelOf i.origin).className members := by
  obtain ⟨_, hgets⟩ := h.inTurn.gets hi
  exact hgets.contents

/-- Every lifted model is in the outcome. -/
theorem get?_lifted (h : s.LiftedInto nameExtensions r modelOf u) {i : InlineEnum}
    (hi : i ∈ s.inlineEnums) :
    u.annotateUnions.get? (modelOf i.origin).className = some (modelOf i.origin) := by
  have hmem : modelOf i.origin ∈ InlineEnum.models modelOf s.inlineEnums :=
    List.mem_map_of_mem (f := modelOf ∘ InlineEnum.origin) hi
  obtain ⟨members, -, heq⟩ := h.exists_members hi
  rw [get?_annotateUnions, (h.get?_eq_some_iff _ _).2 (.inl ⟨hmem, rfl⟩), Option.map_some, heq]
  rfl

/-- What is in the outcome is the model of an enumeration, or a model of the set, settled and
marked. -/
theorem get?_eq_some (h : s.LiftedInto nameExtensions r modelOf u) {c : String} {x : Model}
    (hx : u.annotateUnions.get? c = some x) :
    (∃ i ∈ s.inlineEnums, modelOf i.origin = x) ∨
      c ∉ InlineEnum.classNames modelOf s.inlineEnums ∧ ∃ m m', s.get? c = some m ∧
        m.Settled nameExtensions r modelOf m' ∧ u.markModel m' = x := by
  rw [get?_annotateUnions] at hx
  obtain ⟨m', hm', rfl⟩ := Option.map_eq_some_iff.1 hx
  rcases (h.get?_eq_some_iff _ _).1 hm' with ⟨hmem, rfl⟩ | ⟨hfree, m, hm, hsettled⟩
  · obtain ⟨i, hi, heq⟩ := List.mem_map.1 hmem
    have heq : modelOf i.origin = m' := heq
    have hlifted := h.get?_lifted hi
    rw [get?_annotateUnions, heq, hm', Option.map_some, Option.some.injEq] at hlifted
    exact .inl ⟨i, hi, heq.trans hlifted.symm⟩
  · exact .inr ⟨hfree, m, m', hm, hsettled, rfl⟩

theorem exists_of_origin (h : s.LiftedInto nameExtensions r modelOf u)
    (hsource : ∀ m ∈ s.toList, m.origin = .source) {e : Model}
    (he : e ∈ u.annotateUnions.toList) {owner field : String}
    (horigin : e.origin = .liftedEnum owner field) :
    ∃ i ∈ s.inlineEnums, modelOf i.origin = e ∧ i.owner = owner := by
  rcases h.get?_eq_some (Keyed.mem_toList_iff.1 he) with
    ⟨i, hi, rfl⟩ | ⟨-, m, m', hm, hsettled, rfl⟩
  · obtain ⟨members, -, heq⟩ := h.exists_members hi
    rw [heq] at horigin
    exact ⟨i, hi, rfl, (ModelOrigin.liftedEnum.inj horigin).1⟩
  · have hsource' : m'.origin = .source :=
      hsettled.origin_eq.trans (hsource m (Keyed.get?_eq_some_iff.1 hm).1)
    have hlifted : m'.origin = .liftedEnum owner field := horigin
    rw [hsource'] at hlifted
    cases hlifted

theorem mem_lifted (h : s.LiftedInto nameExtensions r modelOf u) {i : InlineEnum}
    (hi : i ∈ s.inlineEnums) : modelOf i.origin ∈ u.annotateUnions.toList :=
  (Keyed.get?_eq_some_iff.1 (h.get?_lifted hi)).1

theorem origin_lifted (h : s.LiftedInto nameExtensions r modelOf u) {i : InlineEnum}
    (hi : i ∈ s.inlineEnums) : (modelOf i.origin).origin = i.origin := by
  obtain ⟨_, hgets⟩ := h.inTurn.gets hi
  exact hgets.origin_eq

/-- In an outcome a lifted model is found again by its origin. -/
theorem eq_modelOf_of_origin (h : s.LiftedInto nameExtensions r modelOf u)
    (hsource : ∀ m ∈ s.toList, m.origin = .source) {e : Model}
    (he : e ∈ u.annotateUnions.toList) {i : InlineEnum} (horigin : e.origin = i.origin) :
    e = modelOf i.origin := by
  obtain ⟨j, hj, rfl, -⟩ := h.exists_of_origin hsource he horigin
  rw [h.origin_lifted hj] at horigin
  rw [horigin]

end LiftedInto

/-! ## Normalization -/

theorem composed_normalize (nameExtensions : List String) (s : ModelSet) :
    (normalize nameExtensions s).Composed (fun e => e.isNormalizing = true) PastNumbers := by
  have hlifting : ∀ e : Event, e.isLifting = true → e.isNormalizing = true := by
    intro e he
    cases e <;> first | rfl | exact he
  have hreplaced : ∀ e : Event, e.isDeclaredModelReplaced = true → e.isNormalizing = true := by
    intro e he
    cases e <;> first | rfl | cases he
  unfold normalize
  refine .bind ((Model.composed_normalizeAll _ _ _).mono hlifting) fun (models, lifted) => ?_
  refine .bind ((composed_merge _ _).within.mono hreplaced) fun merged => ?_
  refine .bind (.reportAll fun e he => ?_) fun _ => ?_
  · obtain ⟨field, union, rfl⟩ := exists_of_mem_annotationEvents he
    exact ⟨rfl, rfl⟩
  · exact .bind (.report rfl rfl) fun _ => .pure _

theorem memoizing_normalize (nameExtensions : List String) (s : ModelSet) :
    (normalize nameExtensions s).Memoizing :=
  (composed_normalize nameExtensions s).memoizing

/-- What normalization does one after the other. -/
theorem normalize_eq_ok {s t : ModelSet} {σ τ : Session}
    (h : normalize nameExtensions s σ = .ok t τ) :
    ∃ models lifted σ₁ merged σ₂,
      Model.normalizeAll nameExtensions ∅ s.toList σ = .ok (models, lifted) σ₁ ∧
        merge (Keyed.ofList models) lifted.toList σ₁ = .ok merged σ₂ ∧
          merged = (Keyed.ofList models : ModelSet).insertAll lifted.toList ∧
            t = merged.annotateUnions ∧ τ.log.toList = σ₂.log.toList ++ merged.annotationEvents ++
              [.modelsNormalized t.size lifted.size] := by
  obtain ⟨⟨models, lifted⟩, σ₁, hpass, h⟩ := bind_eq_ok_iff.1 h
  obtain ⟨merged, σ₂, hmerge, h⟩ := bind_eq_ok_iff.1 h
  obtain ⟨_, σ₃, hmarks, h⟩ := bind_eq_ok_iff.1 h
  obtain ⟨_, σ₄, hreport, h⟩ := bind_eq_ok_iff.1 h
  obtain ⟨rfl, rfl⟩ := pure_eq_ok_iff.1 h
  cases hmarks
  cases hreport
  obtain ⟨-, hrecalls⟩ := memoizing_merge _ _ _ _ _ hmerge
  have hmerged := recalls_merge_iff.1 (hrecalls σ₂.registry (le_refl σ₂.registry))
  exact ⟨models, lifted, σ₁, merged, σ₂, hpass, hmerge, hmerged.symm, rfl, by simp⟩

theorem recalls_normalize_iff_exists {s t : ModelSet} :
    (normalize nameExtensions s).Recalls r t ↔
      ∃ models lifted, (Model.normalizeAll nameExtensions ∅ s.toList).Recalls r (models, lifted) ∧
        annotateUnions ((Keyed.ofList models : ModelSet).insertAll lifted.toList) = t := by
  have hreports (merged : ModelSet) (n : Nat) : (do
      reportAll merged.annotationEvents
      let result := merged.annotateUnions
      report (.modelsNormalized result.size n)
      return result).Memoizing :=
    (memoizing_reportAll _).bind fun _ => (memoizing_report _).bind fun _ => memoizing_pure _
  unfold normalize
  rw [recalls_bind_iff (Model.memoizing_normalizeAll _ _ _) fun (models, lifted) =>
    (memoizing_merge _ _).bind fun merged => hreports merged _, Prod.exists]
  refine exists_congr fun models => exists_congr fun lifted => and_congr_right fun _ => ?_
  dsimp only
  rw [recalls_bind_iff (memoizing_merge _ _) fun merged => hreports merged _]
  simp only [recalls_merge_iff, exists_eq_left']
  rw [recalls_bind_unit_iff (memoizing_reportAll _)
    ((memoizing_report _).bind fun _ => memoizing_pure _) recalls_reportAll]
  exact (recalls_bind_unit_iff (f := fun _ => pure _) (memoizing_report _) (memoizing_pure _)
    recalls_report).trans recalls_pure_iff

/-- When no two fields of a model have the same declared name, a pass lets the enumerations take
turns and collects the models that they get. -/
theorem exists_modelOf {s lifted : ModelSet} {models : List Model} (hs : s.DistinctFields)
    (h : (Model.normalizeAll nameExtensions ∅ s.toList).Recalls r (models, lifted)) :
    ∃ modelOf, InTurn nameExtensions r modelOf s.inlineEnums ∧
      lifted = Keyed.ofList (InlineEnum.models modelOf s.inlineEnums) ∧
        List.Forall₂ (Model.Settled nameExtensions r modelOf) s.toList models := by
  obtain ⟨es, horigins, rfl, hlifts⟩ := Model.liftsBetween_of_recalls_normalizeAll h
  -- the function looks an origin up among the models that have been lifted
  let modelOf (o : ModelOrigin) : Model := (es.find? fun e => e.origin = o).getD default
  have hmodelOf : ∀ e ∈ es, modelOf e.origin = e := by
    intro e he
    have hdistinct : (es.map Model.origin).Nodup := by
      rw [horigins]
      exact nodup_origins hs
    have hfind : es.find? (fun e' => e'.origin = e.origin) = some e :=
      (find?_key_eq_some_iff hdistinct).2 ⟨he, rfl⟩
    simp only [modelOf, hfind, Option.getD_some]
  obtain ⟨hto, hmodels⟩ := hlifts modelOf hmodelOf
  have hes : es = InlineEnum.models modelOf s.inlineEnums := by
    unfold InlineEnum.models inlineEnums
    rw [← List.map_map, ← horigins, List.map_map]
    exact ((List.map_congr_left hmodelOf).trans (List.map_id es)).symm
  refine ⟨modelOf, (liftsTo_empty_iff (nodup_origins hs)).1 hto, ?_, hmodels⟩
  rw [← hes]
  rfl

/-- Over a registry that knows all names, normalization makes a set into which the enumerations
have been lifted, and marks its fields. -/
theorem recalls_normalize_iff {s t : ModelSet} (hs : s.DistinctFields) :
    (normalize nameExtensions s).Recalls r t ↔
      ∃ modelOf u, s.LiftedInto nameExtensions r modelOf u ∧ u.annotateUnions = t := by
  rw [recalls_normalize_iff_exists]
  constructor
  · rintro ⟨models, lifted, hpass, rfl⟩
    obtain ⟨modelOf, hturn, rfl, hmodels⟩ := exists_modelOf hs hpass
    exact ⟨modelOf, _, liftedInto_insertAll hturn hmodels, rfl⟩
  · rintro ⟨modelOf, u, h, rfl⟩
    obtain ⟨models, hmodels⟩ := exists_forall₂ h.settles
    have hpass := Model.recalls_normalizeAll_of_liftsTo
      ((liftsTo_empty_iff (nodup_origins hs)).2 h.inTurn) hmodels
    refine ⟨models, _, hpass, ?_⟩
    exact congrArg annotateUnions ((liftedInto_insertAll h.inTurn hmodels).unique h)

end ModelSet

end ApiGraph

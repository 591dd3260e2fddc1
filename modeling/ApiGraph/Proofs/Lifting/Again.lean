import ApiGraph.Proofs.Lifting.Faithful

/-!
# Outcomes as inputs

What a second normalization meets: the models of a first outcome, whose fields refer to
lifted models but still count as enumerations. `i.again` is what it finds in the place
of the inline enumeration `i`, which is the field itself in any case, also where the
literals were in the items.

Main statements: the inline enumerations of an outcome are those of the models that are
kept, in the same order, and every model of an outcome is settled already, so all that a
second pass can change is the models of enumerations.
-/

namespace ApiGraph

open Identifier Naming

/-! ## Fields -/

section Fields

variable {modelOf : ModelOrigin → Model}

theorem Field.enumSource?_refer (u : ModelSet) (f : Field) (className : String) :
    (f.refer u className).enumSource? = some (f.refer u className) := by
  obtain ⟨annotations, items, heq⟩ := f.refer_eq u className
  rw [heq]
  rfl

/-- Referring once more to the same class changes nothing. -/
theorem Field.referTo_refer (u : ModelSet) (f : Field) (className : String) :
    (f.refer u className).referTo className = f.refer u className := by
  let referItem (g : Field) : Field :=
    if g.isEnum then { g with typeRef := .model className, isPrimitive := false } else g
  have hitem : ∀ g, referItem (referItem g) = referItem g := by
    intro g
    simp only [referItem]
    split <;> simp_all
  have hmark : ∀ g, referItem (u.markTarget (referItem g)) = u.markTarget (referItem g) := by
    intro g
    obtain ⟨annotations, heq⟩ := u.markTarget_eq (referItem g)
    rw [heq]
    simp only [referItem]
    split <;> simp_all
  obtain ⟨annotations, items, heq, hitems⟩ := u.markField_eq (f.referTo className)
  have hmap : items.map referItem = items := by
    have hfirst : (f.referTo className).items = f.items.map referItem := rfl
    rcases hitems with rfl | rfl
    · rw [hfirst, Option.map_map]
      exact Option.map_congr fun g _ => hitem g
    · rw [hfirst]
      simp only [Option.map_map]
      exact Option.map_congr fun g _ => hmark g
  unfold refer
  rw [heq]
  conv_rhs => rw [← hmap]
  rfl

theorem ModelSet.enumSource?_markField {u : ModelSet} {f : Field} (h : f.enumSource? = none) :
    (u.markField f).enumSource? = none := by
  obtain ⟨annotations, items, heq, hitems⟩ := u.markField_eq f
  have hisEnum : items.map Field.isEnum = f.items.map Field.isEnum := by
    rcases hitems with rfl | rfl
    · rfl
    · rw [Option.map_map]
      refine Option.map_congr fun g _ => ?_
      obtain ⟨annotations, heq⟩ := u.markTarget_eq g
      rw [Function.comp_apply, heq]
  rw [heq]
  rw [← Option.not_isSome_iff_eq_none, Option.isSome_iff_exists] at h ⊢
  rintro ⟨source, hsource⟩
  refine h ?_
  rcases Field.enumSource?_eq_some_iff.1 hsource with henum | ⟨henum, harray, hg, hgenum⟩
  · exact ⟨f, Field.enumSource?_eq_some_iff.2 (.itself henum)⟩
  · change items = some source at hg
    rw [hg, Option.map_some, hgenum] at hisEnum
    obtain ⟨g, hg, hgenum⟩ := Option.map_eq_some_iff.1 hisEnum.symm
    exact ⟨g, Field.enumSource?_eq_some_iff.2 (.items henum harray hg hgenum)⟩

end Fields

/-! ## Models -/

/-- The enumeration that a second pass finds in the place of a first one. -/
def InlineEnum.again (u : ModelSet) (modelOf : ModelOrigin → Model) (i : InlineEnum) : InlineEnum :=
  let f := i.field.refer u (modelOf i.origin).className
  ⟨i.owner, f, f⟩

section Models

variable {u : ModelSet} {modelOf : ModelOrigin → Model}

theorem InlineEnum.origin_again (i : InlineEnum) : (i.again u modelOf).origin = i.origin := by
  obtain ⟨annotations, items, heq⟩ := i.field.refer_eq u (modelOf i.origin).className
  unfold again origin at *
  rw [heq]

theorem Field.inlineEnum?_refer (owner : String) (f : Field) :
    (u.markField (f.settle modelOf owner)).inlineEnum? owner =
      (f.inlineEnum? owner).map (InlineEnum.again u modelOf) := by
  unfold inlineEnum? settle
  cases hsource : f.enumSource? with
  | none =>
    dsimp only
    rw [ModelSet.enumSource?_markField hsource]
    rfl
  | some source =>
    dsimp only
    rw [← refer, enumSource?_refer]
    rfl

theorem Model.inlineEnums_refer (m : Model) (henum : m.isEnum = false) :
    (m.refer u modelOf).inlineEnums = m.inlineEnums.map (InlineEnum.again u modelOf) := by
  have hneg : ¬ m.isEnum = true := by simp [henum]
  have hneg' : ¬ (m.refer u modelOf).isEnum = true := hneg
  unfold inlineEnums
  rw [if_neg hneg, if_neg hneg', List.map_filterMap]
  change ((m.fields.map _).map _).filterMap _ = _
  rw [List.map_map, List.filterMap_map]
  exact List.filterMap_congr fun f _ => Field.inlineEnum?_refer m.className f

theorem Model.map_baseName_refer (u : ModelSet) (modelOf : ModelOrigin → Model) (m : Model) :
    (m.refer u modelOf).fields.map Field.baseName = m.fields.map Field.baseName := by
  change ((m.fields.map _).map _).map _ = _
  rw [List.map_map, List.map_map]
  refine List.map_congr_left fun f _ => ?_
  obtain ⟨annotations, items, heq, -⟩ := u.markField_eq (f.settle modelOf m.className)
  rw [Function.comp_apply, Function.comp_apply, heq]
  change (f.settle modelOf m.className).baseName = f.baseName
  unfold Field.settle
  split <;> rfl

/-- A field that has been settled and marked is settled. -/
theorem Field.settle_markField_settle (owner : String) (f : Field) :
    (u.markField (f.settle modelOf owner)).settle modelOf owner =
      u.markField (f.settle modelOf owner) := by
  cases hsource : f.enumSource? with
  | none =>
    have hsettle : f.settle modelOf owner = f := by
      unfold settle
      rw [hsource]
    rw [hsettle]
    unfold settle
    rw [ModelSet.enumSource?_markField hsource]
  | some source =>
    rw [markField_settle_of_declares (enumSource?_eq_some_iff.1 hsource)]
    obtain ⟨annotations, items, heq⟩ :=
      f.refer_eq u (modelOf (.liftedEnum owner f.baseName)).className
    have hname : (f.refer u (modelOf (.liftedEnum owner f.baseName)).className).baseName =
        f.baseName := by
      rw [heq]
    conv_lhs => unfold settle
    rw [enumSource?_refer, hname]
    exact f.referTo_refer u _

end Models

/-! ## The outcome as the next input -/

namespace ModelSet.LiftedInto

variable {nameExtensions : List String} {r : Registry} {modelOf : ModelOrigin → Model}
  {s u : ModelSet}

/-- The models of an outcome that are no enumerations are those that are kept. -/
theorem mem_outcome_iff (h : s.LiftedInto nameExtensions r modelOf u)
    (hsource : ∀ m ∈ s.toList, m.origin = .source) {x : Model} :
    x ∈ u.annotateUnions.toList ∧ x.isEnum = false ↔
      ∃ m ∈ s.toList, (m.isEnum = false ∧ u.annotateUnions.Keeps m.className) ∧
        m.refer u modelOf = x := by
  constructor
  · rintro ⟨hx, henum⟩
    rcases h.get?_eq_some (Keyed.mem_toList_iff.1 hx) with
      ⟨i, hi, rfl⟩ | ⟨-, m, m', hm, hsettled, rfl⟩
    · obtain ⟨members, -, heq⟩ := h.exists_members hi
      rw [heq] at henum
      cases henum
    · obtain ⟨hmem, hkey⟩ := Keyed.get?_eq_some_iff.1 hm
      have hkeeps : u.annotateUnions.Keeps m.className := by
        refine ⟨u.markModel m', ?_, hsettled.origin_eq.trans (hsource m hmem)⟩
        rw [← hsettled.className_eq]
        exact Keyed.mem_toList_iff.1 hx
      cases hsettled with
      | members henum' _ =>
        have henum : m.isEnum = false := henum
        rw [henum] at henum'
        cases henum'
      | fields henum' => exact ⟨m, hmem, ⟨henum', hkeeps⟩, rfl⟩
  · rintro ⟨m, hm, ⟨henum, x, hx, horigin⟩, rfl⟩
    rcases h.get?_className hm henum hx with ⟨-, hlifted⟩ | rfl
    · exact absurd horigin hlifted
    · exact ⟨(Keyed.get?_eq_some_iff.1 hx).1, henum⟩

theorem flatMap_inlineEnums_filter (keeps : String → Bool) (models : List Model) :
    (models.filter fun m => !m.isEnum && keeps m.className).flatMap Model.inlineEnums =
      (models.flatMap Model.inlineEnums).filter fun i => keeps i.owner := by
  induction models with
  | nil => rfl
  | cons m models ih =>
    have howner : ∀ i ∈ m.inlineEnums, i.owner = m.className :=
      fun i hi => (Model.mem_inlineEnums.1 hi).2.1
    rw [List.flatMap_cons, List.filter_append, ← ih, List.filter_cons]
    cases henum : m.isEnum with
    | true =>
      have hnil : m.inlineEnums = [] := if_pos henum
      simp [hnil]
    | false =>
      cases hkeeps : keeps m.className with
      | true =>
        have hall : m.inlineEnums.filter (fun i => keeps i.owner) = m.inlineEnums := by
          rw [List.filter_eq_self]
          intro i hi
          rw [howner i hi, hkeeps]
        simp [hall]
      | false =>
        have hnone : m.inlineEnums.filter (fun i => keeps i.owner) = [] := by
          rw [List.filter_eq_nil_iff]
          intro i hi
          rw [howner i hi, hkeeps]
          exact Bool.false_ne_true
        simp [hnone]

/-- The inline enumerations of an outcome are those of the kept models. -/
theorem inlineEnums_outcome (h : s.LiftedInto nameExtensions r modelOf u)
    (hsource : ∀ m ∈ s.toList, m.origin = .source) :
    u.annotateUnions.inlineEnums =
      (s.inlineEnums.filter fun i => u.annotateUnions.Keeps i.owner).map
        (InlineEnum.again u modelOf) := by
  let keeps (c : String) : Bool := u.annotateUnions.Keeps c
  have hmodels : u.annotateUnions.toList.filter (fun m => !m.isEnum && true) =
      (s.toList.filter fun m => !m.isEnum && keeps m.className).map (Model.refer u modelOf) := by
    -- both lists are in the order of the class names, which `refer` keeps
    refine Keyed.eq_of_sorted (u.annotateUnions.sorted.filter _) ?_ ?_
    · rw [List.pairwise_map]
      exact s.sorted.filter _
    · intro x
      rw [List.mem_filter, List.mem_map]
      simpa [keeps, and_assoc] using h.mem_outcome_iff hsource (x := x)
  calc u.annotateUnions.inlineEnums
      = (u.annotateUnions.toList.filter fun m => !m.isEnum && true).flatMap
          Model.inlineEnums := by
        rw [flatMap_inlineEnums_filter fun _ => true]
        simp [inlineEnums]
    _ = (s.toList.filter fun m => !m.isEnum && keeps m.className).flatMap
          fun m => m.inlineEnums.map (InlineEnum.again u modelOf) := by
        rw [hmodels, List.flatMap_map]
        refine List.flatMap_congr fun m hm => Model.inlineEnums_refer m ?_
        have hfilter := (List.mem_filter.1 hm).2
        simp only [Bool.and_eq_true, Bool.not_eq_true'] at hfilter
        exact hfilter.1
    _ = (s.inlineEnums.filter fun i => u.annotateUnions.Keeps i.owner).map
          (InlineEnum.again u modelOf) := by
        rw [← List.map_flatMap, flatMap_inlineEnums_filter]
        rfl

theorem distinctFields_outcome (h : s.LiftedInto nameExtensions r modelOf u)
    (hs : s.DistinctFields) : u.annotateUnions.DistinctFields := by
  intro x hx
  rcases h.get?_eq_some (Keyed.mem_toList_iff.1 hx) with
    ⟨i, hi, rfl⟩ | ⟨-, m, m', hm, hsettled, rfl⟩
  · obtain ⟨members, -, heq⟩ := h.exists_members hi
    rw [heq]
    exact List.nodup_nil
  · have hnodup := hs m (Keyed.get?_eq_some_iff.1 hm).1
    cases hsettled with
    | members _ _ =>
      have hnames : (u.markModel m).fields.map Field.baseName = m.fields.map Field.baseName := by
        change (m.fields.map _).map _ = _
        rw [List.map_map]
        refine List.map_congr_left fun f _ => ?_
        obtain ⟨annotations, items, heq, -⟩ := u.markField_eq f
        rw [Function.comp_apply, heq]
      exact hnames ▸ hnodup
    | fields _ => exact m.map_baseName_refer u modelOf ▸ hnodup

/-- Everything in an outcome is settled already. -/
theorem settled_outcome (h : s.LiftedInto nameExtensions r modelOf u) {x : Model}
    (hx : x ∈ u.annotateUnions.toList) : x.Settled nameExtensions r modelOf x := by
  rcases h.get?_eq_some (Keyed.mem_toList_iff.1 hx) with
    ⟨i, hi, rfl⟩ | ⟨-, m, m', hm, hsettled, rfl⟩
  · obtain ⟨members, hmembers, heq⟩ := h.exists_members hi
    rw [heq]
    exact .members (m := i.model (modelOf i.origin).className members) rfl hmembers
  · cases hsettled with
    | @members allowableValues henum hbuild =>
      exact .members (m := u.markModel { m with allowableValues }) henum hbuild
    | fields henum =>
      have hfields : (m.refer u modelOf).fields.map (Field.settle modelOf m.className) =
          (m.refer u modelOf).fields := by
        change ((m.fields.map _).map _).map _ = (m.fields.map _).map _
        simp only [List.map_map]
        exact List.map_congr_left fun f _ => Field.settle_markField_settle m.className f
      have hsettled : (m.refer u modelOf).Settled nameExtensions r modelOf
          { m.refer u modelOf with
            fields := (m.refer u modelOf).fields.map (Field.settle modelOf m.className) } :=
        .fields henum
      rwa [hfields] at hsettled

end ModelSet.LiftedInto

end ApiGraph

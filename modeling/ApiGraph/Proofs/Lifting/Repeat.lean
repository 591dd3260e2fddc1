import ApiGraph.Proofs.Lifting.Again

/-!
# Repeating a normalization

`s.Repeatable r t` says what it takes for `t`, the outcome of normalizing `s`, to be its own
outcome: no enumeration whose owner is kept had its literals in items, and every class
name that such an enumeration was refused is held by the model of another such
enumeration.

Main statement: in the same session a second normalization makes `t` again exactly when
this holds. Neither part holds in general. A field that had its literals in items seems
to declare them itself the second time, where there are none, and a name that an
enumeration was refused for the sake of a displaced owner is free the second time.
-/

namespace ApiGraph

open Identifier Naming

/-- What it takes for the outcome `t` of normalizing `s` to be its own outcome. -/
structure ModelSet.Repeatable (r : Registry) (s t : ModelSet) : Prop where
  ownLiterals : ∀ i ∈ s.inlineEnums, t.Keeps i.owner → i.field.isEnum = true
  heldNames : ∀ i ∈ s.inlineEnums, t.Keeps i.owner → ∀ e ∈ t.toList, e.origin = i.origin →
    ∀ a, (∀ b ≤ a, r.answer? (i.candidate b) ≠ some e.className) →
      ∃ e' ∈ t.toList, r.answer? (i.candidate a) = some e'.className ∧
        ∃ owner field, e'.origin = .liftedEnum owner field ∧ t.Keeps owner

/-! ## Enumerations in a second pass -/

namespace InlineEnum

theorem source_eq_field {s : ModelSet} {i : InlineEnum} (hi : i ∈ s.inlineEnums)
    (h : i.field.isEnum = true) : i.source = i.field := by
  obtain ⟨m, -, hi⟩ := ModelSet.mem_inlineEnums.1 hi
  have hsource := (Model.mem_inlineEnums.1 hi).2.2.2
  unfold Field.enumSource? at hsource
  rw [if_pos h, Option.some.injEq] at hsource
  exact hsource.symm

/-- An enumeration that holds its own literals asks for the same names again. -/
theorem candidate_again (u : ModelSet) (modelOf : ModelOrigin → Model) {i : InlineEnum}
    (h : i.source = i.field) (a : Nat) :
    (i.again u modelOf).candidate a = i.candidate a := by
  obtain ⟨annotations, items, heq⟩ := i.field.refer_eq u (modelOf i.origin).className
  unfold candidate again
  rw [h, heq]
  rfl

/-- The model of an enumeration that holds its own literals is made of the same parts again. -/
theorem model_again (u : ModelSet) (modelOf : ModelOrigin → Model) {i : InlineEnum}
    (h : i.source = i.field) :
    (i.again u modelOf).source.enumValues = i.source.enumValues ∧
      (i.again u modelOf).source.extensions = i.source.extensions ∧
        (i.again u modelOf).model = i.model := by
  obtain ⟨annotations, items, heq⟩ := i.field.refer_eq u (modelOf i.origin).className
  have hvalues : (i.again u modelOf).source.enumValues = i.source.enumValues := by
    change (i.field.refer u _).enumValues = _
    rw [heq, h]
  have hextensions : (i.again u modelOf).source.extensions = i.source.extensions := by
    change (i.field.refer u _).extensions = _
    rw [heq, h]
  refine ⟨hvalues, hextensions, ?_⟩
  funext className members
  unfold model
  rw [hvalues, hextensions, origin_again]

theorem mem_classNames_again {u : ModelSet} {modelOf : ModelOrigin → Model}
    {keeps : InlineEnum → Bool} {before : List InlineEnum} {c : String} :
    c ∈ classNames modelOf ((before.filter keeps).map (again u modelOf)) ↔
      ∃ j ∈ before, keeps j = true ∧ (modelOf j.origin).className = c := by
  unfold classNames models
  rw [List.map_map, List.map_map, List.mem_map]
  simp [List.mem_filter, origin_again, and_assoc]

end InlineEnum

theorem exists_split_of_map_filter {α β : Type} {p : α → Bool} {f : α → β} {l : List α}
    {before' after' : List β} {b : β} (h : (l.filter p).map f = before' ++ b :: after') :
    ∃ before a after, l = before ++ a :: after ∧ p a = true ∧ f a = b ∧
      (before.filter p).map f = before' := by
  obtain ⟨l₁, l₂, hl, rfl, h₂⟩ := List.map_eq_append_iff.1 h
  obtain ⟨a, after₂, rfl, rfl, -⟩ := List.map_eq_cons_iff.1 h₂
  obtain ⟨before, rest, rfl, rfl, hrest⟩ := List.filter_eq_append_iff.1 hl
  obtain ⟨skipped, after, rfl, hskipped, ha, -⟩ := List.filter_eq_cons_iff.1 hrest
  refine ⟨before ++ skipped, a, after, (List.append_assoc _ _ _).symm, ha, rfl, ?_⟩
  rw [List.filter_append, List.filter_eq_nil_iff.2 hskipped, List.append_nil]

/-! ## The two directions -/

namespace ModelSet.LiftedInto

variable {nameExtensions : List String} {r : Registry} {modelOf : ModelOrigin → Model}
  {s u : ModelSet}

/-- In a repeatable set a name that an enumeration was refused belongs to an earlier one that is
left too. -/
theorem exists_holder (h : s.LiftedInto nameExtensions r modelOf u)
    (hsource : ∀ m ∈ s.toList, m.origin = .source) (hrepeat : s.Repeatable r u.annotateUnions)
    {before after : List InlineEnum} {i : InlineEnum} (hs : s.inlineEnums = before ++ i :: after)
    (hkeeps : u.annotateUnions.Keeps i.owner) {a b : Nat}
    (hfree : i.IsFirstFree r (InlineEnum.classNames modelOf before) a
      (modelOf i.origin).className) (hb : b < a) :
    ∃ j ∈ before, u.annotateUnions.Keeps j.owner ∧
      r.answer? (i.candidate b) = some (modelOf j.origin).className := by
  have hi : i ∈ s.inlineEnums := by
    rw [hs]
    exact List.mem_append_right before List.mem_cons_self
  have hrefused : ∀ b' ≤ b, r.answer? (i.candidate b') ≠ some (modelOf i.origin).className := by
    intro b' hb' hgot
    obtain ⟨c, hc, hanswer⟩ := hfree.passed b' (by omega)
    rw [hgot, Option.some.injEq] at hanswer
    exact hfree.free (hanswer ▸ hc)
  obtain ⟨e, he, hholder, owner, field, horigin, howner⟩ := hrepeat.heldNames i hi hkeeps _
    (h.mem_lifted hi) (h.origin_lifted hi) b hrefused
  obtain ⟨j, hj, rfl, rfl⟩ := h.exists_of_origin hsource he horigin
  -- class names differ, so the holder is the one for whose sake the name was refused
  obtain ⟨c, hc, hanswer⟩ := hfree.passed b hb
  obtain ⟨e, he, rfl⟩ := List.mem_map.1 hc
  obtain ⟨k, hk, rfl⟩ := List.mem_map.1 he
  have hks : k ∈ s.inlineEnums := by
    rw [hs]
    exact List.mem_append_left _ hk
  have hjk : j = k :=
    h.inTurn.className_inj hj hks (Option.some.inj (hholder.symm.trans hanswer))
  subst hjk
  exact ⟨j, hk, howner, hholder⟩

/-- In a repeatable set every enumeration that is left gets its name again. -/
theorem inTurn_again (h : s.LiftedInto nameExtensions r modelOf u)
    (hsource : ∀ m ∈ s.toList, m.origin = .source) (hrepeat : s.Repeatable r u.annotateUnions) :
    InTurn nameExtensions r modelOf u.annotateUnions.inlineEnums := by
  intro before' i' after' hsplit
  rw [h.inlineEnums_outcome hsource] at hsplit
  obtain ⟨before, i, after, hs, hkeeps, rfl, rfl⟩ := exists_split_of_map_filter hsplit
  have hkeeps := of_decide_eq_true hkeeps
  have hi : i ∈ s.inlineEnums := by
    rw [hs]
    exact List.mem_append_right before List.mem_cons_self
  have hfield := InlineEnum.source_eq_field hi (hrepeat.ownLiterals i hi hkeeps)
  obtain ⟨hvalues, hextensions, hmodel⟩ := InlineEnum.model_again u modelOf hfield
  obtain ⟨⟨a, hlimit, hfree⟩, members, hmembers, heq⟩ := h.inTurn before i after hs
  rw [InlineEnum.origin_again]
  refine ⟨⟨a, hlimit, ?_, ?_, fun b hb => ?_⟩, members, ?_, ?_⟩
  · rw [InlineEnum.candidate_again u modelOf hfield]
    exact hfree.answer
  · rw [InlineEnum.mem_classNames_again]
    rintro ⟨j, hj, -, hclass⟩
    refine hfree.free ?_
    rw [← hclass]
    exact List.mem_map_of_mem (List.mem_map_of_mem (f := modelOf ∘ InlineEnum.origin) hj)
  · obtain ⟨j, hj, hjkeeps, hanswer⟩ := h.exists_holder hsource hrepeat hs hkeeps hfree hb
    refine ⟨_, InlineEnum.mem_classNames_again.2 ⟨j, hj, decide_eq_true hjkeeps, rfl⟩, ?_⟩
    rw [InlineEnum.candidate_again u modelOf hfield]
    exact hanswer
  · rw [hvalues, hextensions]
    exact hmembers
  · rw [hmodel]
    exact heq

/-- A repeatable outcome is an outcome of itself. -/
theorem liftedInto_again (h : s.LiftedInto nameExtensions r modelOf u)
    (hsource : ∀ m ∈ s.toList, m.origin = .source) (hrepeat : s.Repeatable r u.annotateUnions) :
    u.annotateUnions.LiftedInto nameExtensions r modelOf u.annotateUnions where
  inTurn := h.inTurn_again hsource hrepeat
  settles := fun x hx => ⟨x, h.settled_outcome hx⟩
  get?_eq_some_iff := fun c x => by
    have hmodels : ∀ e ∈ InlineEnum.models modelOf u.annotateUnions.inlineEnums,
        u.annotateUnions.get? e.className = some e := by
      intro e he
      rw [h.inlineEnums_outcome hsource] at he
      obtain ⟨i', hi', rfl⟩ := List.mem_map.1 he
      obtain ⟨i, hi, rfl⟩ := List.mem_map.1 hi'
      rw [Function.comp_apply, InlineEnum.origin_again]
      exact h.get?_lifted (List.mem_of_mem_filter hi)
    constructor
    · intro hx
      by_cases hc : c ∈ InlineEnum.classNames modelOf u.annotateUnions.inlineEnums
      · obtain ⟨e, he, rfl⟩ := List.mem_map.1 hc
        rw [hmodels e he, Option.some.injEq] at hx
        subst hx
        exact .inl ⟨he, rfl⟩
      · exact .inr ⟨hc, x, hx, h.settled_outcome (Keyed.get?_eq_some_iff.1 hx).1⟩
    · rintro (⟨hx, rfl⟩ | ⟨-, m, hm, hsettled⟩)
      · exact hmodels x hx
      · have hself := h.settled_outcome (Keyed.get?_eq_some_iff.1 hm).1
        rw [Model.Settled.rightUnique hsettled hself]
        exact hm

/-- When an outcome is its own outcome, every enumeration that is left has the same model twice. -/
theorem modelOf_again (h : s.LiftedInto nameExtensions r modelOf u)
    (hsource : ∀ m ∈ s.toList, m.origin = .source) {modelOf' : ModelOrigin → Model} {u' : ModelSet}
    (h' : u.annotateUnions.LiftedInto nameExtensions r modelOf' u')
    (hsame : u'.annotateUnions = u.annotateUnions) {i : InlineEnum} (hi : i ∈ s.inlineEnums)
    (hkeeps : u.annotateUnions.Keeps i.owner) :
    i.again u modelOf ∈ u.annotateUnions.inlineEnums ∧ modelOf' i.origin = modelOf i.origin := by
  have hagain : i.again u modelOf ∈ u.annotateUnions.inlineEnums := by
    rw [h.inlineEnums_outcome hsource]
    exact List.mem_map_of_mem (List.mem_filter.2 ⟨hi, decide_eq_true hkeeps⟩)
  refine ⟨hagain, ?_⟩
  obtain ⟨m, n, hf, howner⟩ := exists_declaresAt hi
  obtain ⟨x, hx, horigin⟩ := hkeeps
  rw [howner] at hx
  have hxfield := h.field_eq hf hx (.inr horigin)
  obtain ⟨hxmem, hxclass⟩ := Keyed.get?_eq_some_iff.1 hx
  have hxenum : x.isEnum = false := by
    rcases h.get?_className hf.mem hf.isEnum hx with ⟨-, hlifted⟩ | rfl
    · exact absurd horigin hlifted
    · exact hf.isEnum
  -- the second pass sees a field that declares an enumeration itself, by the same name
  obtain ⟨annotations, items, heq⟩ :=
    i.field.refer_eq u (modelOf (.liftedEnum m.className i.field.baseName)).className
  have hdeclares : u.annotateUnions.DeclaresAt x n _ _ :=
    ⟨hxmem, hxenum, hxfield, .itself (by rw [heq])⟩
  have hxfield' := h'.field_eq hdeclares (by rw [hsame, hxclass]; exact hx) (.inr horigin)
  rw [hxfield, Option.some.injEq] at hxfield'
  have horigin' : i.origin = .liftedEnum m.className i.field.baseName := by
    rw [← howner]
    rfl
  -- the field is the same after both passes, and its type is the class name of the model
  have hclass : (modelOf' i.origin).className = (modelOf i.origin).className := by
    have htypes := congrArg Field.typeRef hxfield'
    obtain ⟨annotations', items', heq'⟩ := Field.refer_eq u'
      (i.field.refer u (modelOf (.liftedEnum m.className i.field.baseName)).className)
      (modelOf' (.liftedEnum x.className
        (i.field.refer u (modelOf (.liftedEnum m.className i.field.baseName)).className).baseName)
        ).className
    rw [heq', heq] at htypes
    have hclasses := (TypeRef.model.inj htypes).symm
    rw [hxclass] at hclasses
    rw [horigin']
    exact hclasses
  have hlifted := h.get?_lifted hi
  have hlifted' := h'.get?_lifted hagain
  rw [InlineEnum.origin_again, hsame, hclass, hlifted, Option.some.injEq] at hlifted'
  exact hlifted'.symm

/-- When an outcome is its own outcome, no enumeration that is left had its literals in items. -/
theorem isEnum_of_again (h : s.LiftedInto nameExtensions r modelOf u)
    (hbuilt : ∀ m ∈ s.toList, m.Built) {modelOf' : ModelOrigin → Model} {u' : ModelSet}
    (h' : u.annotateUnions.LiftedInto nameExtensions r modelOf' u')
    (hsame : u'.annotateUnions = u.annotateUnions) {i : InlineEnum} (hi : i ∈ s.inlineEnums)
    (hkeeps : u.annotateUnions.Keeps i.owner) : i.field.isEnum = true := by
  obtain ⟨hagain, hmodel⟩ :=
    h.modelOf_again (fun m hm => (hbuilt m hm).origin) h' hsame hi hkeeps
  -- the literals of the model are those of the items the first time and of the field the second
  obtain ⟨members, -, heq⟩ := h.exists_members hi
  obtain ⟨members', -, heq'⟩ := h'.exists_members hagain
  rw [InlineEnum.origin_again, hmodel, heq] at heq'
  have hvalues : i.source.enumValues = i.field.enumValues := by
    obtain ⟨annotations, items, hrefer⟩ := i.field.refer_eq u (modelOf i.origin).className
    refine (congrArg Model.enumValues heq').trans ?_
    change (i.field.refer u _).enumValues = _
    rw [hrefer]
  obtain ⟨m, hm, him⟩ := ModelSet.mem_inlineEnums.1 hi
  obtain ⟨-, -, hfield, hdeclares⟩ := Model.mem_inlineEnums.1 him
  obtain ⟨hliterals, hitems⟩ := (hbuilt m hm).holdsLiterals i.field hfield
  rcases (Field.enumSource?_eq_some_iff.1 hdeclares).isEnum_or with henum | ⟨hg, hgenum⟩
  · exact henum
  · have hsourceLiterals := hitems _ hg
    unfold Field.HoldsLiterals at hliterals hsourceLiterals
    rw [hliterals, ← hvalues, ← hsourceLiterals, hgenum]

/-- Only a repeatable outcome is its own outcome. -/
theorem repeatable_of_again (h : s.LiftedInto nameExtensions r modelOf u)
    (hbuilt : ∀ m ∈ s.toList, m.Built) {modelOf' : ModelOrigin → Model} {u' : ModelSet}
    (h' : u.annotateUnions.LiftedInto nameExtensions r modelOf' u')
    (hsame : u'.annotateUnions = u.annotateUnions) : s.Repeatable r u.annotateUnions := by
  have hsource : ∀ m ∈ s.toList, m.origin = .source := fun m hm => (hbuilt m hm).origin
  have hown : ∀ i ∈ s.inlineEnums, u.annotateUnions.Keeps i.owner → i.field.isEnum = true :=
    fun i hi hkeeps => h.isEnum_of_again hbuilt h' hsame hi hkeeps
  refine ⟨hown, fun i hi hkeeps e he horigin a hrefused => ?_⟩
  have hfield := InlineEnum.source_eq_field hi (hown i hi hkeeps)
  have he := h.eq_modelOf_of_origin hsource he horigin
  subst he
  obtain ⟨hagain, hmodel⟩ := h.modelOf_again hsource h' hsame hi hkeeps
  obtain ⟨before', after', hsplit⟩ := List.append_of_mem hagain
  -- the second search for a name went past the refused ones too
  obtain ⟨⟨a', -, hfree⟩, -⟩ := h'.inTurn before' _ after' hsplit
  rw [InlineEnum.origin_again, hmodel] at hfree
  have hlt : a < a' := by
    by_contra hle
    refine hrefused a' (by omega) ?_
    rw [← InlineEnum.candidate_again u modelOf hfield]
    exact hfree.answer
  obtain ⟨c, hc, hanswer⟩ := hfree.passed a hlt
  rw [InlineEnum.candidate_again u modelOf hfield] at hanswer
  obtain ⟨e', he', rfl⟩ := List.mem_map.1 hc
  obtain ⟨j', hj', rfl⟩ := List.mem_map.1 he'
  have hj' : j' ∈ u.annotateUnions.inlineEnums := by
    rw [hsplit]
    exact List.mem_append_left _ hj'
  rw [h.inlineEnums_outcome hsource] at hj'
  obtain ⟨j, hj, rfl⟩ := List.mem_map.1 hj'
  obtain ⟨hj, hjkeeps⟩ := List.mem_filter.1 hj
  have hjkeeps := of_decide_eq_true hjkeeps
  obtain ⟨-, hjmodel⟩ := h.modelOf_again hsource h' hsame hj hjkeeps
  rw [Function.comp_apply, InlineEnum.origin_again, hjmodel] at hanswer
  exact ⟨modelOf j.origin, h.mem_lifted hj, hanswer, j.owner, j.field.baseName,
    h.origin_lifted hj, hjkeeps⟩

/-- The answers that a larger registry has in addition do not count. -/
theorem repeatable_of_le (h : s.LiftedInto nameExtensions r modelOf u)
    (hsource : ∀ m ∈ s.toList, m.origin = .source) {r' : Registry} (hle : r ≤ r')
    (hrepeat : s.Repeatable r' u.annotateUnions) : s.Repeatable r u.annotateUnions := by
  refine ⟨hrepeat.ownLiterals, fun i hi hkeeps e he horigin a hrefused => ?_⟩
  have he' := h.eq_modelOf_of_origin hsource he horigin
  subst he'
  obtain ⟨before, after, hsplit⟩ := List.append_of_mem hi
  obtain ⟨⟨a', -, hfree⟩, -⟩ := h.inTurn before i after hsplit
  have hlt : a < a' := by
    by_contra hge
    exact hrefused a' (by omega) hfree.answer
  -- what has been asked for before the name was found has an answer already
  have hknown : ∀ b ≤ a, ∃ c, r.answer? (i.candidate b) = some c := by
    intro b hb
    obtain ⟨c, -, hc⟩ := hfree.passed b (by omega)
    exact ⟨c, hc⟩
  obtain ⟨e', he', hanswer, howner⟩ := hrepeat.heldNames i hi hkeeps _ he horigin a fun b hb => by
    obtain ⟨c, hc⟩ := hknown b hb
    rw [Registry.answer?_mono hle hc, ← hc]
    exact hrefused b hb
  obtain ⟨c, hc⟩ := hknown a (le_refl a)
  rw [Registry.answer?_mono hle hc, ← hc] at hanswer
  exact ⟨e', he', hanswer, howner⟩

end ModelSet.LiftedInto

namespace ModelSet

/-- When the models of a document have been built and normalized in one session, normalizing them
once more in that session makes the same set exactly when the first outcome is repeatable. -/
theorem normalize_again_iff (config : Config) (d : Document) (hd : d.DistinctProperties)
    (s₀ s₁ s₂ : Session) (built out : ModelSet)
    (hbuild : build config.packageName d s₀ = .ok built s₁)
    (hnormalize : normalize config.enumNameExtensions built s₁ = .ok out s₂) :
    (∃ s₃, normalize config.enumNameExtensions out s₂ = .ok out s₃) ↔
      built.Repeatable s₂.registry out := by
  have hbuilt := yields_build_built config.packageName hd s₀ built s₁ hbuild
  have hfields : built.DistinctFields := fun m hm => (hbuilt m hm).distinctFields
  have hsource : ∀ m ∈ built.toList, m.origin = .source := fun m hm => (hbuilt m hm).origin
  obtain ⟨-, hfirst⟩ := memoizing_normalize _ _ _ _ _ hnormalize
  obtain ⟨modelOf, u, hlifted, hout⟩ :=
    (recalls_normalize_iff hfields).1 (hfirst s₂.registry (le_refl s₂.registry))
  constructor
  · rintro ⟨s₃, hagain⟩
    -- over the last registry both passes only recall names
    obtain ⟨hle, hsecond⟩ := memoizing_normalize _ _ _ _ _ hagain
    obtain ⟨modelOf₁, u₁, hlifted₁, rfl⟩ :=
      (recalls_normalize_iff hfields).1 (hfirst s₃.registry hle)
    obtain ⟨modelOf₂, u₂, hlifted₂, hsame⟩ :=
      (recalls_normalize_iff (hlifted₁.distinctFields_outcome hfields)).1
        (hsecond s₃.registry (le_refl s₃.registry))
    have hrepeat := hlifted₁.repeatable_of_again hbuilt hlifted₂ hsame
    rw [← hout] at hrepeat ⊢
    exact hlifted.repeatable_of_le hsource hle hrepeat
  · intro hrepeat
    subst hout
    refine Recalls.run ((recalls_normalize_iff (hlifted.distinctFields_outcome hfields)).2 ?_)
    exact ⟨modelOf, u.annotateUnions, hlifted.liftedInto_again hsource hrepeat,
      u.annotateUnions_annotateUnions⟩

theorem normalize_palettes_again_iff :
    ∃ built s₁ out s₂, build "OpenAPIClientPackage" palettes .start = .ok built s₁ ∧
      normalize ["x-enumNames"] built s₁ = .ok out s₂ ∧
        ((∃ s₃, normalize ["x-enumNames"] out s₂ = .ok out s₃) ↔
          built.Repeatable s₂.registry out) := by
  obtain ⟨out, s₂, hrun, -⟩ := (succeedsWith_iff (s := .start) (p := fun _ => true)
    (x := build "OpenAPIClientPackage" palettes >>= normalize ["x-enumNames"])).1
    (by decide +kernel)
  obtain ⟨built, s₁, hbuild, hnormalize⟩ := bind_eq_ok_iff.1 hrun
  refine ⟨built, s₁, out, s₂, hbuild, hnormalize, ?_⟩
  exact normalize_again_iff {} palettes
    (by decide +kernel) .start s₁ s₂ built out hbuild hnormalize

/-- Normalization is not idempotent: the enumeration of an array loses its literals. -/
theorem exists_normalize_again_ne :
    ∃ built s₁ out s₂ out' s₃, build "OpenAPIClientPackage" palettes .start = .ok built s₁ ∧
      normalize ["x-enumNames"] built s₁ = .ok out s₂ ∧
        normalize ["x-enumNames"] out s₂ = .ok out' s₃ ∧ out' ≠ out := by
  let literals (s : ModelSet) : Option Nat :=
    (s.get? "PaletteMainColorsEnum").map fun e => e.enumValues.length
  obtain ⟨⟨out, out'⟩, s₃, hrun, hliterals⟩ := (succeedsWith_iff (s := .start)
    (x := do
      let out ← build "OpenAPIClientPackage" palettes >>= normalize ["x-enumNames"]
      let out' ← normalize ["x-enumNames"] out
      return (out, out'))
    (p := fun (out, out') => literals out = some 1 && literals out' = some 0)).1
    (by decide +kernel)
  obtain ⟨_, s₂, hfirst, hrun⟩ := bind_eq_ok_iff.1 hrun
  obtain ⟨built, s₁, hbuild, hnormalize⟩ := bind_eq_ok_iff.1 hfirst
  obtain ⟨_, t, hagain, hrun⟩ := bind_eq_ok_iff.1 hrun
  obtain ⟨hpair, rfl⟩ := pure_eq_ok_iff.1 hrun
  obtain ⟨rfl, rfl⟩ := Prod.mk.inj hpair
  refine ⟨built, s₁, _, s₂, _, t, hbuild, hnormalize, hagain, ?_⟩
  intro hsame
  rw [hsame, Bool.and_eq_true, decide_eq_true_iff, decide_eq_true_iff] at hliterals
  exact absurd (hliterals.1.symm.trans hliterals.2) (by decide)

/-- A model that is displaced by a lifted one, and another that is refused a name for its sake. -/
def displaced : Document where
  schemas := .ofList
    [("Pet", { properties := [("status", { enumValues := [.string "a"] })] }),
     ("PetStatusEnum", { properties := [("aB", { enumValues := [.string "b"] })] }),
     ("PetStatusEnumA", { properties := [("b", { enumValues := [.string "c"] })] })]
  operations := []

/-- The second time the name that was refused is free, and another enumeration gets it. -/
example :
    succeedsWith (do
      let out ← build "OpenAPIClientPackage" displaced >>= normalize ["x-enumNames"]
      let out' ← normalize ["x-enumNames"] out
      return (out.get? "PetStatusEnumABEnum", out'.get? "PetStatusEnumABEnum")) .start
        (fun (e, e') => e.map Model.origin = some (.liftedEnum "PetStatusEnum" "aB") &&
          e'.map Model.origin = some (.liftedEnum "PetStatusEnumA" "b")) = true := by
  decide +kernel

end ModelSet

end ApiGraph

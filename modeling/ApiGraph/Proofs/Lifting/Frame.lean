import ApiGraph.Proofs.Lifting.Faithful

/-!
# What normalization leaves alone

Normalization rewrites a set of models three times: it names the members of enumerations, lifts
the inline enumerations of all other models, and marks the fields that refer to unions.
`m.Kept m'` says what all this may change in a model: the members if it is an enumeration, and
in each field no more than `Field.Kept` allows. That is the mark on the part of the field that
can refer to a union and, if the model is no enumeration but the field declares one, the reference
to the model of that.

Main statement: the outcome has the class names that there were and those of the lifted models;
a lifted model is in it as it was lifted, and every other model is kept. Nothing is asked of the
models, not even that their fields have different names.
-/

namespace ApiGraph

open Naming

/-! ## What may change -/

/-- The fields are the same, apart from the mark of a union with a scalar or an array. -/
def Field.Remarked (f f' : Field) : Prop :=
  ∃ oneOfPrimitives, f' = { f with annotations := { f.annotations with oneOfPrimitives } }

/-- The fields are the same, apart from that mark on the part that can refer to a union: the items
of an array, and else the field itself. -/
def Field.Marked (f f' : Field) : Prop :=
  if f.isArray then ∃ items, Option.Rel Remarked f.items items ∧ f' = { f with items }
  else f.Remarked f'

/-- Items that are flagged as an enumeration may have another type; others are the same. -/
inductive Field.RetypedItems (g : Field) : Field → Prop
  | same : RetypedItems g g
  | retyped (isEnum : g.isEnum = true) (typeRef : TypeRef) (isPrimitive : Bool) :
      RetypedItems g { g with typeRef, isPrimitive }

/-- The fields are the same, apart from their types and those of such items. -/
def Field.Retyped (f f' : Field) : Prop :=
  ∃ typeRef isPrimitive isEnum items, Option.Rel RetypedItems f.items items ∧
    f' = { f with typeRef, isPrimitive, isEnum, items }

/-- What lifting may make of a field: another type if it declares an enumeration, unless its model
is an enumeration itself. -/
inductive Field.LiftedTo (ofEnum : Bool) (f : Field) : Field → Prop
  | same : LiftedTo ofEnum f f
  | retyped {source f' : Field} (liftable : ofEnum = false) (declares : f.Declares source)
      (retyped : f.Retyped f') : LiftedTo ofEnum f f'

/-- What normalization may make of a field, by whether its model is an enumeration. -/
def Field.Kept (ofEnum : Bool) (f f' : Field) : Prop := ∃ g, f.LiftedTo ofEnum g ∧ g.Marked f'

/-- The models are the same, apart from the members of an enumeration and from fields that are in
the relation of their kind of models. -/
def Model.KeptUpTo (R : Bool → Field → Field → Prop) (m m' : Model) : Prop :=
  ∃ allowableValues fields, m' = { m with allowableValues, fields } ∧
    (m.isEnum = false → allowableValues = m.allowableValues) ∧
      List.Forall₂ (R m.isEnum) m.fields fields

def Model.Kept : Model → Model → Prop := KeptUpTo Field.Kept

/-- The set `t` is `s` with the lifted models put in, and apart from them every model is kept. -/
structure ModelSet.Framed (s lifted t : ModelSet) : Prop where
  mem_keys_iff : ∀ c, c ∈ t.keys ↔ c ∈ s.keys ∨ c ∈ lifted.keys
  get?_lifted : ∀ e ∈ lifted.toList, t.get? e.className = some e ∧ ∃ i ∈ s.inlineEnums, i.Makes e
  kept : ∀ m ∈ s.toList, m.className ∉ lifted.keys →
    ∃ m', t.get? m.className = some m' ∧ m.Kept m'

/-! ## Marks -/

theorem ModelSet.remarked_markTarget (u : ModelSet) (f : Field) : f.Remarked (u.markTarget f) := by
  unfold markTarget
  split
  · exact ⟨true, rfl⟩
  · cases f with
    | mk => exact ⟨_, rfl⟩

theorem ModelSet.marked_markField (u : ModelSet) (f : Field) : f.Marked (u.markField f) := by
  unfold markField Field.Marked
  split
  · refine ⟨f.items.map u.markTarget, ?_, rfl⟩
    cases f.items with
    | none => exact .none
    | some g => exact .some (u.remarked_markTarget g)
  · exact u.remarked_markTarget f

/-- A model that is kept by lifting is kept when it is marked as well. -/
theorem Model.KeptUpTo.markModel {m m' : Model} (h : m.KeptUpTo Field.LiftedTo m') (u : ModelSet) :
    m.Kept (u.markModel m') := by
  obtain ⟨allowableValues, fields, rfl, hvalues, hfields⟩ := h
  refine ⟨allowableValues, fields.map u.markField, rfl, hvalues, ?_⟩
  exact List.forall₂_map_right_iff.2 (hfields.imp fun _ g hg => ⟨g, hg, u.marked_markField g⟩)

theorem Model.KeptUpTo.className_eq {R : Bool → Field → Field → Prop} {m m' : Model}
    (h : m.KeptUpTo R m') : m'.className = m.className := by
  obtain ⟨allowableValues, fields, rfl, -⟩ := h
  rfl

theorem Model.KeptUpTo.map_className {R : Bool → Field → Field → Prop}
    {models models' : List Model} (h : List.Forall₂ (KeptUpTo R) models models') :
    models'.map Model.className = models.map Model.className :=
  map_eq_map_of_forall₂ h fun _ _ hm => hm.className_eq

/-! ## Lifting -/

theorem Field.retyped_referTo (f : Field) (c : String) : f.Retyped (f.referTo c) := by
  refine ⟨.model c, false, true, _, ?_, rfl⟩
  cases f.items with
  | none => exact .none
  | some g =>
    refine .some ?_
    dsimp only
    split
    · rename_i henum
      exact .retyped henum (.model c) false
    · exact .same

section Pass

variable {P : Model → Prop} {claimed : ModelSet}

/-- Lifting a field claims no model but those claimed before and one of the enumeration that the
field declares. -/
theorem Field.yields_lift_liftedTo (nameExtensions : List String) (owner : String)
    (hclaimed : ∀ e ∈ claimed.toList, P e) {f : Field}
    (hP : ∀ i ∈ f.inlineEnum? owner, ∀ e, i.Makes e → P e) :
    (lift nameExtensions owner claimed f).Yields fun p =>
      f.LiftedTo false p.1 ∧ ∀ e ∈ p.2.toList, P e := by
  unfold lift
  split
  · exact yields_pure ⟨.same, hclaimed⟩
  · rename_i source hsource
    refine (Model.yields_liftEnum_makes nameExtensions ⟨owner, f, source⟩ claimed).bind
      fun m hm => ?_
    have hdeclares := enumSource?_eq_some_iff.1 hsource
    refine yields_pure ⟨.retyped rfl hdeclares (f.retyped_referTo _), ?_⟩
    intro e he
    rcases Keyed.mem_toList_insert.1 he with rfl | ⟨he, -⟩
    · refine hP ⟨owner, f, source⟩ ?_ _ hm
      rw [inlineEnum?, hsource, Option.map_some]
      rfl
    · exact hclaimed e he

theorem Field.yields_liftAll_liftedTo (nameExtensions : List String) (owner : String)
    (hclaimed : ∀ e ∈ claimed.toList, P e) {fields : List Field}
    (hP : ∀ i ∈ fields.filterMap (inlineEnum? owner), ∀ e, i.Makes e → P e) :
    (liftAll nameExtensions owner claimed fields).Yields fun p =>
      List.Forall₂ (LiftedTo false) fields p.1 ∧ ∀ e ∈ p.2.toList, P e := by
  induction fields generalizing claimed with
  | nil => exact yields_pure ⟨.nil, hclaimed⟩
  | cons f fields ih =>
    rw [filterMap_inlineEnum?_cons] at hP
    unfold liftAll
    refine (yields_lift_liftedTo nameExtensions owner hclaimed fun i hi => hP i ?_).bind
      fun p hp => ?_
    · exact List.mem_append_left _ (Option.mem_toList.2 hi)
    · refine (ih hp.2 fun i hi => hP i (List.mem_append_right _ hi)).bind fun q hq => ?_
      exact yields_pure ⟨.cons hp.1 hq.1, hq.2⟩

theorem Model.yields_normalize_keptUpTo (nameExtensions : List String)
    (hclaimed : ∀ e ∈ claimed.toList, P e) {m : Model}
    (hP : ∀ i ∈ m.inlineEnums, ∀ e, i.Makes e → P e) :
    (normalize nameExtensions claimed m).Yields fun p =>
      m.KeptUpTo Field.LiftedTo p.1 ∧ ∀ e ∈ p.2.toList, P e := by
  unfold inlineEnums at hP
  unfold normalize
  split
  · rename_i henum
    refine yields_bind_of_forall fun allowableValues => yields_pure ⟨?_, hclaimed⟩
    refine ⟨allowableValues, m.fields, rfl, fun hnot => ?_, List.forall₂_same.2 fun _ _ => .same⟩
    rw [henum] at hnot
    cases hnot
  · rename_i henum
    rw [if_neg henum] at hP
    refine (Field.yields_liftAll_liftedTo nameExtensions m.className hclaimed hP).bind
      fun p hp => ?_
    refine yields_pure ⟨⟨m.allowableValues, p.1, rfl, fun _ => rfl, ?_⟩, hp.2⟩
    rw [Bool.eq_false_iff.2 henum]
    exact hp.1

/-- A pass keeps the models, and all it claims are models of their enumerations. -/
theorem Model.yields_normalizeAll_keptUpTo (nameExtensions : List String)
    (hclaimed : ∀ e ∈ claimed.toList, P e) {models : List Model}
    (hP : ∀ i ∈ models.flatMap inlineEnums, ∀ e, i.Makes e → P e) :
    (normalizeAll nameExtensions claimed models).Yields fun p =>
      List.Forall₂ (KeptUpTo Field.LiftedTo) models p.1 ∧ ∀ e ∈ p.2.toList, P e := by
  induction models generalizing claimed with
  | nil => exact yields_pure ⟨.nil, hclaimed⟩
  | cons m models ih =>
    rw [List.flatMap_cons] at hP
    unfold normalizeAll
    refine (yields_normalize_keptUpTo nameExtensions hclaimed fun i hi =>
      hP i (List.mem_append_left _ hi)).bind fun p hp => ?_
    refine (ih hp.2 fun i hi => hP i (List.mem_append_right _ hi)).bind fun q hq => ?_
    exact yields_pure ⟨.cons hp.1 hq.1, hq.2⟩

end Pass

/-! ## What holds of all fields -/

section Fields

variable {P : Field → Prop} {nameExtensions : List String} {claimed : ModelSet}

/-- What a reference to a lifted enumeration does not change, lifting does not. -/
theorem Field.yields_lift_forall (hP : ∀ f c, P f → P (f.referTo c)) (owner : String) {f : Field}
    (hf : P f) : (lift nameExtensions owner claimed f).Yields fun p => P p.1 := by
  unfold lift
  split
  · exact yields_pure hf
  · exact yields_bind_of_forall fun m => yields_pure (hP f m.className hf)

theorem Field.yields_liftAll_forall (hP : ∀ f c, P f → P (f.referTo c)) (owner : String)
    {fields : List Field} (hfields : ∀ f ∈ fields, P f) :
    (liftAll nameExtensions owner claimed fields).Yields fun p => ∀ f ∈ p.1, P f := by
  induction fields generalizing claimed with
  | nil => exact yields_pure fun f hf => nomatch hf
  | cons f fields ih =>
    obtain ⟨hf, hfields⟩ := List.forall_mem_cons.1 hfields
    unfold liftAll
    refine (yields_lift_forall hP owner hf).bind fun p hp => ?_
    refine (ih hfields).bind fun q hq => ?_
    exact yields_pure (List.forall_mem_cons.2 ⟨hp, hq⟩)

theorem Model.yields_normalize_forall (hP : ∀ f c, P f → P (f.referTo c)) {m : Model}
    (hm : ∀ f ∈ m.fields, P f) :
    (normalize nameExtensions claimed m).Yields fun p => ∀ f ∈ p.1.fields, P f := by
  unfold normalize
  split
  · exact yields_bind_of_forall fun members => yields_pure hm
  · exact (Field.yields_liftAll_forall hP m.className hm).bind fun p hp => yields_pure hp

theorem Model.yields_normalizeAll_forall (hP : ∀ f c, P f → P (f.referTo c)) {models : List Model}
    (hmodels : ∀ m ∈ models, ∀ f ∈ m.fields, P f) :
    (normalizeAll nameExtensions claimed models).Yields
      fun p => ∀ m ∈ p.1, ∀ f ∈ m.fields, P f := by
  induction models generalizing claimed with
  | nil => exact yields_pure fun m hm => nomatch hm
  | cons m models ih =>
    obtain ⟨hm, hmodels⟩ := List.forall_mem_cons.1 hmodels
    unfold normalizeAll
    refine (yields_normalize_forall hP hm).bind fun p hp => ?_
    refine (ih hmodels).bind fun q hq => ?_
    exact yields_pure (List.forall_mem_cons.2 ⟨hp, hq⟩)

end Fields

/-! ## Normalization -/

namespace ModelSet

theorem mem_keys_annotateUnions {u : ModelSet} {c : String} :
    c ∈ u.annotateUnions.keys ↔ c ∈ u.keys := by
  simp [Keyed.mem_keys_iff, get?_annotateUnions]

/-- Marking leaves the model of an enumeration alone. -/
theorem markModel_of_makes (u : ModelSet) {i : InlineEnum} {e : Model} (h : i.Makes e) :
    u.markModel e = e := by
  obtain ⟨members, -, heq⟩ := h
  rw [heq]
  rfl

theorem framed_insertAll {s lifted : ModelSet} {models : List Model}
    (hmodels : List.Forall₂ (Model.KeptUpTo Field.LiftedTo) s.toList models)
    (hlifted : ∀ e ∈ lifted.toList, ∃ i ∈ s.inlineEnums, i.Makes e) :
    s.Framed lifted
      (annotateUnions ((Keyed.ofList models : ModelSet).insertAll lifted.toList)) := by
  have hclasses : models.map Model.className = s.keys := Model.KeptUpTo.map_className hmodels
  have hnodup : (models.map Model.className).Nodup := hclasses ▸ s.nodup_keys
  constructor
  case mem_keys_iff =>
    intro c
    rw [mem_keys_annotateUnions, Keyed.mem_keys_insertAll, Keyed.ofList, Keyed.mem_keys_insertAll,
      hclasses, or_comm]
    exact or_congr_left (or_iff_left List.not_mem_nil)
  case get?_lifted =>
    intro e he
    obtain ⟨i, hi, hmakes⟩ := hlifted e he
    refine ⟨?_, i, hi, hmakes⟩
    rw [get?_annotateUnions, Keyed.get?_insertAll_of_mem lifted.nodup_keys he, Option.map_some,
      markModel_of_makes _ hmakes]
  case kept =>
    intro m hm hfree
    obtain ⟨m', hm', hkept⟩ : ∃ m' ∈ models, m.KeptUpTo Field.LiftedTo m' :=
      exists_of_mem_forall₂ hmodels.flip hm
    have hget : (Keyed.ofList models : ModelSet).get? m.className = some m' :=
      Keyed.get?_eq_some_iff.2 ⟨(Keyed.mem_toList_ofList hnodup).2 hm', hkept.className_eq⟩
    rw [get?_annotateUnions, Keyed.get?_insertAll_of_not_mem hfree, hget, Option.map_some]
    exact ⟨_, rfl, hkept.markModel _⟩

/-- A pass over a set keeps its models, and all it lifts are models of its enumerations. -/
theorem yields_normalizeAll_makes (nameExtensions : List String) (s : ModelSet) :
    (Model.normalizeAll nameExtensions ∅ s.toList).Yields fun p =>
      List.Forall₂ (Model.KeptUpTo Field.LiftedTo) s.toList p.1 ∧
        ∀ e ∈ p.2.toList, ∃ i ∈ s.inlineEnums, i.Makes e :=
  Model.yields_normalizeAll_keptUpTo nameExtensions (P := fun e => ∃ i ∈ s.inlineEnums, i.Makes e)
    (fun _ he => absurd he List.not_mem_nil) fun i hi _ hmakes => ⟨i, hi, hmakes⟩

/-- What a pass has kept and lifted makes the frame of the outcome. -/
theorem framed_of_normalizeAll {nameExtensions : List String} {s lifted : ModelSet}
    {models : List Model} {σ τ : Session}
    (h : Model.normalizeAll nameExtensions ∅ s.toList σ = .ok (models, lifted) τ) :
    s.Framed lifted
      (annotateUnions ((Keyed.ofList models : ModelSet).insertAll lifted.toList)) := by
  obtain ⟨hmodels, hlifted⟩ := yields_normalizeAll_makes nameExtensions s σ _ τ h
  exact framed_insertAll hmodels hlifted

/-- A model of the outcome is one that was lifted, or else one of the set that has been kept. -/
theorem Framed.mem_or_exists_kept {s lifted t : ModelSet} (h : s.Framed lifted t) {x : Model}
    (hx : x ∈ t.toList) : x ∈ lifted.toList ∨ ∃ m ∈ s.toList, m.Kept x := by
  have hget := Keyed.mem_toList_iff.1 hx
  by_cases hlifted : x.className ∈ lifted.keys
  · obtain ⟨e, he, heq⟩ := List.mem_map.1 hlifted
    obtain ⟨hgete, -⟩ := h.get?_lifted e he
    rw [heq, hget, Option.some.injEq] at hgete
    exact .inl (hgete ▸ he)
  · have hkey : x.className ∈ s.keys :=
      ((h.mem_keys_iff _).1 (Keyed.mem_keys_iff.2 ⟨x, hget⟩)).resolve_right hlifted
    obtain ⟨m, hm, heq⟩ := List.mem_map.1 hkey
    obtain ⟨m', hget', hkept⟩ := h.kept m hm (heq ▸ hlifted)
    rw [heq, hget, Option.some.injEq] at hget'
    exact .inr ⟨m, hm, hget' ▸ hkept⟩

/-- What neither a reference to a lifted enumeration nor a mark changes holds of all fields of the
outcome, because lifted models have none of their own. -/
theorem yields_normalize_forall {P : Field → Prop} {nameExtensions : List String}
    (hP : ∀ f c, P f → P (f.referTo c))
    (hmark : ∀ (u : ModelSet) f, P f → P (u.markField f)) {s : ModelSet}
    (hs : ∀ m ∈ s.toList, ∀ f ∈ m.fields, P f) :
    (normalize nameExtensions s).Yields fun t => ∀ m ∈ t.toList, ∀ f ∈ m.fields, P f := by
  intro σ t τ h m hm f hf
  obtain ⟨models, lifted, σ₁, merged, σ₂, hpass, -, rfl, rfl, -⟩ := normalize_eq_ok h
  have hmodels := Model.yields_normalizeAll_forall hP hs σ (models, lifted) σ₁ hpass
  obtain ⟨-, hlifted⟩ := yields_normalizeAll_makes nameExtensions s σ _ σ₁ hpass
  obtain ⟨m', hm', rfl⟩ := List.mem_map.1 hm
  obtain ⟨f', hf', rfl⟩ := List.mem_map.1 hf
  refine hmark _ f' ?_
  -- a model of the outcome is lifted or one that the pass has made
  rcases Keyed.mem_of_mem_insertAll hm' with hm' | hm'
  · obtain ⟨i, -, members, -, heq⟩ := hlifted m' hm'
    rw [heq] at hf'
    cases hf'
  · exact hmodels m' (Keyed.mem_of_mem_ofList hm') f' hf'

/-- Whatever the set and the session, normalization puts in the enumerations that it lifts and
changes nothing else but what it is for. -/
theorem normalize_framed (nameExtensions : List String) (s t : ModelSet) (σ τ : Session)
    (h : normalize nameExtensions s σ = .ok t τ) :
    ∃ models lifted σ', Model.normalizeAll nameExtensions ∅ s.toList σ = .ok (models, lifted) σ' ∧
      s.Framed lifted t := by
  obtain ⟨models, lifted, σ₁, merged, σ₂, hpass, -, rfl, rfl, -⟩ := normalize_eq_ok h
  exact ⟨models, lifted, σ₁, hpass, framed_of_normalizeAll hpass⟩

/-- A model with an enumeration and an array of references to a union, the union, and a model whose
class name the enumeration is going to take. -/
def crowded : ModelSet :=
  .ofList
    [{ Model.new "Owner" "Owner" with oneOf := [⟨.primitive .string, true, false⟩] },
     { Model.new "Pet" "Pet" with fields :=
        [{ Field.new "kind" (.primitive .string) with
            isEnum := true, enumValues := [.string "cat", .string "dog"] },
         { Field.new "owners" (.model "Owner") with
            isArray := true
            items := some { Field.new "owners" (.model "Owner") with
              annotations := { oneOfName := some "Owner" } } }] },
     Model.new "PetKindEnum" "PetKindEnum"]

theorem normalize_crowded_framed :
    ∃ t τ, normalize ["x-enumNames"] crowded .start = .ok t τ ∧
      (t.keys = ["Owner", "Pet", "PetKindEnum"] ∧
        (t.get? "PetKindEnum").map (·.allowableValues.length) = some 2) ∧
      ∃ models lifted σ', Model.normalizeAll ["x-enumNames"] ∅ crowded.toList .start =
        .ok (models, lifted) σ' ∧ crowded.Framed lifted t := by
  obtain ⟨t, τ, hrun, hnames⟩ := (succeedsWith_iff (s := .start)
    (x := normalize ["x-enumNames"] crowded)
    (p := fun t => t.keys = ["Owner", "Pet", "PetKindEnum"] ∧
      (t.get? "PetKindEnum").map (·.allowableValues.length) = some 2)).1 (by decide +kernel)
  exact ⟨t, τ, hrun, of_decide_eq_true hnames, normalize_framed _ crowded t .start τ hrun⟩

end ModelSet

end ApiGraph

import ApiGraph.Config.Basic
import ApiGraph.Proofs.Lifting.Outcome
import ApiGraph.Proofs.Model.Build

/-!
# Lifting is faithful

`FaithfullyLifted s t` says that no inline enumeration of `s` is lost or mixed up with
another in `t`: each field that declares one, in a model that is kept, refers to a model
with exactly the declared literals, no two such fields refer to the same model, and every
lifted model stems from exactly one field.

Main statement: normalizing the models of a document lifts faithfully. The literals and
origins are those of the models that the enumerations get; that no two get the same
class name is what taking turns is about, and a lifted model is never displaced
because merging puts all of them in last.
-/

namespace ApiGraph

open Identifier Naming

/-- A field declares an inline enumeration, itself or, if it does not and is an array, in its
direct items. -/
inductive Field.Declares (f : Field) : Field → Prop
  | itself (isEnum : f.isEnum = true) : Declares f f
  | items {g : Field} (own : f.isEnum = false) (isArray : f.isArray = true)
      (items : f.items = some g) (isEnum : g.isEnum = true) : Declares f g

theorem Field.Declares.isEnum_or {f source : Field} (h : f.Declares source) :
    f.isEnum = true ∨ f.items = some source ∧ source.isEnum = true := by
  cases h with
  | itself henum => exact .inl henum
  | items _ _ hitems henum => exact .inr ⟨hitems, henum⟩

theorem Field.enumSource?_eq_some_iff {f source : Field} :
    f.enumSource? = some source ↔ f.Declares source := by
  unfold enumSource?
  constructor
  · intro h
    split at h
    · rename_i henum
      cases h
      exact .itself henum
    · rename_i henum
      split at h
      · rename_i g hitems
        split at h
        · rename_i hdeclares
          cases h
          obtain ⟨harray, hg⟩ := Bool.and_eq_true_iff.1 hdeclares
          exact .items (by simpa using henum) harray hitems hg
        · cases h
      · cases h
  · rintro (henum | ⟨henum, harray, hitems, hg⟩)
    · rw [if_pos henum]
    · simp [henum, hitems, harray, hg]

/-- A field that refers to a lifted model and has been marked. -/
def Field.refer (u : ModelSet) (f : Field) (className : String) : Field :=
  u.markField (f.referTo className)

def Model.refer (u : ModelSet) (modelOf : ModelOrigin → Model) (m : Model) : Model :=
  u.markModel { m with fields := m.fields.map (Field.settle modelOf m.className) }

theorem Field.refer_eq (u : ModelSet) (f : Field) (className : String) :
    ∃ annotations items, f.refer u className =
      { f with typeRef := .model className, isPrimitive := false, isEnum := true, annotations,
               items } := by
  obtain ⟨annotations, items, heq, -⟩ := u.markField_eq (f.referTo className)
  exact ⟨annotations, items, heq⟩

/-- A field that declares an enumeration refers to its model in the end. -/
theorem Field.markField_settle_of_declares {f source : Field} (h : f.Declares source) {u : ModelSet}
    {modelOf : ModelOrigin → Model} {owner : String} :
    u.markField (f.settle modelOf owner) =
      f.refer u (modelOf (.liftedEnum owner f.baseName)).className := by
  unfold settle refer
  rw [enumSource?_eq_some_iff.2 h]

/-- The model is the enumeration that the field `f` of `m` declares in `source`. -/
structure Model.HoldsEnum (e m : Model) (f source : Field) : Prop where
  isEnum : e.isEnum = true
  origin : e.origin = .liftedEnum m.className f.baseName
  enumValues : e.enumValues = source.enumValues
  values : e.allowableValues.map AllowableValue.value = source.enumValues

namespace ModelSet

/-- The field with number `n` of the model `m` of the set is `f`, which declares an inline
enumeration in `source`. -/
structure DeclaresAt (s : ModelSet) (m : Model) (n : Nat) (f source : Field) : Prop where
  mem : m ∈ s.toList
  isEnum : m.isEnum = false
  field : m.fields[n]? = some f
  declares : f.Declares source

/-- Under the class name the set has a model of the document. -/
def Keeps (t : ModelSet) (c : String) : Prop := ∃ m, t.get? c = some m ∧ m.origin = .source

instance (t : ModelSet) : DecidablePred t.Keeps :=
  fun c => inferInstanceAs (Decidable (∃ m, m ∈ t.get? c ∧ m.origin = .source))

def RefersAt (t : ModelSet) (owner : String) (n : Nat) (c : String) : Prop :=
  ∃ m f, t.get? owner = some m ∧ m.fields[n]? = some f ∧ f.isPrimitive = false ∧
    f.typeRef = .model c

/-- The inline enumerations of `s` are in `t`, all of them, unchanged and kept apart. -/
structure FaithfullyLifted (s t : ModelSet) : Prop where
  complete : ∀ m n f source, s.DeclaresAt m n f source → t.Keeps m.className →
    ∃ c e, t.RefersAt m.className n c ∧ t.get? c = some e ∧ e.HoldsEnum m f source
  separate : ∀ m n f source m' n' f' source' c, s.DeclaresAt m n f source →
    s.DeclaresAt m' n' f' source' → t.RefersAt m.className n c → t.RefersAt m'.className n' c →
      m = m' ∧ n = n'
  accounted : ∀ e ∈ t.toList, ∀ owner field, e.origin = .liftedEnum owner field →
    ∃! p : Model × Nat, ∃ f source, s.DeclaresAt p.1 p.2 f source ∧ e.HoldsEnum p.1 f source

theorem DeclaresAt.mem_inlineEnums {s : ModelSet} {m : Model} {n : Nat} {f source : Field}
    (h : s.DeclaresAt m n f source) : ⟨m.className, f, source⟩ ∈ s.inlineEnums := by
  refine ModelSet.mem_inlineEnums.2 ⟨m, h.mem, Model.mem_inlineEnums.2 ?_⟩
  exact ⟨h.isEnum, rfl, List.mem_of_getElem? h.field, Field.enumSource?_eq_some_iff.2 h.declares⟩

theorem exists_declaresAt {s : ModelSet} {i : InlineEnum} (hi : i ∈ s.inlineEnums) :
    ∃ m n, s.DeclaresAt m n i.field i.source ∧ i.owner = m.className := by
  obtain ⟨m, hm, hi⟩ := ModelSet.mem_inlineEnums.1 hi
  obtain ⟨henum, howner, hfield, hsource⟩ := Model.mem_inlineEnums.1 hi
  obtain ⟨n, hn⟩ := List.getElem?_of_mem hfield
  exact ⟨m, n, ⟨hm, henum, hn, Field.enumSource?_eq_some_iff.1 hsource⟩, howner⟩

/-- An inline enumeration is found again by its origin. -/
theorem DeclaresAt.unique {s : ModelSet} (hs : s.DistinctFields) {m m' : Model} {n n' : Nat}
    {f f' source source' : Field} (h : s.DeclaresAt m n f source)
    (h' : s.DeclaresAt m' n' f' source') (howner : m.className = m'.className)
    (hname : f.baseName = f'.baseName) : m = m' ∧ n = n' := by
  have hm : m = m' := by
    have hget := Keyed.mem_toList_iff.1 h.mem
    rw [howner, Keyed.mem_toList_iff.1 h'.mem, Option.some.injEq] at hget
    exact hget.symm
  subst hm
  obtain ⟨hlt, -⟩ := List.getElem?_eq_some_iff.1 h.field
  refine ⟨rfl, (List.getElem?_inj (by rwa [List.length_map]) (hs m h.mem)).1 ?_⟩
  rw [List.getElem?_map, List.getElem?_map, h.field, h'.field, Option.map_some, Option.map_some,
    hname]

namespace LiftedInto

variable {nameExtensions : List String} {r : Registry} {modelOf : ModelOrigin → Model}
  {s u : ModelSet}

theorem holdsEnum (h : s.LiftedInto nameExtensions r modelOf u) {m : Model} {n : Nat}
    {f source : Field} (hf : s.DeclaresAt m n f source) :
    (modelOf (.liftedEnum m.className f.baseName)).HoldsEnum m f source := by
  obtain ⟨members, hmembers, heq⟩ := h.exists_members hf.mem_inlineEnums
  have hvalues := hmembers.of_yields (AllowableValue.yields_build_values _ _ _)
  change modelOf (.liftedEnum m.className f.baseName) = _ at heq
  rw [heq]
  exact ⟨rfl, rfl, rfl, hvalues⟩

/-- Where a model with an inline enumeration stood there is a lifted model now, or the model itself
with all its enumerations referred to. -/
theorem get?_className (h : s.LiftedInto nameExtensions r modelOf u) {m x : Model}
    (hm : m ∈ s.toList) (henum : m.isEnum = false)
    (hx : u.annotateUnions.get? m.className = some x) :
    (x.fields = [] ∧ x.origin ≠ .source) ∨ x = m.refer u modelOf := by
  rcases h.get?_eq_some hx with ⟨i, hi, rfl⟩ | ⟨-, m₀, m', hm₀, hsettled, rfl⟩
  · obtain ⟨members, -, heq⟩ := h.exists_members hi
    left
    rw [heq]
    exact ⟨rfl, fun horigin => by cases horigin⟩
  · rw [Keyed.mem_toList_iff.1 hm, Option.some.injEq] at hm₀
    subst hm₀
    right
    cases hsettled with
    | members henum' _ =>
      rw [henum] at henum'
      cases henum'
    | fields _ => rfl

/-- A field that declares an enumeration, if it is still there, refers to the model of that
enumeration. -/
theorem field_eq (h : s.LiftedInto nameExtensions r modelOf u) {m x : Model} {n : Nat}
    {f source : Field} (hf : s.DeclaresAt m n f source)
    (hx : u.annotateUnions.get? m.className = some x) (hkept : x.fields ≠ [] ∨ x.origin = .source) :
    x.fields[n]? =
      some (f.refer u (modelOf (.liftedEnum m.className f.baseName)).className) := by
  rcases h.get?_className hf.mem hf.isEnum hx with ⟨hfields, horigin⟩ | rfl
  · rcases hkept with hne | hsource
    · exact absurd hfields hne
    · exact absurd hsource horigin
  · change ((m.fields.map _).map _)[n]? = _
    rw [List.getElem?_map, List.getElem?_map, hf.field, Option.map_some, Option.map_some,
      Field.markField_settle_of_declares hf.declares]

theorem faithfullyLifted (h : s.LiftedInto nameExtensions r modelOf u) (hs : s.DistinctFields)
    (hsource : ∀ m ∈ s.toList, m.origin = .source) : s.FaithfullyLifted u.annotateUnions where
  complete := by
    rintro m n f source hf ⟨x, hx, horigin⟩
    obtain ⟨annotations, items, heq⟩ :=
      f.refer_eq u (modelOf (.liftedEnum m.className f.baseName)).className
    refine ⟨_, _, ⟨x, _, hx, h.field_eq hf hx (.inr horigin), ?_, ?_⟩,
      h.get?_lifted hf.mem_inlineEnums, h.holdsEnum hf⟩
    · rw [heq]
    · rw [heq]
      rfl
  separate := by
    -- the class that a field refers to is that of its own model, and tells the origin
    have hclass : ∀ {m n f source c}, s.DeclaresAt m n f source →
        u.annotateUnions.RefersAt m.className n c →
          (modelOf (.liftedEnum m.className f.baseName)).className = c := by
      rintro m n f source c hf ⟨x, f', hx, hf', -, htype⟩
      have hne : x.fields ≠ [] := List.ne_nil_of_mem (List.mem_of_getElem? hf')
      rw [h.field_eq hf hx (.inl hne), Option.some.injEq] at hf'
      obtain ⟨annotations, items, heq⟩ :=
        f.refer_eq u (modelOf (.liftedEnum m.className f.baseName)).className
      rw [← hf', heq] at htype
      exact TypeRef.model.inj htype
    intro m n f source m' n' f' source' c hf hf' hc hc'
    have heq := h.inTurn.className_inj hf.mem_inlineEnums hf'.mem_inlineEnums
      ((hclass hf hc).trans (hclass hf' hc').symm)
    obtain ⟨howner, rfl, -⟩ := InlineEnum.mk.inj heq
    exact hf.unique hs hf' howner rfl
  accounted := by
    intro e he owner field horigin
    obtain ⟨i, hi, rfl, -⟩ := h.exists_of_origin hsource he horigin
    obtain ⟨m, n, hf, howner⟩ := exists_declaresAt hi
    have hholds := h.holdsEnum hf
    rw [← howner] at hholds
    refine ⟨(m, n), ⟨i.field, i.source, hf, hholds⟩, ?_⟩
    rintro ⟨m', n'⟩ ⟨f', source', hf', hholds'⟩
    obtain ⟨hclass, hname⟩ :=
      ModelOrigin.liftedEnum.inj (hholds'.origin.symm.trans hholds.origin)
    obtain ⟨rfl, rfl⟩ := hf'.unique hs hf hclass hname
    rfl

end LiftedInto

/-- Whatever the document and the configuration, when its models are built and normalized in one
session, every inline enumeration of a model that is kept has a model of its own with the declared
literals, and every lifted model stems from one of them. -/
theorem normalize_faithful (config : Config) (d : Document) (hd : d.DistinctProperties)
    (s₀ s₁ s₂ : Session) (built out : ModelSet)
    (hbuild : build config.packageName d s₀ = .ok built s₁)
    (hnormalize : normalize config.enumNameExtensions built s₁ = .ok out s₂) :
    built.FaithfullyLifted out := by
  have hbuilt := yields_build_built config.packageName hd s₀ built s₁ hbuild
  have hfields : built.DistinctFields := fun m hm => (hbuilt m hm).distinctFields
  obtain ⟨-, hrecalls⟩ := memoizing_normalize _ _ _ _ _ hnormalize
  obtain ⟨modelOf, u, hlifted, rfl⟩ :=
    (recalls_normalize_iff hfields).1 (hrecalls s₂.registry (le_refl s₂.registry))
  exact hlifted.faithfullyLifted hfields fun m hm => (hbuilt m hm).origin

/-- Two fields whose enumerations want the same class name, one of them an array. -/
def palettes : Document where
  schemas := .ofList
    [("Palette", { properties := [("mainColors",
        { kind := some .array, items := some { enumValues := [.string "red"] } })] }),
     ("PaletteMain", { properties := [("colors", { enumValues := [.string "blue"] })] })]
  operations := []

theorem normalize_palettes_faithful :
    ∃ built s₁ out s₂, build "OpenAPIClientPackage" palettes .start = .ok built s₁ ∧
      normalize ["x-enumNames"] built s₁ = .ok out s₂ ∧ out.keys = ["Palette", "PaletteMain",
        "PaletteMainColorsEnum", "PaletteMainColorsEnum_1"] ∧ built.FaithfullyLifted out := by
  obtain ⟨out, s₂, hrun, hkeys⟩ := (succeedsWith_iff (s := .start)
    (x := build "OpenAPIClientPackage" palettes >>= normalize ["x-enumNames"])
    (p := fun out => out.keys = ["Palette", "PaletteMain", "PaletteMainColorsEnum",
      "PaletteMainColorsEnum_1"])).1 (by decide +kernel)
  obtain ⟨built, s₁, hbuild, hnormalize⟩ := bind_eq_ok_iff.1 hrun
  refine ⟨built, s₁, out, s₂, hbuild, hnormalize, of_decide_eq_true hkeys, ?_⟩
  exact normalize_faithful {} palettes
    (by decide +kernel) .start s₁ s₂ built out hbuild hnormalize

end ModelSet

end ApiGraph

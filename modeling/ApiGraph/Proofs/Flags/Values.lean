import ApiGraph.Proofs.Flags.Parts

/-!
# Flags and types of values

Whether a value is a map, and whether it is a time in seconds, is decided twice: as a flag, from
one or two members of a schema, and in its type, by the table of scalars, which looks at the kind
and the reference as well.

Main statements: flag and type agree about maps unless a schema is a loose map, and about times
unless it is mismarked; and a value is flagged as an array and a map at once when an array is a
loose map. Both notions speak of the schema alone, and loose and mismarked schemas do disagree.
-/

namespace ApiGraph

open Naming

/-! ## Maps -/

/-- The schema describes the values of a map, but is not declared as an object or is a reference. -/
structure Schema.IsLooseMap (s : Schema) : Prop where
  properties : s.properties = []
  additionalProperties : s.additionalProperties ≠ none
  loose : s.kind ≠ some .object ∨ s.reference ≠ none

namespace Schema

theorem isMap_iff {s : Schema} :
    s.isMap = true ↔ s.properties = [] ∧ s.additionalProperties ≠ none := by
  unfold isMap
  rw [Bool.and_eq_true, List.isEmpty_iff, Option.isSome_iff_ne_none]

theorem isLooseMap_iff {s : Schema} :
    s.IsLooseMap ↔ s.isMap = true ∧ ¬ (s.kind = some .object ∧ s.reference = none) := by
  rw [isMap_iff, not_and_or]
  exact ⟨fun h => ⟨⟨h.properties, h.additionalProperties⟩, h.loose⟩,
    fun ⟨⟨hproperties, hvalues⟩, hloose⟩ => ⟨hproperties, hvalues, hloose⟩⟩

/-- An array that describes the values of a map is loose. -/
theorem isMap_iff_isLooseMap_of_isArray {s : Schema} (hs : s.isArray = true) :
    s.isMap = true ↔ s.IsLooseMap := by
  rw [isLooseMap_iff]
  refine (and_iff_left ?_).symm
  rintro ⟨hobject, -⟩
  have hkind : s.kind = some .array := of_decide_eq_true hs
  rw [hkind] at hobject
  cases hobject

theorem isArray_and_isMap_iff {s : Schema} :
    s.isArray = true ∧ s.isMap = true ↔ s.isArray = true ∧ s.IsLooseMap :=
  and_congr_right isMap_iff_isLooseMap_of_isArray

/-- What resolves to the class for maps is declared as an object and is no reference. -/
theorem resolves_mapContainer_iff (packageName : String) {s : Schema} (hs : s.isArray = false)
    (σ : Session) :
    (∃ τ, TypeRef.resolve packageName s σ =
        .ok (.packaged (Scalar.mapContainer packageName)) τ) ↔
      s.isMap = true ∧ s.kind = some .object ∧ s.reference = none := by
  rw [← Scalar.ofSchema?_eq_map_iff, ← typedAs_iff_of_not_isArray hs]
  constructor
  · rintro ⟨τ, h⟩
    exact (TypeRef.yields_resolve_classifies packageName s σ _ τ h).eq_mapContainer_iff.1 rfl
  · intro h
    rw [TypeRef.resolve_of_typedAs packageName h]
    exact ⟨σ, rfl⟩

/-- In every session the flag of a map agrees with the type of the schema unless this is a loose
map; and a field, at every depth, or a parameter is flagged as an array and a map when its schema
is an array that is a loose map. -/
theorem isMap_agrees_iff (packageName : String) :
    (∀ (s : Schema) (σ : Session), s.isArray = false →
      ((s.isMap = true ↔ ∃ τ, TypeRef.resolve packageName s σ =
          .ok (.packaged (Scalar.mapContainer packageName)) τ) ↔ ¬ s.IsLooseMap)) ∧
    (∀ unions baseName required s σ f τ,
      Field.build packageName unions baseName required s σ = .ok f τ →
        f.Mirrors (fun s f => f.isArray = true ∧ f.isMap = true ↔
          s.isArray = true ∧ s.IsLooseMap) s) ∧
    ∀ spec σ p τ, Parameter.build packageName spec σ = .ok p τ →
      (p.isArray = true ∧ p.isMap = true ↔
        spec.schema.isArray = true ∧ spec.schema.IsLooseMap) := by
  refine ⟨fun s σ hs => ?_, ?_, ?_⟩
  · rw [resolves_mapContainer_iff packageName hs, isLooseMap_iff]
    tauto
  · intro unions baseName required s σ f τ h
    refine (Field.yields_build_madeOf _ _ _ _ _ _ _ _ h).mono fun s f hf => ?_
    rw [hf.isArray, hf.isMap]
    exact isArray_and_isMap_iff
  · intro spec σ p τ h
    have hp := Parameter.yields_build_madeOf _ _ _ _ _ h
    rw [hp.isArray, hp.isMap]
    exact isArray_and_isMap_iff

def mapOfText : Schema := { kind := some .string, additionalProperties := some {} }

/-- An array of maps that describes the values of a map itself. -/
def arrayAndMap : Schema :=
  { kind := some .array
    items := some { kind := some .object, additionalProperties := some {} }
    additionalProperties := some {} }

def textsByName : Schema :=
  { kind := some .object, additionalProperties := some { kind := some .string } }

theorem isMap_textsByName_agrees :
    textsByName.isArray = false ∧
      ((textsByName.isMap = true ↔ ∃ τ, TypeRef.resolve "Pets" textsByName .start =
          .ok (.packaged (Scalar.mapContainer "Pets")) τ) ↔ ¬ textsByName.IsLooseMap) ∧
      (∃ f τ, Field.build "Pets" [] "owners" true arrayAndMap .start = .ok f τ ∧
        f.Mirrors (fun s f => f.isArray = true ∧ f.isMap = true ↔
          s.isArray = true ∧ s.IsLooseMap) arrayAndMap) ∧
      ∃ p τ, Parameter.build "Pets" ⟨"owners", true, arrayAndMap, ∅⟩ .start = .ok p τ ∧
        (p.isArray = true ∧ p.isMap = true ↔
          arrayAndMap.isArray = true ∧ arrayAndMap.IsLooseMap) := by
  obtain ⟨f, τ, hf, -⟩ := (succeedsWith_iff (s := .start) (p := fun _ => true)
    (x := Field.build "Pets" [] "owners" true arrayAndMap)).1 (by decide +kernel)
  obtain ⟨p, τ', hp, -⟩ := (succeedsWith_iff (s := .start) (p := fun _ => true)
    (x := Parameter.build "Pets" ⟨"owners", true, arrayAndMap, ∅⟩)).1 (by decide +kernel)
  exact ⟨rfl, (isMap_agrees_iff "Pets").1 textsByName .start rfl,
    ⟨f, τ, hf, (isMap_agrees_iff "Pets").2.1 _ _ _ _ _ f τ hf⟩,
    p, τ', hp, (isMap_agrees_iff "Pets").2.2 _ _ p τ' hp⟩

/-- A schema that is no array can be flagged as a map and have another type, and a field can be
flagged as an array and a map. -/
theorem exists_isMap_ne :
    (∃ s : Schema, s.isArray = false ∧ s.isMap = true ∧ ∃ t τ,
      TypeRef.resolve "Pets" s .start = .ok t τ ∧ t ≠ .packaged (Scalar.mapContainer "Pets")) ∧
    ∃ s f τ, Field.build "Pets" [] "owners" true s .start = .ok f τ ∧
      f.isArray = true ∧ f.isMap = true := by
  refine ⟨⟨mapOfText, rfl, rfl, .primitive .string, .start, ?_, by simp⟩, arrayAndMap, ?_⟩
  · have htyped : mapOfText.TypedAs .string := ⟨mapOfText, .self rfl, rfl⟩
    rw [TypeRef.resolve_of_typedAs "Pets" htyped]
    rfl
  · obtain ⟨f, τ, hf, hflags⟩ := (succeedsWith_iff (s := .start)
      (p := fun f => f.isArray && f.isMap)
      (x := Field.build "Pets" [] "owners" true arrayAndMap)).1 (by decide +kernel)
    exact ⟨f, τ, hf, Bool.and_eq_true_iff.1 hflags⟩

end Schema

/-! ## Times -/

/-- The format of the schema says something else than its type. -/
inductive Schema.IsMismarked (s : Schema) : Prop
  /-- The format of a time on something that is no integer, or on a reference. -/
  | noInteger (isArray : s.isArray = false) (marked : s.isPosixTime = true)
      (kind : s.kind ≠ some .integer ∨ s.reference ≠ none)
  /-- The format of a time on an array of something else. -/
  | outside (isArray : s.isArray = true) (marked : s.isPosixTime = true)
      (items : ¬ s.TypedAs .unixTime)
  /-- An array of times without their format. -/
  | inside (isArray : s.isArray = true) (unmarked : s.isPosixTime = false)
      (items : s.TypedAs .unixTime)

/-- A value that is typed as a time in seconds has the class for times, and the mark is on it
unless its schema is mismarked. -/
structure Schema.MarksTime (s : Schema) (t : TypeRef) (posixTime : Bool) : Prop where
  datetime : s.TypedAs .unixTime → t = .primitive .datetime
  agrees : (posixTime = true ↔ s.TypedAs .unixTime) ↔ ¬ s.IsMismarked

namespace Schema

/-- A schema is mismarked when its format and its type contradict each other. -/
theorem isMismarked_iff {s : Schema} :
    s.IsMismarked ↔ ¬ (s.isPosixTime = true ↔ s.TypedAs .unixTime) := by
  cases harray : s.isArray with
  | false =>
    have htyped := (typedAs_iff_of_not_isArray harray).trans Scalar.ofSchema?_eq_unixTime_iff
    rw [htyped]
    constructor
    · intro h
      cases h with
      | noInteger _ marked kind => tauto
      | outside isArray _ _ | inside isArray _ _ =>
        rw [harray] at isArray
        cases isArray
    · intro h
      exact .noInteger harray (by tauto) (by tauto)
  | true =>
    constructor
    · intro h
      cases h with
      | noInteger isArray _ _ =>
        rw [harray] at isArray
        cases isArray
      | outside _ marked items => exact fun hiff => items (hiff.1 marked)
      | inside _ unmarked items =>
        intro hiff
        rw [hiff.2 items] at unmarked
        cases unmarked
    · intro h
      cases hmark : s.isPosixTime with
      | true =>
        refine .outside harray hmark fun htyped => h ?_
        exact iff_of_true hmark htyped
      | false =>
        refine .inside harray hmark (by_contra fun htyped => h ?_)
        exact iff_of_false (by simp [hmark]) htyped

theorem marksTime_of_classifies {packageName : String} {s : Schema} {t : TypeRef}
    (ht : t.Classifies packageName s) : s.MarksTime t s.isPosixTime where
  datetime := fun h => ht.eq_target h
  agrees := by
    rw [isMismarked_iff, not_not]

/-- In every session the mark of a time agrees with the type of a parameter, and of a field at
every depth, unless the schema that the type is taken from is mismarked. -/
theorem posixTime_agrees_iff (packageName : String) :
    (∀ spec σ p τ, Parameter.build packageName spec σ = .ok p τ →
      spec.schema.inner.MarksTime p.dataType p.annotations.posixTime) ∧
    ∀ unions baseName required s σ f τ,
      Field.build packageName unions baseName required s σ = .ok f τ →
        f.Mirrors (fun s f => s.MarksTime f.typeRef f.annotations.posixTime) s := by
  constructor
  · intro spec σ p τ h
    have hp := Parameter.yields_build_madeOf _ _ _ _ _ h
    rw [hp.posixTime]
    exact marksTime_of_classifies hp.dataType
  · intro unions baseName required s σ f τ h
    refine (Field.yields_build_madeOf _ _ _ _ _ _ _ _ h).mono fun s f hf => ?_
    rw [hf.annotations]
    exact marksTime_of_classifies hf.typeRef

def seconds : Schema := { kind := some .integer, format := some "unixtime" }

/-- A text with the format of a time. -/
def markedText : Schema := { kind := some .string, format := some "unixtime" }

def nestedTimes : Schema :=
  { kind := some .array, items := some { kind := some .array, items := some seconds } }

theorem posixTime_nestedTimes_agrees :
    (∃ p τ, Parameter.build "Pets" ⟨"born", true, nestedTimes, ∅⟩ .start = .ok p τ ∧
      nestedTimes.inner.MarksTime p.dataType p.annotations.posixTime) ∧
    ∃ f τ, Field.build "Pets" [] "born" true nestedTimes .start = .ok f τ ∧
      f.Mirrors (fun s f => s.MarksTime f.typeRef f.annotations.posixTime) nestedTimes := by
  obtain ⟨p, τ, hp, -⟩ := (succeedsWith_iff (s := .start) (p := fun _ => true)
    (x := Parameter.build "Pets" ⟨"born", true, nestedTimes, ∅⟩)).1 (by decide +kernel)
  obtain ⟨f, τ', hf, -⟩ := (succeedsWith_iff (s := .start) (p := fun _ => true)
    (x := Field.build "Pets" [] "born" true nestedTimes)).1 (by decide +kernel)
  exact ⟨⟨p, τ, hp, (posixTime_agrees_iff "Pets").1 _ _ p τ hp⟩,
    f, τ', hf, (posixTime_agrees_iff "Pets").2 _ _ _ _ _ f τ' hf⟩

/-- A parameter can be marked as a time and have another type, and can have its type from the schema
of a time in seconds without the mark. -/
theorem exists_posixTime_ne :
    (∃ spec p τ, Parameter.build "Pets" spec .start = .ok p τ ∧
      p.annotations.posixTime = true ∧ p.dataType = .primitive .string) ∧
    ∃ spec p τ, Parameter.build "Pets" spec .start = .ok p τ ∧
      p.annotations.posixTime = false ∧ spec.schema.inner.TypedAs .unixTime := by
  obtain ⟨p, τ, hp, hmark⟩ := (succeedsWith_iff (s := .start)
    (p := fun p => p.annotations.posixTime && p.dataType = .primitive .string)
    (x := Parameter.build "Pets" ⟨"born", true, markedText, ∅⟩)).1 (by decide +kernel)
  obtain ⟨q, τ', hq, hunmarked⟩ := (succeedsWith_iff (s := .start)
    (p := fun q => q.annotations.posixTime = false)
    (x := Parameter.build "Pets" ⟨"born", true, nestedTimes, ∅⟩)).1 (by decide +kernel)
  have htyped : nestedTimes.inner.TypedAs .unixTime :=
    ⟨seconds, .items rfl rfl (.self rfl), rfl⟩
  obtain ⟨hmarked, htype⟩ := Bool.and_eq_true_iff.1 hmark
  exact ⟨⟨_, p, τ, hp, hmarked, of_decide_eq_true htype⟩,
    _, q, τ', hq, of_decide_eq_true hunmarked, htyped⟩

end Schema

end ApiGraph

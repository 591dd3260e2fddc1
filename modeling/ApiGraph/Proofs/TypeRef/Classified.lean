import ApiGraph.Proofs.TypeRef.Resolve

/-!
# Types by the table of scalars

The table of scalars classifies one schema, and resolving asks it about the schema that an
array leads to. `s.TypedAs k` says that this one is the scalar `k`.

Main statement: a schema that is typed as a scalar resolves to the class of that scalar,
without making a name and without a report; every other schema resolves to the class of a
model if it resolves at all. So a type tells whether its schema is a scalar, and the members
of the schema tell which one.
-/

namespace ApiGraph

open Naming

/-- The schema leads to one that the table of scalars has under `k`. -/
def Schema.TypedAs (s : Schema) (k : Scalar) : Prop :=
  ∃ n, s.LeadsTo n ∧ Scalar.ofSchema? n = some k

/-- The type is the class of the scalar that the schema is typed as, and else of a model. -/
inductive TypeRef.Classifies (packageName : String) (s : Schema) (t : TypeRef) : Prop
  | scalar {k : Scalar} (typed : s.TypedAs k) (eq : t = k.target packageName)
  | model {className : String} (untyped : ∀ k, ¬ s.TypedAs k) (eq : t = .model className)

/-- The schema lists literals and leaves open what kind of values they are. -/
structure Schema.IsUntypedEnum (s : Schema) : Prop where
  kind : s.kind = none
  reference : s.reference = none
  isEnum : s.isEnum = true

/-! ## The table -/

namespace Scalar

theorem isPrimitive_target_iff {packageName : String} {k : Scalar} :
    (k.target packageName).isPrimitive = true ↔ k ≠ .map := by
  cases k <;> simp [target, TypeRef.isPrimitive]

theorem target_eq_packaged_iff {packageName name : String} {k : Scalar} :
    k.target packageName = .packaged name ↔ k = .map ∧ name = mapContainer packageName := by
  cases k <;> simp [target, eq_comm]

/-- Maps are scalars when they are declared as objects. -/
theorem ofSchema?_eq_map_iff {s : Schema} :
    ofSchema? s = some .map ↔
      s.isMap = true ∧ s.kind = some .object ∧ s.reference = none := by
  unfold ofSchema? ofIntegerFormat ofNumberFormat ofStringFormat
  cases s.reference <;> grind

/-- Only an integer can be a time in seconds. -/
theorem ofSchema?_eq_unixTime_iff {s : Schema} :
    ofSchema? s = some .unixTime ↔
      s.isPosixTime = true ∧ s.kind = some .integer ∧ s.reference = none := by
  unfold ofSchema? ofIntegerFormat ofNumberFormat ofStringFormat Schema.isPosixTime
  cases s.reference <;> grind

theorem ofIntegerFormat_ne_map (format : Option String) : ofIntegerFormat format ≠ map := by
  unfold ofIntegerFormat
  grind

theorem ofNumberFormat_ne_map (format : Option String) : ofNumberFormat format ≠ map := by
  unfold ofNumberFormat
  grind

theorem ofStringFormat_ne_map (format : Option String) : ofStringFormat format ≠ map := by
  unfold ofStringFormat
  grind

/-- The scalars apart from maps are the schemas that are flagged as primitive, and beyond them the
enumerations without a kind, which the table takes for strings. -/
theorem exists_ofSchema?_ne_map_iff {s : Schema} :
    (∃ k, ofSchema? s = some k ∧ k ≠ map) ↔ s.isPrimitive = true ∨ s.IsUntypedEnum := by
  unfold ofSchema? Schema.isPrimitive
  cases hreference : s.reference with
  | some reference =>
    have hnot : ¬ s.IsUntypedEnum := by
      intro h
      rw [h.reference] at hreference
      cases hreference
    simp [hnot]
  | none =>
    have hiff : s.IsUntypedEnum ↔ s.kind = none ∧ s.isEnum = true :=
      ⟨fun h => ⟨h.kind, h.isEnum⟩, fun h => ⟨h.1, hreference, h.2⟩⟩
    rw [hiff]
    cases hkind : s.kind with
    | none => simp
    | some kind =>
      cases kind <;> simp [ofIntegerFormat_ne_map, ofNumberFormat_ne_map, ofStringFormat_ne_map]

end Scalar

/-! ## The schema that decides -/

namespace Schema

theorem LeadsTo.isArray {s n : Schema} (h : s.LeadsTo n) : n.isArray = false := by
  induction h with
  | self isArray => exact isArray
  | items _ _ _ ih => exact ih

/-- A schema leads to one schema at most. -/
theorem LeadsTo.unique {s n n' : Schema} (h : s.LeadsTo n) (h' : s.LeadsTo n') : n = n' := by
  induction h with
  | self isArray => exact (h'.eq_of_not_isArray isArray).symm
  | items isArray items _ ih => exact ih (h'.of_items isArray items)

theorem TypedAs.unique {s : Schema} {k k' : Scalar} (h : s.TypedAs k) (h' : s.TypedAs k') :
    k = k' := by
  obtain ⟨n, hn, hk⟩ := h
  obtain ⟨n', hn', hk'⟩ := h'
  rw [hn.unique hn', hk', Option.some.injEq] at hk
  exact hk.symm

theorem typedAs_iff_of_not_isArray {s : Schema} (hs : s.isArray = false) {k : Scalar} :
    s.TypedAs k ↔ Scalar.ofSchema? s = some k := by
  constructor
  · rintro ⟨n, hn, hk⟩
    rwa [hn.eq_of_not_isArray hs] at hk
  · intro hk
    exact ⟨s, .self hs, hk⟩

theorem typedAs_iff_of_items {s e : Schema} (hs : s.isArray = true) (hitems : s.items = some e)
    {k : Scalar} : s.TypedAs k ↔ e.TypedAs k := by
  constructor
  · rintro ⟨n, hn, hk⟩
    exact ⟨n, hn.of_items hs hitems, hk⟩
  · rintro ⟨n, hn, hk⟩
    exact ⟨n, .items hs hitems hn, hk⟩

theorem isArray_of_ofSchema? {s : Schema} {k : Scalar} (h : Scalar.ofSchema? s = some k) :
    s.isArray = false := by
  unfold Scalar.ofSchema? at h
  unfold isArray
  grind

end Schema

/-! ## Resolving -/

namespace TypeRef

theorem resolve_of_leadsTo (packageName : String) {s n : Schema} (h : s.LeadsTo n) :
    resolve packageName s = resolve packageName n := by
  induction h with
  | self _ => rfl
  | items isArray items _ ih => exact (resolve_of_items packageName isArray items).trans ih

/-- A scalar resolves to its class in every session, which stays as it is. -/
theorem resolve_of_typedAs (packageName : String) {s : Schema} {k : Scalar} (h : s.TypedAs k) :
    resolve packageName s = pure (k.target packageName) := by
  obtain ⟨n, hn, hk⟩ := h
  have harray : ¬ n.isArray = true := by simp [hn.isArray]
  rw [resolve_of_leadsTo packageName hn, resolve, if_neg harray, hk]

theorem yields_resolveNamed_model (s : Schema) :
    (resolveNamed s).Yields fun t => ∃ className, t = .model className := by
  unfold resolveNamed
  split
  · exact yields_bind_of_forall fun c => yields_pure ⟨c, rfl⟩
  · split <;> exact yields_bind_of_forall fun _ => yields_pure ⟨_, rfl⟩

/-- What is no scalar resolves to the class of a model. -/
theorem yields_resolve_model (packageName : String) {s : Schema} (h : ∀ k, ¬ s.TypedAs k) :
    (resolve packageName s).Yields fun t => ∃ className, t = .model className := by
  induction s using TypeRef.resolve.induct with
  | case1 s harray items hitems ih =>
    rw [resolve_of_items packageName harray hitems]
    exact ih fun k hk => h k ((Schema.typedAs_iff_of_items harray hitems).2 hk)
  | case2 s harray hitems =>
    rw [resolve_of_items_eq_none packageName harray hitems]
    exact yields_bind_of_forall fun _ => yields_pure ⟨_, rfl⟩
  | case3 s harray scalar hscalar =>
    exact absurd ⟨s, .self (by simpa using harray), hscalar⟩ (h scalar)
  | case4 s harray hscalar =>
    rw [resolve, if_neg harray, hscalar]
    exact yields_resolveNamed_model s

theorem yields_resolve_classifies (packageName : String) (s : Schema) :
    (resolve packageName s).Yields fun t => t.Classifies packageName s := by
  by_cases h : ∃ k, s.TypedAs k
  · obtain ⟨k, hk⟩ := h
    rw [resolve_of_typedAs packageName hk]
    exact yields_pure (.scalar hk rfl)
  · rw [not_exists] at h
    refine (yields_resolve_model packageName h).mono ?_
    rintro t ⟨c, rfl⟩
    exact .model h rfl

namespace Classifies

variable {packageName : String} {s : Schema} {t : TypeRef}

theorem isPrimitive_iff (h : t.Classifies packageName s) :
    t.isPrimitive = true ↔ ∃ k, s.TypedAs k ∧ k ≠ .map := by
  cases h with
  | scalar typed eq =>
    rw [eq, Scalar.isPrimitive_target_iff]
    exact ⟨fun hk => ⟨_, typed, hk⟩, fun ⟨_, hk', hne⟩ => typed.unique hk' ▸ hne⟩
  | model untyped eq =>
    rw [eq]
    exact iff_of_false (by simp [isPrimitive]) fun ⟨k, hk, _⟩ => untyped k hk

theorem eq_mapContainer_iff (h : t.Classifies packageName s) :
    t = .packaged (Scalar.mapContainer packageName) ↔ s.TypedAs .map := by
  cases h with
  | scalar typed eq =>
    rw [eq, Scalar.target_eq_packaged_iff, and_iff_left rfl]
    exact ⟨fun hk => hk ▸ typed, typed.unique⟩
  | model untyped eq =>
    rw [eq]
    exact iff_of_false (by simp) (untyped _)

theorem eq_target (h : t.Classifies packageName s) {k : Scalar} (hk : s.TypedAs k) :
    t = k.target packageName := by
  cases h with
  | scalar typed eq => rw [eq, typed.unique hk]
  | model untyped _ => exact absurd hk (untyped k)

end Classifies

end TypeRef

end ApiGraph

import ApiGraph.Proofs.Lifting.Frame
import ApiGraph.Proofs.Model.Displaced
import ApiGraph.Proofs.Model.References

/-!
# Nested fields

The items of a field are a field of their own, and so on inwards. Each of them is built of a
schema inside the schema of the field, and asks anew for the names that its owner has asked for
already. A registry that knows those names gives the same answers at every depth, so whatever
is said of a field over its last registry can be said of its items by `recalls_build_iff`.

Main statement: a field has items where its schema has an element, arrays have the type of what
is innermost in them, and the flag of a primitive type is right at every depth, also after the
fields of models have been normalized.
-/

namespace ApiGraph

open Identifier Naming

namespace Field

/-- The field `g` is `f` itself or stands inside it, at some depth. -/
inductive Contains : Field → Field → Prop
  | self (f : Field) : Contains f f
  | inside {f g h : Field} (items : f.items = some g) (within : Contains g h) : Contains f h

/-- The field `g` is `f` itself, or items of arrays lead from `f` to `g`. -/
inductive ArraysTo : Field → Field → Prop
  | self (f : Field) : ArraysTo f f
  | items {f g h : Field} (isArray : f.isArray = true) (items : f.items = some g)
      (rest : ArraysTo g h) : ArraysTo f h

/-- The flag for a primitive type is right, in the field and in everything inside it. -/
def FlagsPrimitives (f : Field) : Prop :=
  ∀ g, f.Contains g → (g.isPrimitive = true ↔ ∃ p, g.typeRef = .primitive p)

/-- One level of a field that is built of a schema, over a registry that knows its names. -/
structure Nests (packageName : String) (unions : List String) (r : Registry) (s : Schema)
    (f : Field) : Prop where
  hasItems_iff : f.items.isSome = true ↔
    s.isArray = true ∧ s.items.isSome = true ∨ s.isArray = false ∧ s.isMap = true
  items : ∀ g, f.items = some g → g.name = f.name ∧ g.baseName = f.baseName ∧ g.required = false ∧
    ∃ e, (if s.isArray then s.items else s.additionalProperties) = some e ∧
      (build packageName unions f.baseName false e).Recalls r g
  typeRef : ∀ g, s.isArray = true → f.items = some g → f.typeRef = g.typeRef
  isArray : f.isArray = s.isArray
  isPrimitive : f.isPrimitive = true ↔ ∃ p, f.typeRef = .primitive p

end Field

theorem TypeRef.isPrimitive_iff {t : TypeRef} : t.isPrimitive = true ↔ ∃ p, t = .primitive p := by
  cases t <;> simp [isPrimitive]

theorem Schema.isSome_element?_iff {s : Schema} :
    s.element?.isSome = true ↔
      s.isArray = true ∧ s.items.isSome = true ∨ s.isArray = false ∧ s.isMap = true := by
  unfold element?
  cases s.isArray with
  | true => simp
  | false => cases hmap : s.isMap <;> simp_all [isMap]

theorem Schema.element?_eq_some {s e : Schema} (h : s.element? = some e) :
    (if s.isArray then s.items else s.additionalProperties) = some e := by
  unfold element? at h
  split
  · rwa [if_pos ‹_›] at h
  · rw [if_neg ‹_›] at h
    split at h
    · exact h
    · cases h

/-! ## Building -/

namespace Field

variable {packageName : String} {unions : List String} {baseName : String} {required : Bool}
  {r : Registry} {s : Schema} {f : Field}

theorem memoizing_build (packageName : String) (unions : List String) (baseName : String)
    (required : Bool) (s : Schema) :
    (build packageName unions baseName required s).Memoizing :=
  (composed_build packageName unions baseName required s).memoizing

theorem build_eq (packageName : String) (unions : List String) (baseName : String)
    (required : Bool) (s : Schema) :
    build packageName unions baseName required s = (do
      let name ← sanitize baseName .field
      let typeRef ← TypeRef.resolve packageName s
      let items ← s.element?.mapM (build packageName unions baseName false)
      return ofProperty unions baseName required s name typeRef items) := by
  rw [build]
  refine bind_congr fun name => bind_congr fun typeRef => ?_
  split
  · rename_i hnone
    rw [hnone]
    rfl
  · rename_i element helement
    rw [helement, Option.mapM_some, bind_map_left]

/-- What a field is recalled with, its items are recalled with as a field of the element. -/
theorem exists_of_recalls_build
    (h : (build packageName unions baseName required s).Recalls r f) :
    ∃ name typeRef items, (sanitize baseName .field).Recalls r name ∧
      (TypeRef.resolve packageName s).Recalls r typeRef ∧
        Option.Rel (fun e g => (build packageName unions baseName false e).Recalls r g)
          s.element? items ∧
          ofProperty unions baseName required s name typeRef items = f := by
  have hname := (composed_sanitize baseName .field).memoizing
  have htype := (TypeRef.composed_resolve packageName s).memoizing
  have hitems : (s.element?.mapM (build packageName unions baseName false)).Memoizing :=
    (Composed.mapM_option fun e _ => composed_build packageName unions baseName false e).memoizing
  rw [build_eq] at h
  obtain ⟨name, hname', h⟩ := (recalls_bind_iff hname fun name =>
    htype.bind fun typeRef => hitems.bind fun items => memoizing_pure _).1 h
  obtain ⟨typeRef, htype', h⟩ := (recalls_bind_iff htype fun typeRef =>
    hitems.bind fun items => memoizing_pure _).1 h
  obtain ⟨items, hitems', h⟩ := (recalls_bind_iff hitems fun items => memoizing_pure _).1 h
  refine ⟨name, typeRef, items, hname', htype', ?_, recalls_pure_iff.1 h⟩
  exact (recalls_mapM_option_iff fun e => memoizing_build packageName unions baseName false e).1
    hitems'

/-- The items of a level ask for the names that the level has asked for, and get the same. -/
theorem nests_ofProperty (required : Bool) {name : String} {typeRef : TypeRef}
    {items : Option Field} (hname : (sanitize baseName .field).Recalls r name)
    (htype : (TypeRef.resolve packageName s).Recalls r typeRef)
    (hitems : Option.Rel (fun e g => (build packageName unions baseName false e).Recalls r g)
      s.element? items) :
    (ofProperty unions baseName required s name typeRef items).Nests packageName unions r s where
  hasItems_iff := by
    rw [← Schema.isSome_element?_iff]
    change items.isSome = true ↔ _
    generalize s.element? = o at hitems
    cases hitems <;> simp
  items g hg := by
    obtain ⟨e, helement, hrec⟩ := exists_of_rel_some hitems hg
    obtain ⟨name', typeRef', items', hname', -, -, rfl⟩ := exists_of_recalls_build hrec
    exact ⟨hname'.unique hname, rfl, rfl, e, Schema.element?_eq_some helement, hrec⟩
  typeRef g harray hg := by
    obtain ⟨e, helement, hrec⟩ := exists_of_rel_some hitems hg
    obtain ⟨name', typeRef', items', -, htype', -, rfl⟩ := exists_of_recalls_build hrec
    have hitem : s.items = some e := by
      have hsome := Schema.element?_eq_some helement
      rwa [if_pos harray] at hsome
    rw [TypeRef.resolve_of_items packageName harray hitem] at htype
    exact htype.unique htype'
  isArray := rfl
  isPrimitive := TypeRef.isPrimitive_iff

/-- Over a registry that knows all names, every level is built of the schema there. -/
theorem mirrors_of_recalls (h : (build packageName unions baseName required s).Recalls r f) :
    f.Mirrors (Nests packageName unions r) s := by
  induction required, s using Field.build.induct generalizing f with
  | case1 required s ih =>
    -- the registry is the same at every level, so the induction is on the schema alone
    obtain ⟨name, typeRef, items, hname, htype, hitems, rfl⟩ := exists_of_recalls_build h
    have hnests := nests_ofProperty required hname htype hitems
    cases helement : s.element? with
    | none =>
      rw [helement] at hitems
      cases hitems
      exact .plain hnests helement rfl
    | some e =>
      rw [helement] at hitems
      obtain ⟨hg⟩ := hitems
      exact .inside hnests helement rfl (ih e helement hg)

/-! ## Depths -/

theorem Mirrors.exists_of_contains {R : Schema → Field → Prop} {g : Field} (hf : f.Mirrors R s)
    (h : f.Contains g) : ∃ e, g.Mirrors R e := by
  induction h generalizing s with
  | self f => exact ⟨s, hf⟩
  | inside items _ ih =>
    cases hf with
    | plain _ _ hnone =>
      rw [hnone] at items
      cases items
    | inside _ _ hsome within =>
      cases hsome.symm.trans items
      exact ih within

/-- Arrays have the type of what is inside them. -/
theorem typeRef_eq_of_arraysTo {g : Field} (hf : f.Mirrors (Nests packageName unions r) s)
    (h : f.ArraysTo g) : f.typeRef = g.typeRef := by
  induction h generalizing s with
  | self f => rfl
  | items harray items _ ih =>
    have htype := hf.node.typeRef _ (hf.node.isArray.symm.trans harray) items
    cases hf with
    | plain _ _ hnone =>
      rw [hnone] at items
      cases items
    | inside _ _ hsome within =>
      cases hsome.symm.trans items
      exact htype.trans (ih within)

theorem Mirrors.flagsPrimitives (hf : f.Mirrors (Nests packageName unions r) s) :
    f.FlagsPrimitives := by
  intro g hg
  obtain ⟨e, hmirrors⟩ := hf.exists_of_contains hg
  exact hmirrors.node.isPrimitive

theorem flagsPrimitives_iff :
    f.FlagsPrimitives ↔ (f.isPrimitive = true ↔ ∃ p, f.typeRef = .primitive p) ∧
      ∀ g ∈ f.items, g.FlagsPrimitives := by
  constructor
  · intro h
    exact ⟨h f (.self f), fun g hg g' hg' => h g' (.inside hg hg')⟩
  · rintro ⟨hself, hitems⟩ g hg
    cases hg with
    | self => exact hself
    | inside items within => exact hitems _ items g within

/-! ## Normalizing -/

theorem FlagsPrimitives.of_eq {f' : Field} (h : f.FlagsPrimitives)
    (hflag : f'.isPrimitive = f.isPrimitive) (htype : f'.typeRef = f.typeRef)
    (hitems : f'.items = f.items) : f'.FlagsPrimitives := by
  rw [flagsPrimitives_iff] at h ⊢
  rwa [hflag, htype, hitems]

/-- A reference to the model of an enumeration is flagged as one. -/
theorem FlagsPrimitives.referTo (h : f.FlagsPrimitives) (c : String) :
    (f.referTo c).FlagsPrimitives := by
  rw [flagsPrimitives_iff] at h ⊢
  refine ⟨by simp [Field.referTo], fun g hg => ?_⟩
  -- items that are an enumeration get the reference as well, and all others stay as they are
  obtain ⟨g', hg', rfl⟩ := Option.map_eq_some_iff.1 hg
  have hitems := h.2 g' hg'
  split
  · rw [flagsPrimitives_iff] at hitems ⊢
    exact ⟨by simp, hitems.2⟩
  · exact hitems

theorem FlagsPrimitives.markTarget (h : f.FlagsPrimitives) (u : ModelSet) :
    (u.markTarget f).FlagsPrimitives := by
  obtain ⟨annotations, heq⟩ := u.markTarget_eq f
  rw [heq]
  exact h.of_eq rfl rfl rfl

theorem FlagsPrimitives.markField (h : f.FlagsPrimitives) (u : ModelSet) :
    (u.markField f).FlagsPrimitives := by
  unfold ModelSet.markField
  split
  · rw [flagsPrimitives_iff] at h ⊢
    refine ⟨h.1, fun g hg => ?_⟩
    obtain ⟨g', hg', rfl⟩ := Option.map_eq_some_iff.1 hg
    exact (h.2 g' hg').markTarget u
  · exact h.markTarget u

end Field

theorem Model.yields_build_flagsPrimitives (packageName : String) (unions : List String)
    (name : String) (s : Schema) :
    (build packageName unions name s).Yields fun m => ∀ f ∈ m.fields, f.FlagsPrimitives := by
  unfold build
  refine yields_bind_of_forall fun className => ?_
  split
  · exact yields_pure fun f hf => nomatch hf
  · refine yields_bind_of_forall fun oneOf => ?_
    refine (yields_mapM fun p _ => ?_).bind fun fields hfields => yields_pure hfields
    intro σ f τ h
    obtain ⟨-, hrecalls⟩ := Field.memoizing_build _ _ _ _ _ σ f τ h
    exact (Field.mirrors_of_recalls (hrecalls τ.registry (le_refl τ.registry))).flagsPrimitives

/-- Whatever has been named before, a field and what is inside it mirror the schema level by
level; arrays have the type of what is innermost in them, whatever that type is called; and the
flag of a primitive type is right everywhere, which normalization does not change. -/
theorem Field.nested_of_build :
    (∀ packageName unions baseName required s σ f τ,
        build packageName unions baseName required s σ = .ok f τ →
          f.Mirrors (Nests packageName unions τ.registry) s ∧
            ∀ g h, f.Contains g → g.ArraysTo h → g.typeRef = h.typeRef) ∧
      (∀ nameExtensions s σ t τ, ModelSet.normalize nameExtensions s σ = .ok t τ →
        (∀ m ∈ s.toList, ∀ f ∈ m.fields, f.FlagsPrimitives) →
          ∀ m ∈ t.toList, ∀ f ∈ m.fields, f.FlagsPrimitives) ∧
        ∀ packageName d nameExtensions σ built σ₁ t τ,
          ModelSet.build packageName d σ = .ok built σ₁ →
            ModelSet.normalize nameExtensions built σ₁ = .ok t τ →
              ∀ m ∈ t.toList, ∀ f ∈ m.fields, f.FlagsPrimitives := by
  have hnormalize : ∀ nameExtensions s σ t τ, ModelSet.normalize nameExtensions s σ = .ok t τ →
      (∀ m ∈ s.toList, ∀ f ∈ m.fields, f.FlagsPrimitives) →
        ∀ m ∈ t.toList, ∀ f ∈ m.fields, f.FlagsPrimitives := by
    intro nameExtensions s σ t τ h hs
    exact ModelSet.yields_normalize_forall (fun f c hf => hf.referTo c)
      (fun u f hf => hf.markField u) hs σ t τ h
  refine ⟨fun packageName unions baseName required s σ f τ h => ?_, hnormalize,
    fun packageName d nameExtensions σ built σ₁ t τ hbuild h => ?_⟩
  · obtain ⟨-, hrecalls⟩ := memoizing_build packageName unions baseName required s σ f τ h
    have hmirrors := mirrors_of_recalls (hrecalls τ.registry (le_refl τ.registry))
    refine ⟨hmirrors, fun g h hg harrays => ?_⟩
    obtain ⟨e, hwithin⟩ := hmirrors.exists_of_contains hg
    exact typeRef_eq_of_arraysTo hwithin harrays
  · refine hnormalize nameExtensions built σ₁ t τ h ?_
    exact ModelSet.yields_buildInto_forall (fun m hm => nomatch hm)
      (fun p _ => Model.yields_build_flagsPrimitives packageName d.unionNames p.1 p.2) σ built σ₁
        hbuild

/-- A map of arrays of a class whose name is too long. -/
def Schema.table : Schema where
  kind := some .object
  additionalProperties := some
    { kind := some .array
      items := some
        { reference := some "CellOfATableWithANameThatIsLongerThanAnyClassNameOfTheLanguage42" } }

/-- An array of an enumeration. -/
def Document.withColors : Document where
  schemas := .ofList
    [("Sheet", { properties :=
        [("colors", { kind := some .array, items := some { enumValues := [.string "red"] } })] })]
  operations := []

theorem Field.nested_table :
    (∃ f τ, build "Sheets" [] "table" true .table .start = .ok f τ ∧
      ((f.typeRef, f.items.map fun g => (g.typeRef, g.items.map fun h => h.typeRef)) =
          (.packaged "Sheets.JSONMapperMap",
            some (.model "CellOfATableWithANameThatIsLongerThanAnyClassNameOfTheLang_0000",
              some (.model "CellOfATableWithANameThatIsLongerThanAnyClassNameOfTheLang_0000")))) ∧
        f.Mirrors (Nests "Sheets" [] τ.registry) .table ∧
          ∀ g h, f.Contains g → g.ArraysTo h → g.typeRef = h.typeRef) ∧
      ∃ built σ₁ t τ, ModelSet.build "Sheets" .withColors .start = .ok built σ₁ ∧
        ModelSet.normalize ["x-enumNames"] built σ₁ = .ok t τ ∧
          t.keys = ["Sheet", "SheetColorsEnum"] ∧
            ∀ m ∈ t.toList, ∀ f ∈ m.fields, f.FlagsPrimitives := by
  constructor
  · obtain ⟨f, τ, h, htypes⟩ := (succeedsWith_iff (s := .start)
      (x := build "Sheets" [] "table" true .table)
      (p := fun f => (f.typeRef, f.items.map fun g => (g.typeRef, g.items.map fun h => h.typeRef)) =
        (.packaged "Sheets.JSONMapperMap",
          some (.model "CellOfATableWithANameThatIsLongerThanAnyClassNameOfTheLang_0000",
            some (.model "CellOfATableWithANameThatIsLongerThanAnyClassNameOfTheLang_0000"))))).1
              (by decide +kernel)
    exact ⟨f, τ, h, of_decide_eq_true htypes, nested_of_build.1 _ _ _ _ _ _ f τ h⟩
  · obtain ⟨t, τ, hrun, hkeys⟩ := (succeedsWith_iff (s := .start)
      (x := ModelSet.build "Sheets" .withColors >>= ModelSet.normalize ["x-enumNames"])
      (p := fun t => t.keys = ["Sheet", "SheetColorsEnum"])).1 (by decide +kernel)
    obtain ⟨built, σ₁, hbuild, h⟩ := bind_eq_ok_iff.1 hrun
    refine ⟨built, σ₁, t, τ, hbuild, h, of_decide_eq_true hkeys, ?_⟩
    exact nested_of_build.2.2 _ _ _ _ built σ₁ t τ hbuild h

end ApiGraph

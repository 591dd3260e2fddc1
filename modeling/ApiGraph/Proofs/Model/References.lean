import ApiGraph.Proofs.Model.Steps
import ApiGraph.Proofs.TypeRef.Resolve

/-!
# References in models

A field is built of a schema together with everything inside it: the field has items when the
schema has an element, and those are the field of the element. `f.Mirrors R s` says so of the
field `f` and the schema `s`, with the relation `R` between the two at every depth.

Main statement: there is one model for each schema of a document, its members and fields mirror
those of the schema, and their types follow the references. The list of all models that are
built has them also when one displaces another in the set.
-/

namespace ApiGraph

open Identifier Naming

/-- The field and the schema, and what is inside both at every depth, are in the relation. -/
inductive Field.Mirrors (R : Schema → Field → Prop) : Schema → Field → Prop
  | plain {s : Schema} {f : Field} (node : R s f) (element : s.element? = none)
      (items : f.items = none) : Mirrors R s f
  | inside {s e : Schema} {f g : Field} (node : R s f) (element : s.element? = some e)
      (items : f.items = some g) (within : Mirrors R e g) : Mirrors R s f

/-- What a field is built to, as far as references go. -/
structure Field.Resolves (classOf : String → String → Prop) (s : Schema) (f : Field) : Prop where
  typeRef : f.typeRef.Follows classOf s
  isArray : f.isArray = s.isArray
  /-- A reference declares no enumeration, whatever else the schema lists. -/
  reference : f.isEnum = true → s.reference = none

/-- The type of a field whose schema is a reference, and no array, is the class referred to. -/
def Field.Refers (classOf : String → String → Prop) (s : Schema) (f : Field) : Prop :=
  s.isArray = false →
    ∀ name c, s.referenceName? = some name → classOf name c → f.typeRef = .model c

/-- The members of a union and the fields of a model, one for each member and each property. -/
structure Model.Mirrors (classOf : String → String → Prop) (R : Schema → Field → Prop) (s : Schema)
    (m : Model) : Prop where
  oneOf : List.Forall₂ (fun s u => u.typeRef.Follows classOf s) s.oneOf m.oneOf
  fields : List.Forall₂ (fun p f => f.baseName = p.1 ∧ f.Mirrors R p.2) s.properties m.fields

/-- The model is built of a named schema, and its types follow the references there. -/
structure Model.BuiltOf (classOf : String → String → Prop) (p : String × Schema) (m : Model) :
    Prop where
  name : m.name = p.1
  origin : m.origin = .source
  mirrors : p.2.isEnum = false → m.Mirrors classOf (Field.Resolves classOf) p.2

/-! ## Building -/

namespace Field.Mirrors

variable {R R' : Schema → Field → Prop} {s : Schema} {f : Field}

theorem mono (h : ∀ s f, R s f → R' s f) (hf : f.Mirrors R s) : f.Mirrors R' s := by
  induction hf with
  | plain node element items => exact .plain (h _ _ node) element items
  | inside node element items _ ih => exact .inside (h _ _ node) element items ih

theorem node (hf : f.Mirrors R s) : R s f := by
  cases hf with
  | plain node _ _ => exact node
  | inside node _ _ _ => exact node

theorem and (hf : f.Mirrors R s) (hf' : f.Mirrors R' s) :
    f.Mirrors (fun s f => R s f ∧ R' s f) s := by
  induction hf with
  | plain node element items => exact .plain ⟨node, hf'.node⟩ element items
  | inside node element items _ ih =>
    refine .inside ⟨node, hf'.node⟩ element items (ih ?_)
    cases hf' with
    | plain _ element' _ =>
      rw [element] at element'
      cases element'
    | inside _ element' items' within =>
      cases element.symm.trans element'
      cases items.symm.trans items'
      exact within

theorem congr {f' : Field} (hf : f.Mirrors R s) (hitems : f'.items = f.items) (hnode : R s f') :
    f'.Mirrors R s := by
  cases hf with
  | plain _ element items => exact .plain hnode element (hitems.trans items)
  | inside _ element items within => exact .inside hnode element (hitems.trans items) within

end Field.Mirrors

theorem Field.Resolves.mono {classOf classOf' : String → String → Prop}
    (h : ∀ name c, classOf' name c → classOf name c) {s : Schema} {f : Field}
    (hf : f.Resolves classOf s) : f.Resolves classOf' s :=
  ⟨hf.typeRef.mono h, hf.isArray, hf.reference⟩

theorem Field.Resolves.refers {classOf : String → String → Prop} {s : Schema} {f : Field}
    (hf : f.Resolves classOf s) : f.Refers classOf s :=
  fun harray name c hname hc => hf.typeRef s name c (.self harray) hname hc

theorem Field.resolves_ofProperty {classOf : String → String → Prop} (unions : List String)
    (baseName : String) (required : Bool) {s : Schema} (name : String) {typeRef : TypeRef}
    (items : Option Field) (h : typeRef.Follows classOf s) :
    (ofProperty unions baseName required s name typeRef items).Resolves classOf s where
  typeRef := h
  isArray := rfl
  reference := fun henum => by
    obtain ⟨-, hnone⟩ := Bool.and_eq_true_iff.1 henum
    exact Option.isNone_iff_eq_none.1 hnone

theorem Field.establishes_build (packageName : String) (unions : List String) (baseName : String)
    (required : Bool) (s : Schema) :
    (build packageName unions baseName required s).Establishes fun r f =>
      f.baseName = baseName ∧ f.Mirrors (Resolves (KnownClass r)) s := by
  induction required, s using Field.build.induct with
  | case1 required s ih =>
    unfold build
    refine (establishes_sanitize baseName .field).bind fun name => ?_
    refine (TypeRef.establishes_resolve packageName s).bind fun typeRef => ?_
    split
    · rename_i hnone
      refine establishes_pure fun r htype _ => ⟨rfl, .plain ?_ hnone rfl⟩
      exact resolves_ofProperty unions baseName required name none htype
    · rename_i element helement
      refine (ih element helement).bind fun items => establishes_pure fun r hitems htype _ => ?_
      refine ⟨rfl, .inside ?_ helement rfl hitems.2⟩
      exact resolves_ofProperty unions baseName required name (some items) htype

theorem UnionMember.establishes_build (packageName : String) (s : Schema) :
    (build packageName s).Establishes fun r u =>
      u.typeRef.Follows (KnownClass r) s :=
  (TypeRef.establishes_resolve packageName s).bind fun _ => establishes_pure fun _ htype => htype

theorem Model.establishes_build (packageName : String) (unions : List String) (name : String)
    (s : Schema) :
    (build packageName unions name s).Establishes fun r m =>
      KnownClass r name m.className ∧ m.BuiltOf (KnownClass r) (name, s) := by
  unfold build
  refine (establishes_sanitize name .model).bind fun className => ?_
  split
  · rename_i henum
    refine establishes_pure fun r hclass => ⟨hclass, rfl, rfl, fun hnot => ?_⟩
    rw [henum] at hnot
    cases hnot
  · refine (establishes_mapM fun s _ => UnionMember.establishes_build packageName s).bind
      fun oneOf => ?_
    refine (establishes_mapM fun p _ => Field.establishes_build packageName unions p.1
      (s.required.contains p.1) p.2).bind fun fields => ?_
    exact establishes_pure fun r hfields honeOf hclass =>
      ⟨hclass, rfl, rfl, fun _ => ⟨honeOf, hfields⟩⟩

theorem Model.BuiltOf.mono {classOf classOf' : String → String → Prop}
    (h : ∀ name c, classOf' name c → classOf name c) {p : String × Schema} {m : Model}
    (hm : m.BuiltOf classOf p) : m.BuiltOf classOf' p where
  name := hm.name
  origin := hm.origin
  mirrors := fun henum =>
    { oneOf := (hm.mirrors henum).oneOf.imp fun _ _ hu => hu.mono h
      fields := (hm.mirrors henum).fields.imp fun _ _ hf =>
        ⟨hf.1, hf.2.mono fun _ _ hnode => hnode.mono h⟩ }

namespace ModelSet

/-- Builds models as for a set, and lists them all, also those that are displaced. -/
def buildEach (packageName : String) (unions : List String) :
    ModelSet → List (String × Schema) → Naming (List Model)
  | _, [] => return []
  | models, p :: schemas => do
    let m ← Model.build packageName unions p.1 p.2
    let previous := (models.get? m.className).getD m
    reportIf (models.get? m.className).isSome
      (.classNameShared previous.name previous.className)
    let built ← buildEach packageName unions (models.insert m) schemas
    return m :: built

/-- The set that is built has the listed models put in one after the other. -/
theorem buildInto_eq (packageName : String) (unions : List String) (models : ModelSet)
    (schemas : List (String × Schema)) :
    buildInto packageName unions models schemas = do
      let built ← buildEach packageName unions models schemas
      return models.insertAll built := by
  induction schemas generalizing models with
  | nil => rfl
  | cons p schemas ih =>
    rw [buildInto_cons, buildEach, bind_assoc]
    refine bind_congr fun m => ?_
    dsimp only
    rw [bind_assoc]
    refine bind_congr fun _ => ?_
    rw [ih, bind_assoc]
    rfl

/-- Every model follows its references to the class names that the schemas have got. -/
theorem establishes_buildEach (packageName : String) (unions : List String) (models : ModelSet)
    (schemas : List (String × Schema)) :
    (buildEach packageName unions models schemas).Establishes fun r built =>
      List.Forall₂ (fun p m => KnownClass r p.1 m.className ∧ m.BuiltOf (KnownClass r) p)
        schemas built := by
  induction schemas generalizing models with
  | nil => exact establishes_pure fun r => .nil
  | cons p schemas ih =>
    unfold buildEach
    refine (Model.establishes_build packageName unions p.1 p.2).bind fun m => ?_
    refine (establishes_reportIf _ _).bind fun _ => ?_
    refine (ih (models.insert m)).bind fun built => ?_
    exact establishes_pure fun r hbuilt _ hm => .cons hm hbuilt

end ModelSet

end ApiGraph

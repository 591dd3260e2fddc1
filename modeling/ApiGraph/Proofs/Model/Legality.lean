import ApiGraph.Proofs.Identifier.Legality
import ApiGraph.Proofs.Keyed
import ApiGraph.Proofs.Model.Steps
import ApiGraph.Proofs.TypeRef.Resolve

/-!
# Legality of models

A model is legal when its class name is, and every class name that its fields and union
members refer to, every field at any depth of items and every member of its enumeration.

Building makes every name by `sanitize`. The names of lifted enumerations are not made
that way but joined from parts. They stay words because an owner and a field are legal
already and because what is appended is made of letters, digits and underscores.
-/

namespace ApiGraph

open Identifier Naming

/-! ## Legal parts -/

def TypeRef.Legal (t : TypeRef) : Prop := ∀ c ∈ t.modelName?, isLegal c .model = true

def Annotations.Legal (a : Annotations) : Prop := ∀ c ∈ a.oneOfName, isLegal c .model = true

/-- The names of a field are legal, and so are those of its items, at every depth. An
enumeration is named after its field. -/
inductive Field.Legal : Field → Prop where
  | intro {f : Field} (name : isLegal f.name .field = true) (typeRef : f.typeRef.Legal)
      (annotations : f.annotations.Legal) (enumName : ∀ n ∈ f.enumName, n = enumSuffix f.name)
      (items : ∀ g ∈ f.items, Field.Legal g) : Field.Legal f

/-- The names of a model, of its fields, of its members and of its union are legal. -/
structure Model.Legal (m : Model) : Prop where
  className : isLegal m.className .model = true
  fields : ∀ f ∈ m.fields, f.Legal
  allowableValues : ∀ a ∈ m.allowableValues, isLegal a.name .field = true
  oneOf : ∀ u ∈ m.oneOf, u.typeRef.Legal

def ModelSet.Legal (s : ModelSet) : Prop := ∀ m ∈ s.toList, m.Legal

theorem ModelSet.legal_empty : ModelSet.Legal ∅ := fun _ hm => absurd hm List.not_mem_nil

theorem ModelSet.Legal.insert {s : ModelSet} (hs : s.Legal) {m : Model} (hm : m.Legal) :
    ModelSet.Legal (s.insert m) := by
  intro m' hm'
  rcases Keyed.mem_toList_insert.1 hm' with rfl | ⟨hm', -⟩
  · exact hm
  · exact hs m' hm'

/-! ## Built models -/

theorem TypeRef.legal_model {c : String} (h : isLegal c .model = true) : (model c).Legal := by
  rintro c' hc'
  cases hc'
  exact h

theorem TypeRef.legal_freeFormObject : freeFormObject.Legal :=
  legal_model (by decide +kernel)

theorem TypeRef.legal_target (packageName : String) (scalar : Scalar) :
    (scalar.target packageName).Legal := by
  cases scalar <;> exact fun c hc => by cases hc

theorem TypeRef.yields_resolveNamed (s : Schema) : (resolveNamed s).Yields Legal := by
  unfold resolveNamed
  split
  · exact (yields_sanitize _ .model).bind fun c hc => yields_pure (legal_model hc)
  · split <;> exact yields_bind_of_forall fun _ => yields_pure legal_freeFormObject

theorem TypeRef.yields_resolve (packageName : String) (s : Schema) :
    (resolve packageName s).Yields Legal := by
  induction s using TypeRef.resolve.induct with
  | case1 s harray items hitems ih =>
    rw [resolve_of_items packageName harray hitems]
    exact ih
  | case2 s harray hitems =>
    rw [resolve_of_items_eq_none packageName harray hitems]
    exact yields_bind_of_forall fun _ => yields_pure legal_freeFormObject
  | case3 s harray scalar hscalar =>
    unfold resolve
    rw [if_neg harray, hscalar]
    exact yields_pure (legal_target packageName scalar)
  | case4 s harray hscalar =>
    unfold resolve
    rw [if_neg harray, hscalar]
    exact yields_resolveNamed s

theorem Field.legal_ofProperty (unions : List String) (baseName : String) (required : Bool)
    (s : Schema) {name : String} {typeRef : TypeRef} {items : Option Field}
    (hname : isLegal name .field = true) (htype : typeRef.Legal)
    (hitems : ∀ g ∈ items, g.Legal) :
    (ofProperty unions baseName required s name typeRef items).Legal := by
  refine .intro hname htype ?_ ?_ hitems
  · intro c hc
    unfold ofProperty at hc
    dsimp only at hc
    split at hc
    · exact htype c hc
    · cases hc
  · intro n hn
    unfold ofProperty at hn ⊢
    dsimp only at hn ⊢
    split at hn
    · cases hn
      rfl
    · cases hn

theorem Field.yields_build (packageName : String) (unions : List String) (baseName : String)
    (required : Bool) (s : Schema) :
    (build packageName unions baseName required s).Yields Legal := by
  induction required, s using Field.build.induct with
  | case1 required s ih =>
    unfold build
    refine (yields_sanitize baseName .field).bind fun name hname => ?_
    refine (TypeRef.yields_resolve packageName s).bind fun typeRef htype => ?_
    split
    · exact yields_pure (legal_ofProperty unions baseName required s hname htype (by simp))
    · rename_i element helement
      refine (ih element helement).bind fun items hitems => ?_
      refine yields_pure (legal_ofProperty unions baseName required s hname htype ?_)
      intro g hg
      cases hg
      exact hitems

theorem UnionMember.yields_build (packageName : String) (s : Schema) :
    (build packageName s).Yields fun u => u.typeRef.Legal :=
  (TypeRef.yields_resolve packageName s).bind fun _ htype => yields_pure htype

theorem Model.yields_build (packageName : String) (unions : List String) (name : String)
    (s : Schema) : (build packageName unions name s).Yields Legal := by
  unfold build
  refine (yields_sanitize name .model).bind fun className hclass => ?_
  split
  · refine yields_pure ⟨hclass, ?_, ?_, ?_⟩ <;> simp
  · refine (yields_mapM fun member _ =>
      UnionMember.yields_build packageName member).bind fun oneOf hone => ?_
    refine (yields_mapM fun property _ => Field.yields_build packageName unions property.1
      (s.required.contains property.1) property.2).bind fun fields hfields => ?_
    exact yields_pure ⟨hclass, hfields, by simp, hone⟩

theorem ModelSet.yields_build (packageName : String) (d : Document) :
    (build packageName d).Yields Legal :=
  yields_buildInto_forall legal_empty fun p _ => Model.yields_build packageName _ p.1 p.2

/-! ## Normalized models -/

theorem all_isWordChar_numberSuffix (n : Nat) :
    ("_" ++ n.repr).toList.all isWordChar = true := by
  rw [String.toList_append, Nat.toList_repr, List.all_append, Bool.and_eq_true]
  refine ⟨by decide, List.all_eq_true.2 fun c hc => ?_⟩
  exact isWordChar_of_isDigit (Nat.isDigit_of_mem_toDigits (by decide) (by decide) hc)

theorem Field.isWord_enumSuffix {fieldName : String} (h : isLegal fieldName .field = true) :
    isWord (enumSuffix fieldName).toList = true := by
  rw [enumSuffix, String.toList_append]
  exact isWord_append (isWord_capitalizeFirst ((isLegal_iff _ _).1 h).1) (by decide)

theorem Model.isWord_candidateSuffix {enumName : String} (h : isWord enumName.toList = true)
    (attempt : Nat) : isWord (candidateSuffix enumName attempt).toList = true := by
  unfold candidateSuffix
  split
  · exact h
  · rw [String.append_assoc, String.toList_append]
    exact isWord_append h (all_isWordChar_numberSuffix attempt)

/-- The candidates for the name of a lifted enumeration can be cut to words. -/
theorem Model.wordlike_candidate {owner fieldName : String} (howner : isLegal owner .model = true)
    (hfield : isLegal fieldName .field = true) (attempt : Nat) :
    (⟨owner, candidateSuffix (Field.enumSuffix fieldName) attempt⟩ : Request).Wordlike := by
  have hword := isWord_candidateSuffix (Field.isWord_enumSuffix hfield) attempt
  exact ⟨((isLegal_iff _ _).1 howner).1, all_of_isWord hword, fun _ => hword⟩

/-- They are not reserved: the first ends like an enumeration, the others have an underscore. -/
theorem Model.isReserved_candidate (owner fieldName : String) (attempt : Nat) (role : Role) :
    isReserved (⟨owner, candidateSuffix (Field.enumSuffix fieldName) attempt⟩ : Request).joined
      role = false := by
  unfold Request.joined candidateSuffix Field.enumSuffix
  split
  · refine isReserved_eq_false_of_enum ?_ role
    rw [String.toList_append, String.toList_append, ← List.append_assoc]
    exact List.suffix_append _ _
  · refine isReserved_eq_false_of_underscore ?_ role
    simp

theorem Field.Legal.liftedName {f : Field} (h : f.Legal) : f.liftedName = enumSuffix f.name := by
  obtain ⟨-, -, -, henum, -⟩ := h
  unfold Field.liftedName
  cases hname : f.enumName with
  | none => rfl
  | some n => exact henum n hname

theorem Field.Legal.enumSource? {f source : Field} (h : f.Legal)
    (hsource : f.enumSource? = some source) : source.Legal := by
  obtain ⟨-, -, -, -, hitems⟩ := id h
  unfold Field.enumSource? at hsource
  split at hsource
  · cases hsource
    exact h
  · split at hsource
    · rename_i items heq
      split at hsource
      · cases hsource
        exact hitems _ heq
      · cases hsource
    · cases hsource

theorem Field.Legal.referTo {f : Field} (h : f.Legal) {className : String}
    (hclass : isLegal className .model = true) : (f.referTo className).Legal := by
  obtain ⟨hname, -, hannotations, henum, hitems⟩ := h
  refine .intro hname (TypeRef.legal_model hclass) hannotations henum ?_
  intro g hg
  obtain ⟨items, heq, rfl⟩ := Option.map_eq_some_iff.1 hg
  obtain ⟨hname', htype', hannotations', henum', hitems'⟩ := id (hitems items heq)
  split
  · exact .intro hname' (TypeRef.legal_model hclass) hannotations' henum' hitems'
  · exact hitems items heq

theorem AllowableValue.yields_ofRaw (raw : String) (value : EnumLiteral) :
    (ofRaw raw value).Yields fun a => isLegal a.name .field = true := by
  refine (yields_trySanitize raw .field).bind fun name? hname => yields_pure ?_
  cases name? with
  | none => exact (by decide +kernel : isLegal emptyMemberName .field = true)
  | some name => exact hname name rfl

theorem AllowableValue.yields_build (nameExtensions : List String) (values : List EnumLiteral)
    (e : Extensions) :
    (build nameExtensions values e).Yields fun l => ∀ a ∈ l, isLegal a.name .field = true := by
  rw [build_eq]
  exact yields_bind_of_forall fun _ => yields_mapM fun p _ => yields_ofRaw p.1 p.2

theorem Model.yields_freeName {owner fieldName : String} (howner : isLegal owner .model = true)
    (hfield : isLegal fieldName .field = true) (origin : ModelOrigin) (claimed : ModelSet)
    (tries attempt : Nat) :
    (freeName owner (Field.enumSuffix fieldName) origin claimed tries attempt).Yields
      fun p => isLegal p.1 .model = true := by
  induction tries generalizing attempt with
  | zero =>
    intro s a t h
    cases h
  | succ tries ih =>
    unfold freeName
    refine (yields_truncate (wordlike_candidate howner hfield attempt)
      (isReserved_candidate owner fieldName attempt .model)).bind fun className hclass => ?_
    split
    · exact ih (attempt + 1)
    · exact yields_pure hclass

theorem Model.yields_liftEnum (nameExtensions : List String) {owner : String}
    (howner : isLegal owner .model = true) (baseName : String) {source : Field}
    (hsource : source.Legal) (claimed : ModelSet) :
    (liftEnum nameExtensions owner baseName source claimed).Yields Legal := by
  obtain ⟨hname, -, -, -, -⟩ := id hsource
  rw [liftEnum_eq, hsource.liftedName]
  refine (yields_freeName howner hname _ claimed _ 0).bind fun p hclass => ?_
  refine yields_bind_of_forall fun _ => ?_
  refine (AllowableValue.yields_build _ _ _).bind fun allowableValues hallowable => ?_
  exact yields_pure ⟨hclass, by simp, hallowable, by simp⟩

theorem Field.yields_lift (nameExtensions : List String) {owner : String}
    (howner : isLegal owner .model = true) {claimed : ModelSet}
    (hclaimed : claimed.Legal) {f : Field} (hf : f.Legal) :
    (lift nameExtensions owner claimed f).Yields
      fun p => p.1.Legal ∧ p.2.Legal := by
  unfold lift
  split
  · exact yields_pure ⟨hf, hclaimed⟩
  · rename_i source hsource
    refine (Model.yields_liftEnum nameExtensions howner f.baseName (hf.enumSource? hsource)
      claimed).bind fun m hm => ?_
    exact yields_pure ⟨hf.referTo hm.className, hclaimed.insert hm⟩

theorem Field.yields_liftAll (nameExtensions : List String) {owner : String}
    (howner : isLegal owner .model = true) {claimed : ModelSet}
    (hclaimed : claimed.Legal) {fields : List Field}
    (hfields : ∀ f ∈ fields, f.Legal) :
    (liftAll nameExtensions owner claimed fields).Yields
      fun p => (∀ f ∈ p.1, f.Legal) ∧ p.2.Legal := by
  induction fields generalizing claimed with
  | nil => exact yields_pure ⟨by simp, hclaimed⟩
  | cons f fields ih =>
    obtain ⟨hf, hrest⟩ := List.forall_mem_cons.1 hfields
    unfold liftAll
    refine (yields_lift nameExtensions howner hclaimed hf).bind fun p hp => ?_
    refine (ih hp.2 hrest).bind fun q hq => ?_
    exact yields_pure ⟨List.forall_mem_cons.2 ⟨hp.1, hq.1⟩, hq.2⟩

theorem Model.yields_normalize (nameExtensions : List String) {claimed : ModelSet}
    (hclaimed : claimed.Legal) {m : Model} (hm : m.Legal) :
    (normalize nameExtensions claimed m).Yields
      fun p => p.1.Legal ∧ p.2.Legal := by
  unfold normalize
  split
  · refine (AllowableValue.yields_build _ _ _).bind fun allowableValues hallowable => ?_
    exact yields_pure ⟨⟨hm.className, hm.fields, hallowable, hm.oneOf⟩, hclaimed⟩
  · refine (Field.yields_liftAll nameExtensions hm.className hclaimed hm.fields).bind
      fun p hp => ?_
    exact yields_pure ⟨⟨hm.className, hp.1, hm.allowableValues, hm.oneOf⟩, hp.2⟩

theorem Model.yields_normalizeAll (nameExtensions : List String) {claimed : ModelSet}
    (hclaimed : claimed.Legal) {models : List Model}
    (hmodels : ∀ m ∈ models, m.Legal) :
    (normalizeAll nameExtensions claimed models).Yields
      fun p => (∀ m ∈ p.1, m.Legal) ∧ p.2.Legal := by
  induction models generalizing claimed with
  | nil => exact yields_pure ⟨by simp, hclaimed⟩
  | cons m models ih =>
    obtain ⟨hm, hrest⟩ := List.forall_mem_cons.1 hmodels
    unfold normalizeAll
    refine (yields_normalize nameExtensions hclaimed hm).bind fun p hp => ?_
    refine (ih hp.2 hrest).bind fun q hq => ?_
    exact yields_pure ⟨List.forall_mem_cons.2 ⟨hp.1, hq.1⟩, hq.2⟩

theorem ModelSet.yields_merge {s : ModelSet} (hs : s.Legal) {lifted : List Model}
    (hlifted : ∀ m ∈ lifted, m.Legal) : (merge s lifted).Yields Legal := by
  induction lifted generalizing s with
  | nil => exact yields_pure hs
  | cons e rest ih =>
    obtain ⟨he, hrest⟩ := List.forall_mem_cons.1 hlifted
    rw [merge_cons]
    exact yields_bind_of_forall fun _ => ih (hs.insert he) hrest

theorem Field.Legal.markTarget {f : Field} (h : f.Legal) (s : ModelSet) :
    (s.markTarget f).Legal := by
  obtain ⟨hname, htype, hannotations, henum, hitems⟩ := id h
  unfold ModelSet.markTarget
  split
  · exact .intro hname htype hannotations henum hitems
  · exact h

theorem Field.Legal.markField {f : Field} (h : f.Legal) (s : ModelSet) :
    (s.markField f).Legal := by
  obtain ⟨hname, htype, hannotations, henum, hitems⟩ := id h
  unfold ModelSet.markField
  split
  · refine .intro hname htype hannotations henum fun g hg => ?_
    obtain ⟨items, heq, rfl⟩ := Option.map_eq_some_iff.1 hg
    exact (hitems items heq).markTarget s
  · exact h.markTarget s

theorem ModelSet.Legal.annotateUnions {s : ModelSet} (h : s.Legal) : s.annotateUnions.Legal := by
  intro m' hm'
  obtain ⟨m, hm, rfl⟩ := List.mem_map.1 hm'
  obtain ⟨hclass, hfields, hallowable, hone⟩ := h m hm
  refine ⟨hclass, fun f' hf' => ?_, hallowable, hone⟩
  obtain ⟨f, hf, rfl⟩ := List.mem_map.1 hf'
  exact (hfields f hf).markField s

theorem ModelSet.yields_normalize (nameExtensions : List String) {s : ModelSet} (hs : s.Legal) :
    (normalize nameExtensions s).Yields Legal := by
  unfold normalize
  refine (Model.yields_normalizeAll nameExtensions legal_empty hs).bind fun p hp => ?_
  refine (yields_merge (fun m hm => hp.1 m (Keyed.mem_of_mem_ofList hm)) hp.2).bind
    fun merged hmerged => ?_
  refine yields_bind_of_forall fun _ => yields_bind_of_forall fun _ => ?_
  exact yields_pure hmerged.annotateUnions

end ApiGraph

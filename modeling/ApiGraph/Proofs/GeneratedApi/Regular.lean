import ApiGraph.Proofs.Document.Regular
import ApiGraph.Proofs.GeneratedApi.Encoding
import ApiGraph.Proofs.Lifting.Frame
import ApiGraph.Proofs.Lifting.MemberNames

/-!
# Results of texts are regular

A result has no literals and no extensions but those of its document: building hands them on,
normalization copies them from a field to the model of its enumeration, and annotating leaves them
alone. So they are in a result as they are in its text.

Main statement: every run over a text that succeeds has a regular result. It is therefore one of
those that are written without loss.
-/

namespace ApiGraph

open Naming

/-! ## Models that are built -/

theorem Schema.Regular.element {s e : Schema} (hs : s.Regular) (he : s.element? = some e) :
    e.Regular := by
  obtain ⟨-, -, -, hitems, hvalues⟩ := hs
  unfold element? at he
  split at he
  · exact hitems e he
  · split at he
    · exact hvalues e he
    · cases he

theorem Field.regular_ofProperty (unions : List String) (baseName : String) (required : Bool)
    {s : Schema} (hs : s.Regular) (name : String) (typeRef : TypeRef) {items : Option Field}
    (hitems : ∀ i, items = some i → i.Regular) :
    (ofProperty unions baseName required s name typeRef items).Regular := by
  obtain ⟨hliterals, hextensions, -⟩ := hs
  refine .mk (fun l hl => ?_) hextensions hitems
  unfold ofProperty at hl
  dsimp only at hl
  split at hl
  · exact hliterals l hl
  · cases hl

theorem Field.yields_build_regular (packageName : String) (unions : List String)
    (baseName : String) (required : Bool) {s : Schema} (hs : s.Regular) :
    (build packageName unions baseName required s).Yields Regular := by
  induction required, s using Field.build.induct with
  | case1 required s ih =>
    unfold build
    refine yields_bind_of_forall fun name => yields_bind_of_forall fun typeRef => ?_
    split
    · refine yields_pure (regular_ofProperty _ _ _ hs _ _ fun i hi => ?_)
      cases hi
    · rename_i element helement
      refine (ih element helement (hs.element helement)).bind fun items hitems => ?_
      refine yields_pure (regular_ofProperty _ _ _ hs _ _ fun i hi => ?_)
      cases hi
      exact hitems

theorem Model.yields_build_regular (packageName : String) (unions : List String) (name : String)
    {s : Schema} (hs : s.Regular) : (build packageName unions name s).Yields Regular := by
  obtain ⟨hliterals, hextensions, hproperties, -, -⟩ := hs
  unfold build
  refine yields_bind_of_forall fun className => ?_
  split
  · exact yields_pure ⟨by simp, hliterals, by simp, hextensions⟩
  · refine yields_bind_of_forall fun oneOf => ?_
    refine (yields_mapM fun p hp => Field.yields_build_regular packageName unions p.1
      (s.required.contains p.1) (hproperties p hp)).bind fun fields hfields => ?_
    exact yields_pure ⟨hfields, by simp, by simp, hextensions⟩

theorem ModelSet.yields_build_regular (packageName : String) {d : Document} (hd : d.Regular) :
    (build packageName d).Yields fun s => ∀ m ∈ s.toList, m.Regular :=
  yields_buildInto_forall (fun _ hm => absurd hm List.not_mem_nil) fun p hp =>
    Model.yields_build_regular packageName d.unionNames p.1 (hd.1 p hp)

/-! ## Models that are normalized -/

namespace Field.Regular

variable {f : Field}

theorem enumSource? (h : f.Regular) {source : Field} (hsource : f.enumSource? = some source) :
    source.Regular := by
  cases enumSource?_eq_some_iff.1 hsource with
  | itself _ => exact h
  | items _ _ hitems _ =>
    obtain ⟨-, -, hregular⟩ := h
    exact hregular source hitems

theorem referTo (h : f.Regular) (className : String) : (f.referTo className).Regular := by
  obtain ⟨hliterals, hextensions, hitems⟩ := h
  refine .mk hliterals hextensions fun g hg => ?_
  obtain ⟨i, hi, rfl⟩ := Option.map_eq_some_iff.1 hg
  obtain ⟨hliterals', hextensions', hitems'⟩ := id (hitems i hi)
  split
  · exact .mk hliterals' hextensions' hitems'
  · exact hitems i hi

theorem markTarget (h : f.Regular) (u : ModelSet) : (u.markTarget f).Regular := by
  obtain ⟨hliterals, hextensions, hitems⟩ := id h
  unfold ModelSet.markTarget
  split
  · exact .mk hliterals hextensions hitems
  · exact h

theorem markField (h : f.Regular) (u : ModelSet) : (u.markField f).Regular := by
  obtain ⟨hliterals, hextensions, hitems⟩ := id h
  unfold ModelSet.markField
  split
  · refine .mk hliterals hextensions fun g hg => ?_
    obtain ⟨i, hi, rfl⟩ := Option.map_eq_some_iff.1 hg
    exact (hitems i hi).markTarget u
  · exact h.markTarget u

end Field.Regular

namespace ModelSet

/-- What an enumeration of regular models is made of is as a text gives it. -/
theorem Enumerates.regular {s : ModelSet} {values : List EnumLiteral} {e : Extensions}
    (h : s.Enumerates values e) (hs : ∀ m ∈ s.toList, m.Regular) :
    (∀ l ∈ values, l.Finite) ∧ e.Canonical := by
  cases h with
  | declared hm _ => exact ⟨(hs _ hm).literals, (hs _ hm).extensions⟩
  | inline hm _ hf hsource =>
    obtain ⟨hliterals, hextensions, -⟩ := ((hs _ hm).fields _ hf).enumSource? hsource
    exact ⟨hliterals, hextensions⟩

/-- Normalization leaves regular models: enumerations have the literals and the extensions of
enumerations that there were, and all other models keep what they have. -/
theorem yields_normalize_regular (nameExtensions : List String) {s : ModelSet}
    (hs : ∀ m ∈ s.toList, m.Regular) :
    (normalize nameExtensions s).Yields fun t => ∀ m ∈ t.toList, m.Regular := by
  intro σ t τ h m hm
  have hfields : ∀ f ∈ m.fields, f.Regular :=
    yields_normalize_forall (fun f c hf => hf.referTo c) (fun u f hf => hf.markField u)
      (fun m hm => (hs m hm).fields) σ t τ h m hm
  cases henum : m.isEnum with
  | true =>
    obtain ⟨-, hnamed⟩ := establishes_normalize nameExtensions s σ t τ h
    obtain ⟨hsource, hmembers⟩ := hnamed τ.registry (le_refl τ.registry) m hm henum
    obtain ⟨hliterals, hextensions⟩ := hsource.regular hs
    refine ⟨hfields, hliterals, fun a ha => hliterals a.value ?_, hextensions⟩
    rw [← hmembers.values]
    exact List.mem_map_of_mem ha
  | false =>
    obtain ⟨models, lifted, σ₁, merged, σ₂, hpass, -, rfl, rfl, -⟩ := normalize_eq_ok h
    have hframed := framed_of_normalizeAll hpass
    rcases hframed.mem_or_exists_kept hm with hlifted | ⟨m₀, hm₀, hkept⟩
    · -- a lifted model is an enumeration
      obtain ⟨-, i, -, members, -, heq⟩ := hframed.get?_lifted m hlifted
      rw [heq] at henum
      cases henum
    · obtain ⟨allowableValues, fields, rfl, hvalues, -⟩ := hkept
      obtain ⟨-, hliterals, hallowable, hextensions⟩ := hs m₀ hm₀
      exact ⟨hfields, hliterals, hvalues henum ▸ hallowable, hextensions⟩

end ModelSet

/-! ## Operations -/

theorem Parameter.yields_build_extensions (packageName : String) (spec : ParameterSpec) :
    (build packageName spec).Yields fun p => p.extensions = spec.extensions := by
  unfold build
  exact yields_bind_of_forall fun name => yields_bind_of_forall fun dataType => yields_pure rfl

namespace Operation

theorem yields_build_regular (packageName : String) {spec : OperationSpec} (h : spec.Regular) :
    (build packageName spec).Yields Regular := by
  unfold build
  refine yields_bind_of_forall fun operationId => yields_bind_of_forall fun tag => ?_
  refine (yields_mapM (Q := fun p => p.extensions.Canonical) fun p hp =>
    (Parameter.yields_build_extensions packageName p).mono fun q hq => ?_).bind
      fun parameters hparameters => yields_bind_of_forall fun returnType => ?_
  · rw [hq]
    exact h.parameters p hp
  · exact yields_pure ⟨hparameters, h.extensions⟩

theorem yields_distinguish_regular (taken : List String) {o : Operation} (ho : o.Regular) :
    (distinguish taken o).Yields Regular := by
  unfold distinguish
  split
  · refine yields_bind_of_forall fun renamed => yields_bind_of_forall fun _ => ?_
    exact yields_pure ⟨ho.parameters, ho.extensions⟩
  · exact yields_pure ho

theorem yields_buildAfter_regular (packageName : String) (taken : List String)
    {specs : List OperationSpec} (h : ∀ spec ∈ specs, spec.Regular) :
    (buildAfter packageName taken specs).Yields fun os => ∀ o ∈ os, o.Regular := by
  induction specs generalizing taken with
  | nil => exact yields_pure fun o ho => absurd ho List.not_mem_nil
  | cons spec specs ih =>
    obtain ⟨hspec, hspecs⟩ := List.forall_mem_cons.1 h
    unfold buildAfter
    refine (yields_build_regular packageName hspec).bind fun o ho => ?_
    refine (yields_distinguish_regular taken ho).bind fun o' ho' => ?_
    refine (ih (o'.operationId :: taken) hspecs).bind fun os hos => ?_
    exact yields_pure (List.forall_mem_cons.2 ⟨ho', hos⟩)

theorem Regular.annotate {o : Operation} (h : o.Regular) (config : Config) :
    (o.annotate config).Regular := by
  refine ⟨fun p' hp' => ?_, h.extensions⟩
  obtain ⟨p, hp, rfl⟩ := List.mem_map.1 hp'
  exact h.parameters p hp

end Operation

/-! ## Runs -/

namespace GeneratedApi

/-- Whatever the configuration, a run over a regular document has a regular result. -/
theorem yields_build_regular (config : Config) {d : Document} (hd : d.Regular) :
    (build config d).Yields Regular := by
  unfold build
  refine (ModelSet.yields_build_regular config.packageName hd).bind fun built hbuilt => ?_
  refine (ModelSet.yields_normalize_regular config.enumNameExtensions hbuilt).bind
    fun models hmodels => ?_
  refine (Operation.yields_buildAfter_regular config.packageName [] hd.2).bind fun raw hraw => ?_
  iterate 3 refine yields_bind_of_forall fun _ => ?_
  refine yields_pure ⟨hmodels, fun o' ho' => ?_⟩
  obtain ⟨o, ho, rfl⟩ := List.mem_map.1 ho'
  exact (hraw o ho).annotate config

/-- Whatever the configuration, a run over a text that succeeds has a regular result. -/
theorem regular_of_generateFromText {config : Config} {text : String} {api : GeneratedApi}
    (h : generateFromText config text = .ok api) : api.Regular := by
  unfold generateFromText at h
  split at h
  · cases h
  · rename_i d hread
    split at h
    · rename_i result s hrun
      obtain rfl : result = api := Except.ok.inj h
      exact yields_build_regular config (Document.regular_of_ofText hread) .start result s hrun
    · cases h

end GeneratedApi

end ApiGraph

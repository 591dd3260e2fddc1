import ApiGraph.Proofs.Document.SchemaOrder
import ApiGraph.Proofs.GeneratedApi.Stages

/-!
# What results do not depend on

Two runs are compared. Their models are equal when they agree on the schemas, the package name
and the extensions that may name the members of enumerations, since nothing else is read before
the models are done. Operations are built in the session that the models have left, but all
they read of it is the registry; when the models have left nothing in it, the operations do not
depend on the models.

The last statement is about texts: the order in which a text declares its schemas makes no
difference to the result.
-/

namespace ApiGraph

open Identifier Json Naming

namespace GeneratedApi

/-! ## Models and operations -/

/-- Building and normalizing the models of the document truncates no name. -/
def ModelsUntruncated (config : Config) (d : Document) : Prop :=
  ∃ built s₁ models s₂, ModelSet.build config.packageName d .start = .ok built s₁ ∧
    ModelSet.normalize config.enumNameExtensions built s₁ = .ok models s₂ ∧
      ∀ e ∈ s₂.log.toList, e.truncation? = none

instance (config : Config) (d : Document) : Decidable (ModelsUntruncated config d) :=
  decidable_of_iff
    ((do
      let built ← ModelSet.build config.packageName d
      let _ ← ModelSet.normalize config.enumNameExtensions built
      get : Naming Session).succeedsWith .start
        fun s => s.log.toList.all fun e => e.truncation?.isNone) <| by
    rw [succeedsWith_iff]
    constructor
    · rintro ⟨s, t, h, hall⟩
      obtain ⟨built, s₁, hbuild, h⟩ := bind_eq_ok_iff.1 h
      obtain ⟨models, s₂, hnormalize, h⟩ := bind_eq_ok_iff.1 h
      cases h
      refine ⟨built, s₁, models, s, hbuild, hnormalize, fun e he => ?_⟩
      exact Option.isNone_iff_eq_none.1 (List.all_eq_true.1 hall e he)
    · rintro ⟨built, s₁, models, s₂, hbuild, hnormalize, hall⟩
      refine ⟨s₂, s₂, bind_eq_ok_iff.2 ⟨built, s₁, hbuild, ?_⟩, ?_⟩
      · exact bind_eq_ok_iff.2 ⟨models, s₂, hnormalize, rfl⟩
      · exact List.all_eq_true.2 fun e he => Option.isNone_iff_eq_none.2 (hall e he)

/-- Models that truncate no name leave the registry as it was at the start. -/
theorem ModelsUntruncated.registry_eq {config : Config} {d : Document}
    (h : ModelsUntruncated config d) {built models : ModelSet} {s₁ s₂ : Session}
    (hbuild : ModelSet.build config.packageName d .start = .ok built s₁)
    (hnormalize : ModelSet.normalize config.enumNameExtensions built s₁ = .ok models s₂) :
    s₂.registry = ∅ := by
  obtain ⟨built', s₁', models', s₂', hbuild', hnormalize', hnone⟩ := h
  rw [hbuild] at hbuild'
  cases hbuild'
  rw [hnormalize] at hnormalize'
  cases hnormalize'
  have hbooked := booked_models hbuild hnormalize
  unfold Session.Booked at hbooked
  rw [List.filterMap_eq_nil_iff.2 hnone] at hbooked
  exact Registry.ext_entries (List.map_eq_nil_iff.1 (List.reverse_eq_nil_iff.1 hbooked.symm))

/-- Only the schemas of a document are read when models are built. -/
theorem build_congr (packageName : String) {d d' : Document} (h : d.schemas = d'.schemas) :
    ModelSet.build packageName d = ModelSet.build packageName d' := by
  unfold ModelSet.build Document.unionNames
  rw [h]

namespace Stages

variable {config config' : Config} {d d' : Document} {api api' : GeneratedApi} {s s' : Session}

theorem models_eq (h : Stages config d api s) (h' : Stages config' d' api' s')
    (hschemas : d.schemas = d'.schemas) (hname : config.packageName = config'.packageName)
    (hextensions : config.enumNameExtensions = config'.enumNameExtensions) :
    api.models = api'.models := by
  cases h with
  | run hbuild hnormalize _ =>
    cases h' with
    | run hbuild' hnormalize' _ =>
      rw [hname, build_congr _ hschemas, hbuild'] at hbuild
      cases hbuild
      rw [hextensions, hnormalize'] at hnormalize
      cases hnormalize
      rfl

theorem operations_eq (h : Stages config d api s) (h' : Stages config d' api' s')
    (hoperations : d.operations = d'.operations) (hmodels : ModelsUntruncated config d)
    (hmodels' : ModelsUntruncated config d') : api.operations = api'.operations := by
  cases h with
  | @run _ _ raw _ s₂ s₃ hbuild hnormalize hraw =>
    cases h' with
    | @run _ _ raw' _ s₂' s₃' hbuild' hnormalize' hraw' =>
      -- both runs come to the operations with an empty registry, and only the logs differ
      have hregistry : s₂.registry = s₂'.registry :=
        (hmodels.registry_eq hbuild hnormalize).trans
          (hmodels'.registry_eq hbuild' hnormalize').symm
      obtain ⟨log, hlog⟩ :=
        (Operation.composed_buildAfter _ _ _).run_of_log hraw s₂'.log
      rw [hregistry, hoperations] at hlog
      have heq := hlog.symm.trans hraw'
      cases heq
      rfl

end Stages

/-- The models of a run do not depend on the operations, nor on the settings apart from the two
that are named here; and when no name of a model is truncated, the operations do not depend on the
schemas. -/
theorem generate_noninterference :
    (∀ config config' d d' api api' s s', generate config d = .ok api s →
      generate config' d' = .ok api' s' → d.schemas = d'.schemas →
      config.packageName = config'.packageName →
      config.enumNameExtensions = config'.enumNameExtensions → api.models = api'.models) ∧
    ∀ config d d' api api' s s', generate config d = .ok api s → generate config d' = .ok api' s' →
      d.operations = d'.operations → ModelsUntruncated config d → ModelsUntruncated config d' →
      api.operations = api'.operations :=
  ⟨fun _ _ _ _ _ _ _ _ h h' => (stages_of_generate h).models_eq (stages_of_generate h'),
    fun _ _ _ _ _ _ _ h h' => (stages_of_generate h).operations_eq (stages_of_generate h')⟩

/-- A schema with an enumeration, and operations of which one has a name that is too long. -/
def petShop : Document where
  schemas := .ofList [("Pet", { properties := [("kind", { enumValues := [.string "cat"] })] })]
  operations :=
    [⟨"find", .get, "/pets", ["pets"], [⟨"kind", true, { reference := some "Pet" }, ∅⟩],
        some { kind := some .array, items := some { reference := some "Pet" } }, [], ∅⟩,
     ⟨"findAllPetsThatAnybodyHasEverAskedForInThisShopOrAnyOtherOneNearby", .get, "/pets/all", [],
        [], none, [], ∅⟩]

theorem generate_petShop_noninterference :
    ∃ api s api₁ s₁ api₂ s₂, generate {} petShop = .ok api s ∧
      generate { flavor := .server, addAuth := some "key", modelPackage := "data" }
        { petShop with operations := [] } = .ok api₁ s₁ ∧
      generate {} { petShop with schemas := ∅ } = .ok api₂ s₂ ∧
      api.models.keys = ["Pet", "PetKindEnum"] ∧ api.models = api₁.models ∧
      ModelsUntruncated {} petShop ∧ api.operations = api₂.operations := by
  obtain ⟨api, s, h, hkeys⟩ := (succeedsWith_iff (x := build {} petShop) (s := .start)
    (p := fun api => api.models.keys = ["Pet", "PetKindEnum"])).1 (by decide +kernel)
  obtain ⟨api₁, s₁, h₁, -⟩ := (succeedsWith_iff (s := .start)
    (x := build { flavor := .server, addAuth := some "key", modelPackage := "data" }
      { petShop with operations := [] }) (p := fun _ => true)).1 (by decide +kernel)
  obtain ⟨api₂, s₂, h₂, -⟩ := (succeedsWith_iff (s := .start)
    (x := build {} { petShop with schemas := ∅ }) (p := fun _ => true)).1 (by decide +kernel)
  have huntruncated : ModelsUntruncated {} petShop := by decide +kernel
  obtain ⟨hmodels, hoperations⟩ := generate_noninterference
  exact ⟨api, s, api₁, s₁, api₂, s₂, h, h₁, h₂, of_decide_eq_true hkeys,
    hmodels _ _ _ _ _ _ _ _ h h₁ rfl rfl rfl, huntruncated,
    hoperations _ _ _ _ _ _ _ h h₂ rfl huntruncated (by decide +kernel)⟩

/-! ## The order of schemas -/

/-- Whatever the configuration, the order in which two texts declare the same schemas makes no
difference to the result. -/
theorem generateFromText_schemaOrder (config : Config) (s s' : String) (d d' : Document)
    (members members' : List (Option String × Tree)) (h : Document.ofText s = .ok d)
    (h' : Document.ofText s' = .ok d') (hs : (Source.ofText s).tree.HasSchemas members)
    (hs' : (Source.ofText s').tree.HasSchemas members') (hperm : members.Perm members')
    (hnodup : (members.map Prod.fst).Nodup) (hoperations : d.operations = d'.operations) :
    generateFromText config s = generateFromText config s' := by
  have hschemas := Document.schemas_eq_of_perm h h' hs hs' hperm hnodup
  have heq : d = d' := by
    cases d
    cases d'
    cases hschemas
    cases hoperations
    rfl
  unfold generateFromText
  rw [h, h', heq]

def homonymsText : String :=
  "\x7b\"schemas\":\x7b\"Pet\":\x7b\"enum\":[1]\x7d,\"$Pet\":\x7b\x7d\x7d\x7d"

def homonymsTextSwapped : String :=
  "\x7b\"schemas\":\x7b\"$Pet\":\x7b\x7d,\"Pet\":\x7b\"enum\":[1]\x7d\x7d\x7d"

def homonyms : List (Option String × Tree) :=
  [(some "Pet",
    .object [(some "enum", .array [.number ⟨false, ['1'], none, none⟩] .closed)] .closed),
   (some "$Pet", .object [] .closed)]

theorem hasSchemas_homonymsText : (Source.ofText homonymsText).tree.HasSchemas homonyms := by
  have htokens : Token.ofText homonymsText =
      [.openObject, .string (some "schemas"), .colon, .openObject, .string (some "Pet"), .colon,
       .openObject, .string (some "enum"), .colon, .openArray, .number ⟨false, ['1'], none, none⟩,
       .closeArray, .closeObject, .comma, .string (some "$Pet"), .colon, .openObject,
       .closeObject, .closeObject, .closeObject] := by decide +kernel
  rw [Source.ofText, htokens]
  change Tree.HasSchemas _ (.object [(some "schemas", .object homonyms .closed)] .closed)
  exact .object List.mem_cons_self

theorem hasSchemas_homonymsTextSwapped :
    (Source.ofText homonymsTextSwapped).tree.HasSchemas homonyms.reverse := by
  have htokens : Token.ofText homonymsTextSwapped =
      [.openObject, .string (some "schemas"), .colon, .openObject, .string (some "$Pet"), .colon,
       .openObject, .closeObject, .comma, .string (some "Pet"), .colon, .openObject,
       .string (some "enum"), .colon, .openArray, .number ⟨false, ['1'], none, none⟩, .closeArray,
       .closeObject, .closeObject, .closeObject] := by decide +kernel
  rw [Source.ofText, htokens]
  change Tree.HasSchemas _ (.object [(some "schemas", .object homonyms.reverse .closed)] .closed)
  exact .object List.mem_cons_self

theorem generateFromText_homonymsText_schemaOrder :
    homonymsText ≠ homonymsTextSwapped ∧
      generateFromText {} homonymsText = generateFromText {} homonymsTextSwapped := by
  have hread {s : String} (h : ((Document.ofText s).toOption.map fun d => d.operations.isEmpty) =
      some true) : ∃ d, Document.ofText s = .ok d ∧ d.operations = [] := by
    obtain ⟨d, hd, hempty⟩ := Option.map_eq_some_iff.1 h
    exact ⟨d, Except.toOption_eq_some_iff.1 hd, List.isEmpty_iff.1 hempty⟩
  obtain ⟨d, hd, hoperations⟩ := hread (s := homonymsText) (by decide +kernel)
  obtain ⟨d', hd', hoperations'⟩ := hread (s := homonymsTextSwapped) (by decide +kernel)
  refine ⟨by decide +kernel, ?_⟩
  exact generateFromText_schemaOrder {} homonymsText homonymsTextSwapped d d' homonyms
    homonyms.reverse hd hd' hasSchemas_homonymsText hasSchemas_homonymsTextSwapped
    homonyms.reverse_perm.symm (by decide) (hoperations.trans hoperations'.symm)

end GeneratedApi

end ApiGraph

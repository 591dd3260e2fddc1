import ApiGraph.Proofs.GeneratedApi.Stages
import ApiGraph.Proofs.Lifting.Counts

/-!
# Accounts of a run

A run says in its log what becomes of the models: a warning for each one that is displaced, the
size of the normalized set and how much of it is lifted, and a summary. `Accounted` says that
these accounts are exact, and that every truncation of a name is reported once.

Main statement: the accounts of every run that succeeds are exact, so that no model is lost
without a warning.
-/

namespace ApiGraph

open Identifier Naming

def Event.isModelsNormalized : Event → Bool
  | .modelsNormalized .. => true
  | _ => false

def Event.isDocumentNormalized : Event → Bool
  | .documentNormalized .. => true
  | _ => false

namespace GeneratedApi

/-- The log of a run is exact about the models that were built, the result and the truncations. -/
structure Accounted (d : Document) (built : ModelSet) (api : GeneratedApi) (log : List Event)
    (lifted truncated : Nat) : Prop where
  /-- The normalized set is reported once. -/
  normalized : log.filter Event.isModelsNormalized = [.modelsNormalized api.models.size lifted]
  /-- The run is summed up once, and that comes last. -/
  summary : log.filter Event.isDocumentNormalized =
    [.documentNormalized api.models.size (api.models.size - built.size) api.operations.length
      truncated] ∧ log.getLast?.map Event.isDocumentNormalized = some true
  /-- A model is built for each schema, less those that share their class name with a later one. -/
  size_built : built.size + log.countP Event.isClassNameShared = d.schemas.size
  /-- The result has the built and the lifted models, less those that lifted ones displace. -/
  size_models : api.models.size + log.countP Event.isDeclaredModelReplaced = built.size + lifted
  /-- As many models are lifted as built fields declare an enumeration. -/
  declared : (built.toList.flatMap Model.fields).countP (fun f => f.DeclaresEnum) = lifted
  /-- As many models of the result are lifted. -/
  origins : api.models.toList.countP (fun m => m.IsLifted) = lifted
  /-- The summary counts the truncations that are reported. -/
  truncations : (log.filterMap Event.truncation?).length = truncated
  /-- No request is reported twice. -/
  requests : ((log.filterMap Event.truncation?).map Prod.fst).Nodup
  /-- No identifier is reported twice. -/
  names : ((log.filterMap Event.truncation?).map Prod.snd).Nodup

/-- What the log says of the models that are built and of those that are lifted. -/
structure Counted (d : Document) (built lifted : ModelSet) (api : GeneratedApi) (log : List Event)
    (truncated : Nat) : Prop where
  normalized :
    log.filter Event.isModelsNormalized = [.modelsNormalized api.models.size lifted.size]
  summary : log.filter Event.isDocumentNormalized =
    [.documentNormalized api.models.size (api.models.size - built.size) api.operations.length
      truncated]
  last : log.getLast?.map Event.isDocumentNormalized = some true
  size_built : built.size + log.countP Event.isClassNameShared = d.schemas.size
  size_models : api.models.size + log.countP Event.isDeclaredModelReplaced =
    built.size + lifted.size

/-! ## Truncations -/

/-- In a log that tells which truncations are on record, each is reported once. -/
theorem nodup_of_booked {s : Session} (h : s.Booked) :
    ((s.log.toList.filterMap Event.truncation?).map Prod.fst).Nodup ∧
      ((s.log.toList.filterMap Event.truncation?).map Prod.snd).Nodup := by
  have hentries : s.registry.entries.Nodup := s.registry.request_nodup.of_map
  unfold Session.Booked at h
  rw [h, List.map_reverse, List.map_reverse, List.map_map, List.map_map, List.nodup_reverse,
    List.nodup_reverse]
  exact ⟨s.registry.request_nodup, hentries.map_on fun _ he _ he' => Registry.name_inj he he'⟩

theorem length_of_booked {s : Session} (h : s.Booked) :
    (s.log.toList.filterMap Event.truncation?).length = s.registry.size := by
  unfold Session.Booked at h
  rw [h, List.length_reverse, List.length_map]
  rfl

/-! ## Annotating -/

theorem isAnnotating_of_mem {config : Config} {os : List Operation} {e : Event}
    (h : e ∈ Operation.allAnnotationEvents config os) : e.isAnnotating = true := by
  obtain ⟨o, -, h⟩ := List.mem_flatMap.1 h
  rcases List.mem_append.1 h with h | h
  · obtain ⟨auth, -, rfl⟩ := List.mem_map.1 h
    rfl
  · obtain ⟨p, -, h⟩ := List.mem_flatMap.1 h
    rcases List.mem_append.1 h with h | h
    · split at h
      · split at h
        · cases h
        · rw [List.mem_singleton.1 h]
          rfl
      · cases h
    · unfold Parameter.exampleEvents at h
      split at h
      · cases h
      · rw [List.mem_singleton.1 h]
        rfl

/-- Annotating operations tells nothing of truncations and models. -/
theorem own_of_isAnnotating {e : Event} (h : e.isAnnotating = true) :
    e.truncation? = none ∧ e.isAccount = false := by
  cases e <;> first | exact ⟨rfl, rfl⟩ | cases h

/-- Of all that is reported after the operations are built, only the summary is an account. -/
theorem accounts_annotated (s : Session) (config : Config) (os : List Operation) {e : Event}
    (h : e.isAccount = true) :
    ((s.log ++ Operation.allAnnotationEvents config os).push e).toList.filter
      Event.isAccount = s.accounts ++ [e] := by
  have hnone : (Operation.allAnnotationEvents config os).filter Event.isAccount = [] :=
    filter_eq_nil_of_forall (fun _ => isAnnotating_of_mem) fun _ he => (own_of_isAnnotating he).2
  rw [Array.toList_push, Array.toList_appendList, List.filter_append, List.filter_append, hnone,
    List.append_nil, List.filter_singleton, h]
  rfl

theorem isAccount_of_isIdentifying {e : Event} (h : e.isIdentifying = true) :
    e.isAccount = false := by
  cases e <;> first | rfl | cases h

/-! ## Kinds of accounts -/

theorem kinds_of_isClassNameShared {e : Event} (h : e.isClassNameShared = true) :
    e.isAccount = true ∧ e.isDeclaredModelReplaced = false ∧ e.isModelsNormalized = false ∧
      e.isDocumentNormalized = false := by
  cases e <;> first | exact ⟨rfl, rfl, rfl, rfl⟩ | cases h

theorem kinds_of_isDeclaredModelReplaced {e : Event} (h : e.isDeclaredModelReplaced = true) :
    e.isAccount = true ∧ e.isClassNameShared = false ∧ e.isModelsNormalized = false ∧
      e.isDocumentNormalized = false := by
  cases e <;> first | exact ⟨rfl, rfl, rfl, rfl⟩ | cases h

theorem isAccount_of_isModelsNormalized {e : Event} (h : e.isModelsNormalized = true) :
    e.isAccount = true := by
  cases e <;> first | rfl | cases h

theorem isAccount_of_isDocumentNormalized {e : Event} (h : e.isDocumentNormalized = true) :
    e.isAccount = true := by
  cases e <;> first | rfl | cases h

/-- Accounts of one kind are found among all accounts. -/
theorem filter_of_accounts {log accounts : List Event} (h : log.filter Event.isAccount = accounts)
    {kind : Event → Bool} (hkind : ∀ e, kind e = true → e.isAccount = true) :
    log.filter kind = accounts.filter kind := by
  rw [← h, List.filter_filter]
  refine List.filter_congr fun e _ => ?_
  cases hk : kind e with
  | false => rfl
  | true => rw [hkind e hk, Bool.and_self]

/-- What accounts that are listed by kind amount to. -/
theorem counts_of_accounts {log shared replaced : List Event} {n lifted m k o truncated : Nat}
    (h : log.filter Event.isAccount = shared ++ replaced ++
      [.modelsNormalized n lifted, .documentNormalized m k o truncated])
    (hshared : ∀ e ∈ shared, e.isClassNameShared = true)
    (hreplaced : ∀ e ∈ replaced, e.isDeclaredModelReplaced = true) :
    log.countP Event.isClassNameShared = shared.length ∧
      log.countP Event.isDeclaredModelReplaced = replaced.length ∧
        log.filter Event.isModelsNormalized = [.modelsNormalized n lifted] ∧
          log.filter Event.isDocumentNormalized = [.documentNormalized m k o truncated] := by
  refine ⟨?shared, ?replaced, ?normalized, ?summary⟩
  case shared =>
    rw [List.countP_eq_length_filter,
      filter_of_accounts h fun _ he => (kinds_of_isClassNameShared he).1, List.filter_append,
      List.filter_append, List.filter_eq_self.2 hshared,
      filter_eq_nil_of_forall hreplaced fun _ he => (kinds_of_isDeclaredModelReplaced he).2.1]
    simp [Event.isClassNameShared]
  case replaced =>
    rw [List.countP_eq_length_filter,
      filter_of_accounts h fun _ he => (kinds_of_isDeclaredModelReplaced he).1, List.filter_append,
      List.filter_append, List.filter_eq_self.2 hreplaced,
      filter_eq_nil_of_forall hshared fun _ he => (kinds_of_isClassNameShared he).2.1]
    simp [Event.isDeclaredModelReplaced]
  case normalized =>
    rw [filter_of_accounts h fun _ => isAccount_of_isModelsNormalized, List.filter_append,
      List.filter_append,
      filter_eq_nil_of_forall hshared fun _ he => (kinds_of_isClassNameShared he).2.2.1,
      filter_eq_nil_of_forall hreplaced fun _ he => (kinds_of_isDeclaredModelReplaced he).2.2.1]
    rfl
  case summary =>
    rw [filter_of_accounts h fun _ => isAccount_of_isDocumentNormalized, List.filter_append,
      List.filter_append,
      filter_eq_nil_of_forall hshared fun _ he => (kinds_of_isClassNameShared he).2.2.2,
      filter_eq_nil_of_forall hreplaced fun _ he => (kinds_of_isDeclaredModelReplaced he).2.2.2]
    rfl

namespace Stages

variable {config : Config} {d : Document} {api : GeneratedApi} {s : Session}

/-- In the end the log tells which truncations are on record. -/
theorem booked (h : Stages config d api s) : s.Booked := by
  cases h with
  | @run _ _ raw _ _ _ hbuild hnormalize hraw =>
    have hbooked := (Operation.composed_buildAfter _ _ _).booked hraw
      (booked_models hbuild hnormalize)
    have hnone : (Operation.allAnnotationEvents config raw).filterMap Event.truncation? = [] :=
      List.filterMap_eq_nil_iff.2 fun e he => (own_of_isAnnotating (isAnnotating_of_mem he)).1
    unfold Session.Booked at hbooked ⊢
    simp [hbooked, hnone, Event.truncation?]

/-- What a run says of models is what its stages have said, and the summary. -/
theorem counted (h : Stages config d api s) :
    ∃ built s₁ models lifted s', ModelSet.build config.packageName d .start = .ok built s₁ ∧
      Model.normalizeAll config.enumNameExtensions ∅ built.toList s₁ = .ok (models, lifted) s' ∧
        built.Framed lifted api.models ∧
          Counted d built lifted api s.log.toList s.registry.size := by
  cases h with
  | @run built models raw s₁ s₂ s₃ hbuild hnormalize hraw =>
    have hsource := ModelSet.yields_build_origin config.packageName d _ _ _ hbuild
    obtain ⟨shared, haccounts₁, hshared, hsize⟩ := ModelSet.accounts_buildInto hbuild
    have haccounts₁ : s₁.accounts = shared := haccounts₁
    obtain ⟨passed, lifted, s', replaced, hpass, hframed, haccounts₂, hreplaced, hmodels⟩ :=
      ModelSet.accounts_normalize hsource hnormalize
    have haccounts₃ : s₃.accounts = s₂.accounts :=
      ((Operation.composed_buildAfter _ _ _).reports fun _ he =>
        Event.isIdentifying_of_isTyping (Event.isTyping_of_isSome_truncation? he)).filter_eq
        (fun _ => isAccount_of_isIdentifying) hraw
    have haccounts := accounts_annotated s₃ config raw
      (e := .documentNormalized models.size (models.size - built.size)
        (Operation.annotateAll config raw).length s₃.registry.size) rfl
    rw [haccounts₃, haccounts₂, haccounts₁, List.append_assoc _ [_] [_]] at haccounts
    obtain ⟨hcountShared, hcountReplaced, hnormalized, hsummary⟩ :=
      counts_of_accounts haccounts hshared hreplaced
    refine ⟨built, s₁, passed, lifted, s', hbuild, hpass, hframed, ?_⟩
    exact
      { normalized := hnormalized
        summary := hsummary
        last := by simp [Event.isDocumentNormalized]
        size_built := by
          rw [hcountShared, hsize]
          exact Nat.zero_add _
        size_models := by rw [hcountReplaced, hmodels] }

theorem accounted (h : Stages config d api s) (hd : d.DistinctProperties) :
    ∃ built s₁ lifted, ModelSet.build config.packageName d .start = .ok built s₁ ∧
      Accounted d built api s.log.toList lifted s.registry.size := by
  obtain ⟨hrequests, hnames⟩ := nodup_of_booked h.booked
  obtain ⟨built, s₁, models, lifted, s', hbuild, hpass, hframed, hcounted⟩ := h.counted
  have hbuilt := ModelSet.yields_build_built config.packageName hd _ _ _ hbuild
  have hfields := ModelSet.yields_buildInto_forall (fun _ hm => absurd hm List.not_mem_nil)
    (fun p _ => Model.yields_build_fields config.packageName _ p.1 p.2) _ _ _ hbuild
  refine ⟨built, s₁, lifted.size, hbuild, ?_⟩
  exact
    { normalized := hcounted.normalized
      summary := ⟨hcounted.summary, hcounted.last⟩
      size_built := hcounted.size_built
      size_models := hcounted.size_models
      declared := by
        rw [← ModelSet.length_inlineEnums hfields]
        exact (ModelSet.size_lifted (fun m hm => (hbuilt m hm).distinctFields) hpass).symm
      origins := hframed.countP_isLifted fun m hm => (hbuilt m hm).origin
      truncations := length_of_booked h.booked
      requests := hrequests
      names := hnames }

end Stages

/-- Whatever the document and the configuration, the accounts of a run that succeeds are exact. -/
theorem generate_accounted (config : Config) (d : Document) (hd : d.DistinctProperties)
    (api : GeneratedApi) (s : Session) (h : generate config d = .ok api s) :
    ∃ built s₁ lifted truncated,
      ModelSet.build config.packageName d .start = .ok built s₁ ∧
        Accounted d built api s.log.toList lifted truncated := by
  obtain ⟨built, s₁, lifted, hbuild, haccounted⟩ := (stages_of_generate h).accounted hd
  exact ⟨built, s₁, lifted, _, hbuild, haccounted⟩

/-- A model that is displaced by another declared one, one that a lifted one displaces, and a name
that is too long. -/
def petTwice : Document where
  schemas := .ofList
    [("Pet", {}), ("Pet!", { properties := [("kind", { enumValues := [.string "cat"] })] }),
     ("PetKindEnum", {})]
  operations :=
    [⟨"findAllPetsThatAnybodyHasEverAskedForInThisShopOrAnyOtherOneNearby", .get, "/pets/all", [],
        [], some { reference := some "Pet" }, [], ∅⟩]

theorem generate_petTwice_accounted :
    ∃ api s, generate {} petTwice = .ok api s ∧ api.models.keys = ["Pet", "PetKindEnum"] ∧
      s.log.toList.countP Event.isClassNameShared = 1 ∧
      s.log.toList.countP Event.isDeclaredModelReplaced = 1 ∧
      (s.log.toList.filterMap Event.truncation?).length = 1 ∧
      ∃ built s₁ lifted truncated,
        ModelSet.build ({} : Config).packageName petTwice .start = .ok built s₁ ∧
          Accounted petTwice built api s.log.toList lifted truncated := by
  obtain ⟨⟨api, log⟩, s, hrun, hcounts⟩ := (succeedsWith_iff (s := .start)
    (x := do
      let api ← build {} petTwice
      return (api, (← get).log.toList))
    (p := fun (api, log) => api.models.keys = ["Pet", "PetKindEnum"] &&
      log.countP Event.isClassNameShared = 1 && log.countP Event.isDeclaredModelReplaced = 1 &&
      (log.filterMap Event.truncation?).length = 1)).1 (by decide +kernel)
  obtain ⟨_, t, h, hrun⟩ := bind_eq_ok_iff.1 hrun
  obtain ⟨_, u, hget, hrun⟩ := bind_eq_ok_iff.1 hrun
  obtain ⟨hpair, -⟩ := pure_eq_ok_iff.1 hrun
  obtain ⟨rfl, rfl⟩ := Prod.mk.inj hpair
  cases hget
  simp only [Bool.and_eq_true, decide_eq_true_eq] at hcounts
  obtain ⟨⟨⟨hkeys, hshared⟩, hreplaced⟩, htruncated⟩ := hcounts
  exact ⟨_, t, h, hkeys, hshared, hreplaced, htruncated,
    generate_accounted {} petTwice (by decide +kernel) _ t h⟩

end GeneratedApi

end ApiGraph

import ApiGraph.Proofs.GeneratedApi.Accounts

/-!
# Lifted models in the summary

A run says twice how many models are lifted. Normalization counts them itself; the summary
takes by how many models the result is larger than what was built. A lifted model that displaces
a declared one makes the set no larger, so it is missing from the summary.

Main statement: the two reports differ by the number of lifted models that displace declared
ones, so they agree when no lifted model has the class name of a declared one, and only then.
-/

namespace ApiGraph

open Naming

def ModelSet.hasLifted (s : ModelSet) (className : String) : Bool :=
  (s.get? className).any fun m => m.IsLifted

namespace GeneratedApi

/-- The reports of a run on how many models are lifted: `normalized` is the number in the report on
the normalized set, and `summed` is the one in the summary. -/
structure LiftedReports (built : ModelSet) (api : GeneratedApi) (log : List Event)
    (normalized summed : Nat) : Prop where
  set : log.filter Event.isModelsNormalized = [.modelsNormalized api.models.size normalized]
  summary : ∃ truncated, log.filter Event.isDocumentNormalized =
    [.documentNormalized api.models.size summed api.operations.length truncated]
  /-- The first report is right. -/
  lifted : (api.models.toList.countP fun m => m.IsLifted) = normalized
  /-- The summary leaves out what displaces a model that was built. -/
  displaced : summed + built.keys.countP api.models.hasLifted = normalized
  /-- For each of those there is a warning. -/
  warned : log.countP Event.isDeclaredModelReplaced = built.keys.countP api.models.hasLifted

end GeneratedApi

/-- The class names of the lifted models are found in the outcome. -/
theorem ModelSet.Framed.hasLifted_iff {s lifted t : ModelSet} (h : s.Framed lifted t)
    (hsource : ∀ m ∈ s.toList, m.origin = .source) {c : String} :
    t.hasLifted c = true ↔ c ∈ lifted.keys := by
  have hlifted := h.filter_isLifted hsource
  unfold hasLifted
  rw [Option.any_eq_true, Keyed.keys, List.mem_map, ← hlifted]
  constructor
  · rintro ⟨m, hm, hislifted⟩
    obtain ⟨hmem, rfl⟩ := Keyed.get?_eq_some_iff.1 hm
    exact ⟨m, List.mem_filter.2 ⟨hmem, hislifted⟩, rfl⟩
  · rintro ⟨m, hm, rfl⟩
    obtain ⟨hmem, hislifted⟩ := List.mem_filter.1 hm
    exact ⟨m, Keyed.get?_eq_some_iff.2 ⟨hmem, rfl⟩, hislifted⟩

namespace GeneratedApi

variable {config : Config} {d : Document} {api : GeneratedApi} {s : Session}

theorem Stages.liftedReports (h : Stages config d api s) :
    ∃ built s₁ normalized, ModelSet.build config.packageName d .start = .ok built s₁ ∧
      LiftedReports built api s.log.toList normalized (api.models.size - built.size) := by
  obtain ⟨built, s₁, models, lifted, s', hbuild, -, hframed, hcounted⟩ := h.counted
  have hsource := ModelSet.yields_build_origin config.packageName d _ _ _ hbuild
  have hdisplaced : built.keys.countP api.models.hasLifted =
      built.keys.countP fun c => c ∈ lifted.keys :=
    List.countP_congr fun c _ => (hframed.hasLifted_iff hsource).trans decide_eq_true_iff.symm
  -- a class name that is built and lifted counts once in the result
  have hsize := hframed.size_add_countP
  have hle := hframed.size_le
  refine ⟨built, s₁, lifted.size, hbuild, ?_⟩
  exact
    { set := hcounted.normalized
      summary := ⟨_, hcounted.summary⟩
      lifted := hframed.countP_isLifted hsource
      displaced := by
        rw [hdisplaced]
        omega
      warned := by
        have hwarned := hcounted.size_models
        rw [hdisplaced]
        omega }

theorem LiftedReports.eq_iff {built : ModelSet} {log : List Event} {normalized summed : Nat}
    (h : LiftedReports built api log normalized summed) :
    summed = normalized ↔ ∀ c ∈ built.keys, api.models.hasLifted c = false := by
  have hzero : summed = normalized ↔ built.keys.countP api.models.hasLifted = 0 := by
    rw [← h.displaced]
    omega
  rw [hzero, List.countP_eq_zero]
  exact forall₂_congr fun c _ => iff_of_eq (Bool.not_eq_true _)

/-- Of every run that succeeds the two reports on lifted models agree if no lifted model has the
class name of a model that was built, and only then. -/
theorem generate_lifted_agrees_iff (config : Config) (d : Document) (api : GeneratedApi)
    (s : Session) (h : generate config d = .ok api s) :
    ∃ built s₁ normalized summed, ModelSet.build config.packageName d .start = .ok built s₁ ∧
      LiftedReports built api s.log.toList normalized summed ∧
        (summed = normalized ↔ ∀ c ∈ built.keys, api.models.hasLifted c = false) := by
  obtain ⟨built, s₁, normalized, hbuild, hreports⟩ := (stages_of_generate h).liftedReports
  exact ⟨built, s₁, normalized, _, hbuild, hreports, hreports.eq_iff⟩

end GeneratedApi

/-- Two enumerations on fields, of which one takes the class name of a declared model. -/
def Document.withDisplaced : Document where
  schemas := .ofList
    [("Pet", { properties := [("kind", { enumValues := [.string "cat"] }),
        ("status", { enumValues := [.string "sold"] })] }),
     ("PetStatusEnum", {})]
  operations := []

namespace GeneratedApi

theorem generate_withDisplaced_agrees_iff :
    ∃ api s, generate {} .withDisplaced = .ok api s ∧
      ∃ built s₁ normalized summed,
        ModelSet.build ({} : Config).packageName .withDisplaced .start = .ok built s₁ ∧
          LiftedReports built api s.log.toList normalized summed ∧
            (summed = normalized ↔ ∀ c ∈ built.keys, api.models.hasLifted c = false) := by
  obtain ⟨api, s, h, -⟩ := (succeedsWith_iff (x := build {} .withDisplaced) (s := .start)
    (p := fun _ => true)).1 (by decide +kernel)
  have hrun : generate {} .withDisplaced = .ok api s := (generate_eq _ _).trans h
  exact ⟨api, s, hrun, generate_lifted_agrees_iff {} .withDisplaced api s hrun⟩

/-- The summary tells of one lifted model where there are two. -/
theorem exists_lifted_reports_ne :
    ∃ api s, generate {} .withDisplaced = .ok api s ∧
      (api.models.toList.countP fun m => m.IsLifted) = 2 ∧
        s.log.toList.filter Event.isModelsNormalized = [.modelsNormalized 3 2] ∧
          s.log.toList.filter Event.isDocumentNormalized = [.documentNormalized 3 1 0 0] := by
  obtain ⟨⟨api, log⟩, s, hrun, hcounts⟩ := (succeedsWith_iff (s := .start)
    (x := do
      let api ← build {} .withDisplaced
      return (api, (← get).log.toList))
    (p := fun (api, log) => (api.models.toList.countP fun m => m.IsLifted) = 2 ∧
      log.filter Event.isModelsNormalized = [.modelsNormalized 3 2] ∧
        log.filter Event.isDocumentNormalized = [.documentNormalized 3 1 0 0])).1
    (by decide +kernel)
  obtain ⟨_, t, h, hrun⟩ := bind_eq_ok_iff.1 hrun
  obtain ⟨_, u, hget, hrun⟩ := bind_eq_ok_iff.1 hrun
  obtain ⟨hpair, -⟩ := pure_eq_ok_iff.1 hrun
  obtain ⟨rfl, rfl⟩ := Prod.mk.inj hpair
  cases hget
  exact ⟨_, t, h, of_decide_eq_true hcounts⟩

end GeneratedApi

end ApiGraph

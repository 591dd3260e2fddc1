import ApiGraph.Proofs.CommandLine.Arguments
import ApiGraph.Proofs.CommandLine.Files

/-!
# Runs of `normalize`

A run of `normalize` goes through five steps before anything is written. `Step.Fails` says of each
of them, by itself and without regard to the others, when and why it fails.

Main statement: a run in which some step fails reports the first one that does, with the exit
code 1, prints nothing and leaves every file as it was. A run in which none fails puts out one
text, the same for a file and for printing: the file holds it after the run.
-/

namespace ApiGraph.CommandLine

/-- A step of a run of `normalize` before anything is written. -/
inductive Step where
  | readInput
  | readConfig
  | judgeConfig
  | judgeInput
  | generate
  deriving DecidableEq

def Step.inOrder : List Step := [readInput, readConfig, judgeConfig, judgeInput, generate]

def Step.before (step : Step) : List Step := inOrder.takeWhile (· ≠ step)

section

variable (read : String → Except Refusal String) (a : NormalizeArgs)

/-- The settings that the arguments lead to, from a file or by default, before the package is
renamed. -/
inductive NormalizeArgs.Configures : Config → Prop
  | default (absent : a.config = none) : Configures {}
  | file {path text : String} {c : Config} (present : a.config = some path)
      (content : read path = .ok text) (judged : Config.ofText text = .ok c) : Configures c

def NormalizeArgs.rename (c : Config) : Config :=
  match a.packageName with
  | some name => { c with packageName := name }
  | none => c

/-- A step fails, and why. What a step works on has to be there for it to fail. -/
inductive Step.Fails : Step → Failure → Prop
  | readInput {reason : Refusal} (refused : read a.input = .error reason) :
      Fails .readInput (.unreadable a.input reason)
  | readConfig {path : String} {reason : Refusal} (present : a.config = some path)
      (refused : read path = .error reason) : Fails .readConfig (.unreadable path reason)
  | judgeConfig {path text : String} {e : ConfigError} (present : a.config = some path)
      (content : read path = .ok text) (judged : Config.ofText text = .error e) :
      Fails .judgeConfig (.badConfig text e)
  | judgeInput {text : String} {e : Json.ReadError} (content : read a.input = .ok text)
      (judged : Document.ofText text = .error e) : Fails .judgeInput (.badDocument text e)
  | generate {text : String} {d : Document} {c : Config} {e : Identifier.Exhausted} {s : Session}
      (content : read a.input = .ok text) (judged : Document.ofText text = .ok d)
      (settings : a.Configures read c)
      (exhausted : GeneratedApi.generate (a.rename c) d = .error e s) : Fails .generate (.naming e)

def Step.Passes (step : Step) : Prop := ∀ f, ¬ step.Fails read a f

/-- A step fails, and all steps before it pass. -/
def Step.FailsFirst (f : Failure) : Prop :=
  ∃ step : Step, (∀ earlier ∈ step.before, earlier.Passes read a) ∧ step.Fails read a f

/-- The arguments lead to settings and a document, and a run over these to the interface. -/
def NormalizeArgs.Generates (api : GeneratedApi) : Prop :=
  ∃ text d c s, read a.input = .ok text ∧ Document.ofText text = .ok d ∧ a.Configures read c ∧
    GeneratedApi.generate (a.rename c) d = .ok api s

end

variable {read : String → Except Refusal String} {a : NormalizeArgs}

/-! ## Steps -/

theorem NormalizeArgs.rename_eq (c : Config) :
    a.rename c = { c with packageName := a.packageName.getD c.packageName } := by
  unfold rename
  cases a.packageName <;> rfl

theorem readFile_eq_ok {path text : String} (h : read path = .ok text) :
    readFile read path = .ok text := by
  rw [readFile, h]
  rfl

theorem readFile_eq_error {path : String} {reason : Refusal} (h : read path = .error reason) :
    readFile read path = .error (.unreadable path reason) := by
  rw [readFile, h]
  rfl

theorem readConfig_eq_ok {c : Config} (h : a.Configures read c) :
    readConfig read a.config = .ok c := by
  cases h with
  | default absent =>
    rw [absent]
    rfl
  | file present content judged =>
    rw [present, readConfig, readFile_eq_ok content]
    change (Config.ofText _).mapError _ = _
    rw [judged]
    rfl

/-- What the steps before judging the input come to. -/
theorem normalize_eq {text : String} {c : Config} (hinput : read a.input = .ok text)
    (hc : a.Configures read c) :
    normalize read a = (generate (a.rename c) text).map render := by
  rw [normalize, readFile_eq_ok hinput, readConfig_eq_ok hc, NormalizeArgs.rename_eq]
  rfl

theorem generate_of_document {text : String} {d : Document} (c : Config)
    (h : Document.ofText text = .ok d) :
    generate c text = match GeneratedApi.generate c d with
      | .ok api _ => .ok api
      | .error e _ => .error (.naming e) := by
  rw [generate, GeneratedApi.generateFromText, h]
  dsimp only
  cases GeneratedApi.generate c d <;> rfl

theorem exists_of_readInput (h : Step.readInput.Passes read a) :
    ∃ text, read a.input = .ok text := by
  cases hread : read a.input with
  | error reason => exact absurd (.readInput hread) (h _)
  | ok text => exact ⟨text, rfl⟩

theorem exists_configures (hread : Step.readConfig.Passes read a)
    (hjudge : Step.judgeConfig.Passes read a) : ∃ c, a.Configures read c := by
  cases hconfig : a.config with
  | none => exact ⟨{}, .default hconfig⟩
  | some path =>
    cases htext : read path with
    | error reason => exact absurd (.readConfig hconfig htext) (hread _)
    | ok text =>
      cases hc : Config.ofText text with
      | error e => exact absurd (.judgeConfig hconfig htext hc) (hjudge _)
      | ok c => exact ⟨c, .file hconfig htext hc⟩

/-! ## Runs -/

/-- When some step fails, there is a first one. -/
theorem Step.exists_failsFirst {step : Step} {f : Failure} (h : step.Fails read a f) :
    ∃ g, FailsFirst read a g := by
  by_contra hnone
  have hnext (step : Step) (hbefore : ∀ earlier ∈ step.before, earlier.Passes read a) :
      step.Passes read a := fun g hg => hnone ⟨g, step, hbefore, hg⟩
  have hinput : readInput.Passes read a := hnext readInput (by simp [before, inOrder])
  have hconfig : readConfig.Passes read a :=
    hnext readConfig (by simpa [before, inOrder] using hinput)
  have hjudged : judgeConfig.Passes read a :=
    hnext judgeConfig (by simpa [before, inOrder] using ⟨hinput, hconfig⟩)
  have hdocument : judgeInput.Passes read a :=
    hnext judgeInput (by simpa [before, inOrder] using ⟨hinput, hconfig, hjudged⟩)
  have hgenerate : generate.Passes read a :=
    hnext generate (by simpa [before, inOrder] using ⟨hinput, hconfig, hjudged, hdocument⟩)
  cases step with
  | readInput => exact hinput f h
  | readConfig => exact hconfig f h
  | judgeConfig => exact hjudged f h
  | judgeInput => exact hdocument f h
  | generate => exact hgenerate f h

theorem normalize_of_failsFirst {f : Failure} (h : Step.FailsFirst read a f) :
    normalize read a = .error f := by
  obtain ⟨step, hbefore, hfails⟩ := h
  have hpasses (earlier : Step) (hmem : earlier ∈ step.before) : earlier.Passes read a :=
    hbefore earlier hmem
  cases hfails with
  | readInput refused =>
    rw [normalize, readFile_eq_error refused]
    rfl
  | readConfig present refused =>
    obtain ⟨text, hinput⟩ := exists_of_readInput (hpasses .readInput (by decide))
    rw [normalize, readFile_eq_ok hinput, present, readConfig, readFile_eq_error refused]
    rfl
  | judgeConfig present content judged =>
    obtain ⟨text, hinput⟩ := exists_of_readInput (hpasses .readInput (by decide))
    rw [normalize, readFile_eq_ok hinput, present, readConfig, readFile_eq_ok content]
    change ((Config.ofText _).mapError _ >>= _) = _
    rw [judged]
    rfl
  | judgeInput content judged =>
    obtain ⟨c, hc⟩ := exists_configures (hpasses .readConfig (by decide))
      (hpasses .judgeConfig (by decide))
    rw [normalize_eq content hc, generate, GeneratedApi.generateFromText, judged]
    rfl
  | generate content judged settings exhausted =>
    rw [normalize_eq content settings, generate_of_document _ judged, exhausted]
    rfl

theorem normalize_of_passes (h : ∀ step : Step, step.Passes read a) :
    ∃ api, a.Generates read api ∧ normalize read a = .ok (render api) := by
  obtain ⟨text, hinput⟩ := exists_of_readInput (h .readInput)
  obtain ⟨c, hc⟩ := exists_configures (h .readConfig) (h .judgeConfig)
  cases hdocument : Document.ofText text with
  | error e => exact absurd (.judgeInput hinput hdocument) (h .judgeInput _)
  | ok d =>
    cases hgenerate : GeneratedApi.generate (a.rename c) d with
    | error e s => exact absurd (.generate hinput hdocument hc hgenerate) (h .generate _)
    | ok api s =>
      refine ⟨api, ⟨text, d, c, s, hinput, hdocument, hc, hgenerate⟩, ?_⟩
      rw [normalize_eq hinput hc, generate_of_document _ hdocument, hgenerate]
      rfl

/-- A text is put out: it is printed and no file changes, or it goes to the place that a path leads
to. The file there holds it then, unless it is the null device, and every other file is as it was.
When the path leads to no place for a file, that is reported and no file changes. -/
def Directory.PutsOut (d : Directory) (args : List String) (text : String) :
    Option String → Prop
  | none => d.run args = (⟨0, text, none⟩, d)
  | some path =>
    (∀ place, d.Takes path place → ∃ d', d.run args = (⟨0, "", none⟩, d') ∧
      (place ≠ nullDevice → d'.read path = .ok text) ∧ (place = nullDevice → d' = d) ∧
        ∀ other, other ≠ place → d'.files.lookup other = d.files.lookup other) ∧
    ((∀ place, ¬ d.Takes path place) →
      ∃ reason, d.run args = (⟨1, "", some (.unwritable path reason)⟩, d))

theorem plan_eq {args : List String} (h : Request.ofArgs args = some (.normalize a)) :
    plan read args = match normalize read a, a.output with
      | .error f, _ => .fail f
      | .ok text, some path => .save path text
      | .ok text, none => .print text := by
  rw [plan, h]
  rfl

theorem Directory.run_of_fail {d : Directory} {args : List String} {f : Failure}
    (h : plan d.read args = .fail f) : d.run args = (⟨1, "", some f⟩, d) := by
  rw [run, h]
  rfl

theorem Directory.run_of_save {d : Directory} {args : List String} {path text : String}
    (h : plan d.read args = .save path text) :
    d.run args = match d.write path text with
      | .ok d' => (⟨0, "", none⟩, d')
      | .error reason => (⟨1, "", some (.unwritable path reason)⟩, d) := by
  rw [run, h]
  dsimp only
  cases d.write path text <;> rfl

theorem Directory.putsOut {d : Directory} {args : List String} {text : String}
    (h : Request.ofArgs args = some (.normalize a)) (htext : normalize d.read a = .ok text) :
    d.PutsOut args text a.output := by
  have hplan : plan d.read args = _ := plan_eq h
  rw [htext] at hplan
  cases houtput : a.output with
  | none =>
    rw [houtput] at hplan
    change d.run args = _
    rw [run, hplan]
    rfl
  | some path =>
    rw [houtput] at hplan
    have hrun := run_of_save hplan
    refine ⟨fun place hplace => ?_, fun hnone => ?_⟩
    · have hwrite : d.write path text = .ok (d.put place text) :=
        write_eq_ok_iff.2 ⟨place, hplace, rfl⟩
      rw [hwrite] at hrun
      exact ⟨_, hrun, hplace.read_put, fun hnull => if_pos hnull, fun _ => lookup_put_of_ne⟩
    · cases hwrite : d.write path text with
      | ok d' =>
        obtain ⟨place, hplace, -⟩ := write_eq_ok_iff.1 hwrite
        exact absurd hplace (hnone place)
      | error reason =>
        rw [hwrite] at hrun
        exact ⟨reason, hrun⟩

/-- Whatever the files hold and whichever options are given: when some step of `normalize` fails,
the first one that does is reported with the exit code 1, nothing is printed and no file is created
or changed. Otherwise the text of the generated interface is put out. -/
theorem run_normalize_allOrNothing {args : List String} {a : NormalizeArgs}
    (h : Request.ofArgs args = some (.normalize a)) :
    (∀ d : Directory,
      (∀ (step : Step) (f : Failure), step.Fails d.read a f → ∃ g, Step.FailsFirst d.read a g) ∧
      (∀ f, Step.FailsFirst d.read a f → d.run args = (⟨1, "", some f⟩, d)) ∧
      ((∀ step : Step, step.Passes d.read a) → ∃ api, a.Generates d.read api ∧
        d.PutsOut args (api.toJson.pretty ++ "\n") a.output)) ∧
    ∀ read : String → Except Refusal String,
      (∀ f, Step.FailsFirst read a f → plan read args = .fail f ∧
        ∀ refusal, Outcome.ofPlan refusal (.fail f) = ⟨1, "", some f⟩) ∧
      ((∀ step : Step, step.Passes read a) → ∃ api, a.Generates read api ∧
        plan read args = match a.output with
          | some path => .save path (api.toJson.pretty ++ "\n")
          | none => .print (api.toJson.pretty ++ "\n")) := by
  have hfail {read : String → Except Refusal String} {f : Failure}
      (hf : Step.FailsFirst read a f) : plan read args = .fail f := by
    rw [plan_eq h, normalize_of_failsFirst hf]
  refine ⟨fun d => ⟨fun step f => Step.exists_failsFirst, fun f hf => ?_, fun hpasses => ?_⟩,
    fun read => ⟨fun f hf => ⟨hfail hf, fun _ => rfl⟩, fun hpasses => ?_⟩⟩
  · exact Directory.run_of_fail (hfail hf)
  · obtain ⟨api, hapi, htext⟩ := normalize_of_passes hpasses
    exact ⟨api, hapi, Directory.putsOut h htext⟩
  · obtain ⟨api, hapi, htext⟩ := normalize_of_passes hpasses
    refine ⟨api, hapi, ?_⟩
    rw [plan_eq h, htext]
    cases a.output <;> rfl

/-- An empty document, a document and a configuration that break off, and an earlier result. -/
def workshop : Directory :=
  .ofFiles [("empty.json", "\x7b\x7d"), ("open.json", "["), ("open.toml", "="), ("out.json", "old")]

/-- Neither the configuration nor the document can be read on; the configuration is judged first. -/
def brokenTwice : NormalizeArgs := ⟨"open.json", some "open.toml", some "out.json", none⟩

/-- The empty document under another name of the package. -/
def renamed : NormalizeArgs := ⟨"empty.json", none, some "out.json", some "Org.Shop"⟩

theorem failsFirst_brokenTwice :
    Step.FailsFirst workshop.read brokenTwice (.badConfig "=" .malformed) := by
  have hinput : (workshop.read "open.json").toOption = some "[" := by decide +kernel
  have hconfig : (workshop.read "open.toml").toOption = some "=" := by decide +kernel
  have htoml : (Toml.ofText "=").isNone = true := by decide +kernel
  rw [Except.toOption_eq_some_iff] at hinput hconfig
  have hjudged : Config.ofText "=" = .error .malformed := by
    rw [Config.ofText, Option.isNone_iff_eq_none.1 htoml]
  refine ⟨.judgeConfig, ?_, .judgeConfig rfl hconfig hjudged⟩
  intro step hstep
  have hcases : step = .readInput ∨ step = .readConfig := by
    simpa [Step.before, Step.inOrder] using hstep
  rintro f hf
  obtain rfl | rfl := hcases
  · cases hf with
    | readInput refused => rw [brokenTwice, hinput] at refused; cases refused
  · cases hf with
    | readConfig present refused =>
      cases present
      rw [hconfig] at refused
      cases refused

theorem passes_renamed (step : Step) : step.Passes workshop.read renamed := by
  have hinput : (workshop.read "empty.json").toOption = some "\x7b\x7d" := by decide +kernel
  have hgenerate : ((Document.ofText "\x7b\x7d").toOption.map fun d =>
      match GeneratedApi.generate (renamed.rename {}) d with
      | .ok _ _ => true
      | .error _ _ => false) = some true := by decide +kernel
  rw [Except.toOption_eq_some_iff] at hinput
  obtain ⟨d, hd, hgenerate⟩ := Option.map_eq_some_iff.1 hgenerate
  rw [Except.toOption_eq_some_iff] at hd
  intro f hf
  cases hf with
  | readInput refused => rw [renamed, hinput] at refused; cases refused
  | readConfig present => cases present
  | judgeConfig present => cases present
  | judgeInput content judged =>
    rw [renamed, hinput] at content
    cases content
    rw [hd] at judged
    cases judged
  | generate content judged settings exhausted =>
    rw [renamed, hinput] at content
    cases content
    rw [hd] at judged
    cases judged
    cases settings with
    | default => rw [exhausted] at hgenerate; cases hgenerate
    | file present => cases present

theorem takes_workshop : workshop.Takes "out.json" ["", "out.json"] where
  locate := Except.toOption_eq_some_iff.1 (by decide +kernel)
  file := by decide +kernel
  slash := by decide +kernel

/-- The broken configuration is reported and nothing changes; the empty document is put into the
file, in place of what it held. -/
theorem run_normalize_workshop_allOrNothing :
    workshop.run brokenTwice.spell =
        (⟨1, "", some (.badConfig "=" .malformed)⟩, workshop) ∧
      ∃ api d', renamed.Generates workshop.read api ∧
        workshop.run renamed.spell = (⟨0, "", none⟩, d') ∧
          d'.read "out.json" = .ok (api.toJson.pretty ++ "\n") := by
  have hbroken : Request.ofArgs brokenTwice.spell = some (.normalize brokenTwice) :=
    ofArgs_spell (by decide) (by decide) (by decide)
  have hrenamed : Request.ofArgs renamed.spell = some (.normalize renamed) :=
    ofArgs_spell (by decide) (by decide) (by decide)
  refine ⟨((run_normalize_allOrNothing hbroken).1 workshop).2.1 _ failsFirst_brokenTwice, ?_⟩
  obtain ⟨api, hapi, hputsOut⟩ :=
    ((run_normalize_allOrNothing hrenamed).1 workshop).2.2 passes_renamed
  obtain ⟨d', hrun, hread, -⟩ := hputsOut.1 _ takes_workshop
  exact ⟨api, d', hapi, hrun, hread (by decide)⟩

end ApiGraph.CommandLine

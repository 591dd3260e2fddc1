import ApiGraph.Proofs.Lifting.Outcome
import ApiGraph.Proofs.Naming.Establish

/-!
# Names of members

A literal is named after its display name, or after its own text where the display names do not
reach. `RawNameAt` says which of the two it is, from the list under the first configured key that
has one, and `NamedAfter` says what a registry makes of the raw name.

Main statement: every literal gets one member, in its place and named in this way, in enumerations
that are declared and in those that are lifted. So literals with one raw name have members of one
name, and of the display names no more than there are literals make any difference.
-/

namespace ApiGraph

open Identifier Naming

/-- The names are the texts of the list under the first of the keys that has a list. -/
inductive Extensions.Lists (e : Extensions) : List String → List String → Prop
  | here {key : String} {keys : List String} {items : List Json}
      (list : e.value? key = some (.array items)) : Lists e (key :: keys) (items.map Json.text)
  | later {key : String} {keys names : List String}
      (other : ∀ items, e.value? key ≠ some (.array items)) (rest : Lists e keys names) :
      Lists e (key :: keys) names

namespace AllowableValue

/-- What the literal in the place `i` is named after. -/
inductive RawNameAt (keys : List String) (e : Extensions) (i : Nat) (value : EnumLiteral) :
    String → Prop
  | displayed {names : List String} {raw : String} (listed : e.Lists keys names)
      (place : names[i]? = some raw) : RawNameAt keys e i value raw
  | literal (short : ∀ names, e.Lists keys names → names.length ≤ i) :
      RawNameAt keys e i value value.text

/-- The name of a member with the raw name, over a registry that knows it. -/
inductive NamedAfter (r : Registry) (raw : String) : String → Prop
  | sanitized {name : String} (legal : base raw .field ≠ "")
      (sanitize : (trySanitize raw .field).Recalls r (some name)) : NamedAfter r raw name
  | empty (legal : base raw .field = "") : NamedAfter r raw "EMPTY_STRING"

structure NameEach (keys : List String) (e : Extensions) (r : Registry)
    (values : List EnumLiteral) (members : List AllowableValue) : Prop where
  values : members.map AllowableValue.value = values
  name : ∀ (i : Nat) (a : AllowableValue), members[i]? = some a →
    ∃ raw, RawNameAt keys e i a.value raw ∧ NamedAfter r raw a.name
  same : ∀ (i j : Nat) (a b : AllowableValue) (raw : String), members[i]? = some a →
    members[j]? = some b → RawNameAt keys e i a.value raw → RawNameAt keys e j b.value raw →
      a.name = b.name

/-! ## Display names -/

theorem displayNames?_cons_of_list {e : Extensions} {key : String} {items : List Json}
    (h : e.value? key = some (.array items)) (keys : List String) :
    displayNames? (key :: keys) e = some (items.map Json.text) := by
  rw [displayNames?, List.findSome?_cons, Extensions.stringList?, h]

theorem displayNames?_cons_of_other {e : Extensions} {key : String}
    (h : ∀ items, e.value? key ≠ some (.array items)) (keys : List String) :
    displayNames? (key :: keys) e = displayNames? keys e := by
  have hnone : e.stringList? key = none := by
    unfold Extensions.stringList?
    split
    · exact absurd ‹_› (h _)
    · rfl
  rw [displayNames?, List.findSome?_cons, hnone]
  rfl

theorem displayNames?_eq_some_iff {keys names : List String} {e : Extensions} :
    displayNames? keys e = some names ↔ e.Lists keys names := by
  constructor
  · induction keys with
    | nil => nofun
    | cons key keys ih =>
      intro h
      by_cases hlist : ∃ items, e.value? key = some (.array items)
      · obtain ⟨items, hitems⟩ := hlist
        rw [displayNames?_cons_of_list hitems, Option.some.injEq] at h
        exact h ▸ .here hitems
      · rw [not_exists] at hlist
        rw [displayNames?_cons_of_other hlist] at h
        exact .later hlist (ih h)
  · intro h
    induction h with
    | here list => exact displayNames?_cons_of_list list _
    | later other _ ih => rw [displayNames?_cons_of_other other, ih]

/-! ## Raw names -/

theorem getElem?_rawNames (names : List String) (values : List EnumLiteral) (i : Nat) :
    (rawNames names values)[i]? = values[i]?.map fun v => ((names[i]?).getD v.text, v) := by
  induction values generalizing names i with
  | nil => simp
  | cons v values ih =>
    cases names <;> cases i <;> simp [rawNames, ih]

/-- What lies beyond the literals is not looked at. -/
theorem rawNames_take (names : List String) (values : List EnumLiteral) :
    rawNames (names.take values.length) values = rawNames names values := by
  induction values generalizing names with
  | nil => simp
  | cons v values ih => cases names <;> simp [rawNames, ih]

variable {keys : List String} {e : Extensions} {r : Registry} {i : Nat} {raw : String}

theorem rawNameAt_iff {value : EnumLiteral} :
    RawNameAt keys e i value raw ↔
      (((displayNames? keys e).getD [])[i]?).getD value.text = raw := by
  constructor
  · rintro (⟨hnames, hplace⟩ | hshort)
    · rw [displayNames?_eq_some_iff.2 hnames, Option.getD_some, hplace, Option.getD_some]
    · cases hdisplay : displayNames? keys e with
      | none => rfl
      | some names =>
        rw [Option.getD_some,
          List.getElem?_eq_none (hshort names (displayNames?_eq_some_iff.1 hdisplay))]
        rfl
  · rintro rfl
    cases hdisplay : displayNames? keys e with
    | none =>
      refine .literal fun names hnames => ?_
      rw [displayNames?_eq_some_iff.2 hnames] at hdisplay
      cases hdisplay
    | some names =>
      have hnames := displayNames?_eq_some_iff.1 hdisplay
      rw [Option.getD_some]
      cases hplace : names[i]? with
      | some raw => exact .displayed hnames hplace
      | none =>
        refine .literal fun names' hnames' => ?_
        rw [displayNames?_eq_some_iff.2 hnames', Option.some.injEq] at hdisplay
        rw [hdisplay]
        exact List.getElem?_eq_none_iff.1 hplace

theorem NamedAfter.unique {name name' : String} (h : NamedAfter r raw name)
    (h' : NamedAfter r raw name') : name = name' := by
  cases h with
  | sanitized hlegal hname =>
    cases h' with
    | sanitized _ hname' => exact Option.some.inj (hname.unique hname')
    | empty hempty => exact absurd hempty hlegal
  | empty hempty =>
    cases h' with
    | sanitized hlegal _ => exact absurd hempty hlegal
    | empty _ => rfl

/-- A registry that has named every literal has named equal raw names alike. -/
theorem nameEach_of_forall₂ {values : List EnumLiteral} {members : List AllowableValue}
    (h : List.Forall₂ (fun (p : String × EnumLiteral) a => a.value = p.2 ∧ NamedAfter r p.1 a.name)
      (rawNames ((displayNames? keys e).getD []) values) members) :
    NameEach keys e r values members := by
  have hname : ∀ (i : Nat) (a : AllowableValue), members[i]? = some a →
      ∃ raw, RawNameAt keys e i a.value raw ∧ NamedAfter r raw a.name := by
    intro i a ha
    obtain ⟨hlt, rfl⟩ := List.getElem?_eq_some_iff.1 ha
    have hlt' : i < (rawNames ((displayNames? keys e).getD []) values).length := by
      rwa [h.length_eq]
    obtain ⟨hvalue, hafter⟩ := h.get hlt' hlt
    have hpair := getElem?_rawNames ((displayNames? keys e).getD []) values i
    rw [List.getElem?_eq_getElem hlt', eq_comm, Option.map_eq_some_iff] at hpair
    obtain ⟨v, -, hpair⟩ := hpair
    refine ⟨_, ?_, hafter⟩
    rw [rawNameAt_iff]
    change _ = ((rawNames _ values)[i]).1
    rw [show members[i].value = ((rawNames _ values)[i]).2 from hvalue, ← hpair]
  refine ⟨?_, hname, ?_⟩
  · exact (map_eq_map_of_forall₂ h fun _ _ ha => ha.1).trans (map_snd_rawNames _ values)
  · intro i j a b raw ha hb hrawa hrawb
    obtain ⟨rawa, hrawa', hafter⟩ := hname i a ha
    obtain ⟨rawb, hrawb', hbfter⟩ := hname j b hb
    rw [rawNameAt_iff] at hrawa hrawb hrawa' hrawb'
    rw [← hrawa', hrawa] at hafter
    rw [← hrawb', hrawb] at hbfter
    exact hafter.unique hbfter

/-! ## Naming -/

/-- A name is left out when nothing legal is left of it, and only then. -/
theorem yields_trySanitize_eq_none (raw : String) (role : Role) :
    (trySanitize raw role).Yields fun name? => name? = none ↔ base raw role = "" := by
  unfold trySanitize
  refine yields_bind_of_forall fun _ => ?_
  cases hspell : spell raw role with
  | none => exact yields_pure (iff_of_true rfl ((spell_eq_none_iff raw role).1 hspell))
  | some name =>
    have hlegal : base raw role ≠ "" := by
      rw [Ne, ← spell_eq_none_iff, hspell]
      exact Option.some_ne_none name
    exact yields_bind_of_forall fun text => yields_pure (by simp [hlegal])

theorem establishes_ofRaw (raw : String) (value : EnumLiteral) :
    (ofRaw raw value).Establishes fun r a => a.value = value ∧ NamedAfter r raw a.name := by
  unfold ofRaw
  refine (composed_trySanitize raw .field).memoizing.establishes.bind fun name? => ?_
  refine establishes_pure fun r hname => ⟨rfl, ?_⟩
  have hnone := hname.of_yields (yields_trySanitize_eq_none raw .field)
  cases name? with
  | none => exact .empty (hnone.1 rfl)
  | some name => exact .sanitized (fun hempty => nomatch hnone.2 hempty) hname

theorem establishes_buildMembers (raws : List (String × EnumLiteral)) :
    (buildMembers raws).Establishes fun r members =>
      List.Forall₂ (fun p a => a.value = p.2 ∧ NamedAfter r p.1 a.name) raws members :=
  establishes_mapM fun p _ => establishes_ofRaw p.1 p.2

theorem establishes_build (keys : List String) (values : List EnumLiteral) (e : Extensions) :
    (build keys values e).Establishes fun r members => NameEach keys e r values members := by
  rw [build_eq]
  refine (establishes_reportIf _ _).bind fun _ => ?_
  exact (establishes_buildMembers _).mono fun r members h _ => nameEach_of_forall₂ h

/-- Only the display names that meet a literal count. -/
theorem build_congr {keys keys' : List String} {values : List EnumLiteral} {e e' : Extensions}
    {names names' : List String} (h : e.Lists keys names) (h' : e'.Lists keys' names')
    (htake : names.take values.length = names'.take values.length) :
    build keys values e = build keys' values e' := by
  rw [build_eq, build_eq, displayNames?_eq_some_iff.2 h, displayNames?_eq_some_iff.2 h']
  simp only [Option.getD_some, Option.isSome_some, Bool.true_and]
  rw [← rawNames_take names, ← rawNames_take names', htake]
  have hlength : min values.length names.length = min values.length names'.length := by
    rw [← List.length_take, htake, List.length_take]
  -- what is reported tells how many names there are when there are too few of them
  by_cases hshort : names.length < values.length
  · have hshort' : names'.length < values.length := by omega
    have heq : names.length = names'.length := by omega
    rw [decide_eq_true hshort, decide_eq_true hshort', heq]
  · have hshort' : ¬ names'.length < values.length := by omega
    rw [decide_eq_false hshort, decide_eq_false hshort']
    rfl

end AllowableValue

/-! ## Enumerations -/

/-- A set of models has an enumeration with these literals and these extensions: one of the models
is, or a field of one of them declares it. -/
inductive ModelSet.Enumerates (s : ModelSet) : List EnumLiteral → Extensions → Prop
  | declared {m : Model} (model : m ∈ s.toList) (isEnum : m.isEnum = true) :
      Enumerates s m.enumValues m.extensions
  | inline {m : Model} {f source : Field} (model : m ∈ s.toList) (isEnum : m.isEnum = false)
      (field : f ∈ m.fields) (enumSource : f.enumSource? = some source) :
      Enumerates s source.enumValues source.extensions

/-- If the model is an enumeration, it is one of those, and its members are named after its
literals. -/
def Model.NamesMembers (enums : List EnumLiteral → Extensions → Prop) (keys : List String)
    (r : Registry) (m : Model) : Prop :=
  m.isEnum = true → enums m.enumValues m.extensions ∧
    AllowableValue.NameEach keys m.extensions r m.enumValues m.allowableValues

section Enumerations

variable {enums : List EnumLiteral → Extensions → Prop} {keys : List String}

theorem Model.establishes_liftEnum (owner baseName : String) {source : Field} (claimed : ModelSet)
    (hsource : enums source.enumValues source.extensions) :
    (liftEnum keys owner baseName source claimed).Establishes (NamesMembers enums keys) := by
  rw [liftEnum_eq]
  refine (composed_freeName _ _ _ _).memoizing.establishes.bind fun p => ?_
  refine (establishes_reportIf _ _).bind fun _ => ?_
  refine (AllowableValue.establishes_build _ _ _).bind fun members => ?_
  exact establishes_pure fun r hmembers _ _ _ => ⟨hsource, hmembers⟩

/-- Lifting adds nothing but enumerations with their members named. -/
theorem Field.establishes_lift (owner : String) (claimed : ModelSet) {f : Field}
    (hf : ∀ source, f.enumSource? = some source → enums source.enumValues source.extensions) :
    (lift keys owner claimed f).Establishes fun r p =>
      (∀ e ∈ claimed.toList, e.NamesMembers enums keys r) →
        ∀ e ∈ p.2.toList, e.NamesMembers enums keys r := by
  unfold lift
  split
  · exact establishes_pure fun r h => h
  · rename_i source hsource
    refine (Model.establishes_liftEnum _ _ _ (hf source hsource)).bind fun m => ?_
    refine establishes_pure fun r hm h e he => ?_
    rcases Keyed.mem_toList_insert.1 he with rfl | ⟨he, -⟩
    · exact hm
    · exact h e he

theorem Field.establishes_liftAll (owner : String) (claimed : ModelSet) {fields : List Field}
    (hfields : ∀ f ∈ fields, ∀ source, f.enumSource? = some source →
      enums source.enumValues source.extensions) :
    (liftAll keys owner claimed fields).Establishes fun r p =>
      (∀ e ∈ claimed.toList, e.NamesMembers enums keys r) →
        ∀ e ∈ p.2.toList, e.NamesMembers enums keys r := by
  induction fields generalizing claimed with
  | nil => exact establishes_pure fun r h => h
  | cons f fields ih =>
    obtain ⟨hf, hfields⟩ := List.forall_mem_cons.1 hfields
    unfold liftAll
    refine (establishes_lift owner claimed hf).bind fun p => ?_
    refine (ih p.2 hfields).bind fun q => ?_
    exact establishes_pure fun r hq hp h => hq (hp h)

theorem Model.establishes_normalize {s : ModelSet} (claimed : ModelSet) {m : Model}
    (hm : m ∈ s.toList) :
    (normalize keys claimed m).Establishes fun r p => p.1.NamesMembers s.Enumerates keys r ∧
      ((∀ e ∈ claimed.toList, e.NamesMembers s.Enumerates keys r) →
        ∀ e ∈ p.2.toList, e.NamesMembers s.Enumerates keys r) := by
  unfold normalize
  split
  · rename_i henum
    have hdeclared : s.Enumerates m.enumValues m.extensions := .declared hm henum
    refine (AllowableValue.establishes_build _ _ _).bind fun members => ?_
    exact establishes_pure fun r hmembers => ⟨fun _ => ⟨hdeclared, hmembers⟩, fun h => h⟩
  · rename_i henum
    have hfields : ∀ f ∈ m.fields, ∀ source, f.enumSource? = some source →
        s.Enumerates source.enumValues source.extensions :=
      fun f hf source hsource => .inline hm (Bool.eq_false_of_not_eq_true henum) hf hsource
    refine (Field.establishes_liftAll _ _ hfields).bind fun p => ?_
    exact establishes_pure fun r hp => ⟨fun henum' => absurd henum' henum, hp⟩

theorem Model.establishes_normalizeAll {s : ModelSet} (claimed : ModelSet) {models : List Model}
    (hmodels : ∀ m ∈ models, m ∈ s.toList) :
    (normalizeAll keys claimed models).Establishes fun r p =>
      (∀ m ∈ p.1, m.NamesMembers s.Enumerates keys r) ∧
        ((∀ e ∈ claimed.toList, e.NamesMembers s.Enumerates keys r) →
          ∀ e ∈ p.2.toList, e.NamesMembers s.Enumerates keys r) := by
  induction models generalizing claimed with
  | nil => exact establishes_pure fun r => ⟨nofun, fun h => h⟩
  | cons m models ih =>
    obtain ⟨hm, hmodels⟩ := List.forall_mem_cons.1 hmodels
    unfold normalizeAll
    refine (establishes_normalize claimed hm).bind fun p => ?_
    refine (ih p.2 hmodels).bind fun q => ?_
    refine establishes_pure fun r hq hp => ⟨?_, fun h => hq.2 (hp.2 h)⟩
    exact List.forall_mem_cons.2 ⟨hp.1, hq.1⟩

/-- Marking fields leaves the members of enumerations alone. -/
theorem ModelSet.namesMembers_annotateUnions {s : ModelSet} {r : Registry}
    (h : ∀ m ∈ s.toList, m.NamesMembers enums keys r) :
    ∀ m ∈ s.annotateUnions.toList, m.NamesMembers enums keys r := by
  intro m hm
  obtain ⟨m', hm', rfl⟩ := List.mem_map.1 hm
  exact h m' hm'

theorem ModelSet.establishes_normalize (keys : List String) (s : ModelSet) :
    (normalize keys s).Establishes fun r t =>
      ∀ m ∈ t.toList, m.NamesMembers s.Enumerates keys r := by
  unfold normalize
  refine (Model.establishes_normalizeAll _ fun m hm => hm).bind fun p => ?_
  refine (memoizing_merge _ _).establishes.bind fun merged => ?_
  refine (establishes_reportAll _).bind fun _ => ?_
  refine (establishes_report _).bind fun _ => ?_
  refine establishes_pure fun r _ _ hmerged hp => ?_
  refine namesMembers_annotateUnions fun m hm => ?_
  rw [← recalls_merge_iff.1 hmerged] at hm
  rcases Keyed.mem_of_mem_insertAll hm with hm | hm
  · exact hp.2 (fun e he => absurd he List.not_mem_nil) m hm
  · exact hp.1 m (Keyed.mem_of_mem_ofList hm)

end Enumerations

/-- Whatever has been named before, every literal gets one member in its place, named after the
display name that is listed for it or else after its own text, and equal raw names get equal
names; display names beyond the literals make no difference; and all this holds of every
enumeration, declared or lifted, in a set of models that has been normalized. -/
theorem memberNames_of_literals :
    (∀ keys values e σ members τ, AllowableValue.build keys values e σ = .ok members τ →
        ∀ r, τ.registry ≤ r → AllowableValue.NameEach keys e r values members) ∧
      (∀ keys keys' values e e' names names', e.Lists keys names → e'.Lists keys' names' →
        names.take values.length = names'.take values.length →
          AllowableValue.build keys values e = AllowableValue.build keys' values e') ∧
        ∀ keys s σ t τ, ModelSet.normalize keys s σ = .ok t τ →
          ∀ m ∈ t.toList, m.isEnum = true → s.Enumerates m.enumValues m.extensions ∧
            ∀ r, τ.registry ≤ r →
              AllowableValue.NameEach keys m.extensions r m.enumValues m.allowableValues := by
  refine ⟨fun keys values e σ members τ h => ?_, fun keys keys' values e e' names names' h h' =>
    AllowableValue.build_congr h h', fun keys s σ t τ h m hm henum => ?_⟩
  · exact (AllowableValue.establishes_build keys values e σ members τ h).2
  · obtain ⟨-, hnamed⟩ := ModelSet.establishes_normalize keys s σ t τ h
    refine ⟨(hnamed τ.registry (le_refl τ.registry) m hm henum).1, fun r hr => ?_⟩
    exact (hnamed r hr m hm henum).2

/-- A display name that is too long for an identifier. -/
def Extensions.longName : String :=
  "aDisplayNameThatIsLongerThanAnyIdentifierOfTheTargetLanguageMayEverBe"

/-- Five display names, of which one is not a string and one leaves nothing legal. -/
def Extensions.sizeNames : Extensions :=
  .ofList [("x-enumNames", .array
    [.string longName, .int 7, .string "$$", .string longName, .string "Other"])]

/-- A declared enumeration with fewer literals than display names, and an inline one with more. -/
def ModelSet.sizes : ModelSet :=
  .ofList
    [{ Model.new "Size" "Size" with
        isEnum := true
        enumValues := [.string "XL"]
        extensions := .sizeNames },
     { Model.new "Shoe" "Shoe" with
        fields := [{ Field.new "width" (.model "Width") with
          isEnum := true
          enumValues := [.string "a", .string "b", .string "c", .string "d", .string "e",
            .string "f g"]
          extensions := .sizeNames }] }]

def ModelSet.memberNames? (s : ModelSet) (className : String) : Option (List String) :=
  (s.get? className).map fun m => m.allowableValues.map AllowableValue.name

theorem memberNames_sizes :
    (∃ t τ, ModelSet.normalize ["x-labels", "x-enumNames"] .sizes .start = .ok t τ ∧
      (t.memberNames? "ShoeWidthEnum" =
          some ["aDisplayNameThatIsLongerThanAnyIdentifierOfTheTargetLangua_0000", "x7",
            "EMPTY_STRING", "aDisplayNameThatIsLongerThanAnyIdentifierOfTheTargetLangua_0000",
            "Other", "f_g"] ∧
        t.memberNames? "Size" = (t.memberNames? "ShoeWidthEnum").map (List.take 1)) ∧
      ∀ m ∈ t.toList, m.isEnum = true → AllowableValue.NameEach ["x-labels", "x-enumNames"]
        m.extensions τ.registry m.enumValues m.allowableValues) ∧
    AllowableValue.build ["x-enumNames"] [.null] .sizeNames =
      AllowableValue.build ["x-labels"] [.null]
        (.ofList [("x-labels", .array [.string Extensions.longName])]) := by
  constructor
  · obtain ⟨t, τ, h, hnames⟩ := (succeedsWith_iff (s := .start)
      (x := ModelSet.normalize ["x-labels", "x-enumNames"] .sizes)
      (p := fun t => t.memberNames? "ShoeWidthEnum" =
          some ["aDisplayNameThatIsLongerThanAnyIdentifierOfTheTargetLangua_0000", "x7",
            "EMPTY_STRING", "aDisplayNameThatIsLongerThanAnyIdentifierOfTheTargetLangua_0000",
            "Other", "f_g"] ∧
        t.memberNames? "Size" = (t.memberNames? "ShoeWidthEnum").map (List.take 1))).1
          (by decide +kernel)
    refine ⟨t, τ, h, of_decide_eq_true hnames, fun m hm henum => ?_⟩
    exact (memberNames_of_literals.2.2 _ _ _ _ _ h m hm henum).2 τ.registry (le_refl τ.registry)
  · exact memberNames_of_literals.2.1 _ _ _ _ _ _ _ (.here rfl) (.here rfl) rfl

end ApiGraph

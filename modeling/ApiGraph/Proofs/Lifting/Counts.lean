import ApiGraph.Proofs.Lifting.References
import ApiGraph.Proofs.Model.Displaced

/-!
# How many models there are

Lifting gives every inline enumeration a model of its own, and a lifted model that displaces a
declared one is reported. So sizes and warnings before and after normalization add up.

Main statement: of a set of declared models normalization makes a set that has one lifted model
for each field that declares an enumeration, and as many models more, less those for which there
is a warning; it says itself how many models there are and how many of them are lifted.
-/

namespace ApiGraph

open Naming

def Field.DeclaresEnum (f : Field) : Prop := ∃ source, f.Declares source

instance : DecidablePred Field.DeclaresEnum := fun f =>
  decidable_of_iff (f.enumSource?.isSome = true) <| by
    rw [Option.isSome_iff_exists]
    exact exists_congr fun _ => Field.enumSource?_eq_some_iff

instance : DecidablePred Model.IsLifted := fun m =>
  decidable_of_iff (m.origin ≠ .source) <| by
    unfold Model.IsLifted
    cases m.origin <;> simp

theorem Event.isAccount_of_isLifting {e : Event} (h : e.isLifting = true) :
    e.isAccount = false := by
  cases e <;> first | rfl | cases h

theorem Event.isLifting_of_isSome_truncation? {e : Event} (h : e.truncation?.isSome = true) :
    e.isLifting = true :=
  isLifting_of_isNaming (isNaming_of_isSome_truncation? h)

/-! ## Declaring fields -/

theorem Model.length_inlineEnums {m : Model} (h : m.isEnum = true → m.fields = []) :
    m.inlineEnums.length = m.fields.countP fun f => f.DeclaresEnum := by
  unfold inlineEnums
  split
  · rename_i henum
    rw [h henum]
    rfl
  · rw [List.length_filterMap_eq_countP]
    refine List.countP_congr fun f _ => ?_
    rw [decide_eq_true_iff, Field.inlineEnum?, Option.isSome_map, Option.isSome_iff_exists]
    exact exists_congr fun _ => Field.enumSource?_eq_some_iff

/-- When enumerations have no fields, every declaring field is lifted. -/
theorem ModelSet.length_inlineEnums {s : ModelSet}
    (h : ∀ m ∈ s.toList, m.isEnum = true → m.fields = []) :
    s.inlineEnums.length =
      (s.toList.flatMap Model.fields).countP fun f => f.DeclaresEnum := by
  unfold inlineEnums
  rw [List.length_flatMap, List.countP_flatMap]
  exact congrArg List.sum (List.map_congr_left fun m hm => Model.length_inlineEnums (h m hm))

namespace ModelSet

variable {nameExtensions : List String}

/-! ## Lifted models -/

/-- Of declared models a pass lifts as many enumerations as there are. -/
theorem size_lifted {s lifted : ModelSet} {models : List Model} {σ τ : Session}
    (hs : s.DistinctFields)
    (h : Model.normalizeAll nameExtensions ∅ s.toList σ = .ok (models, lifted) τ) :
    lifted.size = s.inlineEnums.length := by
  obtain ⟨-, hrecalls⟩ := Model.memoizing_normalizeAll _ _ _ _ _ _ h
  obtain ⟨modelOf, hturn, rfl, -⟩ :=
    exists_modelOf hs (hrecalls τ.registry (le_refl τ.registry))
  rw [Keyed.size_ofList hturn.nodup_classNames, InlineEnum.models, List.length_map]

/-- In an outcome of declared models the lifted ones are those that the pass has lifted. -/
theorem Framed.filter_isLifted {s lifted t : ModelSet} (h : s.Framed lifted t)
    (hsource : ∀ m ∈ s.toList, m.origin = .source) :
    t.toList.filter (fun m => m.IsLifted) = lifted.toList := by
  refine Keyed.eq_of_sorted (t.sorted.filter _) lifted.sorted fun x => ?_
  rw [List.mem_filter, decide_eq_true_iff]
  constructor
  · rintro ⟨hx, owner, field, horigin⟩
    refine (h.mem_or_exists_kept hx).resolve_right fun ⟨m, hm, hkept⟩ => ?_
    have hsame := hkept.normalized.origin
    rw [horigin, hsource m hm] at hsame
    cases hsame
  · intro hx
    obtain ⟨hget, i, -, hmakes⟩ := h.get?_lifted x hx
    exact ⟨Keyed.mem_toList_iff.2 hget, _, _, hmakes.origin_eq⟩

theorem Framed.countP_isLifted {s lifted t : ModelSet} (h : s.Framed lifted t)
    (hsource : ∀ m ∈ s.toList, m.origin = .source) :
    (t.toList.countP fun m => m.IsLifted) = lifted.size := by
  rw [List.countP_eq_length_filter, h.filter_isLifted hsource]
  rfl

/-- An outcome has all class names there were and those of the lifted models, and some are both. -/
theorem Framed.size_add_countP {s lifted t : ModelSet} (h : s.Framed lifted t) :
    t.size + s.keys.countP (fun c => c ∈ lifted.keys) = s.size + lifted.size := by
  have hkeys (u : ModelSet) : u.keys.toFinset.card = u.size :=
    (List.toFinset_card_of_nodup u.nodup_keys).trans u.length_keys
  have hunion : s.keys.toFinset ∪ lifted.keys.toFinset = t.keys.toFinset := by
    ext c
    rw [Finset.mem_union, List.mem_toFinset, List.mem_toFinset, List.mem_toFinset, h.mem_keys_iff]
  have hinter : s.keys.toFinset ∩ lifted.keys.toFinset =
      (s.keys.filter fun c => c ∈ lifted.keys).toFinset := by
    ext c
    simp
  have hboth : (s.keys.filter fun c => c ∈ lifted.keys).Nodup := s.nodup_keys.filter _
  have hcard := Finset.card_union_add_card_inter s.keys.toFinset lifted.keys.toFinset
  rwa [hunion, hinter, hkeys, hkeys, hkeys, List.toFinset_card_of_nodup hboth,
    ← List.countP_eq_length_filter] at hcard

/-- No class name is lost. -/
theorem Framed.size_le {s lifted t : ModelSet} (h : s.Framed lifted t) : s.size ≤ t.size := by
  have hsub : s.keys.Subperm t.keys :=
    s.nodup_keys.subperm fun c hc => (h.mem_keys_iff c).2 (.inl hc)
  have hle := hsub.length_le
  rwa [Keyed.keys, Keyed.keys, List.length_map, List.length_map] at hle

/-! ## Accounts -/

/-- Every lifted model adds to the set, or displaces a declared one and adds a warning to the
log. -/
theorem accounts_merge {s t : ModelSet} {lifted : List Model} {σ τ : Session}
    (hnodup : (lifted.map Model.className).Nodup)
    (hsource : ∀ e ∈ lifted, ∀ m, s.get? e.className = some m → m.origin = .source)
    (h : merge s lifted σ = .ok t τ) :
    ∃ replaced, τ.accounts = σ.accounts ++ replaced ∧
      (∀ e ∈ replaced, e.isDeclaredModelReplaced = true) ∧
        t.size + replaced.length = s.size + lifted.length := by
  induction lifted generalizing s σ with
  | nil =>
    obtain ⟨rfl, rfl⟩ := pure_eq_ok_iff.1 h
    exact ⟨[], by simp, by simp, rfl⟩
  | cons e lifted ih =>
    obtain ⟨hnew, hnodup⟩ := List.nodup_cons.1 hnodup
    rw [merge_cons] at h
    obtain ⟨_, σ₁, hreport, h⟩ := bind_eq_ok_iff.1 h
    have hany : ((s.get? e.className).any fun m => m.origin = .source) =
        (s.get? e.className).isSome := by
      cases hfound : s.get? e.className with
      | none => rfl
      | some m => simp [hsource e List.mem_cons_self m hfound]
    rw [hany] at hreport
    obtain ⟨own, hwarn, hown, hlength⟩ := accounts_reportIf hreport rfl
    obtain ⟨replaced, haccounts, hreplaced, hsize⟩ := ih hnodup (fun e' he' m hm => by
      -- the next ones have other class names, so what they meet was there before
      have hne : e.className ≠ e'.className := fun heq => hnew (heq ▸ List.mem_map_of_mem he')
      rw [Keyed.get?_insert, if_neg hne] at hm
      exact hsource e' (List.mem_cons_of_mem e he') m hm) h
    refine ⟨own ++ replaced, ?_, List.forall_mem_append.2 ⟨fun e' he' => ?_, hreplaced⟩, ?_⟩
    · rw [haccounts, hwarn, List.append_assoc]
    · rw [hown e' he']
      rfl
    · have hinsert := Keyed.size_insert s e
      rw [← hlength] at hinsert
      rw [List.length_append, List.length_cons]
      omega

/-- Lifting itself accounts for nothing. -/
theorem accounts_normalizeAll {s : ModelSet} {p : List Model × ModelSet} {σ τ : Session}
    (h : Model.normalizeAll nameExtensions ∅ s.toList σ = .ok p τ) : τ.accounts = σ.accounts :=
  ((Model.composed_normalizeAll nameExtensions ∅ s.toList).reports
    fun _ => Event.isLifting_of_isSome_truncation?).filter_eq
    (fun _ => Event.isAccount_of_isLifting) h

/-- Nor does marking. -/
theorem filter_annotationEvents (s : ModelSet) :
    s.annotationEvents.filter Event.isAccount = [] :=
  filter_eq_nil_of_forall (fun _ => exists_of_mem_annotationEvents) fun e he => by
    obtain ⟨field, union, rfl⟩ := he
    rfl

/-- What normalization adds to the accounts, and how the sizes follow from it. -/
theorem accounts_normalize {s t : ModelSet} {σ τ : Session}
    (hsource : ∀ m ∈ s.toList, m.origin = .source)
    (h : normalize nameExtensions s σ = .ok t τ) :
    ∃ models lifted σ' replaced,
      Model.normalizeAll nameExtensions ∅ s.toList σ = .ok (models, lifted) σ' ∧
        s.Framed lifted t ∧
        τ.accounts = σ.accounts ++ replaced ++ [.modelsNormalized t.size lifted.size] ∧
        (∀ e ∈ replaced, e.isDeclaredModelReplaced = true) ∧
          t.size + replaced.length = s.size + lifted.size := by
  obtain ⟨models, lifted, σ₁, merged, σ₂, hpass, hmerge, hmerged, rfl, hlog⟩ := normalize_eq_ok h
  obtain ⟨hmodels, -⟩ := yields_normalizeAll_makes nameExtensions s σ _ σ₁ hpass
  have hnodup : (models.map Model.className).Nodup :=
    (Model.KeptUpTo.map_className hmodels).symm ▸ s.nodup_keys
  -- all that a lifted model can meet is a declared one, so there is a warning whenever it does
  have hdeclared : ∀ e ∈ lifted.toList, ∀ m,
      (Keyed.ofList models : ModelSet).get? e.className = some m → m.origin = .source := by
    intro e _ m' hm'
    obtain ⟨m, hm, hkept⟩ := exists_of_mem_forall₂ hmodels
      ((Keyed.mem_toList_ofList hnodup).1 (Keyed.get?_eq_some_iff.1 hm').1)
    obtain ⟨_, _, rfl, -⟩ := hkept
    exact hsource m hm
  obtain ⟨replaced, haccounts, hreplaced, hsize⟩ :=
    accounts_merge lifted.nodup_keys hdeclared hmerge
  have hsizes : merged.annotateUnions.size = merged.size := List.length_map _
  have hmodelsSize : (Keyed.ofList models : ModelSet).size = s.size := by
    rw [Keyed.size_ofList hnodup]
    exact hmodels.length_eq.symm
  refine ⟨models, lifted, σ₁, replaced, hpass, hmerged ▸ framed_of_normalizeAll hpass, ?_,
    hreplaced, ?_⟩
  · rw [Session.accounts, hlog, List.filter_append, List.filter_append, filter_annotationEvents,
      List.append_nil, ← accounts_normalizeAll hpass, ← haccounts]
    rfl
  · rw [hsizes, hsize, hmodelsSize]
    rfl

end ModelSet

end ApiGraph

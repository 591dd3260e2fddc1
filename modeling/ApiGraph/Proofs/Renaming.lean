import ApiGraph.Proofs.Lifting.Candidates
import ApiGraph.Proofs.Operation.Identifiers

/-!
# Renaming comes to an end

Lifted enumerations and operations are renamed by searches that try one candidate after the
other. Neither search has a bound in itself, and a candidate need not show its number, since a
long suffix is cut; that the candidates get different names is due to the registry.

Main statement: from every session, either search ends within twice as many candidates as there
are names that are claimed or taken, and one more, at the first free name or at a full stem.
While there are fewer than `2 ^ 31` such names all numbers tried have 32 bits, and as long as
they do the searches with their bounds are the ones without.
-/

namespace ApiGraph

open Identifier Naming

/-- A search from the number `n` on, past `k` names at most, comes to an end. -/
structure EndsSoon (candidate : Nat → Request) (isTaken : String → Bool) (n k : Nat) (s : Session)
    (tried : Nat) (result : EStateM.Result Exhausted Session (String × Nat)) : Prop where
  searches : Searches candidate isTaken n s tried result
  tried_le : tried ≤ 2 * k + 1
  outcome : Searches.Outcome candidate isTaken n s tried result
  /-- All numbers that are tried have 32 bits. -/
  numbers_le : k < 2 ^ 31 → n + tried ≤ renameLimit

theorem exists_endsSoon {candidate : Nat → Request} {isTaken : String → Bool}
    (hinj : candidate.Injective) (hname : ∀ a b, (candidate a).name = (candidate b).name)
    {names : List String} (htaken : ∀ c, isTaken c = true → c ∈ names) {n : Nat} (hn : n ≤ 1)
    (s : Session) :
    ∃ tried result, EndsSoon candidate isTaken n names.length s tried result := by
  obtain ⟨tried, result, hle, hsearch⟩ := exists_searches hinj hname htaken n s
  refine ⟨tried, result, hsearch, hle, hsearch.outcome, fun hk => ?_⟩
  unfold renameLimit
  omega

/-! ## Lifted enumerations -/

/-- A class name is free when it is not claimed, or claimed by the enumeration itself. -/
theorem Model.isClaimed_eq_false_iff {claimed : ModelSet} {origin : ModelOrigin} {c : String} :
    isClaimed claimed origin c = false ↔ ∀ e, claimed.get? c = some e → e.origin = origin := by
  rw [← Bool.not_eq_true, isClaimed_iff_exists]
  simp

theorem Model.freeName_endsSoon (owner enumName : String) (origin : ModelOrigin)
    (claimed : ModelSet) (s : Session) :
    ∃ tried result,
      EndsSoon (fun k => ⟨owner, candidateSuffix enumName k⟩) (isClaimed claimed origin) 0
        claimed.size s tried result ∧
      (tried ≤ renameLimit →
        freeName owner enumName origin claimed (min (2 * claimed.size + 1) renameLimit) 0 s =
          result) := by
  obtain ⟨tried, result, h⟩ := exists_endsSoon (candidate_injective owner enumName)
    (fun _ _ => rfl)
    (fun c (hc : isClaimed claimed origin c = true) => mem_keys_of_isClaimed hc) (Nat.zero_le 1) s
  rw [Keyed.length_keys] at h
  refine ⟨tried, result, h, fun hlimit => ?_⟩
  rw [freeName_eq]
  exact h.searches.firstFree_eq (Nat.le_min.2 ⟨h.tried_le, hlimit⟩)

/-! ## Operations -/

/-- The outcome of a search without the number of the candidate. -/
def withoutNumber : EStateM.Result Exhausted Session (String × Nat) →
    EStateM.Result Exhausted Session String
  | .ok (c, _) t => .ok c t
  | .error e t => .error e t

theorem Operation.freeId_eq_withoutNumber (operationId : String) (taken : List String)
    (tries n : Nat) (s : Session) :
    freeId operationId taken tries n s =
      withoutNumber
        (firstFree (fun k => ⟨operationId, "_" ++ k.repr⟩) taken.contains tries n s) := by
  rw [freeId_eq]
  cases h : firstFree (fun k => ⟨operationId, "_" ++ k.repr⟩) taken.contains tries n s with
  | ok found t =>
    rw [bind_of_eq_ok h]
    rfl
  | error e t =>
    rw [bind_of_eq_error h]
    rfl

theorem Operation.freeId_endsSoon (operationId : String) (taken : List String) (s : Session) :
    ∃ tried result,
      EndsSoon (fun k => ⟨operationId, "_" ++ k.repr⟩) taken.contains 1 taken.dedup.length s
        tried result ∧
      (1 + tried ≤ renameLimit →
        freeId operationId taken (min (2 * taken.length + 1) (renameLimit - 1)) 1 s =
          withoutNumber result) := by
  obtain ⟨tried, result, h⟩ := exists_endsSoon (numbered_injective operationId) (fun _ _ => rfl)
    (fun c (hc : taken.contains c = true) => List.mem_dedup.2 (List.contains_iff_mem.1 hc))
    (le_refl 1) s
  refine ⟨tried, result, h, fun hlimit => ?_⟩
  -- a list that repeats names only gives the search more tries
  have hlength := (List.dedup_sublist taken).length_le
  have hle := h.tried_le
  rw [freeId_eq_withoutNumber, h.searches.firstFree_eq (by omega)]

/-! ## Both -/

/-- Both searches come to an end soon, whatever the session and whichever names are taken. As long
as the numbers have 32 bits, which they do while fewer than `2 ^ 31` names are taken, the searches
with their bounds do the same. -/
theorem renaming_endsSoon :
    (∀ (owner enumName baseName : String) (claimed : ModelSet) (s : Session), ∃ tried result,
      EndsSoon (fun k => ⟨owner, Model.candidateSuffix enumName k⟩)
        (Model.isClaimed claimed (.liftedEnum owner baseName)) 0 claimed.size s tried result ∧
      (tried ≤ renameLimit →
        Model.freeName owner enumName (.liftedEnum owner baseName) claimed
          (min (2 * claimed.size + 1) renameLimit) 0 s = result)) ∧
    (∀ (operationId : String) (taken : List String) (s : Session), ∃ tried result,
      EndsSoon (fun k => ⟨operationId, "_" ++ k.repr⟩) taken.contains 1 taken.dedup.length s
        tried result ∧
      (1 + tried ≤ renameLimit →
        Operation.freeId operationId taken (min (2 * taken.length + 1) (renameLimit - 1)) 1 s =
          withoutNumber result)) ∧
    ∀ (claimed : ModelSet) (owner baseName c : String),
      Model.isClaimed claimed (.liftedEnum owner baseName) c = false ↔
        ∀ e, claimed.get? c = some e → e.origin = .liftedEnum owner baseName :=
  ⟨fun owner enumName _ => Model.freeName_endsSoon owner enumName _, Operation.freeId_endsSoon,
    fun _ _ _ _ => Model.isClaimed_eq_false_iff⟩

/-- A name of an enumeration that leaves no room for a number. -/
def longKind : String := String.ofList (List.replicate 60 'k')

/-- The first two names of an enumeration are claimed by the fields of other models. -/
def longKinds : ModelSet :=
  .ofList
    [{ Model.new "" ("Pet" ++ longKind) with origin := .liftedEnum "Pe" "t" },
     { Model.new "" ((⟨"Pet", longKind ++ "_1"⟩ : Request).numbered 0) with
        origin := .liftedEnum "Owner" "kind" }]

theorem renaming_endsSoon_longKinds :
    (longKinds.size < 2 ^ 31 ∧
      (Model.freeName "Pet" longKind (.liftedEnum "Pet" "kind") longKinds
        (min (2 * longKinds.size + 1) renameLimit) 0).succeedsWith .start (fun found =>
          found = ((⟨"Pet", longKind ++ "_1"⟩ : Request).numbered 1, 2)) = true ∧
      ∃ tried result,
        EndsSoon (fun k => ⟨"Pet", Model.candidateSuffix longKind k⟩)
          (Model.isClaimed longKinds (.liftedEnum "Pet" "kind")) 0 longKinds.size .start tried
          result ∧
        Model.freeName "Pet" longKind (.liftedEnum "Pet" "kind") longKinds
          (min (2 * longKinds.size + 1) renameLimit) 0 .start = result) ∧
    ["get_pet", "get_pet_1"].dedup.length < 2 ^ 31 ∧
      ∃ tried result,
        EndsSoon (fun k => ⟨"get_pet", "_" ++ k.repr⟩) ["get_pet", "get_pet_1"].contains 1
          ["get_pet", "get_pet_1"].dedup.length .start tried result ∧
        Operation.freeId "get_pet" ["get_pet", "get_pet_1"]
          (min (2 * ["get_pet", "get_pet_1"].length + 1) (renameLimit - 1)) 1 .start =
            withoutNumber result := by
  obtain ⟨hclass, hid, -⟩ := renaming_endsSoon
  have hkinds : longKinds.size < 2 ^ 31 := by decide +kernel
  have htaken : ["get_pet", "get_pet_1"].dedup.length < 2 ^ 31 := by decide +kernel
  obtain ⟨tried, result, hends, hrun⟩ := hclass "Pet" longKind "kind" longKinds .start
  obtain ⟨tried', result', hends', hrun'⟩ := hid "get_pet" ["get_pet", "get_pet_1"] .start
  have htried : tried ≤ renameLimit := by simpa using hends.numbers_le hkinds
  exact ⟨⟨hkinds, by decide +kernel, tried, result, hends, hrun htried⟩,
    htaken, tried', result', hends', hrun' (hends'.numbers_le htaken)⟩

end ApiGraph

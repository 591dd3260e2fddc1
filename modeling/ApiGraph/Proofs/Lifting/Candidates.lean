import ApiGraph.Model.Lift
import ApiGraph.Proofs.Keyed
import ApiGraph.Proofs.Naming.Termination

/-!
# Class names for lifted enumerations

`InlineEnum` is an enumeration that a field of a model declares, and `candidate` lists
the requests by which it asks for a class name. `i.IsFirstFree r taken attempt c` says
that over the registry `r` the name `c` is the answer to the request `attempt`, is not
among the names `taken`, and that all requests before were answered by names that are.

Main statements: the tries that `Model.freeName` gets do as well as one for every number,
and with them it finds the first free name and nothing else. Both come from the search that
operations share.
-/

namespace ApiGraph

open Identifier Naming

/-- An enumeration that a field of a model declares. -/
structure InlineEnum where
  /-- The class name of the model. -/
  owner : String
  field : Field
  /-- The field itself, or its items. -/
  source : Field

namespace InlineEnum

def origin (i : InlineEnum) : ModelOrigin := .liftedEnum i.owner i.field.baseName

def candidate (i : InlineEnum) (attempt : Nat) : Request :=
  ⟨i.owner, Model.candidateSuffix i.source.liftedName attempt⟩

/-- The first class name that the registry answers and that is not taken. -/
structure IsFirstFree (r : Registry) (taken : List String) (i : InlineEnum) (attempt : Nat)
    (className : String) : Prop where
  answer : r.answer? (i.candidate attempt) = some className
  free : className ∉ taken
  passed : ∀ b < attempt, ∃ c ∈ taken, r.answer? (i.candidate b) = some c

end InlineEnum

/-! ## Candidates differ -/

theorem Model.candidateSuffix_inj {enumName : String} {m n : Nat}
    (h : candidateSuffix enumName m = candidateSuffix enumName n) : m = n := by
  -- what follows the name is empty only for the first candidate
  have hne : ∀ k : Nat, "" ≠ "_" ++ k.repr := by
    intro k hk
    have hlist := congrArg String.toList hk
    simp at hlist
  have htail : ∀ k, candidateSuffix enumName k =
      enumName ++ if k = 0 then "" else "_" ++ k.repr := by
    intro k
    unfold candidateSuffix
    split
    · rw [String.append_empty]
    · rw [String.append_assoc]
  rw [htail m, htail n, String.append_right_inj] at h
  by_cases hm : m = 0 <;> by_cases hn : n = 0
  · rw [hm, hn]
  · rw [if_pos hm, if_neg hn] at h
    exact absurd h (hne n)
  · rw [if_neg hm, if_pos hn] at h
    exact absurd h.symm (hne m)
  · rw [if_neg hm, if_neg hn] at h
    exact Naming.numberSuffix_inj h

theorem Model.candidate_injective (owner enumName : String) :
    Function.Injective fun k => (⟨owner, candidateSuffix enumName k⟩ : Request) :=
  fun _ _ h => candidateSuffix_inj (Request.mk.inj h).2

namespace InlineEnum

/-! ## The first free name -/

namespace IsFirstFree

variable {r : Registry} {taken : List String} {i : InlineEnum} {a : Nat} {c : String}

/-- Only which names are taken counts. -/
theorem congr (h : i.IsFirstFree r taken a c) {taken' : List String}
    (htaken : ∀ c, c ∈ taken ↔ c ∈ taken') : i.IsFirstFree r taken' a c where
  answer := h.answer
  free := fun hc => h.free ((htaken c).2 hc)
  passed := fun b hb => by
    obtain ⟨c', hc', heq⟩ := h.passed b hb
    exact ⟨c', (htaken c').1 hc', heq⟩

end IsFirstFree

end InlineEnum

/-! ## The search -/

namespace Model

theorem freeName_eq (owner enumName : String) (origin : ModelOrigin) (claimed : ModelSet)
    (tries n : Nat) :
    freeName owner enumName origin claimed tries n =
      firstFree (fun k => ⟨owner, candidateSuffix enumName k⟩) (isClaimed claimed origin)
        tries n := by
  induction tries generalizing n with
  | zero => rfl
  | succ tries ih =>
    unfold freeName firstFree
    simp only [ih]

theorem memoizing_freeName (owner enumName : String) (origin : ModelOrigin) (claimed : ModelSet)
    (tries n : Nat) : (freeName owner enumName origin claimed tries n).Memoizing := by
  rw [freeName_eq]
  exact memoizing_firstFree _ _ _ _

/-- A class name is claimed when a model of another origin has it. -/
theorem isClaimed_iff_exists {claimed : ModelSet} {origin : ModelOrigin} {c : String} :
    isClaimed claimed origin c = true ↔ ∃ e, claimed.get? c = some e ∧ e.origin ≠ origin := by
  unfold isClaimed
  cases claimed.get? c with
  | none => simp
  | some e => simp

theorem mem_keys_of_isClaimed {claimed : ModelSet} {origin : ModelOrigin} {c : String}
    (h : isClaimed claimed origin c = true) : c ∈ claimed.keys := by
  obtain ⟨e, he, -⟩ := isClaimed_iff_exists.1 h
  exact Keyed.mem_keys_iff.2 ⟨e, he⟩

theorem isClaimed_iff {claimed : ModelSet} {origin : ModelOrigin}
    (horigin : ∀ e ∈ claimed.toList, e.origin ≠ origin) {c : String} :
    isClaimed claimed origin c = true ↔ c ∈ claimed.keys := by
  rw [isClaimed_iff_exists, Keyed.mem_keys_iff]
  exact exists_congr fun e =>
    and_iff_left_of_imp fun he => horigin e (Keyed.get?_eq_some_iff.1 he).1

/-- The tries that there are for a lifted enumeration do as well as one for every number. -/
theorem freeName_lift_eq (owner enumName : String) (origin : ModelOrigin) (claimed : ModelSet) :
    freeName owner enumName origin claimed (min (2 * claimed.size + 1) renameLimit) 0 =
      firstFree (fun k => ⟨owner, candidateSuffix enumName k⟩) (isClaimed claimed origin)
        renameLimit 0 := by
  rw [freeName_eq]
  exact firstFree_min (candidate_injective owner enumName) (fun _ _ => rfl)
    (fun _ => mem_keys_of_isClaimed) 0 (by rw [Keyed.length_keys]) renameLimit

theorem composed_freeName (owner enumName : String) (origin : ModelOrigin) (claimed : ModelSet) :
    (freeName owner enumName origin claimed (min (2 * claimed.size + 1) renameLimit) 0).Composed
      (fun e => e.isNaming = true) PastNumbers := by
  rw [freeName_lift_eq]
  refine composed_firstFree _ _ ⟨enumName, renameLimit, le_refl _, ?_⟩
  have hne : renameLimit ≠ 0 := by decide
  rw [Nat.zero_add, candidateSuffix, if_neg hne]

/-- With as many tries as there are for a lifted enumeration the search finds the first free name
whose number has 32 bits, if there is one. -/
theorem recalls_freeName_lift_iff {r : Registry} {i : InlineEnum} {claimed : ModelSet}
    (horigin : ∀ e ∈ claimed.toList, e.origin ≠ i.origin) {a : Nat} {c : String} :
    (freeName i.owner i.source.liftedName i.origin claimed
        (min (2 * claimed.size + 1) renameLimit) 0).Recalls r (c, a) ↔
      a < renameLimit ∧ i.IsFirstFree r claimed.keys a c := by
  rw [freeName_lift_eq, recalls_firstFree_iff]
  simp only [isClaimed_iff horigin, ← Bool.not_eq_true, Nat.zero_add]
  constructor
  · rintro ⟨-, hlt, ha, hfree, hpassed⟩
    exact ⟨hlt, ha, hfree, fun b hb => hpassed b (Nat.zero_le b) hb⟩
  · rintro ⟨hlt, h⟩
    exact ⟨Nat.zero_le a, hlt, h.answer, h.free, fun b _ hb => h.passed b hb⟩

end Model

end ApiGraph

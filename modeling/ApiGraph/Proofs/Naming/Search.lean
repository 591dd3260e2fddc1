import ApiGraph.Proofs.Naming.Composed
import Mathlib.Order.Interval.Finset.Nat

/-!
# Searching for a free name

The class names of lifted enumerations and the identifiers of operations are found in one
way: numbered candidates are truncated one after the other until one of them gets a name
that is not taken. `firstFree` is this search for any list of candidates.

Main statements: over a registry that knows the names, the search finds the first free one
within its tries and nothing else. The candidates share a name and differ in their suffixes,
so that every taken name answers at most two of them, one that fits and one that does not,
and twice as many tries as there are taken names, and one more, are enough.
-/

namespace ApiGraph

open Identifier

namespace Naming

/-- The first candidate from a number on that gets a name that is not taken, with its number. -/
def firstFree (candidate : Nat → Request) (isTaken : String → Bool) :
    Nat → Nat → Naming (String × Nat)
  | 0, n => throw ⟨candidate n⟩
  | tries + 1, n => do
    let name ← truncate (candidate n).name (candidate n).suffix
    if isTaken name then firstFree candidate isTaken tries (n + 1) else return (name, n)

/-- The search gives up on the first number that it has no try for. -/
theorem composed_firstFree (candidate : Nat → Request) (isTaken : String → Bool) {tries n : Nat}
    (hpast : PastNumbers (candidate (n + tries))) :
    (firstFree candidate isTaken tries n).Composed (fun e => e.isNaming = true) PastNumbers := by
  induction tries generalizing n with
  | zero => exact .throw hpast
  | succ tries ih =>
    unfold firstFree
    refine .bind (.truncate _ _) fun name => ?_
    split
    · refine ih ?_
      rwa [Nat.add_assoc, Nat.add_comm 1]
    · exact .pure (name, n)

theorem memoizing_firstFree (candidate : Nat → Request) (isTaken : String → Bool)
    (tries n : Nat) : (firstFree candidate isTaken tries n).Memoizing := by
  induction tries generalizing n with
  | zero => exact memoizing_throw _
  | succ tries ih =>
    unfold firstFree
    refine (memoizing_truncate _ _).bind fun name => ?_
    split
    · exact ih (n + 1)
    · exact memoizing_pure (name, n)

/-- The search recalls the first free name within its tries. -/
theorem recalls_firstFree_iff {candidate : Nat → Request} {isTaken : String → Bool}
    {r : Registry} {tries n a : Nat} {c : String} :
    (firstFree candidate isTaken tries n).Recalls r (c, a) ↔
      n ≤ a ∧ a < n + tries ∧ r.answer? (candidate a) = some c ∧ isTaken c = false ∧
        ∀ b, n ≤ b → b < a → ∃ c', isTaken c' = true ∧ r.answer? (candidate b) = some c' := by
  -- each try moves the first number on by one, and the window `n ≤ a < n + tries` with it
  induction tries generalizing n with
  | zero =>
    refine iff_of_false not_recalls_throw ?_
    rintro ⟨hle, hlt, -⟩
    omega
  | succ tries ih =>
    unfold firstFree
    rw [recalls_bind_iff (memoizing_truncate _ _) fun c' => by
      split
      · exact memoizing_firstFree _ _ _ _
      · exact memoizing_pure _]
    constructor
    · rintro ⟨c', hanswer, hrest⟩
      have hanswer := recalls_truncate_iff.1 hanswer
      split at hrest
      · rename_i htaken
        obtain ⟨hle, hlt, ha, hfree, hpassed⟩ := ih.1 hrest
        refine ⟨by omega, by omega, ha, hfree, fun b hb hba => ?_⟩
        by_cases hbn : b = n
        · rw [hbn]
          exact ⟨c', htaken, hanswer⟩
        · exact hpassed b (by omega) hba
      · rename_i hfree
        rw [recalls_pure_iff, Prod.mk.injEq] at hrest
        obtain ⟨rfl, rfl⟩ := hrest
        exact ⟨le_refl n, by omega, hanswer, Bool.eq_false_iff.2 hfree,
          fun b hb hba => by omega⟩
    · rintro ⟨hle, hlt, ha, hfree, hpassed⟩
      by_cases han : a = n
      · subst han
        refine ⟨c, recalls_truncate_iff.2 ha, ?_⟩
        rw [if_neg (Bool.eq_false_iff.1 hfree)]
        exact recalls_pure_iff.2 rfl
      · obtain ⟨c', htaken, hanswer⟩ := hpassed n (le_refl n) (by omega)
        refine ⟨c', recalls_truncate_iff.2 hanswer, ?_⟩
        rw [if_pos htaken]
        exact ih.2 ⟨by omega, by omega, ha, hfree, fun b hb hba => hpassed b (by omega) hba⟩

/-! ## Candidates differ -/

theorem numberSuffix_inj {m n : Nat} (h : "_" ++ m.repr = "_" ++ n.repr) : m = n := by
  have hdigits : Nat.toDigits 10 m = Nat.toDigits 10 n := by
    have hlist := congrArg String.toList h
    simpa [Nat.toList_repr] using hlist
  rw [← Nat.ofDigitChars_ten_toDigits (n := m), hdigits, Nat.ofDigitChars_ten_toDigits]

/-- Among the requests for one name that fit, and among those that do not, no two have the same
answer. -/
theorem eq_of_answer? {r : Registry} {q p : Request} (hname : q.name = p.name)
    (hfits : q.fits = p.fits) {c : String} (hq : r.answer? q = some c)
    (hp : r.answer? p = some c) : q = p := by
  cases h : p.fits with
  | true =>
    rw [Registry.answer?_of_fits (hfits.trans h), Option.some.injEq] at hq
    rw [Registry.answer?_of_fits h, ← hq, Option.some.injEq, Request.joined, Request.joined,
      hname, String.append_right_inj] at hp
    cases q
    cases p
    cases hname
    cases hp
    rfl
  | false =>
    rw [Registry.answer?_of_long (hfits.trans h)] at hq
    rw [Registry.answer?_of_long h] at hp
    exact Registry.get?_inj hq hp

/-- Candidates for one name, all different and all taken, are at most twice as many as the taken
names. -/
theorem passed_le {r : Registry} {candidate : Nat → Request} (hinj : candidate.Injective)
    (hname : ∀ a b, (candidate a).name = (candidate b).name) {taken : List String} {n a : Nat}
    (hpassed : ∀ b, n ≤ b → b < a → ∃ c ∈ taken, r.answer? (candidate b) = some c) :
    a - n ≤ 2 * taken.length := by
  let answer (b : Nat) : String := (r.answer? (candidate b)).getD ""
  have hanswer : ∀ b ∈ Finset.Ico n a,
      r.answer? (candidate b) = some (answer b) ∧ answer b ∈ taken := by
    intro b hb
    obtain ⟨hle, hlt⟩ := Finset.mem_Ico.1 hb
    obtain ⟨c, hc, heq⟩ := hpassed b hle hlt
    simp only [answer, heq, Option.getD_some, true_and]
    exact hc
  -- the names of the candidates of one kind are all different
  have hcard (fits : Bool) :
      ((Finset.Ico n a).filter fun b => (candidate b).fits = fits).card ≤ taken.length := by
    refine le_trans (Finset.card_le_card_of_injOn answer ?_ ?_) (List.toFinset_card_le taken)
    · intro b hb
      obtain ⟨hmem, -⟩ := Finset.mem_filter.1 hb
      exact List.mem_toFinset.2 (hanswer b hmem).2
    · intro b hb b' hb' heq
      obtain ⟨hmem, hfits⟩ := Finset.mem_filter.1 hb
      obtain ⟨hmem', hfits'⟩ := Finset.mem_filter.1 hb'
      refine hinj (eq_of_answer? (hname b b') (hfits.trans hfits'.symm) (hanswer b hmem).1 ?_)
      rw [heq]
      exact (hanswer b' hmem').1
  have hsplit := Finset.card_filter_add_card_filter_not (s := Finset.Ico n a)
    (fun b => (candidate b).fits = true)
  simp only [Bool.not_eq_true, Nat.card_Ico] at hsplit
  have htrue := hcard true
  have hfalse := hcard false
  omega

end Naming

end ApiGraph

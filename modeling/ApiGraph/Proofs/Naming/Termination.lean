import ApiGraph.Proofs.Naming.Search

/-!
# Searching for a free name comes to an end

`Searches candidate isTaken n s tried result` is the search without a bound: from the session `s`
the candidates are truncated one after the other, from the number `n` on, until a truncation fails
or gives a name that is not taken, and `tried` of them are truncated in all. `firstFree` is this
search as long as its tries last.

Main statements: the search ends at the first free name, or at a full stem when all candidates
before are taken, and over a set of taken names it ends within twice as many tries as there are
names, and one more, so that tries beyond those make no difference.
-/

namespace ApiGraph

open Identifier

namespace Naming

/-- The search from a number on: the session that it starts from, how many candidates it tries, and
what it comes to. -/
inductive Searches (candidate : Nat → Request) (isTaken : String → Bool) :
    Nat → Session → Nat → EStateM.Result Exhausted Session (String × Nat) → Prop
  | failed {n : Nat} {s t : Session} {e : Exhausted}
      (error : truncate (candidate n).name (candidate n).suffix s = .error e t) :
      Searches candidate isTaken n s 1 (.error e t)
  | found {n : Nat} {s t : Session} {c : String}
      (answer : truncate (candidate n).name (candidate n).suffix s = .ok c t)
      (free : isTaken c = false) : Searches candidate isTaken n s 1 (.ok (c, n) t)
  | passed {n tried : Nat} {s t : Session} {c : String}
      {result : EStateM.Result Exhausted Session (String × Nat)}
      (answer : truncate (candidate n).name (candidate n).suffix s = .ok c t)
      (taken : isTaken c = true) (rest : Searches candidate isTaken (n + 1) t tried result) :
      Searches candidate isTaken n s (tried + 1) result

/-- The candidates from one number up to another have got names that are taken. -/
def Passed (candidate : Nat → Request) (isTaken : String → Bool) (r : Registry) (n a : Nat) :
    Prop :=
  ∀ b, n ≤ b → b < a → ∃ c, isTaken c = true ∧ r.answer? (candidate b) = some c

/-- The last candidate that a search tries gets a name that is not taken or has a full stem, and
all candidates before get names that are taken. -/
inductive Searches.Outcome (candidate : Nat → Request) (isTaken : String → Bool) (n : Nat)
    (s : Session) (tried : Nat) : EStateM.Result Exhausted Session (String × Nat) → Prop
  | found {a : Nat} {c : String} {t : Session} (count : a + 1 = n + tried)
      (grows : s.registry ≤ t.registry) (answer : t.registry.answer? (candidate a) = some c)
      (free : isTaken c = false) (passed : Passed candidate isTaken t.registry n a) :
      Outcome candidate isTaken n s tried (.ok (c, a) t)
  | failed {a : Nat} {t : Session} (count : a + 1 = n + tried) (grows : s.registry ≤ t.registry)
      (full : t.registry.IsFull (candidate a))
      (passed : Passed candidate isTaken t.registry n a) :
      Outcome candidate isTaken n s tried (.error ⟨candidate a⟩ t)

variable {candidate : Nat → Request} {isTaken : String → Bool} {n tried : Nat} {s : Session}
  {result : EStateM.Result Exhausted Session (String × Nat)}

/-! ## Where the search ends -/

theorem passed_self (r : Registry) (n : Nat) : Passed candidate isTaken r n n :=
  fun _ hle hlt => absurd hle (Nat.not_le.2 hlt)

theorem Passed.cons {r : Registry} {a : Nat} {c : String} (hc : isTaken c = true)
    (hanswer : r.answer? (candidate n) = some c)
    (hrest : Passed candidate isTaken r (n + 1) a) : Passed candidate isTaken r n a := by
  intro b hle hlt
  obtain rfl | hnext := Nat.eq_or_lt_of_le hle
  · exact ⟨c, hc, hanswer⟩
  · exact hrest b hnext hlt

theorem Searches.outcome (h : Searches candidate isTaken n s tried result) :
    Outcome candidate isTaken n s tried result := by
  -- a candidate that is passed keeps its name in all registries that follow
  induction h with
  | failed error =>
    obtain ⟨htrunc, hsame⟩ := truncate_eq_error error
    obtain ⟨rfl, hfull⟩ := Registry.truncate_eq_error_iff.1 htrunc
    rw [← hsame] at hfull
    exact .failed rfl hsame.ge hfull (passed_self _ _)
  | found answer free =>
    obtain ⟨hle, hanswer⟩ := Registry.truncate_eq_ok (truncate_eq_ok answer)
    exact .found rfl hle hanswer free (passed_self _ _)
  | passed answer taken _ ih =>
    obtain ⟨hle, hanswer⟩ := Registry.truncate_eq_ok (truncate_eq_ok answer)
    cases ih with
    | found count grows hfound free passed =>
      exact .found (by omega) (hle.trans grows) hfound free
        (passed.cons taken (Registry.answer?_mono grows hanswer))
    | failed count grows full passed =>
      exact .failed (by omega) (hle.trans grows) full
        (passed.cons taken (Registry.answer?_mono grows hanswer))

/-! ## That it ends -/

/-- Within some tries the search ends, or all of them find taken names. -/
theorem searches_or_passed (candidate : Nat → Request) (isTaken : String → Bool) (tries n : Nat)
    (s : Session) :
    (∃ tried result, tried ≤ tries ∧ Searches candidate isTaken n s tried result) ∨
      ∃ r, s.registry ≤ r ∧ Passed candidate isTaken r n (n + tries) := by
  induction tries generalizing n s with
  | zero => exact .inr ⟨s.registry, le_refl _, passed_self _ _⟩
  | succ tries ih =>
    cases htry : truncate (candidate n).name (candidate n).suffix s with
    | error e t => exact .inl ⟨1, _, by omega, .failed htry⟩
    | ok c t =>
      cases htaken : isTaken c with
      | false => exact .inl ⟨1, _, by omega, .found htry htaken⟩
      | true =>
        obtain ⟨hle, hanswer⟩ := Registry.truncate_eq_ok (truncate_eq_ok htry)
        obtain ⟨tried, result, hbound, hrest⟩ | ⟨r, hr, hpassed⟩ := ih (n + 1) t
        · exact .inl ⟨tried + 1, result, by omega, .passed htry htaken hrest⟩
        · rw [Nat.add_assoc, Nat.add_comm 1] at hpassed
          exact .inr ⟨r, hle.trans hr, hpassed.cons htaken (Registry.answer?_mono hr hanswer)⟩

/-- Among candidates for one name, all different, the search ends soon. -/
theorem exists_searches (hinj : candidate.Injective)
    (hname : ∀ a b, (candidate a).name = (candidate b).name) {names : List String}
    (htaken : ∀ c, isTaken c = true → c ∈ names) (n : Nat) (s : Session) :
    ∃ tried result, tried ≤ 2 * names.length + 1 ∧
      Searches candidate isTaken n s tried result := by
  obtain h | ⟨r, -, hpassed⟩ :=
    searches_or_passed candidate isTaken (2 * names.length + 1) n s
  · exact h
  · -- so many candidates cannot all have got taken names
    have hle : n + (2 * names.length + 1) - n ≤ 2 * names.length := by
      refine passed_le (r := r) hinj hname fun b hb hlt => ?_
      obtain ⟨c, hc, hanswer⟩ := hpassed b hb hlt
      exact ⟨c, htaken c hc, hanswer⟩
    omega

/-! ## With a number of tries -/

theorem Searches.firstFree_eq (h : Searches candidate isTaken n s tried result) {tries : Nat}
    (htries : tried ≤ tries) : firstFree candidate isTaken tries n s = result := by
  induction h generalizing tries with
  | failed error =>
    obtain ⟨tries, rfl⟩ := Nat.exists_eq_add_of_le' htries
    exact bind_eq_error_iff.2 (.inl error)
  | found answer free =>
    obtain ⟨tries, rfl⟩ := Nat.exists_eq_add_of_le' htries
    rw [firstFree, bind_of_eq_ok answer, if_neg (Bool.eq_false_iff.1 free)]
    rfl
  | passed answer taken _ ih =>
    obtain ⟨tries, rfl⟩ := Nat.exists_eq_add_of_le' (Nat.le_of_add_left_le htries)
    rw [firstFree, bind_of_eq_ok answer, if_pos taken]
    exact ih (by omega)

/-- Tries beyond those that are enough do not count. -/
theorem firstFree_min (hinj : candidate.Injective)
    (hname : ∀ a b, (candidate a).name = (candidate b).name) {names : List String}
    (htaken : ∀ c, isTaken c = true → c ∈ names) (n : Nat) {tries : Nat}
    (htries : 2 * names.length + 1 ≤ tries) (limit : Nat) :
    firstFree candidate isTaken (min tries limit) n = firstFree candidate isTaken limit n := by
  obtain hle | hle := Nat.le_total tries limit
  · funext s
    obtain ⟨tried, result, hbound, hsearch⟩ := exists_searches hinj hname htaken n s
    have htried := hbound.trans htries
    rw [Nat.min_eq_left hle, hsearch.firstFree_eq htried, hsearch.firstFree_eq (htried.trans hle)]
  · rw [Nat.min_eq_right hle]

end Naming

end ApiGraph

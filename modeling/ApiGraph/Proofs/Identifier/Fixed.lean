import ApiGraph.Proofs.Identifier.Legality

/-!
# Identifiers that stay as they are

A legal identifier has none of the characters that spelling drops, replaces or spells out,
needs none of the repairs and is short enough, so that it is its own spelling and is answered
by itself.

Main statement: `sanitize` leaves a name alone exactly when the name is legal in the role, and
then leaves the session alone as well. As all its results are legal, a result that is put
in again comes out unchanged, in any session.
-/

namespace ApiGraph.Identifier

/-! ## The passes over characters -/

theorem replaceChar_of_not_mem {c : Char} {cs : List Char} (h : c ∉ cs) (word : List Char) :
    replaceChar c word cs = cs := by
  have hsingle : ∀ x ∈ cs, (if x = c then word else [x]) = [x] := by
    intro x hx
    refine if_neg ?_
    rintro rfl
    exact h hx
  rw [replaceChar, List.flatMap_congr hsingle, List.flatMap_singleton']

theorem not_mem_of_all_isWordChar {cs : List Char} (h : cs.all isWordChar = true) {c : Char}
    (hc : isWordChar c = false) : c ∉ cs := by
  intro hmem
  rw [List.all_eq_true.1 h c hmem] at hc
  cases hc

def replaceAll (ops : List (Char × List Char)) (cs : List Char) : List Char :=
  ops.foldl (fun name p => replaceChar p.1 p.2 name) cs

theorem replaceAll_cons (p : Char × List Char) (ops : List (Char × List Char)) (cs : List Char) :
    replaceAll (p :: ops) cs = replaceAll ops (replaceChar p.1 p.2 cs) := rfl

theorem replaceAll_of_not_mem {ops : List (Char × List Char)} {cs : List Char}
    (h : ∀ p ∈ ops, p.1 ∉ cs) : replaceAll ops cs = cs := by
  induction ops with
  | nil => rfl
  | cons p ops ih =>
    obtain ⟨hp, hops⟩ := List.forall_mem_cons.1 h
    rw [replaceAll_cons, replaceChar_of_not_mem hp]
    exact ih hops

theorem spellOperators_of_all_isWordChar (role : Role) {cs : List Char}
    (h : cs.all isWordChar = true) : spellOperators role cs = cs := by
  have hops : ∀ p ∈ operatorWords, isWordChar p.1 = false := by decide
  unfold spellOperators
  split
  · exact replaceAll_of_not_mem fun p hp => not_mem_of_all_isWordChar h (hops p hp)
  · rfl

theorem keepLegal?_of_isWordChar {c : Char} (h : isWordChar c = true) :
    keepLegal? c = some c :=
  forall_isWordChar (P := fun c => keepLegal? c = some c) (by decide +kernel) h

/-- The characters of words pass through. -/
theorem base_of_all_isWordChar {name : String} (role : Role)
    (h : name.toList.all isWordChar = true) : base name role = name := by
  have hkeep : ∀ c ∈ name.toList, keepLegal? c = some c :=
    fun c hc => keepLegal?_of_isWordChar (List.all_eq_true.1 h c hc)
  rw [base, replaceChar_of_not_mem (not_mem_of_all_isWordChar h (by decide)),
    spellOperators_of_all_isWordChar role h,
    replaceChar_of_not_mem (not_mem_of_all_isWordChar h (by decide)),
    List.filterMap_congr hkeep, List.filterMap_some, String.ofList_toList]

/-! ## The repairs -/

theorem repairDigit_of_isWord {name : String} (role : Role) (h : isWord name.toList = true) :
    startsWithDigit name = false ∧ repairDigit role name = name := by
  obtain ⟨c, rest, heq, hc, -⟩ := (isWord_iff _).1 h
  have hdigit : c.isDigit = false :=
    forall_isWordChar (P := fun c => c.isAlpha = true → c.isDigit = false) (by decide +kernel)
      (isWordChar_of_isAlpha hc) hc
  have hstart : startsWithDigit name = false := by
    rw [startsWithDigit, heq]
    exact hdigit
  exact ⟨hstart, by rw [repairDigit, hstart, if_neg Bool.false_ne_true]⟩

theorem repairUnderscore_of_isWord {name : String} (h : isWord name.toList = true) :
    repairUnderscore name = name := by
  obtain ⟨c, rest, heq, hc, -⟩ := (isWord_iff _).1 h
  have hne : c ≠ '_' := by
    rintro rfl
    exact absurd hc (by decide)
  simp [repairUnderscore, startsWithUnderscore, heq, hne]

/-- A word that is not reserved is its own spelling, and nothing is reported about it. -/
theorem spell_of_isWord {name : String} {role : Role} (h : isWord name.toList = true)
    (hres : isReserved name role = false) :
    spell name role = some name ∧ spellEvents name role = [] := by
  have hbase := base_of_all_isWordChar role (all_of_isWord h)
  have hne : name ≠ "" := by
    rintro rfl
    exact absurd h (by decide)
  obtain ⟨hstart, hdigit⟩ := repairDigit_of_isWord role h
  have hspell : spell name role = some name := by
    rw [spell, hbase, if_neg hne, repair, hdigit, repairUnderscore_of_isWord h, repairReserved,
      hres, if_neg Bool.false_ne_true]
  refine ⟨hspell, ?_⟩
  simp [spellEvents, hspell, hbase, repairEvents, hstart, hdigit, repairUnderscore_of_isWord h,
    hres]

end ApiGraph.Identifier

namespace ApiGraph.Naming

open Identifier

/-- A legal name is answered by itself, and nothing else happens. -/
theorem sanitize_of_isLegal {name : String} {role : Role} (h : isLegal name role = true)
    (s : Session) : sanitize name role s = .ok name s := by
  obtain ⟨hword, hlen, hres⟩ := (isLegal_iff _ _).1 h
  obtain ⟨hspell, hevents⟩ := spell_of_isWord hword hres
  have hfits : (⟨name, ""⟩ : Request).fits = true := by
    simpa [Request.fits_iff] using hlen
  have htrunc : truncate name "" s = .ok name s := by
    simp [truncate, Registry.truncate_of_fits hfits, Registry.isNew, hfits, Request.joined]
  have hreport : reportAll [] s = .ok () s := by
    change EStateM.Result.ok () { s with log := s.log ++ [] } = _
    simp
  have htry : trySanitize name role s = .ok (some name) s := by
    unfold trySanitize
    rw [hevents, hspell]
    exact bind_eq_ok_iff.2 ⟨(), s, hreport, bind_eq_ok_iff.2 ⟨name, s, htrunc, rfl⟩⟩
  exact bind_eq_ok_iff.2 ⟨some name, s, htry, rfl⟩

/-- In every session `sanitize` makes legal identifiers only, which it then leaves alone in every
other session too, and the names that it leaves alone are the legal ones. -/
theorem sanitize_fixed_iff_isLegal (raw : String) (role : Role) (s : Session) :
    (∀ x t, sanitize raw role s = .ok x t →
        isLegal x role = true ∧ ∀ u, sanitize x role u = .ok x u) ∧
      (isLegal raw role = true ↔ ∃ t, sanitize raw role s = .ok raw t) ∧
      ∀ t, sanitize raw role s = .ok raw t → t = s := by
  have hlegal : ∀ x t, sanitize raw role s = .ok x t → isLegal x role = true :=
    yields_sanitize raw role s
  refine ⟨fun x t h => ⟨hlegal x t h, sanitize_of_isLegal (hlegal x t h)⟩, ?_, ?_⟩
  · constructor
    · intro h
      exact ⟨s, sanitize_of_isLegal h s⟩
    · rintro ⟨t, h⟩
      exact hlegal raw t h
  · intro t h
    rw [sanitize_of_isLegal (hlegal raw t h) s] at h
    cases h
    rfl

end ApiGraph.Naming

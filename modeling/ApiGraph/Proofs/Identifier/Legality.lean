import ApiGraph.Proofs.Identifier.Word
import ApiGraph.Proofs.Naming.Step
import ApiGraph.Proofs.Registry.Answer

/-!
# Identifiers are legal

Spelling a name makes a word that is not reserved, whichever repairs it takes; a
truncated request is a word as soon as its name and its suffix are made of the right
characters, and the underscore in front of the counter keeps it apart from every
reserved word. Together these make every result of `sanitize` legal in its role.
-/

namespace ApiGraph.Identifier

/-! ## Spelled names -/

/-- What a role puts in front of a name that it escapes. -/
def escapeMark : Role → List Char
  | .model => ['M', 'o', 'd', 'e', 'l']
  | .tag => ['A', 'p', 'i']
  | .operation => ['c', 'a', 'l', 'l']
  | .field | .parameter => ['x']

theorem isWord_escapeMark (role : Role) : isWord (escapeMark role) = true := by
  cases role <;> decide

/-- An escaped name is the mark of the role and then characters of words. -/
theorem exists_toList_escape (role : Role) {name : String}
    (h : name.toList.all isWordChar = true) :
    ∃ rest, rest.all isWordChar = true ∧ (escape role name).toList = escapeMark role ++ rest := by
  have hcamel := all_camelChars true h
  cases role with
  | model =>
    refine ⟨Text.camelChars true name.toList, hcamel, ?_⟩
    simp [escape, Text.camelize, escapeMark, Text.camelChars, Text.upper_of_ascii]
  | tag =>
    refine ⟨Text.camelChars true name.toList, hcamel, ?_⟩
    simp [escape, Text.camelize, escapeMark, Text.camelChars, Text.upper_of_ascii]
  | operation =>
    refine ⟨Text.camelChars true name.toList, hcamel, ?_⟩
    simp [escape, Text.camelizeLower, Text.camelize, escapeMark, Text.camelChars,
      Text.upper_of_ascii, Text.lower_of_ascii]
  | field | parameter => exact ⟨name.toList, h, by simp [escape, escapeMark]⟩

theorem isWord_escape (role : Role) {name : String} (h : name.toList.all isWordChar = true) :
    isWord (escape role name).toList = true := by
  obtain ⟨rest, hrest, heq⟩ := exists_toList_escape role h
  rw [heq]
  exact isWord_append (isWord_escapeMark role) hrest

/-- No reserved word starts with the mark of a role. -/
theorem isReserved_escape (role role' : Role) {name : String}
    (h : name.toList.all isWordChar = true) : isReserved (escape role name) role' = false := by
  have hwords : ∀ w ∈ keywords ++ blockWords,
      ¬ (escapeMark role).map Char.toLower <+: w.toList := by
    cases role <;> decide +kernel
  obtain ⟨rest, -, heq⟩ := exists_toList_escape role h
  refine isReserved_eq_false_of_forall hwords ?_ role'
  rw [heq, List.map_append]
  exact List.prefix_append _ _

theorem isWordChar_of_keepLegal? {c d : Char} (h : keepLegal? c = some d) :
    isWordChar d = true := by
  unfold keepLegal? at h
  split at h
  · cases h
    decide
  · split at h
    · rename_i hc
      cases h
      exact hc
    · cases h

theorem all_base (raw : String) (role : Role) :
    (base raw role).toList.all isWordChar = true := by
  rw [base, String.toList_ofList, List.all_eq_true]
  intro d hd
  obtain ⟨c, -, hc⟩ := List.mem_filterMap.1 hd
  exact isWordChar_of_keepLegal? hc

/-- After the first repair a name does not start with a digit. -/
theorem repairDigit_cases (role : Role) {name : String} (hne : name ≠ "")
    (h : name.toList.all isWordChar = true) :
    isWord (repairDigit role name).toList = true ∨
      ∃ rest, rest.all isWordChar = true ∧ (repairDigit role name).toList = '_' :: rest := by
  unfold repairDigit
  split
  · exact .inl (isWord_escape role h)
  · rename_i hdigit
    cases hlist : name.toList with
    | nil => exact absurd (String.toList_eq_nil_iff.1 hlist) hne
    | cons c rest =>
      rw [hlist, List.all_cons, Bool.and_eq_true] at h
      rw [startsWithDigit, hlist] at hdigit
      rcases (isWordChar_iff c).1 h.1 with hc | hc | rfl
      · exact .inl ((isWord_iff _).2 ⟨c, rest, rfl, hc, h.2⟩)
      · exact absurd hc hdigit
      · exact .inr ⟨rest, h.2, rfl⟩

/-- After the first two repairs a name is a word. -/
theorem isWord_repairUnderscore (role : Role) {name : String} (hne : name ≠ "")
    (h : name.toList.all isWordChar = true) :
    isWord (repairUnderscore (repairDigit role name)).toList = true := by
  unfold repairUnderscore startsWithUnderscore
  rcases repairDigit_cases role hne h with hword | ⟨rest, hrest, heq⟩
  · obtain ⟨c, rest, heq, hc, hrest⟩ := (isWord_iff _).1 hword
    have hne : c ≠ '_' := by
      rintro rfl
      exact absurd hc (by decide)
    rw [heq]
    simpa [hne] using hword
  · rw [heq]
    simp only [decide_true, if_true, String.toList_append, heq]
    exact (isWord_iff _).2 ⟨'x', '_' :: rest, rfl, by decide, by simpa [isWordChar] using hrest⟩

/-- A spelled name is a word that is not reserved. -/
theorem isWord_of_spell {raw name : String} {role : Role} (h : spell raw role = some name) :
    isWord name.toList = true ∧ isReserved name role = false := by
  unfold spell at h
  split at h
  · cases h
  · rename_i hne
    cases h
    have hword := isWord_repairUnderscore role hne (all_base raw role)
    unfold repair repairReserved
    split
    · exact ⟨isWord_escape role (all_of_isWord hword),
        isReserved_escape role role (all_of_isWord hword)⟩
    · rename_i hres
      exact ⟨hword, Bool.eq_false_iff.2 hres⟩

/-! ## Truncated requests -/

/-- A request of which a word can be cut: its name is a word, its suffix goes on with characters
of words, and a suffix that fills the stem alone is a word itself. -/
structure Request.Wordlike (q : Request) : Prop where
  name : isWord q.name.toList = true
  suffix : q.suffix.toList.all isWordChar = true
  suffix_of_full : stemLength ≤ q.suffix.length → isWord q.suffix.toList = true

namespace Request.Wordlike

variable {q : Request}

theorem isWord_joined (h : q.Wordlike) : isWord q.joined.toList = true := by
  rw [joined, String.toList_append]
  exact isWord_append h.name h.suffix

theorem isWord_stem (h : q.Wordlike) : isWord q.stem = true := by
  have hkept : (q.suffix.toList.take stemLength).all isWordChar = true :=
    List.all_eq_true.2 fun c hc =>
      List.all_eq_true.1 h.suffix c (List.mem_of_mem_take hc)
  unfold stem
  by_cases hfull : stemLength ≤ q.suffix.length
  · have hzero : stemLength - (q.suffix.toList.take stemLength).length = 0 := by
      rw [List.length_take, String.length_toList]
      omega
    dsimp only
    rw [hzero, List.take_zero, List.nil_append]
    exact isWord_take (h.suffix_of_full hfull) (by decide)
  · have hpos : stemLength - (q.suffix.toList.take stemLength).length ≠ 0 := by
      rw [List.length_take, String.length_toList]
      omega
    exact isWord_append (isWord_take h.name hpos) hkept

theorem isLegal_numbered (h : q.Wordlike) (hfits : q.fits = false) (n : Nat) (role : Role) :
    isLegal (q.numbered n) role = true := by
  have hdigits : (fourDigits n).all isWordChar = true :=
    List.all_eq_true.2 fun c hc =>
      isWordChar_of_isDigit (List.all_eq_true.1 (all_isDigit_fourDigits n) c hc)
  rw [isLegal_iff]
  refine ⟨?_, Nat.le_of_eq (length_numbered hfits n), isReserved_eq_false_of_underscore ?_ role⟩
  · rw [toList_numbered]
    exact isWord_append h.isWord_stem (by simpa [isWordChar] using hdigits)
  · rw [toList_numbered]
    exact List.mem_append_right _ List.mem_cons_self

/-- What is answered to such a request is legal, unless the joined text is reserved. -/
theorem isLegal_of_answer? (h : q.Wordlike) {role : Role}
    (hres : isReserved q.joined role = false) {r : Registry} {text : String}
    (hans : r.answer? q = some text) : isLegal text role = true := by
  cases hfits : q.fits with
  | true =>
    rw [Registry.answer?_of_fits hfits] at hans
    cases hans
    refine (isLegal_iff _ _).2 ⟨h.isWord_joined, ?_, hres⟩
    rw [joined, String.length_append]
    exact (fits_iff q).1 hfits
  | false =>
    rw [Registry.answer?_of_long hfits] at hans
    obtain ⟨e, -, rfl, rfl⟩ := Registry.get?_eq_some_iff.1 hans
    exact h.isLegal_numbered hfits e.counter role

end Request.Wordlike

/-- A spelled name is a request of its own. -/
theorem wordlike_of_spell {raw name : String} {role : Role} (h : spell raw role = some name) :
    (⟨name, ""⟩ : Request).Wordlike where
  name := (isWord_of_spell h).1
  suffix := rfl
  suffix_of_full := by
    have hshort : ¬ stemLength ≤ "".length := by decide
    exact fun hfull => absurd hfull hshort

theorem isReserved_joined_of_spell {raw name : String} {role : Role}
    (h : spell raw role = some name) :
    isReserved (⟨name, ""⟩ : Request).joined role = false := by
  rw [Request.joined, String.append_empty]
  exact (isWord_of_spell h).2

end ApiGraph.Identifier

namespace ApiGraph.Naming

open Identifier

theorem yields_truncate {q : Request} (h : q.Wordlike) {role : Role}
    (hres : isReserved q.joined role = false) :
    (truncate q.name q.suffix).Yields fun text => isLegal text role = true := by
  intro s text t htext
  exact h.isLegal_of_answer? hres (Registry.truncate_eq_ok (truncate_eq_ok htext)).2

/-- Whatever `trySanitize` makes of a name is legal. -/
theorem yields_trySanitize (raw : String) (role : Role) :
    (trySanitize raw role).Yields fun name? => ∀ name ∈ name?, isLegal name role = true := by
  unfold trySanitize
  refine yields_bind_of_forall fun _ => ?_
  split
  · exact yields_pure (by simp)
  · rename_i name hspell
    refine (yields_truncate (wordlike_of_spell hspell)
      (isReserved_joined_of_spell hspell)).bind fun text htext => ?_
    refine yields_pure fun name' hname' => ?_
    cases hname'
    exact htext

theorem isLegal_placeholder (role : Role) : isLegal role.placeholder role = true := by
  cases role <;> decide +kernel

/-- Whatever `sanitize` makes of a name is legal. -/
theorem yields_sanitize (raw : String) (role : Role) :
    (sanitize raw role).Yields fun name => isLegal name role = true := by
  unfold sanitize
  refine (yields_trySanitize raw role).bind fun name? hname => ?_
  split
  · exact yields_pure (hname _ rfl)
  · exact yields_bind_of_forall fun _ => yields_pure (isLegal_placeholder role)

end ApiGraph.Naming

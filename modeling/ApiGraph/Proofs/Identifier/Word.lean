import ApiGraph.Identifier.Spelling
import Mathlib.Data.List.Basic

/-!
# Words

A word is what an identifier has to be apart from its length and the reserved words:
a letter, and after it letters, digits and underscores. The facts below say that
words and their characters survive joining, cutting and camel case, and that a name
is not reserved as soon as it has an underscore or a digit, the mark of a role at its
start or the ending of a lifted enumeration.
-/

namespace ApiGraph.Identifier

/-! ## Characters of words -/

theorem isWordChar_iff (c : Char) :
    isWordChar c = true ↔ c.isAlpha = true ∨ c.isDigit = true ∨ c = '_' := by
  simp [isWordChar, Char.isAlphanum, or_assoc]

theorem isWordChar_of_isAlpha {c : Char} (h : c.isAlpha = true) : isWordChar c = true :=
  (isWordChar_iff c).2 (.inl h)

theorem isWordChar_of_isDigit {c : Char} (h : c.isDigit = true) : isWordChar c = true :=
  (isWordChar_iff c).2 (.inr (.inl h))

theorem toNat_lt_of_isWordChar {c : Char} (h : isWordChar c = true) : c.toNat < 128 := by
  rcases (isWordChar_iff c).1 h with h | h | rfl
  · have hval : c.toNat = c.val.toNat := rfl
    obtain hupper | hlower := Bool.or_eq_true_iff.1 h
    · have hZ : c.val.toNat ≤ 'Z'.val.toNat :=
        UInt32.le_iff_toNat_le.1 (of_decide_eq_true hupper).2
      have h90 : 'Z'.val.toNat = 90 := rfl
      omega
    · have hz : c.val.toNat ≤ 'z'.val.toNat :=
        UInt32.le_iff_toNat_le.1 (of_decide_eq_true (Bool.and_eq_true_iff.1 hlower).2)
      have h122 : 'z'.val.toNat = 122 := rfl
      omega
  · rw [Char.isDigit_iff_toNat] at h
    have h9 : '9'.toNat = 57 := rfl
    omega
  · decide

/-- The characters of words are ASCII, so what holds of all of them can be decided. -/
theorem forall_isWordChar {P : Char → Prop}
    (h : ∀ n < 128, isWordChar (Char.ofNat n) = true → P (Char.ofNat n)) {c : Char}
    (hc : isWordChar c = true) : P c := by
  have hn := h c.toNat (toNat_lt_of_isWordChar hc)
  rw [Char.ofNat_toNat] at hn
  exact hn hc

theorem isAlpha_toUpper {c : Char} (h : c.isAlpha = true) : c.toUpper.isAlpha = true :=
  forall_isWordChar (P := fun c => c.isAlpha = true → c.toUpper.isAlpha = true)
    (by decide +kernel) (isWordChar_of_isAlpha h) h

theorem isWordChar_toUpper {c : Char} (h : isWordChar c = true) :
    isWordChar c.toUpper = true :=
  forall_isWordChar (P := fun c => isWordChar c.toUpper = true) (by decide +kernel) h

/-! ## Words -/

theorem isWord_iff (cs : List Char) :
    isWord cs = true ↔
      ∃ c rest, cs = c :: rest ∧ c.isAlpha = true ∧ rest.all isWordChar = true := by
  cases cs with
  | nil => simp [isWord]
  | cons c rest => simp [isWord]

theorem all_of_isWord {cs : List Char} (h : isWord cs = true) : cs.all isWordChar = true := by
  obtain ⟨c, rest, rfl, hc, hrest⟩ := (isWord_iff cs).1 h
  rw [List.all_cons, isWordChar_of_isAlpha hc, hrest]
  rfl

theorem isWord_append {cs ds : List Char} (hcs : isWord cs = true)
    (hds : ds.all isWordChar = true) : isWord (cs ++ ds) = true := by
  obtain ⟨c, rest, rfl, hc, hrest⟩ := (isWord_iff cs).1 hcs
  refine (isWord_iff _).2 ⟨c, rest ++ ds, rfl, hc, ?_⟩
  rw [List.all_append, hrest, hds]
  rfl

theorem isWord_take {cs : List Char} (h : isWord cs = true) {n : Nat} (hn : n ≠ 0) :
    isWord (cs.take n) = true := by
  obtain ⟨c, rest, rfl, hc, hrest⟩ := (isWord_iff cs).1 h
  obtain ⟨m, rfl⟩ := Nat.exists_eq_succ_of_ne_zero hn
  refine (isWord_iff _).2 ⟨c, rest.take m, rfl, hc, ?_⟩
  rw [List.all_eq_true] at hrest ⊢
  exact fun d hd => hrest d (List.mem_of_mem_take hd)

/-! ## Camel case -/

theorem upper_of_isWordChar {c : Char} (h : isWordChar c = true) : Text.upper c = [c.toUpper] :=
  Text.upper_of_ascii c (toNat_lt_of_isWordChar h)

theorem all_camelChars (opens : Bool) {cs : List Char} (h : cs.all isWordChar = true) :
    (Text.camelChars opens cs).all isWordChar = true := by
  induction cs generalizing opens with
  | nil => rfl
  | cons c rest ih =>
    rw [List.all_cons, Bool.and_eq_true] at h
    obtain ⟨hc, hrest⟩ := h
    by_cases hunderscore : c = '_'
    · rw [hunderscore, Text.camelChars_underscore]
      exact ih true hrest
    · rw [Text.camelChars_cons opens c rest hunderscore, List.all_append, ih false hrest]
      cases opens with
      | true => simp [upper_of_isWordChar hc, isWordChar_toUpper hc]
      | false => simp [hc]

/-- A word with a capital first letter is a word. -/
theorem isWord_capitalizeFirst {s : String} (h : isWord s.toList = true) :
    isWord (Text.capitalizeFirst s).toList = true := by
  obtain ⟨c, rest, hs, hc, hrest⟩ := (isWord_iff s.toList).1 h
  rw [Text.capitalizeFirst, hs]
  refine (isWord_iff _).2 ⟨c.toUpper, rest, ?_, ?_, hrest⟩
  · rw [String.toList_ofList, upper_of_isWordChar (isWordChar_of_isAlpha hc)]
    rfl
  · exact isAlpha_toUpper hc

/-! ## Reserved words -/

theorem mem_of_isReserved {name : String} {role : Role} (h : isReserved name role = true) :
    ∃ w ∈ keywords ++ blockWords, w.toList = name.toList.map Char.toLower := by
  have hmem : name.toLower ∈ keywords ++ blockWords := by
    simp only [isReserved, Bool.or_eq_true, Bool.and_eq_true, List.contains_iff_mem] at h
    rw [List.mem_append]
    exact h.imp id And.right
  exact ⟨name.toLower, hmem, String.toList_map⟩

/-- What no reserved word has, in lower case, keeps a name from being reserved. -/
theorem isReserved_eq_false_of_forall {P : List Char → Prop}
    (hwords : ∀ w ∈ keywords ++ blockWords, ¬ P w.toList) {name : String}
    (h : P (name.toList.map Char.toLower)) (role : Role) : isReserved name role = false := by
  rw [← Bool.not_eq_true]
  intro hres
  obtain ⟨w, hw, hlower⟩ := mem_of_isReserved hres
  exact hwords w hw (hlower ▸ h)

/-- No reserved word has an underscore. -/
theorem isReserved_eq_false_of_underscore {name : String} (h : '_' ∈ name.toList) (role : Role) :
    isReserved name role = false := by
  have hwords : ∀ w ∈ keywords ++ blockWords, '_' ∉ w.toList := by decide +kernel
  exact isReserved_eq_false_of_forall hwords (List.mem_map.2 ⟨'_', h, rfl⟩) role

/-- No reserved word has a digit. -/
theorem isReserved_eq_false_of_digit {name : String} {c : Char} (hc : c.isDigit = true)
    (h : c ∈ name.toList) (role : Role) : isReserved name role = false := by
  have hwords : ∀ w ∈ keywords ++ blockWords, ¬ w.toList.any Char.isDigit = true := by
    decide +kernel
  have hlower : c.toLower.isDigit = true :=
    forall_isWordChar (P := fun c => c.isDigit = true → c.toLower.isDigit = true)
      (by decide +kernel) (isWordChar_of_isDigit hc) hc
  refine isReserved_eq_false_of_forall (P := fun cs => cs.any Char.isDigit = true) hwords ?_ role
  exact List.any_eq_true.2 ⟨c.toLower, List.mem_map_of_mem h, hlower⟩

/-- No reserved word ends like the name of an enumeration that was lifted. -/
theorem isReserved_eq_false_of_enum {name : String}
    (h : ['E', 'n', 'u', 'm'] <:+ name.toList) (role : Role) : isReserved name role = false := by
  have hwords : ∀ w ∈ keywords ++ blockWords, ¬ ['e', 'n', 'u', 'm'] <:+ w.toList := by
    decide +kernel
  have hlower : ['e', 'n', 'u', 'm'] <:+ name.toList.map Char.toLower := h.map Char.toLower
  exact isReserved_eq_false_of_forall hwords hlower role

end ApiGraph.Identifier

import ApiGraph.Json.Token
import ApiGraph.Json.Printer
import Mathlib.Tactic.SplitIfs

/-!
# Tokens that are scanned back

The spelling of a numeral is its digits before the point, those after it and the exponent. A text
that begins with such a spelling is scanned as that numeral, provided that what follows could not
be read as more of it. In the same way a quoted string is scanned as the string: each character is
written in such a form that it is read as one piece, and the pieces join to the characters.
-/

namespace ApiGraph.Json.Token

/-! ## Digits -/

def NoDigit (cs : List Char) : Prop := ∀ c ∈ cs.head?, c.isDigit = false

theorem noDigit_cons {c : Char} {cs : List Char} (h : c.isDigit = false) : NoDigit (c :: cs) := by
  rintro _ ⟨⟩
  exact h

def Digits (ds : List Char) : Prop := ds ≠ [] ∧ ∀ c ∈ ds, c.isDigit = true

theorem NoDigit.takeWhile_eq_nil {rest : List Char} (h : NoDigit rest) :
    rest.takeWhile Char.isDigit = [] := by
  cases rest with
  | nil => rfl
  | cons c rest => exact List.takeWhile_cons_of_neg (Bool.eq_false_iff.1 (h c rfl))

theorem NoDigit.dropWhile_eq_self {rest : List Char} (h : NoDigit rest) :
    rest.dropWhile Char.isDigit = rest := by
  cases rest with
  | nil => rfl
  | cons c rest => exact List.dropWhile_cons_of_neg (Bool.eq_false_iff.1 (h c rfl))

theorem scanDigits_append {ds rest : List Char} (hds : Digits ds) (hrest : NoDigit rest) :
    scanDigits (ds ++ rest) = .ok (ds, rest) := by
  unfold scanDigits
  rw [List.takeWhile_append_of_pos hds.2, List.dropWhile_append_of_pos hds.2,
    hrest.takeWhile_eq_nil, hrest.dropWhile_eq_self, List.append_nil]
  split
  · exact absurd rfl hds.1
  · rfl

theorem scanWhole_append {ds rest : List Char} (hds : Digits ds)
    (hzero : ds.head? = some '0' → ds = ['0']) (hrest : NoDigit rest) :
    scanWhole (ds ++ rest) = .ok (ds, rest) := by
  by_cases hhead : ds.head? = some '0'
  · rw [hzero hhead]
    simp only [scanWhole, List.cons_append, List.nil_append, hrest.takeWhile_eq_nil]
    rfl
  · unfold scanWhole
    split
    · rename_i heq
      cases ds with
      | nil => exact absurd rfl hds.1
      | cons d ds =>
        cases heq
        exact absurd rfl hhead
    · exact scanDigits_append hds hrest

/-! ## Numerals -/

/-- A numeral without its sign: the digits before the point, those after it, and the exponent with
its sign. -/
structure Spelling where
  whole : List Char
  fraction : Option (List Char)
  exponent : Option (Bool × List Char)

namespace Spelling

def fractionText (sp : Spelling) : List Char :=
  match sp.fraction with
  | none => []
  | some ds => '.' :: ds

def exponentText (sp : Spelling) : List Char :=
  match sp.exponent with
  | none => []
  | some (negative, ds) => 'e' :: (if negative then '-' else '+') :: ds

def text (sp : Spelling) : List Char := sp.whole ++ (sp.fractionText ++ sp.exponentText)

/-- Digits stand wherever they have to, and no zero in front of others. -/
structure Valid (sp : Spelling) : Prop where
  whole : Digits sp.whole
  zero : sp.whole.head? = some '0' → sp.whole = ['0']
  fraction : ∀ ds ∈ sp.fraction, Digits ds
  exponent : ∀ e ∈ sp.exponent, Digits e.2

def power? (sp : Spelling) : Option Int :=
  sp.exponent.map fun e => if e.1 then -(digitsValue e.2 : Int) else digitsValue e.2

def numeral (sp : Spelling) (negative : Bool) : Numeral :=
  ⟨negative, sp.whole, sp.fraction, sp.power?⟩

end Spelling

/-- What follows a numeral and is not read as more of it. -/
def Follows (rest : List Char) : Prop :=
  ∀ c ∈ rest.head?, c.isDigit = false ∧ c ≠ '.' ∧ c ≠ 'e' ∧ c ≠ 'E'

theorem Follows.noDigit {rest : List Char} (h : Follows rest) : NoDigit rest :=
  fun c hc => (h c hc).1

theorem scanExponent_of_follows {rest : List Char} (h : Follows rest) :
    scanExponent rest = .ok (none, rest) := by
  cases rest with
  | nil => rfl
  | cons c rest =>
    obtain ⟨-, -, he, hE⟩ := h c rfl
    unfold scanExponent
    exact if_neg (not_or_intro he hE)

theorem scanExponent_exponentText {sp : Spelling} (hsp : sp.Valid) {rest : List Char}
    (hrest : Follows rest) : scanExponent (sp.exponentText ++ rest) = .ok (sp.power?, rest) := by
  unfold Spelling.exponentText Spelling.power?
  cases hexponent : sp.exponent with
  | none => exact scanExponent_of_follows hrest
  | some e =>
    obtain ⟨negative, ds⟩ := e
    have hds := scanDigits_append (hsp.exponent _ hexponent) hrest.noDigit
    cases negative with
    | false => simp [scanExponent, scanDigitsAs, hds]
    | true => simp [scanExponent, scanDigitsAs, hds]

theorem noDigit_exponentText (sp : Spelling) {rest : List Char} (hrest : Follows rest) :
    NoDigit (sp.exponentText ++ rest) := by
  unfold Spelling.exponentText
  cases sp.exponent with
  | none => exact hrest.noDigit
  | some e => exact noDigit_cons (by decide)

theorem scanFraction_fractionText {sp : Spelling} (hsp : sp.Valid) {rest : List Char}
    (hrest : Follows rest) : scanFraction (sp.fractionText ++ (sp.exponentText ++ rest)) =
      .ok (sp.fraction, sp.exponentText ++ rest) := by
  have hexponent := noDigit_exponentText sp hrest
  cases hfraction : sp.fraction with
  | none =>
    have hpoint : ∀ c ∈ (sp.exponentText ++ rest).head?, c ≠ '.' := by
      unfold Spelling.exponentText
      cases sp.exponent with
      | none => exact fun c hc => (hrest c hc).2.1
      | some e =>
        rintro _ ⟨⟩
        decide
    rw [Spelling.fractionText, hfraction]
    unfold scanFraction
    split
    · rename_i heq
      rw [List.nil_append] at heq
      exact absurd rfl (hpoint '.' (by rw [heq]; rfl))
    · rfl
  | some ds =>
    have hds := scanDigits_append (hsp.fraction ds hfraction) hexponent
    rw [Spelling.fractionText, hfraction]
    simp [scanFraction, scanDigitsAs, hds]

/-- A text that begins with the spelling of a numeral is scanned as that numeral. -/
theorem scanNumeral_text {sp : Spelling} (hsp : sp.Valid) (negative : Bool) {rest : List Char}
    (hrest : Follows rest) :
    scanNumeral negative (sp.text ++ rest) = .ok (sp.numeral negative, rest) := by
  have hwhole : scanWhole (sp.text ++ rest) =
      .ok (sp.whole, sp.fractionText ++ (sp.exponentText ++ rest)) := by
    rw [Spelling.text, List.append_assoc, List.append_assoc]
    refine scanWhole_append hsp.whole hsp.zero ?_
    unfold Spelling.fractionText
    cases sp.fraction with
    | none => exact noDigit_exponentText sp hrest
    | some ds => exact noDigit_cons (by decide)
  unfold scanNumeral
  simp only [hwhole, scanFraction_fractionText hsp hrest, scanExponent_exponentText hsp hrest,
    bind, Except.bind]
  rfl

theorem ne_of_isDigit {c d : Char} (hc : c.isDigit = true) (hd : d.isDigit = false) : c ≠ d := by
  rintro rfl
  rw [hd] at hc
  cases hc

/-- A digit opens a numeral and nothing else. -/
theorem next_of_isDigit {c : Char} (hc : c.isDigit = true) (rest : List Char) :
    next c rest = orBroken c number (scanNumeral false (c :: rest)) := by
  have hne (d : Char) (hd : d.isDigit = false) : c ≠ d := ne_of_isDigit hc hd
  unfold next punctuation?
  simp [hne '[' (by decide), hne ']' (by decide), hne '\x7b' (by decide), hne '\x7d' (by decide),
    hne ',' (by decide), hne ':' (by decide), hne '"' (by decide), hne 'n' (by decide),
    hne 't' (by decide), hne 'f' (by decide), hne '-' (by decide), hc]

theorem isBlank_eq_false_of_isDigit {c : Char} (hc : c.isDigit = true) : isBlank c = false := by
  have hne (d : Char) (hd : d.isDigit = false) : c ≠ d := ne_of_isDigit hc hd
  simp [isBlank, hne ' ' (by decide), hne '\t' (by decide), hne '\n' (by decide),
    hne '\r' (by decide)]

theorem scan_nil : scan [] = [] := by
  rw [scan]

theorem scan_cons {c : Char} (hc : isBlank c = false) (rest : List Char) :
    scan (c :: rest) = (next c rest).1 :: scan (next c rest).2 := by
  rw [scan, if_neg (by simp [hc])]

/-- A signed numeral is scanned as one token. -/
theorem scan_numeral {sp : Spelling} (hsp : sp.Valid) (negative : Bool) {rest : List Char}
    (hrest : Follows rest) :
    scan ((if negative then ['-'] else []) ++ sp.text ++ rest) =
      number (sp.numeral negative) :: scan rest := by
  cases negative with
  | true =>
    have hnext : next '-' (sp.text ++ rest) = (number (sp.numeral true), rest) := by
      change orBroken '-' number (scanNumeral true (sp.text ++ rest)) = _
      rw [scanNumeral_text hsp true hrest]
      rfl
    rw [if_pos rfl, List.append_assoc, List.cons_append, List.nil_append,
      scan_cons (by decide), hnext]
  | false =>
    rw [if_neg Bool.false_ne_true, List.nil_append]
    obtain ⟨c, cs, hwhole⟩ := List.exists_cons_of_ne_nil hsp.whole.1
    have hc : c.isDigit = true := hsp.whole.2 c (hwhole ▸ List.mem_cons_self)
    have htext : sp.text ++ rest = c :: (cs ++ (sp.fractionText ++ sp.exponentText) ++ rest) := by
      rw [Spelling.text, hwhole]
      rfl
    have hnumeral := scanNumeral_text hsp false hrest
    rw [htext] at hnumeral ⊢
    rw [scan_cons (isBlank_eq_false_of_isDigit hc), next_of_isDigit hc, hnumeral]
    rfl

/-! ## Strings -/

theorem nearEnd_eq_false (a b c d : Char) (rest : List Char) :
    nearEnd (a :: b :: c :: d :: rest) = false := by
  have ha := a.utf8Size_pos
  have hb := b.utf8Size_pos
  have hc := c.utf8Size_pos
  have hd := d.utf8Size_pos
  simp [nearEnd]
  omega

/-- A control character is written as the escape of its code. -/
theorem scanPieces_escape {c : Char} (hc : c.toNat < 32) (rest : List Char) :
    scanPieces (['\\', 'u', '0', '0', Nat.digitChar (c.toNat / 16),
      Nat.digitChar (c.toNat % 16)] ++ rest) = (scanPieces rest).cons (.codeUnit c.toNat) := by
  have hnumber : Text.hexNumber? 0 ['0', '0', Nat.digitChar (c.toNat / 16),
      Nat.digitChar (c.toNat % 16)] = some c.toNat := by
    have hzero : Text.hexValue? '0' = some 0 := by decide
    simp only [Text.hexNumber?, hzero, Text.hexValue?_digitChar (c.toNat / 16) (by omega),
      Text.hexValue?_digitChar (c.toNat % 16) (by omega), Option.some.injEq]
    omega
  simp only [List.cons_append, List.nil_append]
  rw [scanPieces]
  simp only [nearEnd_eq_false, hnumber]
  rfl

theorem join_codeUnit {c : Char} (hc : c.toNat < 32) (ps : List Piece) :
    join (.codeUnit c.toNat :: ps) = (join ps).cons c := by
  have hlow : isLowSurrogate c.toNat = false := by
    simp [isLowSurrogate]
    omega
  have hhigh : isHighSurrogate c.toNat = false := by
    simp [isHighSurrogate]
    omega
  rw [join.eq_def]
  simp only [hlow, hhigh, Bool.false_eq_true, if_false, Char.ofNat_toNat]

theorem scanPieces_plain {c : Char} (hquote : c ≠ '"') (hslash : c ≠ '\\')
    (hc : ¬ c.toNat < 32) (rest : List Char) :
    scanPieces ([c] ++ rest) = (scanPieces rest).cons (.char c) := by
  rw [List.cons_append, List.nil_append, scanPieces.eq_def]
  split
  · contradiction
  · rename_i heq
    exact absurd (List.cons.inj heq).1 hquote
  · rename_i heq
    exact absurd (List.cons.inj heq).1 hslash
  · rename_i heq
    exact absurd (List.cons.inj heq).1 hslash
  · rename_i heq
    exact absurd (List.cons.inj heq).1 hslash
  · rename_i heq
    obtain ⟨rfl, rfl⟩ := List.cons.inj heq
    exact if_neg hc

/-- A character of a string is written in such a way that it is read as one piece. -/
theorem scanPieces_stringChar (c : Char) (rest : List Char) :
    ∃ p, scanPieces (stringChar c ++ rest) = (scanPieces rest).cons p ∧
      ∀ ps, join (p :: ps) = (join ps).cons c := by
  unfold stringChar
  split_ifs with h₁ h₂ h₃ h₄ h₅ h₆ h₇ h₈
  · exact ⟨.char '"', rfl, fun _ => h₁ ▸ rfl⟩
  · exact ⟨.char '\\', rfl, fun _ => h₂ ▸ rfl⟩
  · exact ⟨.char '\n', rfl, fun _ => h₃ ▸ rfl⟩
  · exact ⟨.char '\r', rfl, fun _ => h₄ ▸ rfl⟩
  · exact ⟨.char '\t', rfl, fun _ => h₅ ▸ rfl⟩
  · exact ⟨.char '\x08', rfl, fun _ => h₆ ▸ rfl⟩
  · exact ⟨.char '\x0c', rfl, fun _ => h₇ ▸ rfl⟩
  · exact ⟨.codeUnit c.toNat, scanPieces_escape h₈ rest, join_codeUnit h₈⟩
  · exact ⟨.char c, scanPieces_plain h₁ h₂ h₈ rest, fun _ => rfl⟩

/-- A string between its quotes is scanned as the string. -/
theorem scan_quote (s : String) (rest : List Char) :
    scan ((quote s).toList ++ rest) = string (some s) :: scan rest := by
  have hscan (cs : List Char) : ∃ ps,
      scanPieces (cs.flatMap stringChar ++ '"' :: rest) = ⟨ps, .ok rest⟩ ∧
        join ps = .text cs := by
    induction cs with
    | nil => exact ⟨[], by rw [List.flatMap_nil, List.nil_append, scanPieces], rfl⟩
    | cons c cs ih =>
      obtain ⟨ps, hps, hjoin⟩ := ih
      obtain ⟨p, hp, hcons⟩ := scanPieces_stringChar c (cs.flatMap stringChar ++ '"' :: rest)
      refine ⟨p :: ps, ?_, ?_⟩
      · rw [List.flatMap_cons, List.append_assoc, hp, hps]
        rfl
      · rw [hcons, hjoin]
        rfl
  obtain ⟨ps, hps, hjoin⟩ := hscan s.toList
  have hnext : next '"' (s.toList.flatMap stringChar ++ '"' :: rest) =
      (string (some s), rest) := by
    change ofScan (scanPieces (s.toList.flatMap stringChar ++ '"' :: rest)) = _
    rw [hps]
    simp only [ofScan, hjoin, String.ofList_toList]
  have htext : (quote s).toList ++ rest =
      '"' :: (s.toList.flatMap stringChar ++ '"' :: rest) := by
    simp [quote]
  rw [htext, scan_cons (by decide), hnext]

end ApiGraph.Json.Token

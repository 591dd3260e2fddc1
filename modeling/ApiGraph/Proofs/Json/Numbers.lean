import ApiGraph.Json.Reader
import ApiGraph.Proofs.Json.Finite
import ApiGraph.Proofs.Json.Scan

/-!
# Numbers that are scanned back

The text of an integer is an integral numeral with the same value, and the text of a finite double
is a numeral that has a point or an exponent, whatever the layout of its digits. What a numeral
denotes is in range: an integer of 64 bits or a finite double.
-/

namespace ApiGraph.Json

open Decimal Token

/-! ## Integers -/

theorem digits_toDigits (n : Nat) : Digits (Nat.toDigits 10 n) :=
  ⟨Nat.toDigits_ne_nil, fun _ hc => Nat.isDigit_of_mem_toDigits (by decide) (by decide) hc⟩

theorem digitsValue_toDigits (n : Nat) : digitsValue (Nat.toDigits 10 n) = n :=
  Nat.ofDigitChars_ten_toDigits

/-- The digits of a number other than zero do not begin with a zero. -/
theorem head?_toDigits_ne_zero {n : Nat} (hn : n ≠ 0) : (Nat.toDigits 10 n).head? ≠ some '0' := by
  induction n using Nat.strongRecOn with
  | _ n ih =>
    rw [Nat.toDigits_eq_if (by decide)]
    split
    · rename_i hlt
      have hall : ∀ m < 10, m ≠ 0 → [Nat.digitChar m].head? ≠ some '0' := by decide
      exact hall n hlt hn
    · have hhead := ih (n / 10) (Nat.div_lt_self (Nat.pos_of_ne_zero hn) (by decide)) (by omega)
      obtain ⟨d, ds, hdigits⟩ := List.exists_cons_of_ne_nil (digits_toDigits (n / 10)).1
      rw [hdigits] at hhead ⊢
      exact hhead

def Spelling.ofNat (n : Nat) : Spelling := ⟨Nat.toDigits 10 n, none, none⟩

theorem Spelling.valid_ofNat (n : Nat) : (Spelling.ofNat n).Valid where
  whole := digits_toDigits n
  zero h := by
    by_cases hn : n = 0
    · rw [Spelling.ofNat, hn]
      decide
    · exact absurd h (head?_toDigits_ne_zero hn)
  fraction := by simp [Spelling.ofNat]
  exponent := by simp [Spelling.ofNat]

def Numeral.ofNat (negative : Bool) (n : Nat) : Numeral :=
  ⟨negative, Nat.toDigits 10 n, none, none⟩

theorem Spelling.numeral_ofNat (n : Nat) (negative : Bool) :
    (Spelling.ofNat n).numeral negative = Numeral.ofNat negative n := rfl

def integerText (negative : Bool) (n : Nat) : List Char :=
  (if negative then ['-'] else []) ++ Nat.toDigits 10 n

theorem isBlank_cases {c : Char} (h : Token.isBlank c = true) :
    c = ' ' ∨ c = '\t' ∨ c = '\n' ∨ c = '\r' := by
  simpa [Token.isBlank, or_assoc] using h

/-- Nothing is scanned in blanks. -/
theorem Token.scan_blanks {blanks : List Char} (h : ∀ c ∈ blanks, isBlank c = true)
    (rest : List Char) : scan (blanks ++ rest) = scan rest := by
  induction blanks with
  | nil => rfl
  | cons c blanks ih =>
    rw [List.cons_append, scan, if_pos (h c List.mem_cons_self),
      ih fun c hc => h c (List.mem_cons_of_mem _ hc)]

theorem Token.follows_blanks {blanks : List Char} (h : ∀ c ∈ blanks, isBlank c = true) :
    Follows blanks := by
  intro c hc
  rcases isBlank_cases (h c (List.mem_of_mem_head? hc)) with rfl | rfl | rfl | rfl <;> decide

/-- An integer between blanks is scanned as its numeral. -/
theorem Token.scan_integerText (negative : Bool) (n : Nat) {before after : List Char}
    (hbefore : ∀ c ∈ before, isBlank c = true) (hafter : ∀ c ∈ after, isBlank c = true) :
    scan (before ++ integerText negative n ++ after) = [number (.ofNat negative n)] := by
  have htext : integerText negative n =
      (if negative then ['-'] else []) ++ (Spelling.ofNat n).text := by
    simp [integerText, Spelling.ofNat, Spelling.text, Spelling.fractionText,
      Spelling.exponentText]
  have hnone := scan_blanks hafter []
  rw [List.append_nil, scan_nil] at hnone
  rw [List.append_assoc, scan_blanks hbefore, htext,
    scan_numeral (Spelling.valid_ofNat n) negative (follows_blanks hafter),
    Spelling.numeral_ofNat, hnone]

/-- The text of an integer is its numeral. -/
theorem Token.ofText_repr (n : Int) :
    Token.ofText n.repr = [.number (.ofNat (decide (n < 0)) n.natAbs)] := by
  have htext : n.repr.toList = [] ++ integerText (decide (n < 0)) n.natAbs ++ [] := by
    cases n <;> simp [Int.repr, integerText]
  rw [Token.ofText, htext]
  exact scan_integerText _ _ (by simp) (by simp)

/-! ## Doubles -/

theorem digits_zero : Digits ['0'] := ⟨List.cons_ne_nil _ _, List.forall_mem_singleton.2 rfl⟩

theorem isDigit_of_mem_zeros {n : Nat} {c : Char} (hc : c ∈ List.replicate n '0') :
    c.isDigit = true := by
  rw [List.eq_of_mem_replicate hc]
  decide

theorem Token.Digits.zeros_append {ds : List Char} (h : Digits ds) (n : Nat) :
    Digits (List.replicate n '0' ++ ds) := by
  refine ⟨fun hnil => h.1 (List.append_eq_nil_iff.1 hnil).2, fun c hc => ?_⟩
  rcases List.mem_append.1 hc with hc | hc
  · exact isDigit_of_mem_zeros hc
  · exact h.2 c hc

theorem Token.Digits.append_zeros {ds : List Char} (h : Digits ds) (n : Nat) :
    Digits (ds ++ List.replicate n '0') := by
  refine ⟨fun hnil => h.1 (List.append_eq_nil_iff.1 hnil).1, fun c hc => ?_⟩
  rcases List.mem_append.1 hc with hc | hc
  · exact h.2 c hc
  · exact isDigit_of_mem_zeros hc

/-- Digits with a point are the spelling of a numeral with a fraction. -/
theorem placePoint_spelled {ds : List Char} (hds : Digits ds) (hzero : ds.head? ≠ some '0')
    (whole : Int) :
    ∃ sp : Spelling, sp.Valid ∧ sp.text = placePoint true ds whole ∧ sp.fraction.isSome = true := by
  obtain ⟨d, tail, rfl⟩ := List.exists_cons_of_ne_nil hds.1
  have hd : d ≠ '0' := fun h => hzero (congrArg some h)
  unfold placePoint
  split
  · -- zeros stand between the point and the digits
    refine ⟨⟨['0'], some (List.replicate (-whole).toNat '0' ++ d :: tail), none⟩,
      ⟨digits_zero, fun _ => rfl, ?_, by simp⟩,
      by simp [Spelling.text, Spelling.fractionText, Spelling.exponentText], rfl⟩
    rintro _ ⟨⟩
    exact hds.zeros_append _
  · rename_i hwhole
    split
    · -- zeros stand between the digits and the point
      refine ⟨⟨d :: tail ++ List.replicate (whole.toNat - (d :: tail).length) '0', some ['0'],
          none⟩,
        ⟨hds.append_zeros _, fun h => absurd (Option.some.inj h) hd, ?_, by simp⟩,
        by simp [Spelling.text, Spelling.fractionText, Spelling.exponentText], rfl⟩
      rintro _ ⟨⟩
      exact digits_zero
    · -- the point stands among the digits
      rename_i hlength
      obtain ⟨n, hn⟩ : ∃ n, whole.toNat = n + 1 := ⟨whole.toNat - 1, by omega⟩
      have hwholeDigits : Digits ((d :: tail).take whole.toNat) :=
        ⟨by rw [hn]; exact List.cons_ne_nil _ _, fun c hc => hds.2 c (List.mem_of_mem_take hc)⟩
      have hfraction : Digits ((d :: tail).drop whole.toNat) :=
        ⟨mt List.drop_eq_nil_iff.1 hlength, fun c hc => hds.2 c (List.mem_of_mem_drop hc)⟩
      refine ⟨⟨(d :: tail).take whole.toNat, some ((d :: tail).drop whole.toNat), none⟩,
        ⟨hwholeDigits, ?_, ?_, by simp⟩,
        by simp [Spelling.text, Spelling.fractionText, Spelling.exponentText], rfl⟩
      · rw [hn, List.take_succ_cons]
        exact fun h => absurd (Option.some.inj h) hd
      · rintro _ ⟨⟩
        exact hfraction

/-- Digits with a power of ten are the spelling of a numeral with an exponent. -/
theorem scientific_spelled {ds : List Char} (hds : Digits ds) (hzero : ds.head? ≠ some '0')
    (power : Int) :
    ∃ sp : Spelling, sp.Valid ∧ sp.text = scientific ds power ∧ sp.exponent.isSome = true := by
  obtain ⟨d, tail, rfl⟩ := List.exists_cons_of_ne_nil hds.1
  have hd : d ≠ '0' := fun h => hzero (congrArg some h)
  have hdigit : Digits [d] :=
    ⟨List.cons_ne_nil _ _, List.forall_mem_singleton.2 (hds.2 d List.mem_cons_self)⟩
  have hexponent : ∀ e ∈ some (decide (power < 0), Nat.toDigits 10 power.natAbs), Digits e.2 := by
    rintro _ ⟨⟩
    exact digits_toDigits _
  unfold scientific
  cases tail with
  | nil =>
    refine ⟨⟨[d], none, some (decide (power < 0), Nat.toDigits 10 power.natAbs)⟩,
      ⟨hdigit, fun h => absurd (Option.some.inj h) hd, by simp, hexponent⟩, ?_, rfl⟩
    simp [Spelling.text, Spelling.fractionText, Spelling.exponentText]
  | cons d' tail =>
    refine ⟨⟨[d], some (d' :: tail), some (decide (power < 0), Nat.toDigits 10 power.natAbs)⟩,
      ⟨hdigit, fun h => absurd (Option.some.inj h) hd, ?_, hexponent⟩, ?_, rfl⟩
    · rintro _ ⟨⟩
      exact ⟨by simp, fun c hc => hds.2 c (List.mem_cons_of_mem d hc)⟩
    · simp [Spelling.text, Spelling.fractionText, Spelling.exponentText]

/-- The text of a double without its sign has a point or an exponent. -/
theorem magnitude_spelled (x : Float) : ∃ sp : Spelling, sp.Valid ∧
    sp.text = Layout.exact.magnitude x ∧ ∀ b, (sp.numeral b).isIntegral = false := by
  have hfraction (sp : Spelling) (h : sp.fraction.isSome = true) (b : Bool) :
      (sp.numeral b).isIntegral = false := by
    rw [Numeral.isIntegral, Spelling.numeral, Option.isNone_eq_false_iff.2 h, Bool.false_and]
  have hexponent (sp : Spelling) (h : sp.exponent.isSome = true) (b : Bool) :
      (sp.numeral b).isIntegral = false := by
    rw [Numeral.isIntegral, Spelling.numeral, Spelling.power?, Option.isNone_map,
      Option.isNone_eq_false_iff.2 h, Bool.and_false]
  unfold Layout.magnitude
  dsimp only
  split
  · refine ⟨⟨['0'], some ['0'], none⟩, ⟨digits_zero, fun _ => rfl, ?_, by simp⟩, rfl,
      hfraction _ rfl⟩
    rintro _ ⟨⟩
    exact digits_zero
  · rename_i hdigits
    split
    · obtain ⟨sp, hsp, htext, h⟩ :=
        placePoint_spelled (digits_toDigits _) (head?_toDigits_ne_zero hdigits) _
      exact ⟨sp, hsp, htext, hfraction sp h⟩
    · obtain ⟨sp, hsp, htext, h⟩ :=
        scientific_spelled (digits_toDigits _) (head?_toDigits_ne_zero hdigits) _
      exact ⟨sp, hsp, htext, hexponent sp h⟩

/-- The text of a finite double is scanned as a numeral that is not integral. -/
theorem ofText_floatText {x : Float} (h : x.isFinite = true) :
    ∃ n, Token.ofText (floatText x) = [.number n] ∧ n.isIntegral = false := by
  obtain ⟨sp, hsp, htext, hintegral⟩ := magnitude_spelled x
  have hnone : Follows [] := by rintro _ ⟨⟩
  have hscan := scan_numeral hsp (isNegative x) hnone
  refine ⟨sp.numeral (isNegative x), ?_, hintegral _⟩
  have hwrite : (floatText x).toList = (if isNegative x then ['-'] else []) ++ sp.text ++ [] := by
    obtain ⟨hnan, hinf⟩ := isFinite_iff.1 h
    rw [floatText, if_pos h, Layout.write, hnan, hinf, htext]
    simp
  rw [Token.ofText, hwrite, hscan, scan_nil]

/-! ## What numerals denote -/

theorem isIntegral_ofNat (negative : Bool) (n : Nat) :
    (Numeral.ofNat negative n).isIntegral = true := rfl

/-- The numeral of an integer denotes that integer when 64 bits can hold it, with a sign if there is
one. Minus zero is left to the doubles. -/
theorem value?_ofNat (negative : Bool) (n : Nat) :
    (Numeral.ofNat negative n).value? =
      if negative = false ∧ isUnsigned64 n = true then some (.int n)
      else if negative = true ∧ 0 < n ∧ isSigned64 (-n) = true then some (.int (-n))
      else (Numeral.ofNat negative n).double?.map .float := by
  have hwhole : digitsValue (Numeral.ofNat negative n).whole = n := digitsValue_toDigits n
  have hnegative : (Numeral.ofNat negative n).negative = negative := rfl
  simp only [Numeral.value?, hwhole, hnegative, isIntegral_ofNat, Bool.true_and, Bool.and_eq_true,
    Bool.not_eq_true', decide_eq_true_eq, and_assoc]

/-- An integer of 64 bits is denoted by its numeral. -/
theorem value?_ofInt {n : Int} (h : isSigned64 n = true) :
    (Numeral.ofNat (decide (n < 0)) n.natAbs).value? = some (.int n) := by
  obtain ⟨hlow, hhigh⟩ : -0x8000000000000000 ≤ n ∧ n < 0x8000000000000000 := by
    simpa [isSigned64] using h
  rw [value?_ofNat]
  by_cases hn : n < 0
  · have habs : -(n.natAbs : Int) = n := by omega
    have hpos : 0 < n.natAbs := by omega
    rw [if_neg (by simp [hn]), if_pos ⟨decide_eq_true hn, hpos, habs.symm ▸ h⟩, habs]
  · have habs : (n.natAbs : Int) = n := by omega
    have hunsigned : isUnsigned64 n.natAbs = true := by
      simp only [isUnsigned64, decide_eq_true_eq]
      omega
    rw [if_pos ⟨decide_eq_false hn, hunsigned⟩, habs]

/-- A numeral with a point or an exponent denotes a double, if anything. -/
theorem value?_of_not_integral {n : Numeral} (hn : n.isIntegral = false) :
    n.value? = n.double?.map .float := by
  simp [Numeral.value?, hn]

/-- What a numeral denotes is an integer of 64 bits, without its sign or with it, or a double. -/
theorem value?_cases {n : Numeral} {j : Json} (h : n.value? = some j) :
    (∃ m : Nat, j = .int m ∧ isUnsigned64 m = true) ∨
      (∃ v : Int, j = .int v ∧ isSigned64 v = true) ∨ ∃ x, j = .float x ∧ n.double? = some x := by
  unfold Numeral.value? at h
  extract_lets at h
  split_ifs at h with hunsigned hsigned
  · simp only [Bool.and_eq_true] at hunsigned
    exact .inl ⟨_, (Option.some.inj h).symm, hunsigned.2⟩
  · simp only [Bool.and_eq_true] at hsigned
    exact .inr (.inl ⟨_, (Option.some.inj h).symm, hsigned.2⟩)
  · obtain ⟨x, hx, rfl⟩ := Option.map_eq_some_iff.1 h
    exact .inr (.inr ⟨x, rfl, hx⟩)

/-- A numeral denotes a number. -/
theorem number_of_value? {n : Numeral} {j : Json} (h : n.value? = some j) :
    (∃ v, j = .int v) ∨ ∃ x, j = .float x := by
  obtain ⟨m, rfl, -⟩ | ⟨v, rfl, -⟩ | ⟨x, rfl, -⟩ := value?_cases h
  · exact .inl ⟨_, rfl⟩
  · exact .inl ⟨_, rfl⟩
  · exact .inr ⟨_, rfl⟩

theorem readNumeral_eq_ok_iff {n : Numeral} {j : Json} :
    readNumeral n = .ok j ↔ n.value? = some j := by
  unfold readNumeral
  cases n.value? with
  | none => exact iff_of_false (fun h => by cases h) fun h => by cases h
  | some j' => exact ⟨fun h => by cases h; rfl, fun h => by cases h; rfl⟩

/-- The integer that a numeral denotes has 64 bits, with its sign or without. -/
theorem isSigned64_of_value? {n : Numeral} {v : Int} (h : n.value? = some (.int v)) :
    isSigned64 v = true ∨ ∃ m : Nat, v = m ∧ isUnsigned64 m = true := by
  obtain ⟨m, hv, hm⟩ | ⟨_, hv, hsigned⟩ | ⟨_, hv, -⟩ := value?_cases h
  · exact .inr ⟨m, Json.int.inj hv, hm⟩
  · exact .inl (Json.int.inj hv ▸ hsigned)
  · cases hv

theorem isFinite_of_double? {n : Numeral} {x : Float} (h : n.double? = some x) :
    x.isFinite = true := by
  unfold Numeral.double? at h
  dsimp only at h
  split at h
  · cases h
    unfold withSign
    split
    · exact isFinite_neg ‹_›
    · assumption
  · cases h

/-- The double that a numeral denotes is finite. -/
theorem isFinite_of_value? {n : Numeral} {x : Float} (h : n.value? = some (.float x)) :
    x.isFinite = true := by
  obtain ⟨_, hx, -⟩ | ⟨_, hx, -⟩ | ⟨_, hx, hdouble⟩ := value?_cases h
  · cases hx
  · cases hx
  · cases hx
    exact isFinite_of_double? hdouble

end ApiGraph.Json

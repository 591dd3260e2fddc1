import ApiGraph.EnumLiteral
import ApiGraph.Proofs.Fallible
import ApiGraph.Proofs.Json.Members
import ApiGraph.Proofs.Json.Numbers

/-!
# Literals that are written and read again

A literal is recognized by the shape of its text alone, so writing must not change the shape: an
integer is written without a point and a double never is, and both stay in the range that reading
gives them. What `EnumLiteral.ofText` accepts it therefore accepts again after it has been written,
as the same literal, provided that the shortest decimal of a double is read back as the double.
-/

namespace ApiGraph

open Json

/-! ## Texts of one token -/

namespace Json

/-- A text of one token that is a whole value is read from the tree of that value. -/
theorem readWhole_of_token {α : Type} {read : Nat → Tree → Read α} {s : String} {token : Token}
    {t : Tree} (hs : Token.ofText s = [token]) (ht : Builder.onValue [] token = .whole t) :
    readWhole read s = read maxLevels t := by
  have hsource : Source.ofText s = ⟨t, false⟩ := by
    have hstep : Builder.step (.reading [] .value) token = .whole t := ht
    rw [Source.ofText, hs, Source.ofTokens]
    simp only [List.foldl_cons, List.foldl_nil, hstep]
    rfl
  rw [readWhole, hsource]
  cases read maxLevels t <;> rfl

end Json

namespace EnumLiteral

/-- The literal is in the range of its kind: integers have 64 bits, and doubles are finite. -/
def InRange : EnumLiteral → Prop
  | int n => isSigned64 n = true
  | float x => x.isFinite = true
  | string _ | bool _ | null => True

theorem inRange_of_ofJson? {n : Numeral} {j : Json} {l : EnumLiteral} (hj : n.value? = some j)
    (h : ofJson? j = some l) : l.InRange := by
  cases j with
  | int v =>
    cases h
    split
    · assumption
    · rename_i hsigned
      obtain hv | ⟨m, rfl, hm⟩ := isSigned64_of_value? hj
      · exact absurd hv hsigned
      · exact isFinite_ofInt (Bool.eq_false_iff.2 hsigned) hm
  | float x =>
    cases h
    exact isFinite_of_value? hj
  | null | bool | string => cases h; trivial
  | array | object => cases h

theorem read_eq_ok_iff {levels : Nat} {t : Tree} {l : EnumLiteral} :
    read levels t = .ok l ↔ ∃ j, t.readAny levels = .ok j ∧ ofJson? j = some l := by
  rw [read, Except.bind_eq_ok_iff]
  refine exists_congr fun j => and_congr_right fun _ => ?_
  cases ofJson? j with
  | none => exact iff_of_false (fun h => by cases h) fun h => by cases h
  | some l' => exact ⟨fun h => by cases h; rfl, fun h => by cases h; rfl⟩

/-- What is read is in range. -/
theorem inRange_of_read {levels : Nat} {t : Tree} {l : EnumLiteral} (h : read levels t = .ok l) :
    l.InRange := by
  obtain ⟨j, hj, hliteral⟩ := read_eq_ok_iff.1 h
  clear h
  cases t with
  | null | bool =>
    rw [Tree.readAny] at hj
    cases hj
    cases hliteral
    trivial
  | number n =>
    rw [Tree.readAny, readNumeral_eq_ok_iff] at hj
    exact inRange_of_ofJson? hj hliteral
  | string text =>
    rw [Tree.readAny] at hj
    obtain ⟨s, -, rfl⟩ := Except.map_eq_ok_iff.1 hj
    cases hliteral
    trivial
  | missing | noColon =>
    rw [Tree.readAny] at hj
    cases hj
  | array items ending =>
    obtain ⟨_, _, -, -, rfl⟩ := Tree.eq_array_of_readAny hj
    cases hliteral
  | object members ending =>
    obtain ⟨_, _, -, -, rfl⟩ := Tree.eq_object_of_readAny hj
    cases hliteral

theorem inRange_of_ofText {s : String} {l : EnumLiteral} (h : ofText s = .ok l) : l.InRange := by
  obtain ⟨l', hread, h⟩ := Except.bind_eq_ok_iff.1 h
  split at h
  · cases h
  · cases h
    exact inRange_of_read hread

/-! ## Writing and reading again -/

/-- The shortest decimal of a double is read back as the double. -/
def ReadsBack (x : Float) : Prop :=
  ∀ n, Token.ofText (floatText x) = [.number n] → n.double? = some x

/-- A text of one token is read as the literal that the token denotes. -/
theorem ofText_of_token {s : String} {token : Token} {t : Tree} {j : Json} {l : EnumLiteral}
    (hs : Token.ofText s = [token]) (ht : Builder.onValue [] token = .whole t)
    (hj : t.readAny maxLevels = .ok j) (hl : ofJson? j = some l) : ofText s = .ok l := by
  rw [ofText, readWhole_of_token hs ht]
  exact read_eq_ok_iff.2 ⟨j, hj, hl⟩

theorem ofText_of_numeral {s : String} {n : Numeral} {j : Json} {l : EnumLiteral}
    (hs : Token.ofText s = [.number n]) (hj : n.value? = some j) (hl : ofJson? j = some l) :
    ofText s = .ok l := by
  refine ofText_of_token hs rfl (j := j) ?_ hl
  rw [Tree.readAny, readNumeral_eq_ok_iff]
  exact hj

theorem ofText_compact {l : EnumLiteral} (hl : l.InRange)
    (hfloat : ∀ x, l = .float x → ReadsBack x) : ofText l.toJson.compact = .ok l := by
  cases l with
  | string s =>
    have hs : Token.ofText (quote s) = [.string (some s)] := by
      have hscan := Token.scan_quote s []
      rwa [List.append_nil, Token.scan_nil] at hscan
    exact ofText_of_token hs rfl rfl rfl
  | int n =>
    exact ofText_of_numeral (Token.ofText_repr n) (value?_ofInt hl) (congrArg some (if_pos hl))
  | float x =>
    obtain ⟨n, hs, hintegral⟩ := ofText_floatText hl
    refine ofText_of_numeral hs (j := .float x) ?_ rfl
    rw [value?_of_not_integral hintegral, hfloat x rfl n hs]
    rfl
  | bool b =>
    cases b with
    | false =>
      have hs : Token.ofText "false" = [.bool false] := by decide +kernel
      exact ofText_of_token hs rfl rfl rfl
    | true =>
      have hs : Token.ofText "true" = [.bool true] := by decide +kernel
      exact ofText_of_token hs rfl rfl rfl
  | null =>
    have hs : Token.ofText "null" = [.null] := by decide +kernel
    exact ofText_of_token hs rfl rfl rfl

/-! ## Integers -/

theorem ofJson?_eq_int_iff {j : Json} {v : Int} :
    ofJson? j = some (.int v) ↔ j = .int v ∧ isSigned64 v = true := by
  cases j with
  | int n =>
    by_cases hn : isSigned64 n = true
    · simp only [ofJson?, if_pos hn, Option.some.injEq, int.injEq, Json.int.injEq]
      exact ⟨fun h => ⟨h, h ▸ hn⟩, fun h => h.1⟩
    · simp only [ofJson?, if_neg hn, Option.some.injEq, reduceCtorEq, Json.int.injEq, false_iff]
      rintro ⟨rfl, h⟩
      exact hn h
  | _ => simp [ofJson?]

/-- The numeral of an integer is read as an integer just when 64 bits can hold it with its sign, and
it is not minus zero. -/
theorem read_number_eq_int_iff {levels : Nat} {negative : Bool} {n : Nat} {v : Int} :
    read levels (.number (.ofNat negative n)) = .ok (.int v) ↔
      v = (if negative then -(n : Int) else n) ∧ isSigned64 v = true ∧
        ¬ (negative = true ∧ n = 0) := by
  have hread : read levels (.number (.ofNat negative n)) = .ok (.int v) ↔
      (Numeral.ofNat negative n).value? = some (.int v) ∧ isSigned64 v = true := by
    simp only [read_eq_ok_iff, Tree.readAny, readNumeral_eq_ok_iff, ofJson?_eq_int_iff]
    constructor
    · rintro ⟨j, hj, rfl, hv⟩
      exact ⟨hj, hv⟩
    · rintro ⟨hj, hv⟩
      exact ⟨_, hj, rfl, hv⟩
  have hfloat : (Numeral.ofNat negative n).double?.map Json.float ≠ some (.int v) := by
    cases (Numeral.ofNat negative n).double? <;> simp
  rw [hread, value?_ofNat]
  cases negative with
  | false =>
    have hunsigned (hn : isSigned64 n = true) : isUnsigned64 n = true := by
      simp only [isSigned64, isUnsigned64, Bool.and_eq_true, decide_eq_true_eq] at hn ⊢
      omega
    constructor
    · rintro ⟨hvalue, hv⟩
      split_ifs at hvalue with h₁ h₂
      · cases hvalue
        exact ⟨rfl, hv, by simp⟩
      · exact h₂.1.elim
      · exact absurd hvalue hfloat
    · rintro ⟨rfl, hv, -⟩
      exact ⟨if_pos ⟨rfl, hunsigned hv⟩, hv⟩
  | true =>
    constructor
    · rintro ⟨hvalue, hv⟩
      rw [if_neg (by simp)] at hvalue
      split_ifs at hvalue with h
      · cases hvalue
        exact ⟨rfl, hv, by simp; omega⟩
      · exact absurd hvalue hfloat
    · rintro ⟨rfl, hv, hzero⟩
      have hpos : 0 < n := by
        simp at hzero
        omega
      rw [if_pos rfl] at hv ⊢
      exact ⟨by rw [if_neg (by simp), if_pos ⟨rfl, hpos, hv⟩], hv⟩

/-- A numeral is read as a number. -/
theorem number_of_read {levels : Nat} {n : Numeral} {l : EnumLiteral}
    (h : read levels (.number n) = .ok l) : (∃ v, l = .int v) ∨ ∃ x, l = .float x := by
  obtain ⟨j, hj, hliteral⟩ := read_eq_ok_iff.1 h
  rw [Tree.readAny, readNumeral_eq_ok_iff] at hj
  obtain ⟨v, rfl⟩ | ⟨x, rfl⟩ := number_of_value? hj
  · by_cases hv : isSigned64 v = true
    · rw [ofJson?, if_pos hv] at hliteral
      exact .inl ⟨v, (Option.some.inj hliteral).symm⟩
    · rw [ofJson?, if_neg hv] at hliteral
      exact .inr ⟨_, (Option.some.inj hliteral).symm⟩
  · exact .inr ⟨x, (Option.some.inj hliteral).symm⟩

/-- Every literal that is read from a text is read again from its own text, as the same literal.
An integer is read as an integer just when 64 bits can hold it with its sign, and it is not minus
zero; any other integer is read as a double, if at all. -/
theorem literals_are_read_again :
    (∀ (s : String) (l : EnumLiteral), ofText s = .ok l → (∀ x, l = .float x → ReadsBack x) →
      ofText l.toJson.compact = .ok l) ∧
    ∀ (before after : List Char) (negative : Bool) (n : Nat),
      (∀ c ∈ before ++ after, Token.isBlank c = true) →
      (∀ v, ofText (String.ofList (before ++ integerText negative n ++ after)) = .ok (.int v) ↔
        v = (if negative then -(n : Int) else n) ∧ isSigned64 v = true ∧
          ¬ (negative = true ∧ n = 0)) ∧
      ∀ l, ofText (String.ofList (before ++ integerText negative n ++ after)) = .ok l →
        (∃ v, l = .int v) ∨ ∃ x, l = .float x := by
  refine ⟨fun s l h hfloat => ofText_compact (inRange_of_ofText h) hfloat, ?_⟩
  intro before after negative n hblank
  have hs : Token.ofText (String.ofList (before ++ integerText negative n ++ after)) =
      [.number (.ofNat negative n)] := by
    rw [Token.ofText, String.toList_ofList]
    exact Token.scan_integerText negative n
      (fun c hc => hblank c (List.mem_append_left _ hc))
      (fun c hc => hblank c (List.mem_append_right _ hc))
  rw [ofText, readWhole_of_token hs rfl]
  exact ⟨fun _ => read_number_eq_int_iff, fun _ => number_of_read⟩

/-- One is a double when it is written with a point, and so is the number after the greatest
integer of 64 bits in any case; both are read again from their own texts. Minus zero is no
integer. -/
theorem doubles_are_read_again :
    ofText (float 1).toJson.compact = .ok (float 1) ∧
      ofText (float 9223372036854775808).toJson.compact = .ok (float 9223372036854775808) ∧
      ¬ ofText " -0\n" = .ok (.int 0) := by
  have hback {x : Float} {n : Numeral} (htext : Token.ofText (floatText x) = [.number n])
      (hn : n.double? = some x) : ReadsBack x := by
    intro n' h
    rw [htext] at h
    cases h
    exact hn
  have hone : ofText "1.0" = .ok (float 1) := by
    have hs : Token.ofText "1.0" = [.number ⟨false, ['1'], some ['0'], none⟩] := by decide +kernel
    have hdouble : Numeral.double? ⟨false, ['1'], some ['0'], none⟩ = some 1 := by decide +kernel
    refine ofText_of_numeral hs (j := .float 1) ?_ rfl
    rw [value?_of_not_integral rfl, hdouble]
    rfl
  have hlarge : ofText "9223372036854775808" = .ok (float 9223372036854775808) := by
    have hs : Token.ofText "9223372036854775808" =
      [.number (.ofNat false 9223372036854775808)] := by decide +kernel
    have hdouble : Float.ofInt 9223372036854775808 = 9223372036854775808 := by decide +kernel
    refine ofText_of_numeral hs (j := .int 9223372036854775808) rfl ?_
    rw [ofJson?, if_neg (by decide), hdouble]
  refine ⟨literals_are_read_again.1 _ _ hone ?_, literals_are_read_again.1 _ _ hlarge ?_,
    fun hzero => ?_⟩
  · intro x hx
    obtain rfl := float.inj hx
    have htext : Token.ofText (floatText 1) = [.number ⟨false, ['1'], some ['0'], none⟩] := by
      decide +kernel
    exact hback htext (by decide +kernel)
  · intro x hx
    obtain rfl := float.inj hx
    have htext : Token.ofText (floatText 9223372036854775808) =
        [.number ⟨false, ['9'], some "223372036854776".toList, some 18⟩] := by
      decide +kernel
    exact hback htext (by decide +kernel)
  · have hblank : ∀ c ∈ [' '] ++ ['\n'], Token.isBlank c = true :=
      List.forall_mem_cons.2 ⟨rfl, List.forall_mem_singleton.2 rfl⟩
    have h := (literals_are_read_again.2 [' '] ['\n'] true 0 hblank).1 0
    exact (h.1 hzero).2.2 ⟨rfl, rfl⟩

end EnumLiteral

end ApiGraph

import ApiGraph.Json.Numeral
import ApiGraph.Json.StringLiteral

/-!
# Tokens

`Token.scan` splits a text into tokens. A token that cannot be read on is the last
one: what stands after it is never looked at. Blanks are the four characters that
JSON allows between tokens.
-/

namespace ApiGraph.Json

inductive Token where
  | openArray
  | closeArray
  | openObject
  | closeObject
  | comma
  | colon
  | null
  | bool (b : Bool)
  | number (n : Numeral)
  /-- A whole string literal; `none` when it holds a surrogate on its own. -/
  | string (text : Option String)
  /-- A string literal without an end, with the reasons for a reader of its text and for one that
  only wants its end. -/
  | brokenString (read skip : Cut)
  /-- Anything else that is no token, by its first character. -/
  | broken (first : Char) (cut : Cut)
  deriving DecidableEq

namespace Token

def isBlank (c : Char) : Bool := c = ' ' || c = '\t' || c = '\n' || c = '\r'

def punctuation? (c : Char) : Option Token :=
  if c = '[' then some openArray
  else if c = ']' then some closeArray
  else if c = '\x7b' then some openObject
  else if c = '\x7d' then some closeObject
  else if c = ',' then some comma
  else if c = ':' then some colon
  else none

/-- The text after a word that has to stand here. -/
def afterWord : List Char → List Char → Except Cut (List Char)
  | [], cs => .ok cs
  | _ :: _, [] => .error .ended
  | w :: word, c :: cs => if w = c then afterWord word cs else .error .malformed

def noDigit : List Char → Cut
  | [] => .ended
  | _ :: _ => .malformed

def scanDigits (cs : List Char) : Except Cut (List Char × List Char) :=
  match cs.takeWhile Char.isDigit with
  | [] => .error (noDigit cs)
  | ds => .ok (ds, cs.dropWhile Char.isDigit)

/-- Reads the digits before the point; a leading zero stands alone. -/
def scanWhole (cs : List Char) : Except Cut (List Char × List Char) :=
  match cs with
  | '0' :: rest => if (rest.takeWhile Char.isDigit).isEmpty then .ok (['0'], rest)
    else .error .malformed
  | _ => scanDigits cs

def scanDigitsAs (make : List Char → α) (cs : List Char) : Except Cut (α × List Char) :=
  match scanDigits cs with
  | .ok (ds, rest) => .ok (make ds, rest)
  | .error cut => .error cut

def scanFraction (cs : List Char) : Except Cut (Option (List Char) × List Char) :=
  match cs with
  | '.' :: rest => scanDigitsAs some rest
  | _ => .ok (none, cs)

def scanExponent (cs : List Char) : Except Cut (Option Int × List Char) :=
  match cs with
  | [] => .ok (none, [])
  | c :: rest =>
    if c = 'e' ∨ c = 'E' then
      match rest with
      | '-' :: rest => scanDigitsAs (fun ds => some (-(digitsValue ds : Int))) rest
      | '+' :: rest => scanDigitsAs (fun ds => some (digitsValue ds : Int)) rest
      | _ => scanDigitsAs (fun ds => some (digitsValue ds : Int)) rest
    else .ok (none, cs)

def scanNumeral (negative : Bool) (cs : List Char) : Except Cut (Numeral × List Char) := do
  let (whole, cs) ← scanWhole cs
  let (fraction, cs) ← scanFraction cs
  let (exponent, cs) ← scanExponent cs
  return ({ negative, whole, fraction, exponent }, cs)

def ofScan (s : Scan) : Token × List Char :=
  match s.rest with
  | .ok rest =>
    match join s.pieces with
    | .text cs => (string (some (String.ofList cs)), rest)
    | .open | .lone => (string none, rest)
  | .error cut =>
    match join s.pieces with
    | .lone => (brokenString .malformed cut, [])
    | .text _ | .open => (brokenString cut cut, [])

/-- The token of a result, or a broken one that ends the text. -/
def orBroken (first : Char) (make : α → Token) : Except Cut (α × List Char) → Token × List Char
  | .ok (a, rest) => (make a, rest)
  | .error cut => (broken first cut, [])

def next (c : Char) (rest : List Char) : Token × List Char :=
  match punctuation? c with
  | some t => (t, rest)
  | none =>
    if c = '"' then ofScan (scanPieces rest)
    else if c = 'n' then
      orBroken c (fun _ => null) ((afterWord ['u', 'l', 'l'] rest).map ((), ·))
    else if c = 't' then
      orBroken c (fun _ => bool true) ((afterWord ['r', 'u', 'e'] rest).map ((), ·))
    else if c = 'f' then
      orBroken c (fun _ => bool false) ((afterWord ['a', 'l', 's', 'e'] rest).map ((), ·))
    else if c = '-' then orBroken c number (scanNumeral true rest)
    else if c.isDigit then orBroken c number (scanNumeral false (c :: rest))
    else (broken c .malformed, [])

theorem afterWord_length {word cs rest : List Char} (h : afterWord word cs = .ok rest) :
    rest.length ≤ cs.length := by
  fun_induction afterWord word cs with
  | case1 cs => simp_all
  | case2 => simp at h
  | case3 w word cs ih => have := ih h; simp; omega
  | case4 => simp at h

theorem scanDigits_length {cs ds rest : List Char} (h : scanDigits cs = .ok (ds, rest)) :
    rest.length < cs.length := by
  unfold scanDigits at h
  split at h
  · simp at h
  · rename_i hne
    simp only [Except.ok.injEq, Prod.mk.injEq] at h
    obtain ⟨rfl, rfl⟩ := h
    have hsplit := congrArg List.length
      (List.takeWhile_append_dropWhile (p := Char.isDigit) (l := cs))
    rw [List.length_append] at hsplit
    have hpos : 0 < (cs.takeWhile Char.isDigit).length := by
      rw [List.length_pos_iff]; exact hne
    omega

theorem scanWhole_length {cs ds rest : List Char} (h : scanWhole cs = .ok (ds, rest)) :
    rest.length < cs.length := by
  unfold scanWhole at h
  split at h
  · split at h
    · simp only [Except.ok.injEq, Prod.mk.injEq] at h
      obtain ⟨rfl, rfl⟩ := h
      simp
    · simp at h
  · exact scanDigits_length h

theorem scanDigitsAs_length {make : List Char → α} {cs rest : List Char} {a : α}
    (h : scanDigitsAs make cs = .ok (a, rest)) : rest.length < cs.length := by
  unfold scanDigitsAs at h
  split at h
  · rename_i ds tail hdigits
    simp only [Except.ok.injEq, Prod.mk.injEq] at h
    exact h.2 ▸ scanDigits_length hdigits
  · simp at h

theorem scanFraction_length {cs rest : List Char} {ds : Option (List Char)}
    (h : scanFraction cs = .ok (ds, rest)) : rest.length ≤ cs.length := by
  unfold scanFraction at h
  split at h
  · have := scanDigitsAs_length h
    simp; omega
  · simp_all

theorem scanExponent_length {cs rest : List Char} {e : Option Int}
    (h : scanExponent cs = .ok (e, rest)) : rest.length ≤ cs.length := by
  unfold scanExponent at h
  split at h
  · simp_all
  · split at h
    · split at h
      all_goals
        have := scanDigitsAs_length h
        simp_all
        omega
    · simp_all

theorem scanNumeral_length {negative : Bool} {cs rest : List Char} {n : Numeral}
    (h : scanNumeral negative cs = .ok (n, rest)) : rest.length < cs.length := by
  unfold scanNumeral at h
  cases hw : scanWhole cs with
  | error => simp [hw, bind, Except.bind] at h
  | ok w =>
    cases hf : scanFraction w.2 with
    | error => simp [hw, hf, bind, Except.bind] at h
    | ok f =>
      cases he : scanExponent f.2 with
      | error => simp [hw, hf, he, bind, Except.bind] at h
      | ok e =>
        simp only [hw, hf, he, bind, Except.bind, pure, Except.pure, Except.ok.injEq,
          Prod.mk.injEq] at h
        obtain ⟨_, rfl⟩ := h
        have := scanWhole_length hw
        have := scanFraction_length hf
        have := scanExponent_length he
        omega

theorem ofScan_length (cs : List Char) : (ofScan (scanPieces cs)).2.length ≤ cs.length := by
  unfold ofScan
  cases h : (scanPieces cs).rest with
  | ok rest =>
    have := scanPieces_length h
    simp only
    split <;> simp <;> omega
  | error => simp only; split <;> simp

theorem orBroken_length {first : Char} {make : α → Token} {r : Except Cut (α × List Char)}
    {cs : List Char} (h : ∀ a rest, r = .ok (a, rest) → rest.length ≤ cs.length) :
    (orBroken first make r).2.length ≤ cs.length := by
  unfold orBroken
  split
  · exact h _ _ rfl
  · simp

theorem next_length (c : Char) (cs : List Char) : (next c cs).2.length ≤ cs.length := by
  have hword : ∀ word : List Char, ∀ (a : Unit) (rest : List Char),
      (afterWord word cs).map (((), ·) : List Char → Unit × List Char) = .ok (a, rest) →
        rest.length ≤ cs.length := by
    intro word a rest h
    cases hw : afterWord word cs with
    | error => simp [hw, Except.map] at h
    | ok r =>
      simp only [hw, Except.map, Except.ok.injEq, Prod.mk.injEq] at h
      exact h.2 ▸ afterWord_length hw
  unfold next
  split
  · simp
  · split
    · exact ofScan_length cs
    · split
      · exact orBroken_length (hword _)
      · split
        · exact orBroken_length (hword _)
        · split
          · exact orBroken_length (hword _)
          · split
            · exact orBroken_length fun _ _ h => Nat.le_of_lt (scanNumeral_length h)
            · split
              · exact orBroken_length fun _ _ h => by
                  have := scanNumeral_length h
                  simp at this; omega
              · simp

def scan : List Char → List Token
  | [] => []
  | c :: rest =>
    if isBlank c then scan rest else (next c rest).1 :: scan (next c rest).2
termination_by cs => cs.length
decreasing_by
  · simp
  · have := next_length c rest
    simp; omega

def ofText (s : String) : List Token := scan s.toList

end Token

end ApiGraph.Json

import ApiGraph.Decimal.Shortest

/-!
# Layouts of decimals

A layout decides where a double is written positionally and where with an
exponent, whether a whole number keeps its `.0`, and which of two equally near
decimals is taken. Three layouts occur: numbers
in structured output (`exact`), numbers used as names (`plain`), and numbers quoted
from a configuration (`pointed`).
-/

namespace ApiGraph.Decimal

structure Layout where
  /-- Whether a number whose first digit stands at this power of ten is written positionally. -/
  positional : Int → Bool
  /-- Whether a positional whole number ends in `.0`. -/
  keepsPoint : Bool
  /-- The choice between two equally near decimals. -/
  tie : Tie

/-- Positional from `1e-5` up to `1e16`, always with a point or an exponent; a tie goes to the
even digit. -/
def Layout.exact : Layout := ⟨fun power => -5 ≤ power && power < 16, true, .toEven⟩

/-- Always positional, whole numbers without a point; a tie goes up. -/
def Layout.plain : Layout := ⟨fun _ => true, false, .up⟩

/-- Always positional, whole numbers with a point; a tie goes up. -/
def Layout.pointed : Layout := ⟨fun _ => true, true, .up⟩

/-- Digits with the point after the first `whole` of them. -/
def placePoint (keepsPoint : Bool) (digits : List Char) (whole : Int) : List Char :=
  if whole ≤ 0 then
    '0' :: '.' :: List.replicate (-whole).toNat '0' ++ digits
  else if digits.length ≤ whole.toNat then
    digits ++ List.replicate (whole.toNat - digits.length) '0' ++
      if keepsPoint then ['.', '0'] else []
  else
    digits.take whole.toNat ++ '.' :: digits.drop whole.toNat

/-- Digits with the point after the first of them, and a power of ten with its sign. -/
def scientific (digits : List Char) (power : Int) : List Char :=
  (match digits with
    | [] => []
    | [d] => [d]
    | d :: rest => d :: '.' :: rest) ++
  'e' :: (if power < 0 then '-' else '+') :: Nat.toDigits 10 power.natAbs

def Layout.magnitude (layout : Layout) (x : Float) : List Char :=
  let d := shortest layout.tie x
  if d.digits = 0 then '0' :: if layout.keepsPoint then ['.', '0'] else []
  else
    let digits := Nat.toDigits 10 d.digits
    let whole := d.exponent + digits.length
    if layout.positional (whole - 1) then placePoint layout.keepsPoint digits whole
    else scientific digits (whole - 1)

/-- The text of a double. Infinity and NaN have names, in every layout the same. -/
def Layout.write (layout : Layout) (x : Float) : String :=
  if x.isNaN then "NaN"
  else
    String.ofList <|
      (if isNegative x then ['-'] else []) ++
      if x.isInf then ['i', 'n', 'f'] else layout.magnitude x

end ApiGraph.Decimal

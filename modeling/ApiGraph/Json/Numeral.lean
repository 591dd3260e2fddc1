import ApiGraph.Json.Basic

/-!
# Numerals

A numeral is a number as it is spelled: a sign, the digits before the point, those after it and a
power of ten. One that is written without a point and without an exponent denotes an integer when
64 bits can hold it, with a sign or without; minus zero and larger integers are doubles, and so is
everything else.

A double is computed from the digits that 64 bits can hold, which are scaled by a power of ten.
Each step of that rounds, so the double need not be the nearest one. A numeral beyond the range of
doubles denotes nothing.
-/

namespace ApiGraph.Json

/-- A number as it is spelled. -/
structure Numeral where
  negative : Bool
  /-- The digits before the point. -/
  whole : List Char
  /-- The digits after the point, if there is one. -/
  fraction : Option (List Char)
  exponent : Option Int
  deriving DecidableEq

def digitValue (c : Char) : Nat := c.toNat - 48

def digitsValue (cs : List Char) : Nat := cs.foldl (fun n c => 10 * n + digitValue c) 0

def withSign (negative : Bool) (x : Float) : Float := if negative then -x else x

/-- Whether 64 bits can hold an integer with its sign. -/
def isSigned64 (n : Int) : Bool := -0x8000000000000000 ≤ n && n < 0x8000000000000000

def isUnsigned64 (n : Nat) : Bool := n < 0x10000000000000000

/-! ## Doubles -/

/-- Appends digits to a number as long as 64 bits can hold it, and counts the digits that are left
over. -/
def appendDigits (m : Nat) : List Char → Nat × Nat
  | [] => (m, 0)
  | c :: cs =>
    if isUnsigned64 (10 * m + digitValue c) then appendDigits (10 * m + digitValue c) cs
    else (m, cs.length + 1)

def powerOfTen (n : Nat) : Float := Float.ofScientific 1 false n

/-- `x * 10 ^ e`, rounded at each step. The powers of ten end at `10 ^ 308`, so a smaller number is
divided in several steps, until nothing is left of it, and a greater one is infinite. -/
def scale (x : Float) (e : Int) : Float :=
  if e < -308 then
    if x == 0 then x else scale (x / powerOfTen 308) (e + 308)
  else if e < 0 then x / powerOfTen e.natAbs
  else if e ≤ 308 then x * powerOfTen e.natAbs
  else if x == 0 then x
  else 1 / 0
termination_by e.natAbs

namespace Numeral

/-- Written without a point and without an exponent. -/
def isIntegral (n : Numeral) : Bool := n.fraction.isNone && n.exponent.isNone

/-- The digits that 64 bits can hold, and their power of ten. A digit before the point that is left
over still counts as a place; one after it does not. -/
def significand (n : Numeral) : Nat × Int :=
  let fraction := n.fraction.getD []
  let (m, left) := appendDigits 0 n.whole
  let (m, right) := appendDigits m fraction
  (m, n.exponent.getD 0 + left + right - fraction.length)

/-- The double that a numeral denotes, unless that is infinite. -/
def double? (n : Numeral) : Option Float :=
  let (m, e) := n.significand
  let x := scale (Float.ofNat m) e
  if x.isFinite then some (withSign n.negative x) else none

def value? (n : Numeral) : Option Json :=
  let m := digitsValue n.whole
  if n.isIntegral && !n.negative && isUnsigned64 m then some (int m)
  else if n.isIntegral && n.negative && 0 < m && isSigned64 (-m) then some (int (-m))
  else n.double?.map float

end Numeral

end ApiGraph.Json

/-!
# Shortest decimals

A finite double is a whole number `m` times a power of two. The decimals that are
read back as this double fill an interval around it, whose ends belong to it just
when `m` is even. `shortest` tries the grids of one digit, two digits and so on up
to seventeen, and on each grid the two neighbours of the double. The first grid
with a neighbour inside the interval wins; of two such neighbours the nearer one
is taken, and a `Tie` chooses when both are equally near.

All comparisons are exact: the double and the ends of its interval are kept as
numerators over one common denominator.
-/

namespace ApiGraph

/-- The number `digits * 10 ^ exponent`. -/
structure Decimal where
  digits : Nat
  exponent : Int
  deriving DecidableEq

namespace Decimal

/-- The choice between two neighbours that are equally near. -/
inductive Tie where
  /-- The one whose last digit is even. -/
  | toEven
  /-- The greater one. -/
  | up
  deriving DecidableEq

def Tie.goesUp (tie : Tie) (below : Nat) : Bool :=
  match tie with
  | .toEven => below % 2 = 1
  | .up => true

def tenTo (n : Nat) : Nat := Nat.pow 10 n

def twoTo (n : Nat) : Nat := Nat.pow 2 n

/-- A positive double and its interval, as numerators over one denominator. -/
structure Target where
  value : Nat
  low : Nat
  high : Nat
  denominator : Nat
  /-- Whether the ends of the interval are read back as the double. -/
  closed : Bool

/-- The target `m * 2 ^ q`. The lower neighbour is nearer when `m` opens a binade. -/
def Target.ofBinary (m : Nat) (q : Int) (opensBinade : Bool) : Target :=
  let scale := twoTo (q - 2).toNat
  { value := 4 * m * scale
    low := (4 * m - if opensBinade then 1 else 2) * scale
    high := (4 * m + 2) * scale
    denominator := twoTo (2 - q).toNat
    closed := m % 2 = 0 }

def digitCount (n : Nat) : Nat := (Nat.toDigits 10 n).length

/-- The exponent `k` with `10 ^ (k - 1) ≤ value < 10 ^ k`. -/
def Target.magnitude (t : Target) : Int :=
  if t.denominator ≤ t.value then digitCount (t.value / t.denominator)
  else 1 - (digitCount ((t.denominator - 1) / t.value) : Int)

/-- Whether `c * 10 ^ e` lies in the interval. -/
def Target.admits (t : Target) (c : Nat) (e : Int) : Bool :=
  let point := c * tenTo e.toNat * t.denominator
  let unit := tenTo (-e).toNat
  if t.closed then t.low * unit ≤ point && point ≤ t.high * unit
  else t.low * unit < point && point < t.high * unit

/-- The best neighbour on the grid of multiples of `10 ^ e`, when one lies in the interval. -/
def Target.onGrid? (tie : Tie) (t : Target) (e : Int) : Option Decimal :=
  let unit := tenTo e.toNat * t.denominator
  let scaled := t.value * tenTo (-e).toNat
  let below := scaled / unit
  let twice := 2 * (scaled % unit)
  let upIsBetter := twice > unit || (twice = unit && tie.goesUp below)
  match t.admits below e, t.admits (below + 1) e with
  | true, true => some ⟨if upIsBetter then below + 1 else below, e⟩
  | true, false => some ⟨below, e⟩
  | false, true => some ⟨below + 1, e⟩
  | false, false => none

/-- Trailing zeros of the digits moved into the exponent. -/
def strip (d : Decimal) : Decimal :=
  if h : d.digits ≠ 0 ∧ d.digits % 10 = 0 then strip ⟨d.digits / 10, d.exponent + 1⟩ else d
termination_by d.digits
decreasing_by exact Nat.div_lt_self (Nat.pos_of_ne_zero h.1) (by decide)

def Target.shortest (tie : Tie) (t : Target) : Decimal :=
  let k := t.magnitude
  let found := (List.range 17).findSome? fun n => t.onGrid? tie (k - (n + 1 : Nat))
  (found.getD ⟨0, 0⟩).strip

def isNegative (x : Float) : Bool := 0x8000000000000000 ≤ x.toBits.toNat

/-- The number of fractions that the significand of a double can hold: `2 ^ 52`. -/
def fractions : Nat := 0x10000000000000

/-- The target of a double other than zero, infinity and NaN; its sign is left out. -/
def Target.ofFloat (x : Float) : Target :=
  let bits := x.toBits.toNat
  let fraction := bits % fractions
  let biased : Nat := bits / fractions % 2048
  if biased = 0 then .ofBinary fraction (-1074) false
  else .ofBinary (fraction + fractions) ((biased : Int) - 1075) (fraction = 0 && 1 < biased)

def shortest (tie : Tie) (x : Float) : Decimal :=
  if x == 0 then ⟨0, 0⟩ else (Target.ofFloat x).shortest tie

end Decimal

end ApiGraph

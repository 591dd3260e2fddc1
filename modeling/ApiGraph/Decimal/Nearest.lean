import ApiGraph.Decimal.Shortest

/-!
# Nearest doubles

The double nearest to a decimal, with a tie going to the even one.
-/

namespace ApiGraph.Decimal

/-- The double nearest to `m * 10 ^ e`, or `none` when that is beyond their range. Powers far out
of range are answered without being computed. -/
def nearestFloat? (m : Nat) (e : Int) : Option Float :=
  if m = 0 then some 0
  else
    let magnitude := e + digitCount m
    if magnitude > 400 then none
    else if magnitude < -400 then some 0
    else
      let x := Float.ofScientific m (e < 0) e.natAbs
      if x.isInf then none else some x

end ApiGraph.Decimal

/-!
# Hexadecimal digits

Digits are read in either letter case.
-/

namespace ApiGraph.Text

def hexValue? (c : Char) : Option Nat :=
  if c.isDigit then some (c.toNat - 48)
  else if 'a' ≤ c ∧ c ≤ 'f' then some (c.toNat - 87)
  else if 'A' ≤ c ∧ c ≤ 'F' then some (c.toNat - 55)
  else none

/-- The number that hexadecimal digits spell, after the digits read so far. -/
def hexNumber? (n : Nat) : List Char → Option Nat
  | [] => some n
  | c :: rest =>
    match hexValue? c with
    | some d => hexNumber? (16 * n + d) rest
    | none => none

/-- Every digit that is written in lower case is read back. -/
theorem hexValue?_digitChar : ∀ n < 16, hexValue? (Nat.digitChar n) = some n := by
  decide

end ApiGraph.Text

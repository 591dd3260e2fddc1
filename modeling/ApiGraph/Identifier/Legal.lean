import ApiGraph.Identifier.Reserved

/-!
# Legal identifiers

An identifier is legal in a role when it starts with an ASCII letter, goes on with
ASCII letters, digits and underscores, has at most `maxLength` characters and is
not reserved in that role. The predicate says nothing on how such names are made.
-/

namespace ApiGraph.Identifier

def maxLength : Nat := 63

/-- The characters an identifier may hold after its first one. -/
def isWordChar (c : Char) : Bool := c.isAlphanum || c = '_'

/-- A letter, and after it only letters, digits and underscores. -/
def isWord : List Char → Bool
  | [] => false
  | c :: rest => c.isAlpha && rest.all isWordChar

def isLegal (name : String) (role : Role) : Bool :=
  isWord name.toList && name.length ≤ maxLength && !isReserved name role

theorem isLegal_iff (name : String) (role : Role) :
    isLegal name role = true ↔
      isWord name.toList = true ∧ name.length ≤ maxLength ∧ isReserved name role = false := by
  simp [isLegal, and_assoc]

end ApiGraph.Identifier

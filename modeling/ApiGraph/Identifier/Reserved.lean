import ApiGraph.Identifier.Role

/-!
# Reserved words

The keywords of the target language are reserved in every role. The four words
that open a block of a class definition are reserved for fields alone. Both lists
are compared without regard to ASCII letter case.
-/

namespace ApiGraph.Identifier

def keywords : List String :=
  ["break", "case", "catch", "classdef", "continue", "else", "elseif", "end", "for", "function",
   "global", "if", "otherwise", "parfor", "persistent", "return", "spmd", "switch", "try", "while"]

/-- The words that open a block of a class definition. -/
def blockWords : List String := ["properties", "methods", "events", "enumerators"]

def isReserved (name : String) (role : Role) : Bool :=
  keywords.contains name.toLower || (role = .field && blockWords.contains name.toLower)

theorem blockWords_disjoint_keywords : ∀ w ∈ blockWords, w ∉ keywords := by
  decide +kernel

end ApiGraph.Identifier

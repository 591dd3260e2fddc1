import ApiGraph.Text.CaseMap

/-!
# Letter case of names

`capitalizeFirst` writes the first character of a text in upper case and leaves
the rest alone. `camelize` joins the segments of a text that underscores
separate, each capitalized in that way, and `camelizeLower` then writes the first
character of the result in lower case.

Camel case is defined by one recursion that remembers whether the next character
opens a segment, so empty segments need no separate treatment.
-/

namespace ApiGraph.Text

def capitalizeFirst (s : String) : String :=
  match s.toList with
  | [] => ""
  | c :: rest => String.ofList (upper c ++ rest)

/-- Camel case of a list of characters. `opens` says that the next character opens a segment. -/
def camelChars (opens : Bool) : List Char → List Char
  | [] => []
  | c :: rest =>
    if c = '_' then camelChars true rest
    else (if opens then upper c else [c]) ++ camelChars false rest

@[simp] theorem camelChars_nil (opens : Bool) : camelChars opens [] = [] := rfl

@[simp] theorem camelChars_underscore (opens : Bool) (rest : List Char) :
    camelChars opens ('_' :: rest) = camelChars true rest := by
  simp [camelChars]

theorem camelChars_cons (opens : Bool) (c : Char) (rest : List Char) (h : c ≠ '_') :
    camelChars opens (c :: rest) =
      (if opens then upper c else [c]) ++ camelChars false rest := by
  simp [camelChars, h]

/-- The segments between underscores, each capitalized, without the underscores. -/
def camelize (s : String) : String := String.ofList (camelChars true s.toList)

def camelizeLower (s : String) : String :=
  match (camelize s).toList with
  | [] => ""
  | c :: rest => String.ofList (lower c ++ rest)

end ApiGraph.Text

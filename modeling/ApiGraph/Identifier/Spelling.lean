import ApiGraph.Event
import ApiGraph.Identifier.Legal
import ApiGraph.Text.Blank
import ApiGraph.Text.Case

/-!
# Spelling a name in a role

`spell raw role` is what any text becomes as an identifier before its length is
looked at, or `none` when no legal character survives. It works in passes: `$` is
dropped, the operators in the name of a variable are written as words one after the
other, hyphens become underscores, and then separators are mapped to underscores and
everything else outside the alphabet is dropped. Three repairs follow, in this order:
a name that starts with a digit is escaped, one that starts with an underscore gets
an `x`, and a reserved word is escaped.

`spellEvents` lists what is reported on the way. Repairs of class-like names are
reported one by one, a variable only as a whole.
-/

namespace ApiGraph.Identifier

/-- The operators spelled out in the names of variables. -/
def operatorWords : List (Char × List Char) :=
  [('!', ['n', 'o', 't']), ('=', ['e', 'q']), ('>', ['g', 't']), ('<', ['l', 't']),
   ('~', ['t', 'i', 'l', 'd', 'e'])]

def replaceChar (c : Char) (word : List Char) (cs : List Char) : List Char :=
  cs.flatMap fun x => if x = c then word else [x]

@[simp] theorem replaceChar_nil (c : Char) (word : List Char) : replaceChar c word [] = [] := rfl

theorem replaceChar_cons (c : Char) (word : List Char) (x : Char) (cs : List Char) :
    replaceChar c word (x :: cs) =
      (if x = c then word else [x]) ++ replaceChar c word cs := rfl

theorem replaceChar_append (c : Char) (word cs ds : List Char) :
    replaceChar c word (cs ++ ds) = replaceChar c word cs ++ replaceChar c word ds := by
  simp [replaceChar]

def spellOperators (role : Role) (cs : List Char) : List Char :=
  if role.isVariable then
    operatorWords.foldl (fun name (op, word) => replaceChar op word name) cs
  else cs

/-- Separators become underscores, and what is not in the alphabet of identifiers is lost. -/
def keepLegal? (c : Char) : Option Char :=
  if c = '[' ∨ c = '(' ∨ c = '.' ∨ Text.isBlank c then some '_'
  else if isWordChar c then some c
  else none

/-- The legal characters that a raw name leaves. -/
def base (raw : String) (role : Role) : String :=
  String.ofList ((replaceChar '-' ['_']
    (spellOperators role (replaceChar '$' [] raw.toList))).filterMap keepLegal?)

/-- Marks a name with its role; class-like names are recased on the way. -/
def escape (role : Role) (name : String) : String :=
  match role with
  | .model => Text.camelize ("model_" ++ name)
  | .tag => Text.camelize ("api_" ++ name)
  | .operation => Text.camelizeLower ("call_" ++ name)
  | .field | .parameter => "x" ++ name

def startsWithDigit (name : String) : Bool :=
  match name.toList with
  | [] => false
  | c :: _ => c.isDigit

def startsWithUnderscore (name : String) : Bool :=
  match name.toList with
  | [] => false
  | c :: _ => c = '_'

def repairDigit (role : Role) (name : String) : String :=
  if startsWithDigit name then escape role name else name

def repairUnderscore (name : String) : String :=
  if startsWithUnderscore name then "x" ++ name else name

def repairReserved (role : Role) (name : String) : String :=
  if isReserved name role then escape role name else name

def repair (role : Role) (name : String) : String :=
  repairReserved role (repairUnderscore (repairDigit role name))

def spell (raw : String) (role : Role) : Option String :=
  if base raw role = "" then none else some (repair role (base raw role))

def repairEvents (role : Role) (name : String) : List Event :=
  let marked := repairUnderscore (repairDigit role name)
  (if startsWithDigit name then [.leadingDigit role name (escape role name)] else []) ++
    if isReserved marked role then [.reservedWord role marked (escape role marked)] else []

def spellEvents (raw : String) (role : Role) : List Event :=
  match spell raw role with
  | none => []
  | some name =>
    if role.isVariable then (if name = raw then [] else [.variableRenamed raw name])
    else repairEvents role (base raw role)

theorem spell_eq_none_iff (raw : String) (role : Role) :
    spell raw role = none ↔ base raw role = "" := by
  simp [spell]

end ApiGraph.Identifier

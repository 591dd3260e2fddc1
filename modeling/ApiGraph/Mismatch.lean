import ApiGraph.Decimal.Layout
import ApiGraph.Text.Quoted

/-!
# Mismatches

A text can be well formed and still not describe what is asked for. `Mismatch`
lists the ways in which that happens, for documents and configurations alike, and
`Mismatch.message` is their wording. `Found` is the short description of the value
that stands where another one was wanted.
-/

namespace ApiGraph

/-- What stands in the place of a wanted value. -/
inductive Found where
  | null
  | bool (b : Bool)
  | int (n : Int)
  /-- A number that is not an integer, already written out. -/
  | float (text : String)
  | string (s : String)
  | sequence
  | map

def Found.describe : Found → String
  | null => "null"
  | bool b => "boolean `" ++ (if b then "true" else "false") ++ "`"
  | int n => "integer `" ++ n.repr ++ "`"
  | float text => "floating point `" ++ text ++ "`"
  | string s => "string " ++ Text.quoted s
  | sequence => "sequence"
  | map => "map"

inductive Mismatch where
  /-- Another kind of value was wanted. -/
  | wrongKind (found : Found) (wanted : String)
  /-- A member that has to be there is not. -/
  | missingField (name : String)
  /-- A known member occurs twice. -/
  | duplicateField (name : String)
  /-- A word is not one of a fixed choice. -/
  | unknownVariant (name : String) (choice : List String)
  /-- A literal is an array or an object. -/
  | notALiteral
  /-- A record written as a sequence is too short. -/
  | tooShort (length : Nat) (record : String) (wanted : Nat)
  /-- A choice is neither a string nor a table. -/
  | notAChoice
  /-- A choice written as a table does not have one entry. -/
  | wrongChoiceSize (several : Bool)
  /-- A choice written as a table has contents. -/
  | nonEmptyChoice (container : String)
  /-- A choice written as a table has a scalar in the place of its contents. -/
  | scalarChoice (kind : String)

/-- Words in back quotes, in a list that ends in "or" for two and is introduced for more. -/
def describeChoice (choice : List String) : String :=
  match choice with
  | [a, b] => "`" ++ a ++ "` or `" ++ b ++ "`"
  | _ => "one of " ++ ", ".intercalate (choice.map fun a => "`" ++ a ++ "`")

def Mismatch.message : Mismatch → String
  | wrongKind found wanted => "invalid type: " ++ found.describe ++ ", expected " ++ wanted
  | missingField name => "missing field `" ++ name ++ "`"
  | duplicateField name => "duplicate field `" ++ name ++ "`"
  | unknownVariant name choice =>
    "unknown variant `" ++ name ++ "`, expected " ++ describeChoice choice
  | notALiteral => "data did not match any variant of untagged enum EnumValue"
  | tooShort length record wanted =>
    "invalid length " ++ length.repr ++ ", expected struct " ++ record ++ " with " ++
      wanted.repr ++ " elements"
  | notAChoice => "wanted string or table"
  | wrongChoiceSize several =>
    "wanted exactly 1 element, " ++
      if several then "more than 1 element" else "found 0 elements"
  | nonEmptyChoice container => "expected empty " ++ container
  | scalarChoice kind => "expected table, found " ++ kind

end ApiGraph

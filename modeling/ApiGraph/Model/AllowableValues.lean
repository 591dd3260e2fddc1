import ApiGraph.Model.Basic
import ApiGraph.Session

/-!
# Members of enumerations

Every literal of an enumeration gets a member name. The names come from the first of
the configured extensions that holds a list; a literal beyond the end of that list,
and every literal when there is no list, is named by its own text. A name of which
nothing legal is left becomes `emptyMemberName`.
-/

namespace ApiGraph

namespace AllowableValue

/-- The name of a member whose own name leaves nothing legal. -/
def emptyMemberName : String := "EMPTY_STRING"

/-- The list of the first extension, among the given ones, that holds a list. -/
def displayNames? (nameExtensions : List String) (e : Extensions) : Option (List String) :=
  nameExtensions.findSome? e.stringList?

/-- The raw names of literals: display names as far as they reach, then the literals' texts. -/
def rawNames : List String → List EnumLiteral → List (String × EnumLiteral)
  | _, [] => []
  | [], v :: values => (v.text, v) :: rawNames [] values
  | n :: names, v :: values => (n, v) :: rawNames names values

def ofRaw (raw : String) (value : EnumLiteral) : Naming AllowableValue := do
  let name ← Naming.trySanitize raw .field
  return ⟨name.getD emptyMemberName, value⟩

def build (nameExtensions : List String) (values : List EnumLiteral) (e : Extensions) :
    Naming (List AllowableValue) := do
  let names := displayNames? nameExtensions e
  match names with
  | some names =>
    if names.length < values.length then
      Naming.report (.fewerDisplayNames names.length values.length)
  | none => pure ()
  (rawNames (names.getD []) values).mapM fun (raw, value) => ofRaw raw value

@[simp] theorem rawNames_nil (names : List String) : rawNames names [] = [] := by
  cases names <;> rfl

theorem map_snd_rawNames (names : List String) (values : List EnumLiteral) :
    (rawNames names values).map (·.2) = values := by
  induction values generalizing names with
  | nil => simp
  | cons v values ih => cases names <;> simp [rawNames, ih]

end AllowableValue

end ApiGraph

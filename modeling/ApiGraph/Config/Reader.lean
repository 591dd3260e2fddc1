import ApiGraph.Config.Basic
import ApiGraph.Mismatch
import ApiGraph.Toml.Reader

/-!
# Reading configurations

A configuration is a TOML text. Its entries are judged in the order in which they come
up, and the first one that is not of the shape wanted is reported; entries that are
not known are passed over at every level. A text that is not TOML has nothing else to
be said about it.
-/

namespace ApiGraph

open Toml (Value)

inductive ConfigError where
  /-- The text is not TOML. -/
  | malformed
  /-- An entry is not of the shape wanted. -/
  | mismatch (m : Mismatch)

namespace Config

def describe : Value → Found
  | .string s => .string s
  | .int n => .int n
  | .float x => .float (Decimal.Layout.pointed.write x)
  | .bool b => .bool b
  | .datetime | .table .. => .map
  | .array _ | .tables _ => .sequence

def wrongKind (wanted : String) (v : Value) : Except Mismatch α :=
  .error (.wrongKind (describe v) wanted)

def readString : Value → Except Mismatch String
  | .string s => .ok s
  | v => wrongKind "a string" v

def readList (read : Value → Except Mismatch α) : Value → Except Mismatch (List α)
  | .array items => items.mapM read
  | .tables ts => ts.mapM fun entries => read (.table .explicit entries)
  | v => wrongKind "a sequence" v

def flavorOf (name : String) : Except Mismatch Flavor :=
  match Flavor.words.lookup name with
  | some flavor => .ok flavor
  | none => .error (.unknownVariant name (Flavor.words.map (·.1)))

/-- The contents of a choice that is written as a table: nothing. An array in brackets is asked
to be empty in the words for a table, tables under repeated headers in those for an array. -/
def readNoContents : Value → Except Mismatch Unit
  | .table _ entries => if entries.isEmpty then .ok () else .error (.nonEmptyChoice "table")
  | .array items => if items.isEmpty then .ok () else .error (.nonEmptyChoice "table")
  | .tables ts => if ts.isEmpty then .ok () else .error (.nonEmptyChoice "array")
  | v => .error (.scalarChoice v.kindName)

/-- The side, as a word or as a table with that word as its only key. -/
def readFlavor : Value → Except Mismatch Flavor
  | .string name => flavorOf name
  | .table _ [(name, contents)] => do
    let flavor ← flavorOf name
    readNoContents contents
    return flavor
  | .table _ entries => .error (.wrongChoiceSize !entries.isEmpty)
  | _ => .error .notAChoice

structure ObjectParamDraft where
  name : Option String := none
  baseType : Option String := none

def requireField (name : String) : Option α → Except Mismatch α
  | some a => .ok a
  | none => .error (.missingField name)

/-- An object parameter, as a table or as an array of its two names. A date counts as a table
without either name. -/
def readObjectParam : Value → Except Mismatch ObjectParam
  | .table _ entries => do
    let d ← entries.foldlM (fun (d : ObjectParamDraft) (key, v) => do
      if key = "name" then return { d with name := some (← readString v) }
      else if key = "base_type" then return { d with baseType := some (← readString v) }
      else return d) {}
    return { name := ← requireField "name" d.name
             baseType := ← requireField "base_type" d.baseType }
  | .datetime => .error (.missingField "name")
  | .array [] => .error (.tooShort 0 "ObjectParam" 2)
  | .array [name] => do
    let _ ← readString name
    .error (.tooShort 1 "ObjectParam" 2)
  | .array (name :: baseType :: _) => do
    return { name := ← readString name, baseType := ← readString baseType }
  | v => wrongKind "struct ObjectParam" v

def readEntry (c : Config) (key : String) (v : Value) : Except Mismatch Config := do
  if key = "package_name" then return { c with packageName := ← readString v }
  else if key = "package_version" then return { c with packageVersion := ← readString v }
  else if key = "flavor" then return { c with flavor := ← readFlavor v }
  else if key = "model_package" then return { c with modelPackage := ← readString v }
  else if key = "enum_name_extensions" then
    return { c with enumNameExtensions := ← readList readString v }
  else if key = "add_auth" then return { c with addAuth := some (← readString v) }
  else if key = "object_params" then
    return { c with objectParams := ← readList readObjectParam v }
  else return c

def ofText (s : String) : Except ConfigError Config :=
  match Toml.ofText s with
  | none => .error .malformed
  | some entries =>
    match entries.foldlM (fun c (key, v) => readEntry c key v) {} with
    | .ok c => .ok c
    | .error m => .error (.mismatch m)

end Config

end ApiGraph

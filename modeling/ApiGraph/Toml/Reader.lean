import ApiGraph.Toml.Scalar
import ApiGraph.Toml.Table

/-!
# Reading a TOML text

A text is read line by line into statements, which are then taken in one after the
other. `Toml.ofText` yields the entries of the whole text, or `none` when it is not
TOML, duplicate keys included; there is no more to say about such a text.

Every reader yields the rest of the text after what it has read. Values nest to at
most `maxNesting` levels. The loops over items, entries and lines are bounded by the
number of characters, of which each round takes at least one.
-/

namespace ApiGraph.Toml

abbrev Reader (α : Type) := StateT (List Char) Option α

namespace Reader

def peek : Reader (Option Char) := fun cs => some (cs.head?, cs)

def char (c : Char) : Reader Unit
  | x :: rest => if x = c then some ((), rest) else none
  | [] => none

def spaces : Reader Unit := fun cs => some ((), cs.dropWhile isSpace)

def comment : Reader Unit
  | '#' :: rest => some ((), rest.dropWhile isPlain)
  | cs => some ((), cs)

def lineBreak : Reader Bool
  | '\n' :: rest | '\r' :: '\n' :: rest => some (true, rest)
  | cs => some (false, cs)

def gaps : Nat → Reader Unit
  | 0 => return ()
  | fuel + 1 => do
    spaces
    comment
    if ← lineBreak then gaps fuel

def gap : Reader Unit := fun cs => gaps (cs.length + 1) cs

def lineEnd : Reader Unit := do
  spaces
  comment
  if (← peek).isSome then
    unless ← lineBreak do failure

end Reader

open Reader

def isBareKeyChar (c : Char) : Bool := c.isAlphanum || c = '-' || c = '_'

def simpleKey : Reader String
  | '"' :: rest => (basicString rest).map fun (cs, rest) => (String.ofList cs, rest)
  | '\'' :: rest => (literalString rest).map fun (cs, rest) => (String.ofList cs, rest)
  | cs =>
    match cs.takeWhile isBareKeyChar with
    | [] => none
    | bare => some (String.ofList bare, cs.dropWhile isBareKeyChar)

def moreKeys : Nat → Reader (List String)
  | 0 => failure
  | fuel + 1 => do
    spaces
    if (← peek) = some '.' then
      char '.'
      spaces
      let key ← simpleKey
      return key :: (← moreKeys fuel)
    else return []

/-- The levels to which values nest. -/
def maxNesting : Nat := 79

/-- A key: what stands before its last dot, and what stands after it. -/
def dottedKey : Reader (List String × String) := do
  spaces
  let first ← simpleKey
  let more ← moreKeys ((← get).length + 1)
  let keys := first :: more
  if maxNesting < keys.length then failure
  return (keys.dropLast, keys.getLast?.getD first)

def word (text : List Char) (v : Value) : Reader Value := fun cs =>
  if text.isPrefixOf cs then some (v, cs.drop text.length) else none

def scalar : Reader Value := fun cs =>
  match cs with
  | [] => none
  | c :: _ =>
    if c = '"' ∨ c = '\'' then
      (anyString cs).map fun (s, rest) => (.string (String.ofList s), rest)
    else if c = 't' then word ['t', 'r', 'u', 'e'] (.bool true) cs
    else if c = 'f' then word ['f', 'a', 'l', 's', 'e'] (.bool false) cs
    else dateOrNumber cs

def arrayItems (value : Reader Value) : Nat → Reader (List Value)
  | 0 => failure
  | fuel + 1 => do
    gap
    if (← peek) = some ']' then
      char ']'
      return []
    let v ← value
    gap
    if (← peek) = some ',' then
      char ','
      return v :: (← arrayItems value fuel)
    char ']'
    return [v]

def inlineEntries (value : Reader Value) : Nat → Table → Reader Table
  | 0, _ => failure
  | fuel + 1, t => do
    let (path, key) ← dottedKey
    spaces
    char '='
    spaces
    let v ← value
    spaces
    match t.assignPath path key v with
    | none => failure
    | some t =>
      if (← peek) = some ',' then
        char ','
        inlineEntries value fuel t
      else
        char '\x7d'
        return t

def inlineTable (value : Reader Value) : Reader Table := do
  spaces
  if (← peek) = some '\x7d' then
    char '\x7d'
    return .empty .inline
  inlineEntries value ((← get).length + 1) (.empty .inline)

def value : Nat → Reader Value
  | 0 => fun cs =>
    match cs with
    | '[' :: _ | '\x7b' :: _ => none
    | _ => scalar cs
  | levels + 1 => do
    match ← peek with
    | some '[' =>
      char '['
      return .array (← arrayItems (value levels) ((← get).length + 1))
    | some '\x7b' =>
      char '\x7b'
      let t ← inlineTable (value levels)
      return .table .inline t.entries
    | _ => scalar

def header : Reader Statement := do
  if (← peek) = some '[' then
    char '['
    let (path, key) ← dottedKey
    spaces
    char ']'
    char ']'
    return .repeatedHeader path key
  else
    let (path, key) ← dottedKey
    spaces
    char ']'
    return .header path key

def statement : Reader Statement := do
  if (← peek) = some '[' then
    char '['
    header
  else
    let (path, key) ← dottedKey
    spaces
    char '='
    spaces
    return .assign path key (← value maxNesting)

/-- The statements up to the end of the text, taken in one after the other. -/
def lines : Nat → Progress → Reader Progress
  | 0, _ => failure
  | fuel + 1, p => do
    gap
    if (← peek).isNone then return p
    let s ← statement
    lineEnd
    match p.step s with
    | none => failure
    | some p => lines fuel p

/-- The text without a byte order mark. -/
def dropMark : List Char → List Char
  | '\ufeff' :: rest => rest
  | cs => cs

def ofText (s : String) : Option Entries :=
  let cs := dropMark s.toList
  (lines (cs.length + 1) .start cs).map fun (p, _) => p.root.entries

end ApiGraph.Toml

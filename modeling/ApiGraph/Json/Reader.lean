import ApiGraph.Json.Printer
import ApiGraph.Json.Tree
import ApiGraph.Mismatch

/-!
# Reading typed values from a tree

A reader takes a tree to a value of some type or to the first objection in text
order: the text ends too early, it is malformed, or it does not have the shape that
is wanted. `levels` counts the containers that may still be opened; opening one more
makes the text malformed, and a text starts with `maxLevels`. Where a value may be
anything, `readAny` takes it over as it is.

Values that nobody asks for only have to obey the grammar: `Tree.skip` looks
neither at the range of numbers nor at surrogates nor at the depth.
-/

namespace ApiGraph.Json

inductive ReadError where
  /-- The text ends inside the value. -/
  | ended
  /-- The text is not JSON. -/
  | malformed
  /-- The value is not of the shape wanted. -/
  | mismatch (m : Mismatch)

/-- The containers that may be open at once. -/
def maxLevels : Nat := 127

abbrev Read (α : Type) := Except ReadError α

def Cut.toError : Cut → ReadError
  | .ended => .ended
  | .malformed => .malformed

def noValue : Option Token → ReadError
  | none => .ended
  | some (.brokenString read _) => read.toError
  | some (.broken _ cut) => cut.toError
  | some _ => .malformed

/-- The objection to a token where a value is due that nobody asks for. A number that breaks off
counts as malformed there, also at the end of the text. -/
def noSkippedValue : Option Token → ReadError
  | some (.brokenString _ skip) => skip.toError
  | some (.broken first cut) =>
    if first = '-' ∨ first.isDigit then .malformed else cut.toError
  | next => noValue next

def unexpected : Option Token → ReadError
  | none => .ended
  | some _ => .malformed

namespace Ending

def check : Ending → Read Unit
  | closed => .ok ()
  | afterValue next => .error (unexpected next)
  | atKey (some (.brokenString read _)) => .error read.toError
  | atKey next => .error (unexpected next)

def skip : Ending → Read Unit
  | closed => .ok ()
  | afterValue next => .error (unexpected next)
  | atKey (some (.brokenString _ skip)) => .error skip.toError
  | atKey next => .error (unexpected next)

end Ending

def readText : Option String → Read String
  | some s => .ok s
  | none => .error .malformed

def readNumeral (n : Numeral) : Read Json :=
  match n.value? with
  | some j => .ok j
  | none => .error .malformed

def describeNumber : Json → Found
  | int n => .int n
  | float x => .float (floatText x)
  | _ => .null

namespace Tree

def wrongKind (wanted : String) : Tree → Read α
  | null => .error (.mismatch (.wrongKind .null wanted))
  | bool b => .error (.mismatch (.wrongKind (.bool b) wanted))
  | number n => do
    let j ← readNumeral n
    .error (.mismatch (.wrongKind (describeNumber j) wanted))
  | string text => do
    let s ← readText text
    .error (.mismatch (.wrongKind (.string s) wanted))
  | missing next => .error (noValue next)
  | noColon => .error .malformed
  | array .. => .error (.mismatch (.wrongKind .sequence wanted))
  | object .. => .error (.mismatch (.wrongKind .map wanted))

def readString : Tree → Read String
  | string text => readText text
  | t => t.wrongKind "a string"

def readBool : Tree → Read Bool
  | bool b => .ok b
  | t => t.wrongKind "a boolean"

/-- A value that `null` leaves out. -/
def readOptional (read : Tree → Read α) : Tree → Read (Option α)
  | null => .ok none
  | t => (read t).map some

def checkLevels : Nat → Read Unit
  | 0 => .error .malformed
  | _ + 1 => .ok ()

def readList (levels : Nat) (read : Tree → Read α) : Tree → Read (List α)
  | array items ending => do
    checkLevels levels
    let values ← items.mapM read
    ending.check
    return values
  | t => t.wrongKind "a sequence"

def readMap (levels : Nat) (read : Tree → Read α) : Tree → Read (List (String × α))
  | object members ending => do
    checkLevels levels
    let values ← members.mapM fun (key, t) => do
      let key ← readText key
      return (key, ← read t)
    ending.check
    return values
  | t => t.wrongKind "a map"

/-- Any value. The members of an object are ordered, and of equal keys the last one stays. -/
def readAny : Nat → Tree → Read Json
  | _, null => .ok .null
  | _, bool b => .ok (.bool b)
  | _, number n => readNumeral n
  | _, string text => (readText text).map .string
  | _, missing next => .error (noValue next)
  | _, noColon => .error .malformed
  | 0, array .. | 0, object .. => .error .malformed
  | levels + 1, array items ending => do
    let values ← items.mapM (readAny levels)
    ending.check
    return .array values
  | levels + 1, object members ending => do
    let values ← members.mapM fun (key, t) => do
      let key ← readText key
      return (key, ← readAny levels t)
    ending.check
    return .object (Keyed.ofList values : Dictionary Json).toList

/-- A word of a fixed choice, written as a string or as an object whose one key is the word and
whose value is `null`. -/
def readChoice (levels : Nat) (choice : List (String × α)) : Tree → Read α
  | string text => do
    let name ← readText text
    pick name
  | object [] ending => do
    checkLevels levels
    ending.check
    .error .malformed
  | object ((key, t) :: rest) ending => do
    checkLevels levels
    let name ← readText key
    let a ← pick name
    match t with
    | null => pure ()
    | t => t.wrongKind "unit"
    match rest, ending with
    | [], .closed => return a
    | [], .afterValue none => .error .ended
    | _, _ => .error .malformed
  | missing none => .error .ended
  | missing (some (.brokenString read _)) => .error read.toError
  | _ => .error .malformed
where
  /-- The value of a word. -/
  pick (name : String) : Read α :=
    match choice.lookup name with
    | some a => .ok a
    | none => .error (.mismatch (.unknownVariant name (choice.map (·.1))))

/-- A choice that `null` leaves out; a text that breaks off inside `null` has ended. -/
def readOptionalChoice (levels : Nat) (choice : List (String × α)) : Tree → Read (Option α)
  | null => .ok none
  | missing (some (.broken 'n' cut)) => .error cut.toError
  | t => (t.readChoice levels choice).map some

mutual

def skip : Tree → Read Unit
  | null | bool _ | number _ | string _ => .ok ()
  | missing next => .error (noSkippedValue next)
  | noColon => .error .malformed
  | array items ending => do
    skipItems items
    ending.skip
  | object members ending => do
    skipMembers members
    ending.skip
termination_by structural t => t

def skipItems : List Tree → Read Unit
  | [] => .ok ()
  | t :: rest => do
    skip t
    skipItems rest
termination_by structural ts => ts

def skipMembers : List (Option String × Tree) → Read Unit
  | [] => .ok ()
  | (_, t) :: rest => do
    skip t
    skipMembers rest
termination_by structural ms => ms

end

end Tree

/-- Reads the members of a record from left to right into a value that collects them. A member
that is known by name occurs at most once. -/
def readMembers (known : List String) (read : σ → String → Tree → Read σ) :
    List String → σ → List (Option String × Tree) → Read σ
  | _, s, [] => .ok s
  | seen, s, (key, t) :: rest => do
    let name ← readText key
    if known.contains name && seen.contains name then
      .error (.mismatch (.duplicateField name))
    else
      let s ← read s name t
      readMembers known read (name :: seen) s rest

def requireField (name : String) : Option α → Read α
  | some a => .ok a
  | none => .error (.mismatch (.missingField name))

/-- Reads a whole text, after which only blanks may follow. -/
def readWhole (read : Nat → Tree → Read α) (s : String) : Read α := do
  let source := Source.ofText s
  let a ← read maxLevels source.tree
  if source.followed then .error .malformed else return a

def ofText (s : String) : Read Json := readWhole Tree.readAny s

end ApiGraph.Json

import ApiGraph.Decimal.Nearest
import ApiGraph.Json.Numeral
import ApiGraph.Toml.Basic
import ApiGraph.Toml.Text

/-!
# Numbers, dates and truth values of a TOML text

Each reader is given the text at the start of the value. What four digits and a
hyphen begin is a date, and what two digits and a colon begin is a time of day; only
the shape and the ranges of dates and times are checked, because nothing here asks
for their contents.
-/

namespace ApiGraph.Toml

def digits (isDigit : Char → Bool) : List Char → Parsed (List Char)
  | [] => none
  | c :: '_' :: rest => if isDigit c then (digits isDigit rest).cons c else none
  | c :: rest =>
    if isDigit c then
      match rest with
      | [] => some ([c], [])
      | d :: _ => if isDigit d then (digits isDigit rest).cons c else some ([c], rest)
    else none

def signed (negative : Bool) (n : Nat) : Int := if negative then -(n : Int) else n

/-- An integer, if 64 bits can hold it. -/
def intValue? (n : Int) : Option Value :=
  if Json.isSigned64 n then some (.int n) else none

/-- The double that digits with a point and an exponent spell. Too large a positive number has
none. -/
def floatValue? (negative : Bool) (m : Nat) (e : Int) : Option Value :=
  match Decimal.nearestFloat? m e with
  | some x => some (.float (Json.withSign negative x))
  | none => if negative then some (.float (-1 / 0)) else none

/-- The digits before the point; a leading zero stands alone. -/
def wholeDigits (cs : List Char) : Parsed (List Char) :=
  match cs with
  | '0' :: rest => some (['0'], rest)
  | _ => digits Char.isDigit cs

def fraction (cs : List Char) : Parsed (Option (List Char)) :=
  match cs with
  | '.' :: rest => (digits Char.isDigit rest).map fun (ds, rest) => (some ds, rest)
  | _ => some (none, cs)

def exponent (cs : List Char) : Parsed (Option Int) :=
  match cs with
  | [] => some (none, cs)
  | c :: rest =>
    if c = 'e' ∨ c = 'E' then
      let (negative, rest) :=
        match rest with
        | '-' :: rest => (true, rest)
        | '+' :: rest => (false, rest)
        | _ => (false, rest)
      (digits Char.isDigit rest).map fun (ds, rest) =>
        (some (signed negative (Json.digitsValue ds)), rest)
    else some (none, cs)

def decimalNumber (negative : Bool) (cs : List Char) : Option (Value × List Char) :=
  match cs with
  | 'i' :: 'n' :: 'f' :: rest => some (.float (if negative then -1 / 0 else 1 / 0), rest)
  | 'n' :: 'a' :: 'n' :: rest => some (.float (0 / 0), rest)
  | _ => do
    let (whole, cs) ← wholeDigits cs
    let (places, cs) ← fraction cs
    let (power, cs) ← exponent cs
    match places, power with
    | none, none =>
      let v ← intValue? (signed negative (Json.digitsValue whole))
      return (v, cs)
    | _, _ =>
      let places := places.getD []
      let v ← floatValue? negative (Json.digitsValue (whole ++ places))
        (power.getD 0 - places.length)
      return (v, cs)

def basedNumber (base : Nat) (cs : List Char) : Option (Value × List Char) := do
  let isDigit := fun c =>
    match Text.hexValue? c with
    | some d => d < base
    | none => false
  let (ds, rest) ← digits isDigit cs
  let v ← intValue? (ds.foldl (fun n c => base * n + (Text.hexValue? c).getD 0) 0)
  return (v, rest)

def number : List Char → Parsed Value
  | '0' :: 'x' :: rest => basedNumber 16 rest
  | '0' :: 'o' :: rest => basedNumber 8 rest
  | '0' :: 'b' :: rest => basedNumber 2 rest
  | '+' :: rest => decimalNumber false rest
  | '-' :: rest => decimalNumber true rest
  | cs => decimalNumber false cs

def twoDigits? (a b : Char) : Option Nat :=
  if a.isDigit && b.isDigit then some (Json.digitsValue [a, b]) else none

def daysOfMonth (year month : Nat) : Nat :=
  if month = 2 then
    if year % 4 = 0 ∧ (year % 100 ≠ 0 ∨ year % 400 = 0) then 29 else 28
  else if month = 4 ∨ month = 6 ∨ month = 9 ∨ month = 11 then 30
  else 31

def startsDate : List Char → Bool
  | a :: b :: c :: d :: '-' :: _ => a.isDigit && b.isDigit && c.isDigit && d.isDigit
  | _ => false

def startsTime : List Char → Bool
  | a :: b :: ':' :: _ => a.isDigit && b.isDigit
  | _ => false

def afterDate : List Char → Option (List Char)
  | a :: b :: c :: d :: '-' :: e :: f :: '-' :: g :: h :: rest => do
    let month ← twoDigits? e f
    let day ← twoDigits? g h
    if 1 ≤ month ∧ month ≤ 12 ∧ 1 ≤ day ∧
        day ≤ daysOfMonth (Json.digitsValue [a, b, c, d]) month then some rest
    else none
  | _ => none

def afterSecondFraction : List Char → Option (List Char)
  | '.' :: rest =>
    match rest.takeWhile Char.isDigit with
    | [] => none
    | _ => some (rest.dropWhile Char.isDigit)
  | cs => some cs

def afterTime : List Char → Option (List Char)
  | a :: b :: ':' :: c :: d :: ':' :: e :: f :: rest => do
    let hour ← twoDigits? a b
    let minute ← twoDigits? c d
    let second ← twoDigits? e f
    if hour < 24 ∧ minute < 60 ∧ second ≤ 60 then afterSecondFraction rest else none
  | _ => none

def afterOffset : List Char → Option (List Char)
  | 'Z' :: rest | 'z' :: rest => some rest
  | sign :: a :: b :: ':' :: c :: d :: rest =>
    if sign = '+' ∨ sign = '-' then do
      let hour ← twoDigits? a b
      let minute ← twoDigits? c d
      if hour < 24 ∧ minute < 60 then some rest else none
    else some (sign :: a :: b :: ':' :: c :: d :: rest)
  | cs => some cs

def date (cs : List Char) : Option (Value × List Char) := do
  let rest ← afterDate cs
  match rest with
  | c :: time =>
    if (c = 'T' ∨ c = 't' ∨ c = ' ') ∧ startsTime time then
      return (.datetime, ← afterOffset (← afterTime time))
    else return (.datetime, rest)
  | [] => return (.datetime, [])

def dateOrNumber (cs : List Char) : Parsed Value :=
  if startsDate cs then date cs
  else if startsTime cs then (afterTime cs).map fun rest => (.datetime, rest)
  else number cs

end ApiGraph.Toml

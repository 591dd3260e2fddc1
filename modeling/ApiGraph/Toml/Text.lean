import ApiGraph.Text.Hexadecimal

/-!
# Strings of a TOML text

The four kinds of string: basic ones with escapes and literal ones without, each on a
single line or between triple quotes. A string between triple quotes loses a line
break right after its opening, keeps one or two quotes right before its end, and has
all its line breaks written as line feeds; a backslash at the end of a line removes
the blanks and line breaks that follow. Each reader is given the text after the
opening quotes and yields the characters and the text after the closing ones.
-/

namespace ApiGraph.Toml

abbrev Parsed (α : Type) := Option (α × List Char)

def isSpace (c : Char) : Bool := c = ' ' || c = '\t'

/-- The characters that may stand in a comment, and, quotes and backslashes apart, in a string for
themselves. -/
def isPlain (c : Char) : Bool := c = '\t' || (32 ≤ c.toNat && c.toNat ≠ 127)

def Parsed.cons (c : Char) (p : Parsed (List Char)) : Parsed (List Char) :=
  p.map fun (cs, rest) => (c :: cs, rest)

def Parsed.consIf (c : Option Char) (p : Parsed (List Char)) : Parsed (List Char) :=
  c.bind p.cons

def hexChar? (digits : List Char) : Option Char :=
  (Text.hexNumber? 0 digits).bind fun n =>
    if n < 0xD800 ∨ (0xE000 ≤ n ∧ n < 0x110000) then some (Char.ofNat n) else none

def escapedChar? (c : Char) : Option Char :=
  if c = 'b' then some '\x08'
  else if c = 't' then some '\t'
  else if c = 'n' then some '\n'
  else if c = 'f' then some '\x0c'
  else if c = 'r' then some '\r'
  else if c = '"' then some '"'
  else if c = '\\' then some '\\'
  else none

def basicString : List Char → Parsed (List Char)
  | [] => none
  | '"' :: rest => some ([], rest)
  | '\\' :: 'u' :: a :: b :: c :: d :: rest =>
    (basicString rest).consIf (hexChar? [a, b, c, d])
  | '\\' :: 'U' :: a :: b :: c :: d :: e :: f :: g :: h :: rest =>
    (basicString rest).consIf (hexChar? [a, b, c, d, e, f, g, h])
  | '\\' :: e :: rest => (basicString rest).consIf (escapedChar? e)
  | c :: rest => if isPlain c ∧ c ≠ '\\' then (basicString rest).cons c else none

def literalString : List Char → Parsed (List Char)
  | [] => none
  | '\'' :: rest => some ([], rest)
  | c :: rest => if isPlain c then (literalString rest).cons c else none

/-- Whether only blanks stand before the end of the line. -/
def atLineEnd (cs : List Char) : Bool :=
  match cs.dropWhile isSpace with
  | '\n' :: _ | '\r' :: '\n' :: _ => true
  | _ => false

/-- A basic string over several lines; `trimming` drops blanks and line breaks. -/
def basicLines (trimming : Bool) : List Char → Parsed (List Char)
  | [] => none
  | '"' :: '"' :: '"' :: '"' :: '"' :: rest => some (['"', '"'], rest)
  | '"' :: '"' :: '"' :: '"' :: rest => some (['"'], rest)
  | '"' :: '"' :: '"' :: rest => some ([], rest)
  | '\r' :: '\n' :: rest =>
    if trimming then basicLines true rest else (basicLines false rest).cons '\n'
  | '\n' :: rest => if trimming then basicLines true rest else (basicLines false rest).cons '\n'
  | '\\' :: 'u' :: a :: b :: c :: d :: rest =>
    (basicLines false rest).consIf (hexChar? [a, b, c, d])
  | '\\' :: 'U' :: a :: b :: c :: d :: e :: f :: g :: h :: rest =>
    (basicLines false rest).consIf (hexChar? [a, b, c, d, e, f, g, h])
  | '\\' :: e :: rest =>
    if atLineEnd (e :: rest) then
      match e, rest with
      | '\r', '\n' :: rest => basicLines true rest
      | _, rest => basicLines true rest
    else (basicLines false rest).consIf (escapedChar? e)
  | c :: rest =>
    if trimming ∧ isSpace c then basicLines true rest
    else if isPlain c ∧ c ≠ '\\' then (basicLines false rest).cons c
    else none

def literalLines : List Char → Parsed (List Char)
  | [] => none
  | '\'' :: '\'' :: '\'' :: '\'' :: '\'' :: rest => some (['\'', '\''], rest)
  | '\'' :: '\'' :: '\'' :: '\'' :: rest => some (['\''], rest)
  | '\'' :: '\'' :: '\'' :: rest => some ([], rest)
  | '\r' :: '\n' :: rest => (literalLines rest).cons '\n'
  | '\n' :: rest => (literalLines rest).cons '\n'
  | c :: rest => if isPlain c then (literalLines rest).cons c else none

def dropLineBreak : List Char → List Char
  | '\r' :: '\n' :: rest | '\n' :: rest => rest
  | cs => cs

def anyString : List Char → Parsed (List Char)
  | '"' :: '"' :: '"' :: rest => basicLines false (dropLineBreak rest)
  | '"' :: rest => basicString rest
  | '\'' :: '\'' :: '\'' :: rest => literalLines (dropLineBreak rest)
  | '\'' :: rest => literalString rest
  | _ => none

end ApiGraph.Toml

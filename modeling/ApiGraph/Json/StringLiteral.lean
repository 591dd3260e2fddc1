import ApiGraph.Text.Hexadecimal

/-!
# String literals

A string literal is read in two steps. `scanPieces` splits what follows the opening
quote into pieces, each a character or the code unit of a `\u` escape, up to the
closing quote or to the first thing that is no piece. `join` then puts the pieces
together: two surrogate units in their order make one character, a surrogate on
its own makes the literal unreadable.

A literal whose text nobody asks for only has to be split. That is why the two
steps are apart, and why a text that breaks off keeps both of its reasons:
`Cut.ended` for an end of the text and `Cut.malformed` for a wrong character.
-/

namespace ApiGraph.Json

inductive Cut where
  /-- The text is over. -/
  | ended
  /-- The text goes on with something that cannot stand there. -/
  | malformed
  deriving DecidableEq

inductive Piece where
  | char (c : Char)
  /-- The UTF-16 code unit of an escape. -/
  | codeUnit (n : Nat)
  deriving DecidableEq

structure Scan where
  pieces : List Piece
  rest : Except Cut (List Char)

def Scan.cons (p : Piece) (s : Scan) : Scan := ⟨p :: s.pieces, s.rest⟩

def escapedChar? (c : Char) : Option Char :=
  if c = '"' then some '"'
  else if c = '\\' then some '\\'
  else if c = '/' then some '/'
  else if c = 'b' then some '\x08'
  else if c = 'f' then some '\x0c'
  else if c = 'n' then some '\n'
  else if c = 'r' then some '\r'
  else if c = 't' then some '\t'
  else none

/-- Whether a text has fewer than four bytes left. -/
def nearEnd (cs : List Char) : Bool := (cs.take 4).foldl (fun n c => n + c.utf8Size) 0 < 4

/-- Splits what follows an opening quote into pieces. -/
def scanPieces : List Char → Scan
  | [] => ⟨[], .error .ended⟩
  | '"' :: rest => ⟨[], .ok rest⟩
  | ['\\'] => ⟨[], .error .ended⟩
  | '\\' :: 'u' :: rest =>
    if nearEnd rest then ⟨[], .error .ended⟩
    else
      match rest with
      | a :: b :: c :: d :: rest =>
        match Text.hexNumber? 0 [a, b, c, d] with
        | some n => (scanPieces rest).cons (.codeUnit n)
        | none => ⟨[], .error .malformed⟩
      | _ => ⟨[], .error .malformed⟩
  | '\\' :: e :: rest =>
    match escapedChar? e with
    | some c => (scanPieces rest).cons (.char c)
    | none => ⟨[], .error .malformed⟩
  | c :: rest =>
    if c.toNat < 32 then ⟨[], .error .malformed⟩ else (scanPieces rest).cons (.char c)

inductive Joined where
  /-- A text. -/
  | text (cs : List Char)
  /-- A text that breaks off between two surrogates. -/
  | open
  /-- A surrogate on its own. -/
  | lone

def Joined.cons (c : Char) : Joined → Joined
  | .text cs => .text (c :: cs)
  | other => other

def isHighSurrogate (n : Nat) : Bool := 0xD800 ≤ n && n < 0xDC00

def isLowSurrogate (n : Nat) : Bool := 0xDC00 ≤ n && n < 0xE000

def join : List Piece → Joined
  | [] => .text []
  | .char c :: rest => (join rest).cons c
  | .codeUnit n :: rest =>
    if isLowSurrogate n then .lone
    else if isHighSurrogate n then
      match rest with
      | [] => .open
      | .codeUnit m :: rest =>
        if isLowSurrogate m then
          (join rest).cons (Char.ofNat (0x10000 + (n - 0xD800) * 0x400 + (m - 0xDC00)))
        else .lone
      | .char _ :: _ => .lone
    else (join rest).cons (Char.ofNat n)

theorem scanPieces_length {cs rest : List Char} (h : (scanPieces cs).rest = .ok rest) :
    rest.length < cs.length := by
  fun_induction scanPieces cs <;> simp_all [Scan.cons] <;> omega

end ApiGraph.Json

import ApiGraph.Json.Token

/-!
# Trees of a JSON text

`Tree.ofText` turns any text into a tree, also one that is no JSON: the tree then
shows everything up to the first place where the text cannot be read on, and at that
place says what was met. A reader that walks through the tree in text order
therefore meets its own objections and those of the grammar in the order of the
text.

A tree is built by feeding tokens one at a time to a `Builder`, which holds the
containers that are still open, so the construction is a fold over the tokens.
-/

namespace ApiGraph.Json

inductive Ending where
  /-- By its closing bracket. -/
  | closed
  /-- Neither a comma nor the closing bracket stands after a value; `none` is the end of the
  text. -/
  | afterValue (next : Option Token)
  /-- No key stands where one is due, at the start of an object or after a comma. -/
  | atKey (next : Option Token)

/-- A JSON text up to the first place where it cannot be read on. -/
inductive Tree where
  | null
  | bool (b : Bool)
  | number (n : Numeral)
  /-- A string; `none` when it holds a surrogate on its own. -/
  | string (text : Option String)
  /-- No value stands here; `none` is the end of the text. -/
  | missing (next : Option Token)
  /-- Something else stands in the place of the colon in front of the value. -/
  | noColon
  | array (items : List Tree) (ending : Ending)
  /-- An object; a key is `none` when it holds a surrogate on its own. -/
  | object (members : List (Option String × Tree)) (ending : Ending)

/-- A container that waits for a value inside it, with what it holds already, the latest first. -/
inductive Frame where
  | array (items : List Tree)
  | object (members : List (Option String × Tree)) (key : Option String)

/-- What is due next in the innermost open container. -/
inductive Due where
  /-- A value for the innermost frame, or the whole text when there is none. -/
  | value
  /-- The first item of an array or its end. -/
  | firstItem
  /-- A comma or the end of an array. -/
  | afterItem (items : List Tree)
  /-- The first key of an object or its end. -/
  | firstKey
  /-- A key. -/
  | key (members : List (Option String × Tree))
  /-- The colon after a key. -/
  | colon (members : List (Option String × Tree)) (key : Option String)
  /-- A comma or the end of an object. -/
  | afterMember (members : List (Option String × Tree))

inductive Builder where
  /-- In the middle of the text, with the open containers from the inside out. -/
  | reading (frames : List Frame) (due : Due)
  /-- The value is complete, and nothing has followed. -/
  | whole (t : Tree)
  /-- The value is complete, and more follows it. -/
  | followed (t : Tree)
  /-- The text cannot be read on. -/
  | stopped (t : Tree)

namespace Builder

/-- The tree around a place where the text cannot be read on. -/
def unwind (t : Tree) : List Frame → Tree
  | [] => t
  | .array items :: frames => unwind (.array (t :: items).reverse (.afterValue none)) frames
  | .object members key :: frames =>
    unwind (.object ((key, t) :: members).reverse (.afterValue none)) frames

def complete (t : Tree) : List Frame → Builder
  | [] => whole t
  | .array items :: frames => reading frames (.afterItem (t :: items))
  | .object members key :: frames => reading frames (.afterMember ((key, t) :: members))

def onValue (frames : List Frame) : Token → Builder
  | .null => complete .null frames
  | .bool b => complete (.bool b) frames
  | .number n => complete (.number n) frames
  | .string text => complete (.string text) frames
  | .openArray => reading frames .firstItem
  | .openObject => reading frames .firstKey
  | t => stopped (unwind (.missing (some t)) frames)

def onKey (frames : List Frame) (members : List (Option String × Tree)) : Token → Builder
  | .string text => reading frames (.colon members text)
  | t => stopped (unwind (.object members.reverse (.atKey (some t))) frames)

def step : Builder → Token → Builder
  | reading frames .value, t => onValue frames t
  | reading frames .firstItem, .closeArray => complete (.array [] .closed) frames
  | reading frames .firstItem, t => onValue (.array [] :: frames) t
  | reading frames (.afterItem items), .comma => reading (.array items :: frames) .value
  | reading frames (.afterItem items), .closeArray =>
    complete (.array items.reverse .closed) frames
  | reading frames (.afterItem items), t =>
    stopped (unwind (.array items.reverse (.afterValue (some t))) frames)
  | reading frames .firstKey, .closeObject => complete (.object [] .closed) frames
  | reading frames .firstKey, t => onKey frames [] t
  | reading frames (.key members), t => onKey frames members t
  | reading frames (.colon members key), .colon =>
    reading (.object members key :: frames) .value
  | reading frames (.colon members key), _ =>
    stopped (unwind .noColon (.object members key :: frames))
  | reading frames (.afterMember members), .comma => reading frames (.key members)
  | reading frames (.afterMember members), .closeObject =>
    complete (.object members.reverse .closed) frames
  | reading frames (.afterMember members), t =>
    stopped (unwind (.object members.reverse (.afterValue (some t))) frames)
  | whole t, _ => followed t
  | followed t, _ => followed t
  | stopped t, _ => stopped t

def finish : Builder → Tree
  | reading frames .value => unwind (.missing none) frames
  | reading frames .firstItem => unwind (.array [] (.afterValue none)) frames
  | reading frames (.afterItem items) =>
    unwind (.array items.reverse (.afterValue none)) frames
  | reading frames .firstKey => unwind (.object [] (.atKey none)) frames
  | reading frames (.key members) => unwind (.object members.reverse (.atKey none)) frames
  | reading frames (.colon members key) =>
    unwind (.missing none) (.object members key :: frames)
  | reading frames (.afterMember members) =>
    unwind (.object members.reverse (.afterValue none)) frames
  | whole t | followed t | stopped t => t

end Builder

structure Source where
  tree : Tree
  followed : Bool

def Source.ofTokens (ts : List Token) : Source :=
  let b := ts.foldl Builder.step (.reading [] .value)
  { tree := b.finish
    followed := match b with
      | .followed _ => true
      | _ => false }

def Source.ofText (s : String) : Source := Source.ofTokens (Token.ofText s)

end ApiGraph.Json

/-!
# Single-quoted literals

`escape` makes a text safe inside single quotes: a double quote is dropped, a
single quote is doubled, and a line break or tab becomes a blank. `literal` adds
the quotes.
-/

namespace ApiGraph.Text

def escapeChar (c : Char) : List Char :=
  if c = '"' then []
  else if c = '\'' then ['\'', '\'']
  else if c = '\n' ∨ c = '\r' ∨ c = '\t' then [' ']
  else [c]

def escapeChars : List Char → List Char
  | [] => []
  | c :: rest => escapeChar c ++ escapeChars rest

@[simp] theorem escapeChars_nil : escapeChars [] = [] := rfl

@[simp] theorem escapeChars_cons (c : Char) (rest : List Char) :
    escapeChars (c :: rest) = escapeChar c ++ escapeChars rest := rfl

def escape (s : String) : String := String.ofList (escapeChars s.toList)

def literal (s : String) : String := "'" ++ escape s ++ "'"

end ApiGraph.Text

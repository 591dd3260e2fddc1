import ApiGraph.DefaultValue
import ApiGraph.Operation.Example
import Mathlib.Algebra.Group.Nat.Even

/-!
# Reading literals back

A text is put between single quotes in two places: in the assignment of a default and in the
example of a parameter. `flatten` is what a literal keeps of a text, and `readLiteral` reads a
literal from the front of a list of characters, up to the first quote that is not doubled.

Main statement: whatever the text, its literal reads back as what `flatten` keeps of it and ends
where it should, in both places, also within the form of a container. All of it follows from the
three things that can become of a character, `escapeChar_cases`.
-/

namespace ApiGraph

namespace Text

def blankOut (c : Char) : Char := if c = '\n' ∨ c = '\r' ∨ c = '\t' then ' ' else c

def flattenChars (cs : List Char) : List Char := (cs.filter (· ≠ '"')).map blankOut

/-- The text without its double quotes, and with a blank for each line break and tab. -/
def flatten (s : String) : String := String.ofList (flattenChars s.toList)

/-- Each doubled single quote as one, from left to right. -/
def collapse : List Char → List Char
  | '\'' :: '\'' :: cs => '\'' :: collapse cs
  | c :: cs => c :: collapse cs
  | [] => []

/-- Single quotes that stand together, with none before and none behind them, are even in
number. -/
def EvenRuns (cs : List Char) : Prop :=
  ∀ before n after, cs = before ++ List.replicate n '\'' ++ after →
    before.getLast? ≠ some '\'' → after.head? ≠ some '\'' → Even n

/-- Reads the inside of a literal and the quote that closes it, which is not doubled. -/
def readInside : List Char → Option (List Char × List Char)
  | [] => none
  | '\'' :: '\'' :: cs => (readInside cs).map fun (inside, rest) => ('\'' :: inside, rest)
  | '\'' :: cs => some ([], cs)
  | c :: cs => (readInside cs).map fun (inside, rest) => (c :: inside, rest)

/-- Reads a literal from the front, and answers with the text that it stands for and the rest. -/
def readLiteral : List Char → Option (List Char × List Char)
  | '\'' :: cs => readInside cs
  | _ => none

/-- Between `opening` and `closing` stands one literal and nothing else, and it reads as `value`,
by itself and in its place. -/
def Encloses (opening closing value s : String) : Prop :=
  ∃ quoted, s = opening ++ quoted ++ closing ∧
    readLiteral quoted.toList = some (value.toList, []) ∧
      readLiteral (quoted ++ closing).toList = some (value.toList, closing.toList)

/-! ## Characters -/

/-- A double quote leaves nothing, a single quote is doubled, and of anything else there is one
character left, which has no meaning in a literal. -/
theorem escapeChar_cases (c : Char) :
    (c = '"' ∧ escapeChar c = []) ∨ (c = '\'' ∧ escapeChar c = ['\'', '\'']) ∨
      (c ≠ '"' ∧ escapeChar c = [blankOut c] ∧ blankOut c ≠ '\'' ∧
        blankOut c ∉ ['"', '\n', '\r', '\t']) := by
  unfold escapeChar blankOut
  by_cases hdouble : c = '"'
  · simp [hdouble]
  · by_cases hsingle : c = '\''
    · simp [hsingle]
    · by_cases hblank : c = '\n' ∨ c = '\r' ∨ c = '\t'
      · simp [hdouble, hsingle, hblank]
      · simp only [hdouble, hsingle, hblank, if_false, false_and, false_or, true_and, ne_eq,
          not_false_eq_true]
        simp only [not_or] at hblank
        simp [hdouble, hblank]

theorem flattenChars_cons (c : Char) (cs : List Char) :
    flattenChars (c :: cs) =
      if c = '"' then flattenChars cs else blankOut c :: flattenChars cs := by
  unfold flattenChars
  by_cases h : c = '"' <;> simp [h]

theorem collapse_cons {c : Char} (h : c ≠ '\'') (cs : List Char) :
    collapse (c :: cs) = c :: collapse cs := by
  rw [collapse]
  exact fun _ heq => absurd heq h

theorem readInside_cons {c : Char} (h : c ≠ '\'') (cs : List Char) :
    readInside (c :: cs) = (readInside cs).map fun (inside, rest) => (c :: inside, rest) := by
  rw [readInside]
  · exact fun _ heq => absurd heq h
  · exact fun heq => absurd heq h

theorem readInside_closing {rest : List Char} (h : rest.head? ≠ some '\'') :
    readInside ('\'' :: rest) = some ([], rest) := by
  cases rest with
  | nil => rfl
  | cons c rest =>
    rw [readInside]
    rintro cs heq
    rw [(List.cons.inj heq).1] at h
    exact h rfl

/-! ## Escaped texts -/

theorem not_mem_escapeChars {d : Char} (hd : d ∈ ['"', '\n', '\r', '\t']) (cs : List Char) :
    d ∉ escapeChars cs := by
  induction cs with
  | nil => exact List.not_mem_nil
  | cons c cs ih =>
    rw [escapeChars_cons, List.mem_append, not_or]
    refine ⟨fun hmem => ?_, ih⟩
    obtain ⟨-, heq⟩ | ⟨-, heq⟩ | ⟨-, heq, -, hplain⟩ := escapeChar_cases c
    · rw [heq] at hmem
      exact List.not_mem_nil hmem
    · rw [heq] at hmem
      have hquote : d = '\'' := by simpa using hmem
      rw [hquote] at hd
      exact absurd hd (by decide)
    · rw [heq, List.mem_singleton] at hmem
      exact hplain (hmem ▸ hd)

/-- Single quotes occur in pairs, and the pairs can be told from left to right. -/
inductive Paired : List Char → Prop
  | nil : Paired []
  | pair {cs : List Char} (rest : Paired cs) : Paired ('\'' :: '\'' :: cs)
  | other {c : Char} {cs : List Char} (ne : c ≠ '\'') (rest : Paired cs) : Paired (c :: cs)

theorem paired_escapeChars (cs : List Char) : Paired (escapeChars cs) := by
  induction cs with
  | nil => exact .nil
  | cons c cs ih =>
    rw [escapeChars_cons]
    obtain ⟨-, heq⟩ | ⟨-, heq⟩ | ⟨-, heq, hne, -⟩ := escapeChar_cases c
    · rw [heq]
      exact ih
    · rw [heq]
      exact .pair ih
    · rw [heq]
      exact .other hne ih

theorem getLast?_ne_of_cons {c d : Char} {cs : List Char} (h : (c :: cs).getLast? ≠ some d) :
    cs.getLast? ≠ some d := by
  cases cs with
  | nil => simp
  | cons e cs => simpa using h

/-- A run that begins in the middle of a pair would have a quote before it. -/
theorem Paired.evenRuns {cs : List Char} (h : Paired cs) : EvenRuns cs := by
  induction h with
  | nil =>
    intro before n after heq _ _
    have hlength := congrArg List.length heq
    simp only [List.length_nil, List.length_append, List.length_replicate] at hlength
    have hn : n = 0 := by omega
    exact hn ▸ Even.zero
  | @other c cs ne _ ih =>
    intro before n after heq hbefore hafter
    cases before with
    | nil =>
      cases n with
      | zero => exact Even.zero
      | succ n => exact absurd (List.cons.inj heq).1 ne
    | cons b before =>
      exact ih before n after (List.cons.inj heq).2 (getLast?_ne_of_cons hbefore) hafter
  | @pair cs _ ih =>
    intro before n after heq hbefore hafter
    match before with
    | [] =>
      match n with
      | 0 => exact Even.zero
      | 1 =>
        have hrest : '\'' :: cs = after := (List.cons.inj heq).2
        rw [← hrest] at hafter
        exact absurd rfl hafter
      | n + 2 =>
        have hrest : cs = List.replicate n '\'' ++ after := (List.cons.inj (List.cons.inj heq).2).2
        exact (ih [] n after hrest (by simp) hafter).add (by decide)
    | [b] =>
      rw [← (List.cons.inj heq).1] at hbefore
      exact absurd rfl hbefore
    | b :: b' :: before =>
      exact ih before n after (List.cons.inj (List.cons.inj heq).2).2
        (getLast?_ne_of_cons (getLast?_ne_of_cons hbefore)) hafter

theorem collapse_escapeChars (cs : List Char) : collapse (escapeChars cs) = flattenChars cs := by
  induction cs with
  | nil => rfl
  | cons c cs ih =>
    rw [escapeChars_cons, flattenChars_cons]
    obtain ⟨hc, heq⟩ | ⟨rfl, heq⟩ | ⟨hc, heq, hne, -⟩ := escapeChar_cases c
    · rw [heq, if_pos hc]
      exact ih
    · rw [heq]
      exact congrArg ('\'' :: ·) ih
    · rw [heq, if_neg hc, List.singleton_append, collapse_cons hne, ih]

/-- Reading stops at the quote that closes, unless another quote follows. -/
theorem readInside_escapeChars (cs : List Char) {rest : List Char}
    (h : rest.head? ≠ some '\'') :
    readInside (escapeChars cs ++ '\'' :: rest) = some (flattenChars cs, rest) := by
  induction cs with
  | nil => exact readInside_closing h
  | cons c cs ih =>
    rw [escapeChars_cons, flattenChars_cons]
    obtain ⟨hc, heq⟩ | ⟨rfl, heq⟩ | ⟨hc, heq, hne, -⟩ := escapeChar_cases c
    · rw [heq, if_pos hc]
      exact ih
    · rw [heq]
      change (readInside (escapeChars cs ++ '\'' :: rest)).map _ = _
      rw [ih]
      rfl
    · rw [heq, if_neg hc, List.singleton_append, List.cons_append, readInside_cons hne, ih]
      rfl

theorem readLiteral_literal (s : String) {rest : List Char} (h : rest.head? ≠ some '\'') :
    readLiteral ((literal s).toList ++ rest) = some ((flatten s).toList, rest) := by
  have hread := readInside_escapeChars s.toList h
  simpa [literal, escape, flatten, readLiteral] using hread

theorem encloses_literal (opening closing s : String) (h : closing.toList.head? ≠ some '\'') :
    Encloses opening closing (flatten s) (opening ++ literal s ++ closing) := by
  refine ⟨literal s, rfl, ?_, ?_⟩
  · rw [← List.append_nil (literal s).toList]
    exact readLiteral_literal s (by simp)
  · rw [String.toList_append]
    exact readLiteral_literal s h

end Text

open Text

/-! ## Defaults and examples -/

def Parameter.exampleOpening (p : Parameter) : String :=
  if p.isArray then "ListContainerExample["
  else if p.isMap then "MapContainerExample\x7b'key': "
  else ""

def Parameter.exampleClosing (p : Parameter) : String :=
  if p.isArray then "]" else if p.isMap then "\x7d" else ""

theorem Parameter.wrapExample_eq (p : Parameter) (s : String) :
    p.wrapExample s = p.exampleOpening ++ s ++ p.exampleClosing := by
  unfold wrapExample exampleOpening exampleClosing
  split
  · rfl
  · split <;> simp

theorem Parameter.head?_exampleClosing (p : Parameter) :
    p.exampleClosing.toList.head? ≠ some '\'' := by
  unfold exampleClosing
  split
  · decide
  · split <;> decide

/-- The type of the schema is one whose defaults are not written. -/
def Schema.IsDated (s : Schema) : Prop :=
  Scalar.ofSchema? s = some .date ∨ Scalar.ofSchema? s = some .dateTime

theorem Schema.defaultSuffix_of_isDated {s : Schema} (h : s.IsDated) : s.defaultSuffix = "" := by
  unfold defaultSuffix
  rcases h with h | h <;> rw [h]

theorem Schema.defaultSuffix_of_string {s : Schema} {text : String} (h : ¬ s.IsDated)
    (htext : s.defaultValue = some (.string text)) :
    s.defaultSuffix = " = " ++ literal text := by
  unfold IsDated at h
  unfold defaultSuffix
  rw [htext]
  split
  · exact absurd (.inl ‹_›) h
  · exact absurd (.inr ‹_›) h
  · rfl

theorem Parameter.exampleText_of_string {p : Parameter} (h : p.dataType = .primitive .string) :
    p.exampleText = p.wrapExample (literal (p.declared.getD "Example string")) := by
  unfold exampleText exampleLiteral?
  rw [h]
  rfl

/-- Whatever a text contains, its escaped form has nothing in it that has a meaning in a literal
except for single quotes in pairs, and tells what the text was; so the default that is assigned to
a property and the example of a parameter hold exactly one literal of the declared text. -/
theorem Text.escape_recoverable :
    (∀ s : String, (∀ c ∈ ['"', '\n', '\r', '\t'], c ∉ (escape s).toList) ∧
      EvenRuns (escape s).toList ∧ collapse (escape s).toList = (flatten s).toList) ∧
    (∀ (s : Schema) (text : String), s.defaultValue = some (.string text) →
      (s.IsDated → s.defaultSuffix = "") ∧
        (¬ s.IsDated → Encloses " = " "" (flatten text) s.defaultSuffix)) ∧
    ∀ p : Parameter, p.dataType = .primitive .string →
      Encloses p.exampleOpening p.exampleClosing (flatten (p.declared.getD "Example string"))
        p.exampleText := by
  refine ⟨fun s => ?escaped, fun s text htext => ?property, fun p hp => ?parameter⟩
  case escaped =>
    rw [escape, flatten, String.toList_ofList, String.toList_ofList]
    exact ⟨fun c hc => not_mem_escapeChars hc s.toList, (paired_escapeChars s.toList).evenRuns,
      collapse_escapeChars s.toList⟩
  case property =>
    refine ⟨Schema.defaultSuffix_of_isDated, fun hs => ?_⟩
    have h := encloses_literal " = " "" text (by simp)
    rwa [String.append_empty, ← Schema.defaultSuffix_of_string hs htext] at h
  case parameter =>
    rw [Parameter.exampleText_of_string hp, Parameter.wrapExample_eq]
    exact encloses_literal _ _ _ p.head?_exampleClosing

/-- A quote, a double quote and a quote, then a line break. -/
def quotedName : String := "'\"'\n"

theorem Text.escape_quotedName_recoverable :
    EvenRuns (escape quotedName).toList ∧ collapse (escape quotedName).toList = "'' ".toList ∧
      Encloses " = " "" "'' "
        ({ kind := some .string, defaultValue := some (.string quotedName) } :
          Schema).defaultSuffix ∧
      Encloses "MapContainerExample\x7b'key': " "\x7d" "'' "
        ({ Parameter.new "name" (.primitive .string) with
            isMap := true, declaredExample := some quotedName } : Parameter).exampleText := by
  have hflatten : flatten quotedName = "'' " := by decide +kernel
  obtain ⟨hescape, hdefault, hexample⟩ := Text.escape_recoverable
  rw [← hflatten]
  exact ⟨(hescape quotedName).2.1, (hescape quotedName).2.2,
    (hdefault _ quotedName rfl).2 (by simp [Schema.IsDated, Scalar.ofSchema?,
      Scalar.ofStringFormat]), hexample _ rfl⟩

end ApiGraph

import ApiGraph.Proofs.Identifier.Fixed
import Mathlib.Data.List.Perm.Basic

/-!
# Spelling in one pass

A raw name is spelled in eight passes and three repairs, each of them over the whole of what
the one before has left. `onePass` makes the same of a raw name character by character, and
`repairOnce` repairs the outcome once or not at all.

Main statement: both come to the same, whatever the raw name and the role. No pass touches what
another has put in, so that the operators can be spelled out in any order; of the three things
to be repaired a name has one at most, and what a repair makes of it needs no other.
-/

namespace ApiGraph.Identifier

def operatorWord? : Char → Option (List Char)
  | '!' => some ['n', 'o', 't']
  | '=' => some ['e', 'q']
  | '>' => some ['g', 't']
  | '<' => some ['l', 't']
  | '~' => some ['t', 'i', 'l', 'd', 'e']
  | _ => none

/-- What a character that is no spelled-out operator leaves. -/
def spellPlain (c : Char) : List Char :=
  if c = '$' then []
  else if c = '-' ∨ c = '[' ∨ c = '(' ∨ c = '.' ∨ Text.isBlank c then ['_']
  else if c.isAlphanum ∨ c = '_' then [c]
  else []

def spellChar (role : Role) (c : Char) : List Char :=
  match role with
  | .field | .parameter => (operatorWord? c).getD (spellPlain c)
  | .model | .operation | .tag => spellPlain c

/-- The legal characters that a raw name leaves, character by character. -/
def onePass (raw : String) (role : Role) : String :=
  String.ofList (raw.toList.flatMap (spellChar role))

/-- The one repair that a name needs, if it needs any. -/
def repairOnce (role : Role) (name : String) : String :=
  if startsWithDigit name then escape role name
  else if startsWithUnderscore name then "x" ++ name
  else if isReserved name role then escape role name
  else name

/-- What is reported on spelling a raw name: one event at most. -/
def onePassEvents (raw : String) (role : Role) : List Event :=
  let name := onePass raw role
  if name = "" then []
  else if role.isVariable then
    if repairOnce role name = raw then [] else [.variableRenamed raw (repairOnce role name)]
  else if startsWithDigit name then [.leadingDigit role name (escape role name)]
  else if isReserved name role then [.reservedWord role name (escape role name)]
  else []

/-- The passes over a raw name, with the operators spelled out in a given order. -/
def baseInOrder (ops : List (Char × List Char)) (raw : String) (role : Role) : String :=
  let name := replaceChar '$' [] raw.toList
  let spelled := if role.isVariable then replaceAll ops name else name
  String.ofList ((replaceChar '-' ['_'] spelled).filterMap keepLegal?)

/-- A name has one of the three flaws at most, and no flaw once it has been repaired. -/
structure RepairedOnce (role : Role) (name : String) : Prop where
  digit_underscore : ¬ (startsWithDigit name = true ∧ startsWithUnderscore name = true)
  digit_reserved : ¬ (startsWithDigit name = true ∧ isReserved name role = true)
  underscore_reserved : ¬ (startsWithUnderscore name = true ∧ isReserved name role = true)
  startsWithDigit_repairOnce : startsWithDigit (repairOnce role name) = false
  startsWithUnderscore_repairOnce : startsWithUnderscore (repairOnce role name) = false
  isReserved_repairOnce : isReserved (repairOnce role name) role = false

/-! ## The operators -/

/-- Replacements that leave each other's words alone can change places. -/
theorem replaceChar_comm {c d : Char} {v w : List Char} (hcd : c ≠ d) (hv : d ∉ v) (hw : c ∉ w)
    (cs : List Char) :
    replaceChar c v (replaceChar d w cs) = replaceChar d w (replaceChar c v cs) := by
  induction cs with
  | nil => rfl
  | cons x cs ih =>
    rw [replaceChar_cons d, replaceChar_append, ih, replaceChar_cons c v x cs, replaceChar_append]
    congr 1
    -- On one character at most one of the replacements acts, and the other leaves its word.
    by_cases hd : x = d
    · subst hd
      rw [if_pos rfl, if_neg (Ne.symm hcd), replaceChar_of_not_mem hw, replaceChar_cons,
        if_pos rfl, replaceChar_nil, List.append_nil]
    · rw [if_neg hd, replaceChar_cons, replaceChar_nil, List.append_nil]
      by_cases hc : x = c
      · rw [if_pos hc, replaceChar_of_not_mem hv]
      · rw [if_neg hc, replaceChar_cons, if_neg hd, replaceChar_nil, List.append_nil]

/-- No word has an operator in it, so the order of the operators does not matter. -/
theorem replaceAll_perm {ops : List (Char × List Char)} (h : ops.Perm operatorWords)
    (cs : List Char) : replaceAll ops cs = replaceAll operatorWords cs := by
  have hapart : ∀ p ∈ operatorWords, ∀ q ∈ operatorWords, p = q ∨
      p.1 ≠ q.1 ∧ q.1 ∉ p.2 ∧ p.1 ∉ q.2 := by
    decide
  refine h.foldl_eq' (fun p hp q hq name => ?_) cs
  rcases hapart p (h.mem_iff.1 hp) q (h.mem_iff.1 hq) with rfl | ⟨hne, hp', hq'⟩
  · rfl
  · exact replaceChar_comm (Ne.symm hne) hq' hp' name

theorem replaceAll_append (ops : List (Char × List Char)) (cs ds : List Char) :
    replaceAll ops (cs ++ ds) = replaceAll ops cs ++ replaceAll ops ds := by
  induction ops generalizing cs ds with
  | nil => rfl
  | cons p ops ih => rw [replaceAll_cons, replaceChar_append, ih, replaceAll_cons, replaceAll_cons]

theorem replaceAll_operatorWords (cs : List Char) :
    replaceAll operatorWords cs = cs.flatMap fun c => (operatorWord? c).getD [c] := by
  have hsingle : ∀ c, replaceAll operatorWords [c] = (operatorWord? c).getD [c] := by
    intro c
    unfold operatorWord?
    split
    case h_6 hnot hequals hgreater hless htilde =>
      refine replaceAll_of_not_mem ?_
      simp [operatorWords, Ne.symm hnot, Ne.symm hequals, Ne.symm hgreater, Ne.symm hless,
        Ne.symm htilde]
    all_goals rfl
  induction cs with
  | nil => rfl
  | cons c cs ih =>
    rw [← List.singleton_append, replaceAll_append, hsingle, ih]
    rfl

/-! ## The other passes -/

/-- What the last two passes make of a character. -/
def stripChar (c : Char) : List Char := if c = '-' then ['_'] else (keepLegal? c).toList

theorem filterMap_replaceChar (cs : List Char) :
    (replaceChar '-' ['_'] cs).filterMap keepLegal? = cs.flatMap stripChar := by
  rw [replaceChar, List.filterMap_eq_flatMap_toList, List.flatMap_assoc]
  refine List.flatMap_congr fun c _ => ?_
  unfold stripChar
  split
  · decide +kernel
  · exact List.flatMap_singleton _ _

theorem stripChar_eq_spellPlain {c : Char} (h : c ≠ '$') : stripChar c = spellPlain c := by
  unfold stripChar spellPlain keepLegal? isWordChar
  rw [if_neg h]
  by_cases hhyphen : c = '-'
  · rw [if_pos hhyphen, if_pos (.inl hhyphen)]
  · simp only [hhyphen, if_false, false_or, Bool.or_eq_true, decide_eq_true_eq]
    split
    · rfl
    · split <;> rfl

theorem flatMap_stripChar_of_operatorWord? {c : Char} {word : List Char}
    (h : operatorWord? c = some word) : word.flatMap stripChar = word := by
  unfold operatorWord? at h
  split at h <;> cases h <;> decide +kernel

theorem flatMap_stripChar_eq (role : Role) (c : Char) :
    (if c = '$' then [] else [c]).flatMap (fun x =>
      (if role.isVariable then (operatorWord? x).getD [x] else [x]).flatMap stripChar) =
        spellChar role c := by
  by_cases hdollar : c = '$'
  · subst hdollar
    cases role <;> rfl
  · rw [if_neg hdollar, List.flatMap_singleton]
    have hplain : [c].flatMap stripChar = spellPlain c :=
      (List.flatMap_singleton _ _).trans (stripChar_eq_spellPlain hdollar)
    have hvariable : ((operatorWord? c).getD [c]).flatMap stripChar =
        (operatorWord? c).getD (spellPlain c) := by
      cases hword : operatorWord? c with
      | none => exact hplain
      | some word => exact flatMap_stripChar_of_operatorWord? hword
    cases role with
    | field | parameter => exact hvariable
    | model | operation | tag => exact hplain

/-- The passes come to the same as one pass, whatever the order of the operators. -/
theorem baseInOrder_eq_onePass {ops : List (Char × List Char)} (h : ops.Perm operatorWords)
    (raw : String) (role : Role) : baseInOrder ops raw role = onePass raw role := by
  have hspelled : ∀ cs : List Char, (if role.isVariable then replaceAll ops cs else cs) =
      cs.flatMap fun x => if role.isVariable then (operatorWord? x).getD [x] else [x] := by
    intro cs
    split
    · rw [replaceAll_perm h, replaceAll_operatorWords]
    · exact (List.flatMap_singleton' cs).symm
  unfold baseInOrder onePass
  dsimp only
  rw [hspelled, filterMap_replaceChar, replaceChar, List.flatMap_assoc, List.flatMap_assoc]
  exact congrArg String.ofList (List.flatMap_congr fun c _ => flatMap_stripChar_eq role c)

theorem base_eq_onePass (raw : String) (role : Role) : base raw role = onePass raw role :=
  baseInOrder_eq_onePass (List.Perm.refl operatorWords) raw role

/-! ## The repairs -/

theorem startsWithDigit_iff {name : String} :
    startsWithDigit name = true ↔ ∃ c rest, name.toList = c :: rest ∧ c.isDigit = true := by
  unfold startsWithDigit
  split <;> simp_all

theorem startsWithUnderscore_iff {name : String} :
    startsWithUnderscore name = true ↔ ∃ rest, name.toList = '_' :: rest := by
  unfold startsWithUnderscore
  split <;> simp_all

theorem isReserved_of_startsWithDigit {name : String} (h : startsWithDigit name = true)
    (role : Role) : isReserved name role = false := by
  obtain ⟨c, rest, heq, hc⟩ := startsWithDigit_iff.1 h
  exact isReserved_eq_false_of_digit hc (heq ▸ List.mem_cons_self) role

theorem isReserved_of_startsWithUnderscore {name : String} (h : startsWithUnderscore name = true)
    (role : Role) : isReserved name role = false := by
  obtain ⟨rest, heq⟩ := startsWithUnderscore_iff.1 h
  exact isReserved_eq_false_of_underscore (heq ▸ List.mem_cons_self) role

/-- The underscore stays in the name when an `x` is put in front of it. -/
theorem isReserved_x_append {name : String} (h : startsWithUnderscore name = true) (role : Role) :
    isReserved ("x" ++ name) role = false := by
  obtain ⟨rest, heq⟩ := startsWithUnderscore_iff.1 h
  refine isReserved_eq_false_of_underscore ?_ role
  rw [String.toList_append, heq]
  exact List.mem_append_right _ List.mem_cons_self

theorem startsWith_of_isWord {name : String} (h : isWord name.toList = true) :
    startsWithDigit name = false ∧ startsWithUnderscore name = false := by
  refine ⟨(repairDigit_of_isWord .model h).1, ?_⟩
  rw [← Bool.not_eq_true, startsWithUnderscore_iff]
  rintro ⟨rest, heq⟩
  rw [heq] at h
  exact absurd h (by simp [isWord])

/-- What one repair has made does not call for the next. -/
theorem repair_eq_repairOnce (role : Role) {name : String}
    (h : name.toList.all isWordChar = true) : repair role name = repairOnce role name := by
  unfold repair repairOnce repairDigit
  split
  · -- An escaped name starts with a letter and is not reserved in any role.
    rw [repairUnderscore_of_isWord (isWord_escape role h), repairReserved,
      isReserved_escape role role h, if_neg Bool.false_ne_true]
  · unfold repairUnderscore
    split
    · rename_i hunderscore
      rw [repairReserved, isReserved_x_append hunderscore, if_neg Bool.false_ne_true]
    · rfl

theorem repairedOnce_of_all_isWordChar (role : Role) {name : String}
    (h : name.toList.all isWordChar = true) : RepairedOnce role name := by
  have hrepaired : startsWithDigit (repairOnce role name) = false ∧
      startsWithUnderscore (repairOnce role name) = false ∧
        isReserved (repairOnce role name) role = false := by
    by_cases hne : name = ""
    · subst hne
      cases role <;> decide +kernel
    · have hspell : spell name role = some (repairOnce role name) := by
        rw [spell, base_of_all_isWordChar role h, if_neg hne, repair_eq_repairOnce role h]
      obtain ⟨hword, hres⟩ := isWord_of_spell hspell
      obtain ⟨hdigit, hunderscore⟩ := startsWith_of_isWord hword
      exact ⟨hdigit, hunderscore, hres⟩
  obtain ⟨hdigit, hunderscore, hres⟩ := hrepaired
  refine ⟨?_, ?_, ?_, hdigit, hunderscore, hres⟩
  · rintro ⟨h₁, h₂⟩
    obtain ⟨c, rest, heq, hc⟩ := startsWithDigit_iff.1 h₁
    obtain ⟨rest', heq'⟩ := startsWithUnderscore_iff.1 h₂
    rw [heq] at heq'
    cases heq'
    exact absurd hc (by decide)
  · rintro ⟨h₁, h₂⟩
    rw [isReserved_of_startsWithDigit h₁] at h₂
    cases h₂
  · rintro ⟨h₁, h₂⟩
    rw [isReserved_of_startsWithUnderscore h₁] at h₂
    cases h₂

theorem all_onePass (raw : String) (role : Role) :
    (onePass raw role).toList.all isWordChar = true :=
  base_eq_onePass raw role ▸ all_base raw role

theorem spell_eq_onePass (raw : String) (role : Role) :
    spell raw role =
      if onePass raw role = "" then none else some (repairOnce role (onePass raw role)) := by
  rw [spell, base_eq_onePass, repair_eq_repairOnce role (all_onePass raw role)]

theorem repairEvents_eq (role : Role) {name : String} (h : name.toList.all isWordChar = true) :
    repairEvents role name =
      if startsWithDigit name then [.leadingDigit role name (escape role name)]
      else if isReserved name role then [.reservedWord role name (escape role name)]
      else [] := by
  unfold repairEvents repairDigit
  dsimp only
  split
  · rw [repairUnderscore_of_isWord (isWord_escape role h), isReserved_escape role role h,
      if_neg Bool.false_ne_true, List.append_nil]
  · rw [List.nil_append]
    unfold repairUnderscore
    split
    · rename_i hunderscore
      rw [isReserved_x_append hunderscore, isReserved_of_startsWithUnderscore hunderscore,
        if_neg Bool.false_ne_true, if_neg Bool.false_ne_true]
    · rfl

theorem spellEvents_eq_onePassEvents (raw : String) (role : Role) :
    spellEvents raw role = onePassEvents raw role := by
  unfold spellEvents onePassEvents
  rw [spell_eq_onePass, base_eq_onePass, repairEvents_eq role (all_onePass raw role)]
  dsimp only
  by_cases hempty : onePass raw role = ""
  · rw [if_pos hempty, if_pos hempty]
  · rw [if_neg hempty, if_neg hempty]

end ApiGraph.Identifier

namespace ApiGraph.Naming

open Identifier

/-- The only step that can fail is the truncation of the repaired name. -/
theorem trySanitize_eq_do (raw : String) (role : Role) :
    trySanitize raw role = do
      reportAll (onePassEvents raw role)
      if onePass raw role = "" then return none
      else return some (← truncate (repairOnce role (onePass raw role)) "") := by
  unfold trySanitize
  rw [spellEvents_eq_onePassEvents, spell_eq_onePass]
  refine bind_congr fun _ => ?_
  by_cases hempty : onePass raw role = ""
  · rw [if_pos hempty, if_pos hempty]
  · rw [if_neg hempty, if_neg hempty]

/-- One pass over the characters of a raw name leaves what the passes one after the other leave,
the operators spelled out in any order; and in every session a raw name of which nothing is left
has no identifier, while any other is answered by the truncation of what is left, repaired at
most once. -/
theorem trySanitize_eq_onePass (raw : String) (role : Role) :
    base raw role = onePass raw role ∧
    (∀ ops, ops.Perm operatorWords → baseInOrder ops raw role = base raw role) ∧
    (∀ s, (∃ t, trySanitize raw role s = .ok none t) ↔ onePass raw role = "") ∧
    (trySanitize raw role = do
      reportAll (onePassEvents raw role)
      if onePass raw role = "" then return none
      else return some (← truncate (repairOnce role (onePass raw role)) "")) ∧
    RepairedOnce role (onePass raw role) := by
  have heq := trySanitize_eq_do raw role
  refine ⟨base_eq_onePass raw role, fun ops h => ?_, fun s => ?_, heq,
    repairedOnce_of_all_isWordChar role (all_onePass raw role)⟩
  · rw [base_eq_onePass, baseInOrder_eq_onePass h]
  · rw [heq]
    constructor
    · rintro ⟨t, h⟩
      obtain ⟨_, s₁, -, h⟩ := bind_eq_ok_iff.1 h
      split at h
      · assumption
      · obtain ⟨text, s₂, -, h⟩ := bind_eq_ok_iff.1 h
        cases (pure_eq_ok_iff.1 h).1
    · intro hempty
      rw [if_pos hempty]
      exact ⟨_, rfl⟩

theorem trySanitize_comparison_onePass :
    onePass "2<=$x-y" .field = "2lteqx_y" ∧ operatorWords.reverse.Perm operatorWords ∧
      baseInOrder operatorWords.reverse "2<=$x-y" .field = base "2<=$x-y" .field :=
  ⟨by decide +kernel, List.reverse_perm operatorWords,
    (trySanitize_eq_onePass "2<=$x-y" .field).2.1 operatorWords.reverse
      (List.reverse_perm operatorWords)⟩

end ApiGraph.Naming

import ApiGraph.CommandLine.Arguments

/-!
# Spelling arguments

The arguments of `normalize` can be written down in one form in which nothing can be mistaken:
every option with its value attached, then the input where no option can stand.

Main statement: what is written down in this form is read back, so every combination of options
can be asked for.
-/

namespace ApiGraph.CommandLine

def OptionName.word : OptionName → String
  | config => "config"
  | output => "output"
  | packageName => "package-name"

def OptionName.spell (option : OptionName) (value : String) : String :=
  "--" ++ option.word ++ "=" ++ value

/-- The arguments of `normalize`, the options first. -/
def NormalizeArgs.spell (a : NormalizeArgs) : List String :=
  "normalize" :: (a.config.map OptionName.config.spell).toList ++
    (a.output.map OptionName.output.spell).toList ++
    (a.packageName.map OptionName.packageName.spell).toList ++ ["--", a.input]

theorem Argument.ofText_spell (option : OptionName) (value : String) :
    Argument.ofText (option.spell value) = .long option.word (some value) := by
  have hvalue : String.ofList value.toList = value := String.ofList_toList
  cases option <;>
    simp [Argument.ofText, OptionName.spell, OptionName.word, String.toList_append, hvalue]

/-- An option with its value attached is set, if it can be. -/
theorem normalizeArgs_spell (option : OptionName) (value : String) (d : NormalizeDraft)
    (rest : List String) :
    normalizeArgs false d (option.spell value :: rest) =
      (d.set option value).bind fun d => normalizeArgs false d rest := by
  have hlookup : OptionName.long.lookup option.word = some option := by cases option <;> decide
  have hhelp : option.word ≠ "help" := by cases option <;> decide
  rw [normalizeArgs, if_neg (by decide), Argument.ofText_spell]
  split
  case h_5 name given _ heq =>
    obtain ⟨rfl, rfl⟩ := Argument.long.inj heq
    rw [hlookup, Option.bind_eq_bind, Option.bind_some, normalizeArgs.withValue]
    rfl
  all_goals simp_all

theorem NormalizeDraft.set_eq_some {d : NormalizeDraft} {option : OptionName} {value : String}
    (hnew : d.options.lookup option = none) (hvalue : option.isPath = true → value ≠ "") :
    d.set option value = some { d with options := (option, value) :: d.options } := by
  rw [set, if_neg]
  rintro (hset | ⟨hpath, hempty⟩)
  · rw [hnew] at hset
    cases hset
  · exact hvalue hpath (by simpa using hempty)

/-- Options that are not set yet can be set, or left out. -/
theorem normalizeArgs_option {option : OptionName} {value : Option String} {d : NormalizeDraft}
    (hnew : d.options.lookup option = none)
    (hvalue : option.isPath = true → value ≠ some "") (rest : List String) :
    normalizeArgs false d ((value.map option.spell).toList ++ rest) =
      normalizeArgs false
        { d with options := (value.map (option, ·)).toList ++ d.options } rest := by
  cases value with
  | none => rfl
  | some value =>
    have hset := d.set_eq_some hnew fun hpath hempty => hvalue hpath (congrArg some hempty)
    simp only [Option.map_some, Option.toList_some, List.singleton_append]
    rw [normalizeArgs_spell, hset, Option.bind_some]

/-- Arguments that are written down in this form are read back. -/
theorem ofArgs_spell {a : NormalizeArgs} (hinput : a.input ≠ "") (hconfig : a.config ≠ some "")
    (houtput : a.output ≠ some "") : Request.ofArgs a.spell = some (.normalize a) := by
  obtain ⟨input, config, output, packageName⟩ := a
  have hlast (d : NormalizeDraft) (hd : d.input = none) :
      normalizeArgs false d ["--", input] = { d with input := some input }.finish := by
    rw [normalizeArgs, if_neg (by decide), Argument.ofText]
    simp only [normalizeArgs, NormalizeDraft.setInput, hd]
    simp_all
  rw [NormalizeArgs.spell]
  simp only [List.append_assoc, List.cons_append]
  rw [Request.ofArgs, normalizeArgs_option rfl fun _ => hconfig,
    normalizeArgs_option (by cases config <;> rfl) fun _ => houtput,
    normalizeArgs_option (by cases config <;> cases output <;> rfl) (absurd · (by decide)),
    hlast _ rfl]
  cases config <;> cases output <;> cases packageName <;> rfl

end ApiGraph.CommandLine

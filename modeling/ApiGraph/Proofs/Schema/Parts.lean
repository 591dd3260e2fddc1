import ApiGraph.Proofs.Document.Properties
import ApiGraph.Proofs.Json.Members

/-!
# The parts of a schema

Each member of an object says something about one part of the schema: about a field, or about one
extension. `Schema.Part` is what it says, `Schema.set` the schema with it, and `Schema.part?` what
a schema has for a name. One law, `Schema.part?_set`, relates the two, and reading is then a fold:
`Schema.read_object_eq_ok_iff` has the members read one by one and set one after the other.
-/

namespace ApiGraph

open Json

theorem Extensions.get?_eq_map (e : Extensions) (name : String) :
    e.get? name = (e.value? name).map fun value => (name, value) := by
  rw [value?, Option.map_map]
  cases h : e.get? name with
  | none => rfl
  | some p =>
    have hname := (Keyed.get?_eq_some_iff.1 h).2
    rw [Option.map_some, Function.comp_apply, ← hname]

namespace Schema

/-- What one member of an object says about the schema. -/
inductive Part where
  | kind (kind : Option SchemaKind)
  | format (format : Option String)
  | reference (reference : Option String)
  | properties (properties : List (String × Schema))
  | required (names : List String)
  | items (items : Option Schema)
  | additionalProperties (values : Option Schema)
  | oneOf (members : List Schema)
  | enumValues (literals : List EnumLiteral)
  | defaultValue (value : Option Json)
  | exampleValue (value : Option Json)
  | extension (name : String) (value : Json)

def Part.read (levels : Nat) (name : String) (t : Tree) : Read Part :=
  if name = "type" then kind <$> t.readOptionalChoice levels SchemaKind.words
  else if name = "format" then format <$> t.readOptional Tree.readString
  else if name = "$ref" then reference <$> t.readOptional Tree.readString
  else if name = "properties" then
    (fun declared => properties (declared.foldl declare [])) <$>
      t.readMap levels (Schema.read (levels - 1))
  else if name = "required" then required <$> t.readList levels Tree.readString
  else if name = "items" then items <$> t.readOptional (Schema.read levels)
  else if name = "additionalProperties" then
    additionalProperties <$> t.readOptional (Schema.read levels)
  else if name = "oneOf" then oneOf <$> t.readList levels (Schema.read (levels - 1))
  else if name = "enum" then enumValues <$> t.readList levels (EnumLiteral.read (levels - 1))
  else if name = "default" then defaultValue <$> t.readOptional (Tree.readAny levels)
  else if name = "example" then exampleValue <$> t.readOptional (Tree.readAny levels)
  else extension name <$> t.readAny levels

def set (s : Schema) : Part → Schema
  | .kind kind => { s with kind := kind }
  | .format format => { s with format := format }
  | .reference reference => { s with reference := reference }
  | .properties properties => { s with properties := properties }
  | .required names => { s with required := names }
  | .items items => { s with items := items }
  | .additionalProperties values => { s with additionalProperties := values }
  | .oneOf members => { s with oneOf := members }
  | .enumValues literals => { s with enumValues := literals }
  | .defaultValue value => { s with defaultValue := value }
  | .exampleValue value => { s with exampleValue := value }
  | .extension name value => { s with extensions := s.extensions.set name value }

def part? (s : Schema) (name : String) : Option Part :=
  if name = "type" then some (.kind s.kind)
  else if name = "format" then some (.format s.format)
  else if name = "$ref" then some (.reference s.reference)
  else if name = "properties" then some (.properties s.properties)
  else if name = "required" then some (.required s.required)
  else if name = "items" then some (.items s.items)
  else if name = "additionalProperties" then some (.additionalProperties s.additionalProperties)
  else if name = "oneOf" then some (.oneOf s.oneOf)
  else if name = "enum" then some (.enumValues s.enumValues)
  else if name = "default" then some (.defaultValue s.defaultValue)
  else if name = "example" then some (.exampleValue s.exampleValue)
  else (s.extensions.value? name).map (.extension name)

/-- A schema is read member by member. -/
theorem read_object (levels : Nat) (members : List (Option String × Tree)) (ending : Ending) :
    Schema.read (levels + 1) (.object members ending) = (do
      let s ← readMembers knownMembers (fun s name t => set s <$> Part.read levels name t)
        [] {} members
      ending.check
      return s) := by
  rw [Schema.read]
  refine congrArg (fun step => readMembers knownMembers step [] ({} : Schema) members >>=
    fun s => ending.check >>= fun _ => pure s) ?_
  funext s name t
  simp only [Part.read, apply_ite (Functor.map (set s)), bind_pure_comp, Functor.map_map]
  rfl

/-- The part is what a member of the name can say. -/
inductive Part.At : String → Part → Prop
  | kind (kind : Option SchemaKind) : At "type" (.kind kind)
  | format (format : Option String) : At "format" (.format format)
  | reference (reference : Option String) : At "$ref" (.reference reference)
  | properties (properties : List (String × Schema)) : At "properties" (.properties properties)
  | required (names : List String) : At "required" (.required names)
  | items (items : Option Schema) : At "items" (.items items)
  | additionalProperties (values : Option Schema) :
    At "additionalProperties" (.additionalProperties values)
  | oneOf (members : List Schema) : At "oneOf" (.oneOf members)
  | enumValues (literals : List EnumLiteral) : At "enum" (.enumValues literals)
  | defaultValue (value : Option Json) : At "default" (.defaultValue value)
  | exampleValue (value : Option Json) : At "example" (.exampleValue value)
  | extension {name : String} (unknown : name ∉ knownMembers) (value : Json) :
    At name (.extension name value)

theorem Part.read_of_unknown {levels : Nat} {name : String} {t : Tree}
    (h : name ∉ knownMembers) :
    Part.read levels name t = .extension name <$> t.readAny levels := by
  simp only [knownMembers, List.mem_cons, List.not_mem_nil, or_false, not_or] at h
  obtain ⟨h₁, h₂, h₃, h₄, h₅, h₆, h₇, h₈, h₉, h₁₀, h₁₁⟩ := h
  rw [Part.read, if_neg h₁, if_neg h₂, if_neg h₃, if_neg h₄, if_neg h₅, if_neg h₆, if_neg h₇,
    if_neg h₈, if_neg h₉, if_neg h₁₀, if_neg h₁₁]

theorem part?_of_unknown {s : Schema} {name : String} (h : name ∉ knownMembers) :
    s.part? name = (s.extensions.value? name).map (.extension name) := by
  simp only [knownMembers, List.mem_cons, List.not_mem_nil, or_false, not_or] at h
  obtain ⟨h₁, h₂, h₃, h₄, h₅, h₆, h₇, h₈, h₉, h₁₀, h₁₁⟩ := h
  rw [part?, if_neg h₁, if_neg h₂, if_neg h₃, if_neg h₄, if_neg h₅, if_neg h₆, if_neg h₇,
    if_neg h₈, if_neg h₉, if_neg h₁₀, if_neg h₁₁]

/-- What is read from a member is what a member of its name can say. -/
theorem Part.at_of_read {levels : Nat} {name : String} {t : Tree} {part : Part}
    (h : Part.read levels name t = .ok part) : part.At name := by
  by_cases hknown : name ∈ knownMembers
  · rw [Part.read] at h
    simp only [knownMembers, List.mem_cons, List.not_mem_nil, or_false] at hknown
    rcases hknown with rfl | rfl | rfl | rfl | rfl | rfl | rfl | rfl | rfl | rfl | rfl
    all_goals
      obtain ⟨value, -, rfl⟩ := Except.map_eq_ok_iff.1 h
      constructor
  · rw [Part.read_of_unknown hknown] at h
    obtain ⟨value, -, rfl⟩ := Except.map_eq_ok_iff.1 h
    exact .extension hknown value

/-- What the schema has for a known name does not depend on the extensions. -/
theorem part?_of_known {s : Schema} {name : String} (h : name ∈ knownMembers) (e : Extensions) :
    ({ s with extensions := e } : Schema).part? name = s.part? name := by
  simp only [knownMembers, List.mem_cons, List.not_mem_nil, or_false] at h
  rcases h with rfl | rfl | rfl | rfl | rfl | rfl | rfl | rfl | rfl | rfl | rfl <;> rfl

/-- Setting what a member says changes what the schema has for its name and nothing else. -/
theorem part?_set {name : String} {part : Part} (h : part.At name) (s : Schema) (n : String) :
    (s.set part).part? n = if n = name then some part else s.part? n := by
  by_cases hn : n = name
  · subst hn
    rw [if_pos rfl]
    cases h with
    | extension unknown value =>
      rw [part?_of_unknown unknown, set, Extensions.value?, Extensions.set, Keyed.get?_insert,
        if_pos rfl]
      rfl
    | _ => rfl
  · rw [if_neg hn]
    cases h with
    | extension unknown value =>
      by_cases hknown : n ∈ knownMembers
      · exact part?_of_known hknown _
      · rw [part?_of_unknown hknown, part?_of_unknown hknown, set, Extensions.value?,
          Extensions.set, Keyed.get?_insert, if_neg (Ne.symm hn)]
        rfl
    | _ => simp only [part?, set, if_neg hn]

/-- No known name is an extension. -/
def PlainExtensions (s : Schema) : Prop := ∀ name ∈ knownMembers, s.extensions.get? name = none

theorem PlainExtensions.set {s : Schema} (hs : s.PlainExtensions) {name : String} {part : Part}
    (h : part.At name) : (s.set part).PlainExtensions := by
  intro n hn
  cases h with
  | extension unknown value =>
    rw [Schema.set, Extensions.set, Keyed.get?_insert, if_neg, hs n hn]
    rintro rfl
    exact unknown hn
  | _ => exact hs n hn

/-- Schemas that have the same for every name are equal. -/
theorem ext_part? {s s' : Schema} (hs : s.PlainExtensions) (hs' : s'.PlainExtensions)
    (h : ∀ name, s.part? name = s'.part? name) : s = s' := by
  have hextensions : s.extensions = s'.extensions := by
    refine Keyed.ext_get? fun name => ?_
    by_cases hname : name ∈ knownMembers
    · rw [hs name hname, hs' name hname]
    · have hvalue := h name
      rw [part?_of_unknown hname, part?_of_unknown hname] at hvalue
      rw [Extensions.get?_eq_map, Extensions.get?_eq_map,
        Option.map_injective (fun _ _ hpart => by cases hpart; rfl) hvalue]
  have kind := h "type"
  have format := h "format"
  have reference := h "$ref"
  have properties := h "properties"
  have required := h "required"
  have items := h "items"
  have additionalProperties := h "additionalProperties"
  have oneOf := h "oneOf"
  have enumValues := h "enum"
  have defaultValue := h "default"
  have exampleValue := h "example"
  cases s
  cases s'
  cases kind; cases format; cases reference; cases properties; cases required; cases items
  cases additionalProperties; cases oneOf; cases enumValues; cases defaultValue; cases exampleValue
  cases hextensions
  rfl

section Members

variable {levels : Nat} {members : List (Option String × Tree)} {ending : Ending} {s : Schema}

/-- A schema is read from an object that is closed, whose members known by name occur once at
most, and has what the members say, set one after the other. -/
theorem read_object_eq_ok_iff :
    Schema.read (levels + 1) (.object members ending) = .ok s ↔
      ending.check = .ok () ∧
      (∀ name ∈ knownMembers, (members.map Prod.fst).count (some name) ≤ 1) ∧
      ∃ parts, List.Forall₂ (fun member part =>
        ∃ name, member.1 = some name ∧ Part.read levels name member.2 = .ok part) members parts ∧
        parts.foldl set {} = s := by
  rw [read_object, Except.bind_eq_ok_iff]
  simp only [readMembers_eq_ok_iff, List.not_mem_nil, if_false, Nat.add_zero,
    Except.bind_eq_ok_iff]
  constructor
  · rintro ⟨_, ⟨honce, parts, hparts, rfl⟩, _, hending, h⟩
    cases h
    exact ⟨hending, honce, parts, hparts, rfl⟩
  · rintro ⟨hending, honce, parts, hparts, rfl⟩
    exact ⟨_, ⟨honce, parts, hparts, rfl⟩, (), hending, rfl⟩

/-- What members say, set one after the other, is for each name what its last member says. -/
theorem part?_foldl_set {parts : List Part} (h : List.Forall₂ (fun member part =>
      ∃ name, member.1 = some name ∧ Part.read levels name member.2 = .ok part) members parts)
    (s : Schema) (name : String) :
    match lastMember? name members with
    | some t => ∃ part, Part.read levels name t = .ok part ∧
        (parts.foldl set s).part? name = some part
    | none => (parts.foldl set s).part? name = s.part? name := by
  refine foldl_lastMember h (part? · name) (fun t part => Part.read levels name t = .ok part)
    ?_ ?_ s
  · rintro s t part ⟨n, ⟨⟩, hpart⟩
    exact ⟨part, hpart, (part?_set (Part.at_of_read hpart) s name).trans (if_pos rfl)⟩
  · rintro s key t part hkey ⟨n, rfl, hpart⟩
    exact (part?_set (Part.at_of_read hpart) s name).trans
      (if_neg fun hname => hkey (congrArg some hname))

theorem plainExtensions_foldl_set {parts : List Part} (h : List.Forall₂ (fun member part =>
      ∃ name, member.1 = some name ∧ Part.read levels name member.2 = .ok part) members parts)
    (hs : s.PlainExtensions) : (parts.foldl set s).PlainExtensions := by
  induction h generalizing s with
  | nil => exact hs
  | cons hpart _ ih =>
    obtain ⟨_, -, hpart⟩ := hpart
    exact ih (hs.set (Part.at_of_read hpart))

end Members

end Schema

end ApiGraph

import ApiGraph.Proofs.Pointwise
import ApiGraph.Proofs.Schema.Parts

/-!
# What schemas keep of their members

A schema that has been read has what the members of its object say, and nothing else.
`Schema.Collects` spells this out for one object: for each known name, for the names that become
extensions, and for the properties. `Schema.Collected` says it of an object and of all the schemas
nested in it, and holds of everything that is read: a nested schema is read like any other, with
fewer containers left to open.
-/

namespace ApiGraph

open Json

namespace Schema

/-! ## Properties -/

theorem lookup_declare (properties : List (String × Schema)) (p : String × Schema)
    (name : String) :
    (declare properties p).lookup name =
      if name = p.1 then some p.2 else properties.lookup name := by
  induction properties with
  | nil => exact lookup_cons_eq_ite p.1 p.2 [] name
  | cons q properties ih =>
    have hcons (q : String × Schema) (rest : List (String × Schema)) :
        (q :: rest).lookup name = if name = q.1 then some q.2 else rest.lookup name :=
      lookup_cons_eq_ite q.1 q.2 rest name
    unfold declare
    by_cases hq : q.1 = p.1
    · rw [if_pos hq, hcons, hcons, hq]
      split <;> rfl
    · rw [if_neg hq, hcons, hcons, ih]
      by_cases hname : name = q.1
      · rw [if_pos hname, if_pos hname, if_neg (hname ▸ hq)]
      · rw [if_neg hname, if_neg hname]

/-- Declared properties have each name once, at the place where it occurred first. -/
theorem map_fst_foldl_declare (properties declared : List (String × Schema)) :
    (declared.foldl declare properties).map Prod.fst = properties.map Prod.fst ++
      ((declared.map Prod.fst).removeAll (properties.map Prod.fst)).eraseDups := by
  induction declared generalizing properties with
  | nil => simp
  | cons p declared ih =>
    rw [List.foldl_cons, ih, map_fst_declare, List.map_cons, List.cons_removeAll]
    by_cases hp : p.1 ∈ properties.map Prod.fst
    · rw [if_pos hp, if_neg (by simpa using hp)]
    · have hrest : (declared.map Prod.fst).removeAll (properties.map Prod.fst ++ [p.1]) =
          ((declared.map Prod.fst).removeAll (properties.map Prod.fst)).filter (!· == p.1) := by
        rw [List.removeAll, List.removeAll, List.filter_filter]
        refine List.filter_congr fun name _ => ?_
        rw [Bool.eq_iff_iff]
        simp [not_or, and_comm]
      rw [if_neg hp, if_pos (by simpa using hp), List.eraseDups_cons, List.append_assoc, hrest]
      rfl

def propertyMembers (members : List (Option String × Tree)) : List (Option String × Tree) :=
  match lastMember? "properties" members with
  | some (.object inner _) => inner
  | _ => []

/-! ## Schemas -/

/-- The schema has what the members of an object say, and nothing else. Three rules apply to
members of one name: a name that is known occurs once, of an unknown name the last value stays,
and a property stands at the first place of its name with the last schema. -/
structure Collects (levels : Nat) (members : List (Option String × Tree)) (s : Schema) :
    Prop where
  once : ∀ name ∈ knownMembers, (members.map Prod.fst).count (some name) ≤ 1
  present : ∀ name ∈ knownMembers, ∀ t, (some name, t) ∈ members →
    ∃ part, Part.read levels name t = .ok part ∧ s.part? name = some part
  absent : ∀ name ∈ knownMembers, some name ∉ members.map Prod.fst →
    s.part? name = part? {} name
  extensionKeys : ∀ name, name ∈ s.extensions.keys ↔
    name ∉ knownMembers ∧ some name ∈ members.map Prod.fst
  lastExtension : ∀ name t, name ∉ knownMembers → lastMember? name members = some t →
    ∃ value, t.readAny levels = .ok value ∧ s.extensions.value? name = some value
  propertyNames : s.properties.map Prod.fst =
    ((propertyMembers members).filterMap Prod.fst).eraseDups
  lastProperty : ∀ name t, lastMember? name (propertyMembers members) = some t →
    ∃ property, Schema.read (levels - 1) t = .ok property ∧
      s.properties.lookup name = some property

section Read

variable {levels : Nat} {members : List (Option String × Tree)} {ending : Ending} {s : Schema}

theorem present_of_read (h : Schema.read (levels + 1) (.object members ending) = .ok s)
    {name : String} {t : Tree} (ht : lastMember? name members = some t) :
    ∃ part, Part.read levels name t = .ok part ∧ s.part? name = some part := by
  obtain ⟨-, -, parts, hparts, rfl⟩ := read_object_eq_ok_iff.1 h
  have hpart := part?_foldl_set hparts {} name
  rwa [ht] at hpart

theorem absent_of_read (h : Schema.read (levels + 1) (.object members ending) = .ok s)
    {name : String} (hname : some name ∉ members.map Prod.fst) : s.part? name = part? {} name := by
  obtain ⟨-, -, parts, hparts, rfl⟩ := read_object_eq_ok_iff.1 h
  have hpart := part?_foldl_set hparts {} name
  rwa [lastMember?_eq_none_iff.2 hname] at hpart

theorem plainExtensions_of_read (h : Schema.read (levels + 1) (.object members ending) = .ok s) :
    s.PlainExtensions := by
  obtain ⟨-, -, parts, hparts, rfl⟩ := read_object_eq_ok_iff.1 h
  exact plainExtensions_foldl_set hparts fun _ _ => rfl

theorem extension_of_read (h : Schema.read (levels + 1) (.object members ending) = .ok s)
    {name : String} {t : Tree} (hname : name ∉ knownMembers)
    (ht : lastMember? name members = some t) :
    ∃ value, t.readAny levels = .ok value ∧ s.extensions.value? name = some value := by
  obtain ⟨part, hread, hpart⟩ := present_of_read h ht
  rw [Part.read_of_unknown hname] at hread
  obtain ⟨value, hvalue, rfl⟩ := Except.map_eq_ok_iff.1 hread
  rw [part?_of_unknown hname, Option.map_eq_some_iff] at hpart
  obtain ⟨_, hpart, ⟨⟩⟩ := hpart
  exact ⟨value, hvalue, hpart⟩

theorem mem_keys_extensions_of_read
    (h : Schema.read (levels + 1) (.object members ending) = .ok s) (name : String) :
    name ∈ s.extensions.keys ↔ name ∉ knownMembers ∧ some name ∈ members.map Prod.fst := by
  rw [Keyed.mem_keys_iff]
  by_cases hname : name ∈ knownMembers
  · rw [plainExtensions_of_read h name hname]
    simp [hname]
  · rw [Extensions.get?_eq_map]
    cases ht : lastMember? name members with
    | none =>
      have habsent := lastMember?_eq_none_iff.1 ht
      have hempty : part? {} name = none := part?_of_unknown hname
      have hpart := absent_of_read h habsent
      rw [hempty, part?_of_unknown hname] at hpart
      rw [Option.map_eq_none_iff.1 hpart]
      simp [habsent]
    | some t =>
      obtain ⟨value, -, hvalue⟩ := extension_of_read h hname ht
      have hpresent : some name ∈ members.map Prod.fst := by
        by_contra habsent
        rw [lastMember?_eq_none_iff.2 habsent] at ht
        cases ht
      rw [hvalue]
      simp [hname, hpresent]

/-- The properties are declared by the members of an object. -/
theorem declared_of_read (h : Schema.read (levels + 1) (.object members ending) = .ok s) :
    ∃ declared, s.properties = declared.foldl declare [] ∧
      List.Forall₂ (fun member p => member.1 = some p.1 ∧
        Schema.read (levels - 1) member.2 = .ok p.2) (propertyMembers members) declared := by
  rw [propertyMembers]
  cases ht : lastMember? "properties" members with
  | none =>
    have hpart : some (Part.properties s.properties) = some (.properties []) :=
      absent_of_read h (lastMember?_eq_none_iff.1 ht)
    exact ⟨[], Part.properties.inj (Option.some.inj hpart), .nil⟩
  | some t =>
    obtain ⟨part, hread, hpart⟩ := present_of_read h ht
    obtain ⟨declared, hmap, rfl⟩ := Except.map_eq_ok_iff.1 hread
    obtain ⟨inner, ending, rfl⟩ := Tree.eq_object_of_readMap hmap
    exact ⟨declared, Part.properties.inj (Option.some.inj hpart),
      (Tree.readMap_eq_ok_iff.1 hmap).2.2⟩

theorem propertyNames_of_read (h : Schema.read (levels + 1) (.object members ending) = .ok s) :
    s.properties.map Prod.fst = ((propertyMembers members).filterMap Prod.fst).eraseDups := by
  obtain ⟨declared, hproperties, hdeclared⟩ := declared_of_read h
  rw [hproperties, map_fst_foldl_declare, ← keys_of_forall₂
    (P := fun t p => Schema.read (levels - 1) t = .ok p) hdeclared]
  simp

theorem lastProperty_of_read (h : Schema.read (levels + 1) (.object members ending) = .ok s)
    {name : String} {t : Tree} (ht : lastMember? name (propertyMembers members) = some t) :
    ∃ property, Schema.read (levels - 1) t = .ok property ∧
      s.properties.lookup name = some property := by
  obtain ⟨declared, hproperties, hdeclared⟩ := declared_of_read h
  have hsame (properties : List (String × Schema)) (t : Tree) (p : String × Schema)
      (hp : some name = some p.1 ∧ Schema.read (levels - 1) t = .ok p.2) :
      ∃ property, Schema.read (levels - 1) t = .ok property ∧
        (declare properties p).lookup name = some property :=
    ⟨p.2, hp.2, (lookup_declare properties p name).trans (if_pos (Option.some.inj hp.1))⟩
  have hother (properties : List (String × Schema)) (key : Option String) (t : Tree)
      (p : String × Schema) (hkey : some name ≠ key)
      (hp : key = some p.1 ∧ Schema.read (levels - 1) t = .ok p.2) :
      (declare properties p).lookup name = properties.lookup name :=
    (lookup_declare properties p name).trans
      (if_neg fun hname => hkey (by rw [hname, hp.1]))
  have hlast := foldl_lastMember hdeclared (fun properties => properties.lookup name)
    (fun t property => Schema.read (levels - 1) t = .ok property) hsame hother []
  rw [ht, ← hproperties] at hlast
  exact hlast

theorem collects_of_read (h : Schema.read (levels + 1) (.object members ending) = .ok s) :
    s.Collects levels members where
  once := (read_object_eq_ok_iff.1 h).2.1
  present name hname _ ht := present_of_read h
    ((lastMember?_eq_some_iff ((read_object_eq_ok_iff.1 h).2.1 name hname)).2 ht)
  absent _ _ := absent_of_read h
  extensionKeys := mem_keys_extensions_of_read h
  lastExtension _ _ := extension_of_read h
  propertyNames := propertyNames_of_read h
  lastProperty _ _ := lastProperty_of_read h

/-- A nested schema `child` of a schema that collects the members, with the tree that it is read
from and the containers that may be opened there. -/
inductive Child (levels : Nat) (members : List (Option String × Tree)) (s : Schema) :
    Nat → Tree → Schema → Prop
  | items {t : Tree} {child : Schema} (member : (some "items", t) ∈ members)
    (child_eq : s.items = some child) : Child levels members s levels t child
  | additionalProperties {t : Tree} {child : Schema}
    (member : (some "additionalProperties", t) ∈ members)
    (child_eq : s.additionalProperties = some child) : Child levels members s levels t child
  | oneOf {ts : List Tree} {ending : Ending} {i : Nat} {t : Tree} {child : Schema}
    (member : (some "oneOf", .array ts ending) ∈ members) (item : ts[i]? = some t)
    (child_eq : s.oneOf[i]? = some child) : Child levels members s (levels - 1) t child
  | property {name : String} {t : Tree} {child : Schema}
    (member : lastMember? name (propertyMembers members) = some t)
    (child_eq : s.properties.lookup name = some child) :
    Child levels members s (levels - 1) t child

/-- The schema collects the members of the object it is read from, and so do the schemas nested
in it, at any depth. -/
inductive Collected : Nat → Tree → Schema → Prop
  | object {levels : Nat} {members : List (Option String × Tree)} {ending : Ending} {s : Schema}
    (collects : s.Collects levels members)
    (children : ∀ l t child, Child levels members s l t child → Collected l t child) :
    Collected (levels + 1) (.object members ending) s

theorem eq_object_of_read {levels : Nat} {t : Tree} {s : Schema}
    (h : Schema.read levels t = .ok s) :
    ∃ l members ending, levels = l + 1 ∧ t = .object members ending := by
  unfold Schema.read at h
  split at h
  · cases levels with
    | zero => cases h
    | succ l => exact ⟨l, _, _, rfl, rfl⟩
  · exact absurd h (Tree.wrongKind_ne_ok _ _ _)

/-- Nested schemas are read like any other schema. -/
theorem read_of_child (h : Schema.read (levels + 1) (.object members ending) = .ok s) {l : Nat}
    {t : Tree} {child : Schema} (hchild : Child levels members s l t child) :
    Schema.read l t = .ok child := by
  have hcollects := collects_of_read h
  cases hchild with
  | items member child_eq =>
    obtain ⟨part, hread, hpart⟩ := hcollects.present "items" (by decide) t member
    obtain ⟨items, hitems, rfl⟩ := Except.map_eq_ok_iff.1 hread
    obtain rfl : s.items = items := Part.items.inj (Option.some.inj hpart)
    exact Tree.read_of_readOptional (child_eq ▸ hitems)
  | additionalProperties member child_eq =>
    obtain ⟨part, hread, hpart⟩ :=
      hcollects.present "additionalProperties" (by decide) t member
    obtain ⟨values, hvalues, rfl⟩ := Except.map_eq_ok_iff.1 hread
    obtain rfl : s.additionalProperties = values :=
      Part.additionalProperties.inj (Option.some.inj hpart)
    exact Tree.read_of_readOptional (child_eq ▸ hvalues)
  | oneOf member item child_eq =>
    obtain ⟨part, hread, hpart⟩ := hcollects.present "oneOf" (by decide) _ member
    obtain ⟨schemas, hschemas, rfl⟩ := Except.map_eq_ok_iff.1 hread
    obtain rfl : s.oneOf = schemas := Part.oneOf.inj (Option.some.inj hpart)
    exact rel_of_getElem? (Tree.readList_eq_ok_iff.1 hschemas).2.2 item child_eq
  | property member child_eq =>
    obtain ⟨property, hread, hproperty⟩ := hcollects.lastProperty _ _ member
    rw [child_eq, Option.some.injEq] at hproperty
    rw [hread, hproperty]

end Read

theorem collected_of_read {levels : Nat} {t : Tree} {s : Schema}
    (h : Schema.read levels t = .ok s) : Collected levels t s := by
  induction levels using Nat.strongRecOn generalizing t s with
  | _ levels ih =>
    obtain ⟨l, members, ending, rfl, rfl⟩ := eq_object_of_read h
    refine .object (collects_of_read h) fun l' t child hchild => ?_
    have hlt : l' < l + 1 := by cases hchild <;> omega
    exact ih l' hlt (read_of_child h hchild)

end Schema

end ApiGraph

import ApiGraph.Proofs.Schema.Members

/-!
# The order of members

`Schema.Reordered t t'` says that the tree `t'` arises from `t` by writing the members of an
object in another order, where the object is the schema itself or one nested in it. Since each
member of an object is read by itself, what a schema has for a name depends on the last member of
that name alone, and members of different names can be written in any order.
-/

namespace ApiGraph

open Json

namespace Schema

/-- Members of different names are read into the same schema in any order. -/
theorem read_perm {levels : Nat} {members members' : List (Option String × Tree)}
    {ending : Ending} {s : Schema} (hperm : members.Perm members')
    (hnodup : (members.map Prod.fst).Nodup)
    (h : Schema.read levels (.object members ending) = .ok s) :
    Schema.read levels (.object members' ending) = .ok s := by
  obtain ⟨l, _, _, rfl, -⟩ := eq_object_of_read h
  obtain ⟨hending, honce, parts, hparts, -⟩ := read_object_eq_ok_iff.1 h
  obtain ⟨parts', hparts', -⟩ := List.perm_comp_forall₂ hperm.symm hparts
  have h' : Schema.read (l + 1) (.object members' ending) = .ok (parts'.foldl set {}) := by
    refine read_object_eq_ok_iff.2 ⟨hending, fun name hname => ?_, parts', hparts', rfl⟩
    rw [← (hperm.map Prod.fst).count_eq]
    exact honce name hname
  have hsame (name : String) : (parts'.foldl set {}).part? name = s.part? name := by
    have hlast := lastMember?_perm hperm hnodup name
    cases ht : lastMember? name members with
    | none =>
      rw [absent_of_read h (lastMember?_eq_none_iff.1 ht),
        absent_of_read h' (lastMember?_eq_none_iff.1 (hlast ▸ ht))]
    | some t =>
      obtain ⟨part, hread, hpart⟩ := present_of_read h ht
      obtain ⟨part', hread', hpart'⟩ := present_of_read h' (hlast ▸ ht)
      rw [hpart, hpart', ← Except.ok.inj (hread.symm.trans hread')]
  rw [h', ext_part? (plainExtensions_of_read h') (plainExtensions_of_read h) hsame]

/-- The second tree arises from the first by writing the members of an object, of the tree itself
or of a schema nested in it, in another order. Reordered members have different names. -/
inductive Reordered : Tree → Tree → Prop
  | members {members members' : List (Option String × Tree)} {ending : Ending}
    (perm : members.Perm members') (nodup : (members.map Prod.fst).Nodup) :
    Reordered (.object members ending) (.object members' ending)
  | items {l r : List (Option String × Tree)} {ending : Ending} {t t' : Tree}
    (inner : Reordered t t') :
    Reordered (.object (l ++ (some "items", t) :: r) ending)
      (.object (l ++ (some "items", t') :: r) ending)
  | additionalProperties {l r : List (Option String × Tree)} {ending : Ending} {t t' : Tree}
    (inner : Reordered t t') :
    Reordered (.object (l ++ (some "additionalProperties", t) :: r) ending)
      (.object (l ++ (some "additionalProperties", t') :: r) ending)
  | oneOf {l r : List (Option String × Tree)} {before after : List Tree}
    {ending ending' : Ending} {t t' : Tree} (inner : Reordered t t') :
    Reordered (.object (l ++ (some "oneOf", .array (before ++ t :: after) ending') :: r) ending)
      (.object (l ++ (some "oneOf", .array (before ++ t' :: after) ending') :: r) ending)
  | property {l r before after : List (Option String × Tree)} {key : Option String}
    {ending ending' : Ending} {t t' : Tree} (inner : Reordered t t') :
    Reordered
      (.object (l ++ (some "properties", .object (before ++ (key, t) :: after) ending') :: r)
        ending)
      (.object (l ++ (some "properties", .object (before ++ (key, t') :: after) ending') :: r)
        ending)
  | trans {t t' t'' : Tree} (first : Reordered t t') (second : Reordered t' t'') :
    Reordered t t''

theorem Reordered.eq_object {t t' : Tree} (h : Reordered t t') :
    (∃ members ending, t = .object members ending) ∧
      ∃ members ending, t' = .object members ending := by
  induction h with
  | trans _ _ ih ih' => exact ⟨ih.1, ih'.2⟩
  | _ => exact ⟨⟨_, _, rfl⟩, ⟨_, _, rfl⟩⟩

/-- Reordered objects are there, so a reader that finds the same in them finds the same where the
value may be left out. -/
theorem Reordered.readOptional {t t' : Tree} (h : Reordered t t') {α : Type}
    {read : Tree → Read α} (hread : ∀ {a}, read t = .ok a → read t' = .ok a) {o : Option α}
    (ho : t.readOptional read = .ok o) : t'.readOptional read = .ok o := by
  obtain ⟨⟨members, ending, rfl⟩, ⟨members', ending', rfl⟩⟩ := h.eq_object
  obtain ⟨a, ha, rfl⟩ := Except.map_eq_ok_iff.1 ho
  exact Except.map_eq_ok_iff.2 ⟨a, hread ha, rfl⟩

theorem read_replace {levels : Nat} {l r : List (Option String × Tree)} {name : String}
    {t t' : Tree} {ending : Ending} {s : Schema}
    (ht : ∀ l part, Part.read l name t = .ok part → Part.read l name t' = .ok part)
    (h : Schema.read levels (.object (l ++ (some name, t) :: r) ending) = .ok s) :
    Schema.read levels (.object (l ++ (some name, t') :: r) ending) = .ok s := by
  obtain ⟨levels, _, _, rfl, -⟩ := eq_object_of_read h
  obtain ⟨hending, honce, parts, hparts, rfl⟩ := read_object_eq_ok_iff.1 h
  refine read_object_eq_ok_iff.2
    ⟨hending, by simpa using honce, parts, forall₂_replace ?_ hparts, rfl⟩
  rintro part ⟨_, ⟨⟩, hread⟩
  exact ⟨name, rfl, ht levels part hread⟩

theorem read_reordered {t t' : Tree} (h : Reordered t t') {levels : Nat} {s : Schema}
    (hs : Schema.read levels t = .ok s) : Schema.read levels t' = .ok s := by
  induction h generalizing levels s with
  | members perm nodup => exact read_perm perm nodup hs
  | trans _ _ ih ih' => exact ih' (ih hs)
  | items inner ih =>
    refine read_replace (fun l part hread => ?_) hs
    obtain ⟨items, hitems, rfl⟩ := Except.map_eq_ok_iff.1 hread
    exact Except.map_eq_ok_iff.2 ⟨items, inner.readOptional ih hitems, rfl⟩
  | additionalProperties inner ih =>
    refine read_replace (fun l part hread => ?_) hs
    obtain ⟨values, hvalues, rfl⟩ := Except.map_eq_ok_iff.1 hread
    exact Except.map_eq_ok_iff.2 ⟨values, inner.readOptional ih hvalues, rfl⟩
  | oneOf inner ih =>
    refine read_replace (fun l part hread => ?_) hs
    obtain ⟨schemas, hschemas, rfl⟩ := Except.map_eq_ok_iff.1 hread
    obtain ⟨hlevels, hending, hall⟩ := Tree.readList_eq_ok_iff.1 hschemas
    refine Except.map_eq_ok_iff.2 ⟨schemas, Tree.readList_eq_ok_iff.2 ?_, rfl⟩
    exact ⟨hlevels, hending, forall₂_replace (fun _ => ih) hall⟩
  | property inner ih =>
    refine read_replace (fun l part hread => ?_) hs
    obtain ⟨declared, hdeclared, rfl⟩ := Except.map_eq_ok_iff.1 hread
    obtain ⟨hlevels, hending, hall⟩ := Tree.readMap_eq_ok_iff.1 hdeclared
    refine Except.map_eq_ok_iff.2 ⟨declared, Tree.readMap_eq_ok_iff.2 ?_, rfl⟩
    exact ⟨hlevels, hending, forall₂_replace (fun p hp => ⟨hp.1, ih hp.2⟩) hall⟩

/-- Reading a schema loses and invents no member, at any depth, and the order of members of
different names leaves no trace. -/
theorem read_keeps_members {levels : Nat} {t : Tree} {s : Schema}
    (h : Schema.read levels t = .ok s) :
    Collected levels t s ∧ ∀ t', Reordered t t' → Schema.read levels t' = .ok s :=
  ⟨collected_of_read h, fun _ ht => read_reordered ht h⟩

/-- An object with two extensions of one name between its known members, and with a property that
is declared twice; `inner` are the members of the second declaration. -/
def interleaved (inner : List (Option String × Tree)) : Tree :=
  .object
    ([(some "x-rank", .string (some "low")), (some "type", .string (some "object")),
      (some "nullable", .bool true)] ++
    (some "properties", .object
      ([(some "zeta", .object [] .closed),
        (some "id", .object [(some "type", .string (some "integer"))] .closed)] ++
      (some "zeta", .object inner .closed) :: []) .closed) ::
    [(some "x-rank", .null)]) .closed

/-- The last value of an extension stays, a property keeps its first place, and the members of a
property can be written the other way round. -/
theorem read_keeps_members_interleaved :
    ∃ s, Schema.read maxLevels
        (interleaved [(some "format", .null), (some "x-unit", .string (some "m"))]) = .ok s ∧
      s.extensions.keys = ["nullable", "x-rank"] ∧ s.properties.map Prod.fst = ["zeta", "id"] ∧
      Collected maxLevels
        (interleaved [(some "format", .null), (some "x-unit", .string (some "m"))]) s ∧
      Schema.read maxLevels
        (interleaved [(some "x-unit", .string (some "m")), (some "format", .null)]) = .ok s := by
  have hread : (Schema.read maxLevels
      (interleaved [(some "format", .null), (some "x-unit", .string (some "m"))])).toOption.map
        (fun s => (s.extensions.keys, s.properties.map Prod.fst)) =
      some (["nullable", "x-rank"], ["zeta", "id"]) := by decide +kernel
  obtain ⟨s, hs, hnames⟩ := Option.map_eq_some_iff.1 hread
  have h := Except.toOption_eq_some_iff.1 hs
  obtain ⟨hkeys, hproperties⟩ := Prod.mk.inj hnames
  obtain ⟨hcollected, hreordered⟩ := read_keeps_members h
  refine ⟨s, h, hkeys, hproperties, hcollected, hreordered _ ?_⟩
  exact .property (.members (List.Perm.swap _ _ _) (by decide))

end Schema

end ApiGraph

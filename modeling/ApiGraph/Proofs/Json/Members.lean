import ApiGraph.Json.Reader
import ApiGraph.Proofs.Fallible
import ApiGraph.Proofs.Lookup

/-!
# Objects and arrays that are read

A reader of a container succeeds when it succeeds on each element and the container is closed.
A record is collected member by member: each member is first read by itself, and what it says
is then set in the record, so the record is a fold over what the members say.
-/

namespace ApiGraph.Json

variable {α σ : Type}

theorem Tree.wrongKind_ne_ok (wanted : String) (t : Tree) (a : α) : t.wrongKind wanted ≠ .ok a := by
  intro h
  cases t with
  | number n =>
    obtain ⟨_, -, h⟩ := Except.bind_eq_ok_iff.1 h
    cases h
  | string text =>
    obtain ⟨_, -, h⟩ := Except.bind_eq_ok_iff.1 h
    cases h
  | _ => cases h

/-- A value that is there is read like any other value. -/
theorem Tree.read_of_readOptional {read : Tree → Read α} {t : Tree} {a : α}
    (h : t.readOptional read = .ok (some a)) : read t = .ok a := by
  unfold readOptional at h
  split at h
  · cases h
  · obtain ⟨_, hread, ⟨⟩⟩ := Except.map_eq_ok_iff.1 h
    exact hread

/-- Only objects are read as maps. -/
theorem Tree.eq_object_of_readMap {levels : Nat} {read : Tree → Read α} {t : Tree}
    {values : List (String × α)} (h : t.readMap levels read = .ok values) :
    ∃ members ending, t = .object members ending := by
  unfold readMap at h
  split at h
  · exact ⟨_, _, rfl⟩
  · exact absurd h (wrongKind_ne_ok _ _ _)

/-- An array is read when it is closed and each item is read. -/
theorem Tree.readList_eq_ok_iff {levels : Nat} {read : Tree → Read α} {items : List Tree}
    {ending : Ending} {values : List α} :
    (Tree.array items ending).readList levels read = .ok values ↔
      checkLevels levels = .ok () ∧ ending.check = .ok () ∧
        List.Forall₂ (fun t a => read t = .ok a) items values := by
  simp only [readList, Except.bind_eq_ok_iff, Except.mapM_eq_ok_iff]
  constructor
  · rintro ⟨_, hlevels, _, hitems, _, hending, h⟩
    cases h
    exact ⟨hlevels, hending, hitems⟩
  · rintro ⟨hlevels, hending, hitems⟩
    exact ⟨(), hlevels, values, hitems, (), hending, rfl⟩

theorem readText_eq_ok_iff {key : Option String} {name : String} :
    readText key = .ok name ↔ key = some name := by
  cases key with
  | none => exact iff_of_false (fun h => by cases h) fun h => by cases h
  | some key => exact ⟨fun h => congrArg some (Except.ok.inj h), fun h => by cases h; rfl⟩

/-- Members are read when each key is a text and each value is read. -/
theorem mapM_readMember_eq_ok_iff {read : Tree → Read α} {members : List (Option String × Tree)}
    {values : List (String × α)} :
    (members.mapM fun (key, t) => do
      let key ← readText key
      return (key, ← read t)) = .ok values ↔
      List.Forall₂ (fun member value => member.1 = some value.1 ∧ read member.2 = .ok value.2)
        members values := by
  have hmember (member : Option String × Tree) (value : String × α) :
      (do
        let key ← readText member.1
        return (key, ← read member.2)) = Except.ok value ↔
        member.1 = some value.1 ∧ read member.2 = .ok value.2 := by
    simp only [Except.bind_eq_ok_iff, readText_eq_ok_iff]
    constructor
    · rintro ⟨key, hkey, a, ha, h⟩
      cases h
      exact ⟨hkey, ha⟩
    · rintro ⟨hkey, ha⟩
      exact ⟨value.1, hkey, value.2, ha, rfl⟩
  simp only [Except.mapM_eq_ok_iff, hmember]

/-- An object is read when it is closed, each key is a text and each value is read. -/
theorem Tree.readMap_eq_ok_iff {levels : Nat} {read : Tree → Read α}
    {members : List (Option String × Tree)} {ending : Ending} {values : List (String × α)} :
    (Tree.object members ending).readMap levels read = .ok values ↔
      checkLevels levels = .ok () ∧ ending.check = .ok () ∧
        List.Forall₂ (fun member value => member.1 = some value.1 ∧ read member.2 = .ok value.2)
          members values := by
  simp only [readMap, Except.bind_eq_ok_iff, mapM_readMember_eq_ok_iff]
  constructor
  · rintro ⟨_, hlevels, _, hmembers, _, hending, h⟩
    cases h
    exact ⟨hlevels, hending, hmembers⟩
  · rintro ⟨hlevels, hending, hmembers⟩
    exact ⟨(), hlevels, values, hmembers, (), hending, rfl⟩

/-- The value of an array is the array of the values of its items. -/
theorem Tree.eq_array_of_readAny {levels : Nat} {items : List Tree} {ending : Ending} {j : Json}
    (h : (Tree.array items ending).readAny levels = .ok j) :
    ∃ l values, levels = l + 1 ∧
      List.Forall₂ (fun t v => t.readAny l = .ok v) items values ∧ j = .array values := by
  cases levels with
  | zero =>
    rw [readAny] at h
    cases h
  | succ l =>
    rw [readAny] at h
    obtain ⟨values, hvalues, h⟩ := Except.bind_eq_ok_iff.1 h
    obtain ⟨_, -, h⟩ := Except.bind_eq_ok_iff.1 h
    cases h
    exact ⟨l, values, rfl, Except.mapM_eq_ok_iff.1 hvalues, rfl⟩

/-- The value of an object has the values of its members, in the order of their names. -/
theorem Tree.eq_object_of_readAny {levels : Nat} {members : List (Option String × Tree)}
    {ending : Ending} {j : Json} (h : (Tree.object members ending).readAny levels = .ok j) :
    ∃ l values, levels = l + 1 ∧ List.Forall₂ (fun member value =>
        member.1 = some value.1 ∧ member.2.readAny l = .ok value.2) members values ∧
      j = .object (Keyed.ofList values : Dictionary Json).toList := by
  cases levels with
  | zero =>
    rw [readAny] at h
    cases h
  | succ l =>
    rw [readAny] at h
    obtain ⟨values, hvalues, h⟩ := Except.bind_eq_ok_iff.1 h
    obtain ⟨_, -, h⟩ := Except.bind_eq_ok_iff.1 h
    cases h
    exact ⟨l, values, rfl, mapM_readMember_eq_ok_iff.1 hvalues, rfl⟩

def lastMember? (name : String) (members : List (Option String × Tree)) : Option Tree :=
  last? (some name) members

theorem lastMember?_cons {name : String} {key : Option String} {t : Tree}
    {members : List (Option String × Tree)} :
    lastMember? name ((key, t) :: members) =
      (lastMember? name members).or (if some name = key then some t else none) :=
  last?_cons (some name) (key, t) members

theorem lastMember?_eq_none_iff {name : String} {members : List (Option String × Tree)} :
    lastMember? name members = none ↔ some name ∉ members.map Prod.fst := by
  induction members with
  | nil => simp [lastMember?]
  | cons member members ih =>
    rw [lastMember?_cons, Option.or_eq_none_iff, ih, List.map_cons, List.mem_cons, not_or,
      and_comm]
    simp

/-- A member whose name occurs once is the last one of the name. -/
theorem lastMember?_eq_some_iff {name : String} {members : List (Option String × Tree)}
    (h : (members.map Prod.fst).count (some name) ≤ 1) {t : Tree} :
    lastMember? name members = some t ↔ (some name, t) ∈ members := by
  induction members with
  | nil => simp [lastMember?]
  | cons member members ih =>
    obtain ⟨key, u⟩ := member
    rw [List.map_cons, List.count_cons] at h
    rw [lastMember?_cons, List.mem_cons, Prod.mk.injEq]
    by_cases hkey : some name = key
    · -- no other member has the name
      have hnot : some name ∉ members.map Prod.fst := by
        rw [if_pos (beq_iff_eq.2 hkey.symm)] at h
        exact List.count_eq_zero.1 (by omega)
      rw [lastMember?_eq_none_iff.2 hnot, Option.none_or, if_pos hkey, Option.some.injEq]
      constructor
      · rintro rfl
        exact .inl ⟨hkey, rfl⟩
      · rintro (⟨-, rfl⟩ | hmem)
        · rfl
        · exact absurd (List.mem_map_of_mem hmem) hnot
    · rw [if_neg hkey, Option.or_none, ih (by omega)]
      simp [hkey]

theorem lastMember?_perm {members members' : List (Option String × Tree)}
    (hperm : members.Perm members') (hnodup : (members.map Prod.fst).Nodup) (name : String) :
    lastMember? name members = lastMember? name members' := by
  refine Option.ext fun t => ?_
  rw [lastMember?_eq_some_iff (List.nodup_iff_count_le_one.1 hnodup _), lastMember?_eq_some_iff
    (List.nodup_iff_count_le_one.1 ((hperm.map Prod.fst).nodup_iff.1 hnodup) _), hperm.mem_iff]

/-- When each member of a name decides what there is for it, and no other member changes that, the
last member of the name decides in the end. -/
theorem foldl_lastMember {β : Type} {set : σ → α → σ} {R : Option String × Tree → α → Prop}
    {members : List (Option String × Tree)} {values : List α} (h : List.Forall₂ R members values)
    {name : String} (get : σ → Option β) (V : Tree → β → Prop)
    (hsame : ∀ s t a, R (some name, t) a → ∃ b, V t b ∧ get (set s a) = some b)
    (hother : ∀ s key t a, some name ≠ key → R (key, t) a → get (set s a) = get s) (s : σ) :
    match lastMember? name members with
    | some t => ∃ b, V t b ∧ get (values.foldl set s) = some b
    | none => get (values.foldl set s) = get s := by
  induction h generalizing s with
  | nil => rfl
  | @cons member a members values ha _ ih =>
    obtain ⟨key, t⟩ := member
    have hrest := ih (set s a)
    rw [lastMember?_cons, List.foldl_cons]
    cases hlast : lastMember? name members with
    | some u =>
      rw [hlast] at hrest
      exact hrest
    | none =>
      rw [hlast] at hrest
      rw [Option.none_or]
      by_cases hkey : some name = key
      · subst hkey
        obtain ⟨b, hb, hset⟩ := hsame s t a ha
        rw [if_pos rfl]
        exact ⟨b, hb, hrest.trans hset⟩
      · rw [if_neg hkey]
        exact hrest.trans (hother s key t a hkey ha)

/-- A name that has just been seen counts as much as one that is still to come. -/
theorem count_cons_le_one_iff {known seen : List String} {keys : List (Option String)}
    (name : String) :
    (∀ n ∈ known, (some name :: keys).count (some n) + (if n ∈ seen then 1 else 0) ≤ 1) ↔
      ¬ (name ∈ known ∧ name ∈ seen) ∧
        ∀ n ∈ known, keys.count (some n) + (if n ∈ name :: seen then 1 else 0) ≤ 1 := by
  simp only [List.count_cons, beq_iff_eq, Option.some.injEq, List.mem_cons]
  constructor
  · intro h
    refine ⟨fun ⟨hknown, hseen⟩ => ?_, fun n hn => ?_⟩
    · have := h name hknown
      rw [if_pos rfl, if_pos hseen] at this
      omega
    · have := h n hn
      grind
  · rintro ⟨hnew, h⟩ n hn
    have := h n hn
    grind

/-- The names of the members are the keys of the values. -/
theorem keys_of_forall₂ {P : Tree → α → Prop} {members : List (Option String × Tree)}
    {values : List (String × α)} (h : List.Forall₂ (fun member value =>
      member.1 = some value.1 ∧ P member.2 value.2) members values) :
    values.map Prod.fst = members.filterMap Prod.fst := by
  induction h with
  | nil => rfl
  | cons hmember _ ih => rw [List.map_cons, List.filterMap_cons, hmember.1, ih]

/-- A record is read when each member is read and those known by name occur once at most; it then
has what the members say, set one after the other. -/
theorem readMembers_eq_ok_iff {known : List String} {read : String → Tree → Read α}
    {set : σ → α → σ} {seen : List String} {s s' : σ} {members : List (Option String × Tree)} :
    readMembers known (fun s name t => set s <$> read name t) seen s members = .ok s' ↔
      (∀ name ∈ known,
        (members.map Prod.fst).count (some name) + (if name ∈ seen then 1 else 0) ≤ 1) ∧
      ∃ parts, List.Forall₂ (fun member part =>
        ∃ name, member.1 = some name ∧ read name member.2 = .ok part) members parts ∧
        parts.foldl set s = s' := by
  induction members generalizing seen s with
  | nil =>
    have hcount : ∀ name ∈ known, (if name ∈ seen then 1 else 0) ≤ 1 := by
      intro name _
      split <;> omega
    simpa [readMembers] using fun _ => hcount
  | cons member members ih =>
    obtain ⟨key, t⟩ := member
    rw [readMembers, Except.bind_eq_ok_iff]
    simp only [readText_eq_ok_iff, List.forall₂_cons_left_iff]
    constructor
    · rintro ⟨n, rfl, h⟩
      split at h
      · cases h
      · rename_i hnew
        obtain ⟨_, hset, h⟩ := Except.bind_eq_ok_iff.1 h
        obtain ⟨part, hpart, rfl⟩ := Except.map_eq_ok_iff.1 hset
        obtain ⟨hrest, parts, hparts, hfold⟩ := ih.1 h
        exact ⟨(count_cons_le_one_iff n).2 ⟨by simpa using hnew, hrest⟩, part :: parts,
          ⟨part, parts, ⟨n, rfl, hpart⟩, hparts, rfl⟩, hfold⟩
    · rintro ⟨hall, _, ⟨part, parts, ⟨n, rfl, hpart⟩, hparts, rfl⟩, hfold⟩
      obtain ⟨hnew, hrest⟩ := (count_cons_le_one_iff n).1 hall
      refine ⟨n, rfl, ?_⟩
      rw [if_neg (by simpa using hnew)]
      exact Except.bind_eq_ok_iff.2 ⟨set s part, Except.map_eq_ok_iff.2 ⟨part, hpart, rfl⟩,
        ih.2 ⟨hrest, parts, hparts, hfold⟩⟩

end ApiGraph.Json

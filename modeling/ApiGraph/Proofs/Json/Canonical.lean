import ApiGraph.Json.Reader
import ApiGraph.Proofs.Fallible
import ApiGraph.Proofs.Json.Members
import ApiGraph.Proofs.Json.Numbers
import ApiGraph.Proofs.Keyed
import ApiGraph.Proofs.Pointwise

/-!
# JSON values as they are handed on

Two values say the same when their canonical forms are equal. There a number that is not finite is
`null`, since it has no text, and the members of an object stand in the order of their names, of
which the last of a name stays. Values that come from a text are canonical, which is
`Json.canonical_of_readAny`.

The members of a record are found in the canonical form under their names, so what a record says
can be taken apart member by member, whichever members have been left out.
-/

namespace ApiGraph

namespace Json

mutual

/-- The value as it is handed on. -/
def canonical : Json → Json
  | float x => if x.isFinite then float x else null
  | array items => array (canonicalItems items)
  | object members => object (Keyed.ofList (canonicalMembers members) : Dictionary Json).toList
  | j => j
termination_by structural j => j

def canonicalItems : List Json → List Json
  | [] => []
  | j :: rest => canonical j :: canonicalItems rest
termination_by structural js => js

def canonicalMembers : List (String × Json) → List (String × Json)
  | [] => []
  | (name, j) :: rest => (name, canonical j) :: canonicalMembers rest
termination_by structural ms => ms

end

theorem canonicalItems_eq_map (items : List Json) : canonicalItems items = items.map canonical := by
  induction items with
  | nil => rfl
  | cons j items ih => rw [canonicalItems, ih, List.map_cons]

theorem canonicalMembers_eq_map (members : List (String × Json)) :
    canonicalMembers members = members.map fun p => (p.1, p.2.canonical) := by
  induction members with
  | nil => rfl
  | cons p members ih => rw [canonicalMembers, ih, List.map_cons]

@[simp] theorem canonical_null : canonical null = null := rfl

@[simp] theorem canonical_bool (b : Bool) : canonical (bool b) = bool b := rfl

@[simp] theorem canonical_int (n : Int) : canonical (int n) = int n := rfl

@[simp] theorem canonical_string (s : String) : canonical (string s) = string s := rfl

theorem canonical_float {x : Float} (h : x.isFinite = true) : canonical (float x) = float x :=
  if_pos h

@[simp] theorem canonical_array (items : List Json) :
    canonical (array items) = array (items.map canonical) :=
  congrArg array (canonicalItems_eq_map items)

theorem canonical_object (members : List (String × Json)) :
    canonical (object members) = object (Keyed.ofList
      (members.map fun p => (p.1, p.2.canonical)) : Dictionary Json).toList := by
  rw [← canonicalMembers_eq_map]
  rfl

/-- Members that stand in the order of their names stay in their places. -/
theorem canonical_object_of_sorted {members : List (String × Json)}
    (h : members.Pairwise fun p q => p.1 < q.1) :
    canonical (object members) = object (members.map fun p => (p.1, p.2.canonical)) := by
  rw [canonical_object, Keyed.toList_ofList_of_sorted]
  exact List.pairwise_map.2 h

theorem canonical_dictionary {d : Dictionary Json} (h : ∀ p ∈ d.toList, p.2.canonical = p.2) :
    canonical (object d.toList) = object d.toList := by
  rw [canonical_object_of_sorted d.sorted]
  refine congrArg object ((List.map_congr_left fun p hp => ?_).trans (List.map_id _))
  rw [h p hp]
  rfl

/-- A value that comes from a text is as it is handed on. -/
theorem canonical_of_readAny {levels : Nat} {t : Tree} {j : Json}
    (h : t.readAny levels = .ok j) : j.canonical = j := by
  induction levels using Nat.strongRecOn generalizing t j with
  | _ levels ih =>
    cases t with
    | null | bool =>
      rw [Tree.readAny] at h
      cases h
      rfl
    | number n =>
      rw [Tree.readAny, readNumeral_eq_ok_iff] at h
      obtain ⟨v, rfl⟩ | ⟨x, rfl⟩ := number_of_value? h
      · rfl
      · exact canonical_float (isFinite_of_value? h)
    | string text =>
      rw [Tree.readAny] at h
      obtain ⟨s, -, rfl⟩ := Except.map_eq_ok_iff.1 h
      rfl
    | missing | noColon =>
      rw [Tree.readAny] at h
      cases h
    | array items ending =>
      obtain ⟨l, values, rfl, hvalues, rfl⟩ := Tree.eq_array_of_readAny h
      rw [canonical_array]
      refine congrArg array ((List.map_congr_left fun v hv => ?_).trans (List.map_id _))
      obtain ⟨t, -, ht⟩ := exists_of_mem_forall₂ hvalues hv
      exact ih l (Nat.lt_succ_self l) ht
    | object members ending =>
      obtain ⟨l, values, rfl, hvalues, rfl⟩ := Tree.eq_object_of_readAny h
      refine canonical_dictionary fun p hp => ?_
      obtain ⟨member, -, -, hmember⟩ :=
        exists_of_mem_forall₂ hvalues (Keyed.mem_of_mem_ofList hp)
      exact ih l (Nat.lt_succ_self l) hmember

/-! ## Members of records -/

/-- What two records with the same canonical form have under a name has the same canonical form. -/
theorem last?_eq_of_canonical {members members' : List (String × Json)}
    (h : (object members).canonical = (object members').canonical) (name : String) :
    (last? name members).map canonical = (last? name members').map canonical := by
  rw [canonical_object, canonical_object, object.injEq] at h
  have hget := congrArg (Keyed.get? · name) (Keyed.ext h)
  simp only [Keyed.get?_ofList_eq_last?, last?_map] at hget
  exact Option.map_injective (fun _ _ hpair => (Prod.mk.inj hpair).2) hget

end Json

end ApiGraph

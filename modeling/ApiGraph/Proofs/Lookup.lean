import Mathlib.Data.List.Nodup

/-!
# Looking up by a key

In a list whose elements have different keys, searching for a key finds the one
element that has it. Registries, keyed lists and lists of lifted enumerations are all
searched in this way. Where keys are repeated, `last?` finds the value that counts.
-/

namespace ApiGraph

universe u v

/-- What a search for a key finds. -/
theorem find?_key_eq_some_iff {α : Type u} {κ : Type v} [DecidableEq κ] {key : α → κ} {l : List α}
    (hnodup : (l.map key).Nodup) {k : κ} {a : α} :
    l.find? (fun x => key x = k) = some a ↔ a ∈ l ∧ key a = k := by
  constructor
  · intro h
    exact ⟨List.mem_of_find?_eq_some h, by simpa using List.find?_some h⟩
  · rintro ⟨hmem, rfl⟩
    obtain ⟨b, hb⟩ : ∃ b, l.find? (fun x => key x = key a) = some b := by
      rw [← Option.isSome_iff_exists, List.find?_isSome]
      exact ⟨a, hmem, by simp⟩
    have hkey : key b = key a := by simpa using List.find?_some hb
    rw [hb, List.inj_on_of_nodup_map hnodup (List.mem_of_find?_eq_some hb) hmem hkey]

section Last

variable {α : Type u} {κ : Type v} [BEq κ] [LawfulBEq κ] [DecidableEq κ]

theorem lookup_cons_eq_ite (k : κ) (a : α) (l : List (κ × α)) (k' : κ) :
    ((k, a) :: l).lookup k' = if k' = k then some a else l.lookup k' := by
  rw [List.lookup_cons]
  by_cases hk : k' = k
  · rw [if_pos hk, beq_iff_eq.2 hk]
  · rw [if_neg hk, beq_eq_false_iff_ne.2 hk]

/-- The value at the last occurrence of a key. -/
def last? (k : κ) (l : List (κ × α)) : Option α := l.reverse.lookup k

omit [LawfulBEq κ] [DecidableEq κ] in
@[simp] theorem last?_nil (k : κ) : last? k ([] : List (κ × α)) = none := rfl

omit [LawfulBEq κ] [DecidableEq κ] in
@[simp] theorem last?_append (k : κ) (l l' : List (κ × α)) :
    last? k (l ++ l') = (last? k l').or (last? k l) := by
  rw [last?, List.reverse_append, List.lookup_append]
  rfl

@[simp] theorem last?_cons (k : κ) (p : κ × α) (l : List (κ × α)) :
    last? k (p :: l) = (last? k l).or (if k = p.1 then some p.2 else none) := by
  rw [← List.singleton_append, last?_append]
  exact congrArg _ (lookup_cons_eq_ite p.1 p.2 [] k)

theorem last?_map {β : Type u} (f : α → β) (k : κ) (l : List (κ × α)) :
    last? k (l.map fun p => (p.1, f p.2)) = (last? k l).map f := by
  induction l with
  | nil => rfl
  | cons p l ih =>
    rw [List.map_cons, last?_cons, last?_cons, ih, Option.map_or]
    split <;> rfl

end Last

end ApiGraph

import ApiGraph.Keyed
import ApiGraph.Proofs.Lookup
import Mathlib.Data.List.Dedup
import Mathlib.Data.List.Perm.Basic
import Mathlib.Tactic.Tauto

/-!
# Laws of keyed lists

A keyed list is determined by what is found under each key, which is `ext_get?`, and
a value is in it when it is found under its own key. Everything else about insertion
follows from the one equation for `get?`.
-/

namespace ApiGraph.Keyed

universe u

variable {α : Type u} {key : α → String}

theorem nodup_map_key_of_sorted {l : List α} (h : l.Pairwise fun a b => key a < key b) :
    (l.map key).Nodup := by
  rw [List.Nodup, List.pairwise_map]
  refine h.imp ?_
  intro a b hlt heq
  rw [heq] at hlt
  exact String.lt_irrefl _ hlt

/-- Lists in increasing order of their keys are equal when they have the same elements. -/
theorem eq_of_sorted {l l' : List α} (h : l.Pairwise fun a b => key a < key b)
    (h' : l'.Pairwise fun a b => key a < key b) (hmem : ∀ a, a ∈ l ↔ a ∈ l') : l = l' := by
  have hperm : l.Perm l' := (List.perm_ext_iff_of_nodup (nodup_map_key_of_sorted h).of_map
    (nodup_map_key_of_sorted h').of_map).2 hmem
  refine hperm.eq_of_pairwise (fun a b _ _ hab hba => ?_) h h'
  exact absurd (String.lt_trans hab hba) (String.lt_irrefl _)

theorem nodup_keys (m : Keyed α key) : (m.toList.map key).Nodup :=
  nodup_map_key_of_sorted m.sorted

theorem get?_eq_some_iff {m : Keyed α key} {k : String} {a : α} :
    m.get? k = some a ↔ a ∈ m.toList ∧ key a = k :=
  find?_key_eq_some_iff m.nodup_keys

/-- A value is in the list when it is found under its own key. -/
theorem mem_toList_iff {m : Keyed α key} {a : α} : a ∈ m.toList ↔ m.get? (key a) = some a := by
  rw [get?_eq_some_iff]
  simp

/-- Keyed lists with the same values under all keys are equal. -/
theorem ext_get? {m n : Keyed α key} (h : ∀ k, m.get? k = n.get? k) : m = n := by
  refine ext (eq_of_sorted m.sorted n.sorted fun a => ?_)
  rw [mem_toList_iff, mem_toList_iff, h]

theorem mem_toList_insert {m : Keyed α key} {a b : α} :
    b ∈ (m.insert a).toList ↔ b = a ∨ b ∈ m.toList ∧ key b ≠ key a := by
  rw [mem_toList_iff, get?_insert, mem_toList_iff]
  by_cases hkey : key a = key b
  · rw [if_pos hkey]
    simp [hkey, eq_comm]
  · rw [if_neg hkey]
    have hne : b ≠ a := by
      rintro rfl
      exact hkey rfl
    simp [hne, Ne.symm hkey]

theorem mem_of_mem_insertAll {m : Keyed α key} {as : List α} {b : α}
    (h : b ∈ (m.insertAll as).toList) : b ∈ as ∨ b ∈ m.toList := by
  induction as generalizing m with
  | nil => exact .inr h
  | cons a as ih =>
    rw [insertAll_cons] at h
    rcases ih h with hb | hb
    · exact .inl (List.mem_cons_of_mem a hb)
    · rcases mem_toList_insert.1 hb with rfl | ⟨hb, -⟩
      · exact .inl List.mem_cons_self
      · exact .inr hb

theorem mem_of_mem_ofList {as : List α} {b : α} (h : b ∈ (ofList as : Keyed α key).toList) :
    b ∈ as :=
  (mem_of_mem_insertAll h).resolve_right List.not_mem_nil

/-- Of values put in one after the other the last under a key is found. -/
theorem get?_insertAll (m : Keyed α key) (as : List α) (k : String) :
    (m.insertAll as).get? k = (as.reverse.find? fun a => key a = k).or (m.get? k) := by
  induction as generalizing m with
  | nil => rfl
  | cons a as ih =>
    rw [insertAll_cons, ih, get?_insert, List.reverse_cons, List.find?_append, Option.or_assoc]
    by_cases ha : key a = k <;> simp [ha]

theorem get?_insertAll_of_not_mem {m : Keyed α key} {as : List α} {k : String}
    (h : k ∉ as.map key) : (m.insertAll as).get? k = m.get? k := by
  have hnone : (as.reverse.find? fun a => key a = k) = none := by
    rw [List.find?_eq_none]
    intro a ha hkey
    exact h (List.mem_map.2 ⟨a, List.mem_reverse.1 ha, of_decide_eq_true hkey⟩)
  rw [get?_insertAll, hnone, Option.none_or]

/-- Of values with different keys each is found afterwards. -/
theorem get?_insertAll_of_mem {m : Keyed α key} {as : List α} (hnodup : (as.map key).Nodup) {a : α}
    (h : a ∈ as) : (m.insertAll as).get? (key a) = some a := by
  have hreverse : (as.reverse.map key).Nodup := by
    rwa [List.map_reverse, List.nodup_reverse]
  rw [get?_insertAll, (find?_key_eq_some_iff hreverse).2 ⟨List.mem_reverse.2 h, rfl⟩,
    Option.some_or]

/-- What is found after values with different keys have been put in. -/
theorem get?_insertAll_eq_some_iff {m : Keyed α key} {as : List α}
    (hnodup : (as.map key).Nodup) {k : String} {a : α} :
    (m.insertAll as).get? k = some a ↔
      a ∈ as ∧ key a = k ∨ k ∉ as.map key ∧ m.get? k = some a := by
  by_cases hk : k ∈ as.map key
  · obtain ⟨b, hb, rfl⟩ := List.mem_map.1 hk
    rw [get?_insertAll_of_mem hnodup hb, Option.some.injEq]
    constructor
    · rintro rfl
      exact .inl ⟨hb, rfl⟩
    · rintro (⟨ha, hkey⟩ | ⟨hnot, -⟩)
      · exact (List.inj_on_of_nodup_map hnodup ha hb hkey).symm
      · exact absurd hk hnot
  · rw [get?_insertAll_of_not_mem hk]
    constructor
    · intro h
      exact .inr ⟨hk, h⟩
    · rintro (⟨ha, rfl⟩ | ⟨-, h⟩)
      · exact absurd (List.mem_map_of_mem ha) hk
      · exact h

theorem mem_toList_ofList {as : List α} (hnodup : (as.map key).Nodup) {a : α} :
    a ∈ (ofList as : Keyed α key).toList ↔ a ∈ as := by
  rw [mem_toList_iff, ofList, get?_insertAll_eq_some_iff hnodup]
  simp

/-- Lists with the same values, all of different keys, make the same keyed list. -/
theorem ofList_congr {as bs : List α} (has : (as.map key).Nodup) (hbs : (bs.map key).Nodup)
    (hmem : ∀ a, a ∈ as ↔ a ∈ bs) : (ofList as : Keyed α key) = ofList bs := by
  refine ext (eq_of_sorted (sorted _) (sorted _) fun a => ?_)
  rw [mem_toList_ofList has, mem_toList_ofList hbs, hmem]

/-- Of values under the same name the last stays. -/
theorem get?_ofList_eq_last? {β : Type u} (as : List (String × β)) (k : String) :
    (ofList as : Dictionary β).get? k = (last? k as).map fun b => (k, b) := by
  have hall (m : Dictionary β) :
      (m.insertAll as).get? k = ((last? k as).map fun b => (k, b)).or (m.get? k) := by
    induction as generalizing m with
    | nil => rfl
    | cons p as ih =>
      rw [insertAll_cons, ih, get?_insert, last?_cons, Option.map_or, Option.or_assoc]
      by_cases hk : k = p.1
      · rw [if_pos hk, if_pos hk.symm, hk]
        rfl
      · rw [if_neg hk, if_neg (Ne.symm hk)]
        rfl
  rw [ofList, hall]
  exact Option.or_none

theorem toList_ofList_of_sorted {as : List α} (h : as.Pairwise fun a b => key a < key b) :
    (ofList as : Keyed α key).toList = as :=
  eq_of_sorted (sorted _) h fun _ => mem_toList_ofList (nodup_map_key_of_sorted h)

theorem mem_keys_iff {m : Keyed α key} {k : String} : k ∈ m.keys ↔ ∃ a, m.get? k = some a := by
  simp [keys, get?_eq_some_iff]

theorem mem_keys_insertAll {m : Keyed α key} {as : List α} {k : String} :
    k ∈ (m.insertAll as).keys ↔ k ∈ as.map key ∨ k ∈ m.keys := by
  induction as generalizing m with
  | nil => simp [insertAll_nil]
  | cons a as ih =>
    have hinsert : k ∈ (m.insert a).keys ↔ k = key a ∨ k ∈ m.keys := by
      rw [mem_keys_iff, get?_insert, mem_keys_iff]
      by_cases hkey : key a = k
      · simp [hkey]
      · simp [hkey, Ne.symm hkey]
    rw [insertAll_cons, ih, hinsert, List.map_cons, List.mem_cons]
    tauto

/-! ## Sizes -/

theorem length_keys (m : Keyed α key) : m.keys.length = m.size := List.length_map _

theorem length_insertInto {a : α} {l : List α} (h : l.Pairwise fun a b => key a < key b) :
    (insertInto key a l).length = if key a ∈ l.map key then l.length else l.length + 1 := by
  induction l with
  | nil => rfl
  | cons b rest ih =>
    obtain ⟨hb, hrest⟩ := List.pairwise_cons.1 h
    unfold insertInto
    split
    · rename_i hlt
      -- the key is below all others
      have hnot : key a ∉ (b :: rest).map key := by
        intro hmem
        obtain ⟨c, hc, heq⟩ := List.mem_map.1 hmem
        rcases List.mem_cons.1 hc with rfl | hc
        · exact String.lt_irrefl _ (heq ▸ hlt)
        · exact String.lt_irrefl _ (heq ▸ String.lt_trans hlt (hb c hc))
      rw [if_neg hnot]
      rfl
    · split
      · rename_i heq
        rw [if_pos (by simp [heq])]
        rfl
      · rename_i hne
        rw [List.length_cons, ih hrest, List.map_cons, List.length_cons]
        simp only [List.mem_cons, hne, false_or]
        split <;> rfl

/-- Putting in a value makes a keyed list longer, unless it displaces another. -/
theorem size_insert (m : Keyed α key) (a : α) :
    (m.insert a).size + (if (m.get? (key a)).isSome then 1 else 0) = m.size + 1 := by
  have hmem : key a ∈ m.toList.map key ↔ (m.get? (key a)).isSome = true := by
    rw [Option.isSome_iff_exists]
    exact mem_keys_iff
  rw [size, toList_insert, length_insertInto m.sorted, size]
  simp only [hmem]
  split <;> rfl

/-- There is one value for each key. -/
theorem size_insertAll (m : Keyed α key) (as : List α) :
    (m.insertAll as).size = (m.keys ++ as.map key).dedup.length := by
  rw [← length_keys]
  refine ((List.perm_ext_iff_of_nodup (nodup_keys _) (List.nodup_dedup _)).2 fun k => ?_).length_eq
  rw [List.mem_dedup, List.mem_append]
  exact mem_keys_insertAll.trans or_comm

theorem size_ofList {as : List α} (hnodup : (as.map key).Nodup) :
    (ofList as : Keyed α key).size = as.length :=
  ((List.perm_ext_iff_of_nodup (nodup_keys _).of_map hnodup.of_map).2
    fun _ => mem_toList_ofList hnodup).length_eq

/-- What is listed of all values grows by no more than is listed of the value that is put in. -/
theorem length_flatMap_insertInto_le {β : Type u} (f : α → List β) (a : α) (l : List α) :
    ((insertInto key a l).flatMap f).length ≤ (l.flatMap f).length + (f a).length := by
  induction l with
  | nil =>
    rw [insertInto, List.flatMap_cons, List.length_append]
    omega
  | cons b rest ih =>
    unfold insertInto
    split
    · rw [List.flatMap_cons, List.length_append]
      omega
    · split
      · simp only [List.flatMap_cons, List.length_append]
        omega
      · simp only [List.flatMap_cons, List.length_append]
        omega

/-! ## Values that carry their keys along -/

theorem map_insertInto {β : Type u} {key' : β → String} (f : α → β)
    (hf : ∀ a, key' (f a) = key a) (a : α) (l : List α) :
    (insertInto key a l).map f = insertInto key' (f a) (l.map f) := by
  induction l with
  | nil => rfl
  | cons b rest ih =>
    simp only [insertInto, List.map_cons, hf]
    split
    · rfl
    · split
      · rfl
      · rw [List.map_cons, ih]

end ApiGraph.Keyed

/-!
# Lists ordered by a key

A `Keyed α key` holds values in strictly increasing order of a text computed from
each of them, so a key occurs once and the order of insertion leaves no trace.
Texts are compared character by character, by code point. Putting in a value
displaces the one that has the same key.
-/

namespace ApiGraph

universe u

/-- Values in strictly increasing order of their keys. -/
structure Keyed (α : Type u) (key : α → String) where
  toList : List α
  sorted : toList.Pairwise fun a b => key a < key b

namespace Keyed

variable {α : Type u} {key : α → String}

def insertInto (key : α → String) (a : α) : List α → List α
  | [] => [a]
  | b :: rest =>
    if key a < key b then a :: b :: rest
    else if key a = key b then a :: rest
    else b :: insertInto key a rest

theorem mem_of_mem_insertInto {a x : α} {l : List α} (h : x ∈ insertInto key a l) :
    x = a ∨ x ∈ l := by
  induction l with
  | nil => simpa [insertInto] using h
  | cons b rest ih =>
    unfold insertInto at h
    split at h
    · simpa using h
    · split at h
      · rcases List.mem_cons.1 h with rfl | h
        · exact .inl rfl
        · exact .inr (List.mem_cons_of_mem _ h)
      · rcases List.mem_cons.1 h with rfl | h
        · exact .inr (List.mem_cons_self ..)
        · rcases ih h with rfl | h
          · exact .inl rfl
          · exact .inr (List.mem_cons_of_mem _ h)

theorem pairwise_insertInto {a : α} {l : List α}
    (h : l.Pairwise fun a b => key a < key b) :
    (insertInto key a l).Pairwise fun a b => key a < key b := by
  induction l with
  | nil => simp [insertInto]
  | cons b rest ih =>
    obtain ⟨hb, hrest⟩ := List.pairwise_cons.1 h
    unfold insertInto
    split
    · rename_i hlt
      refine List.pairwise_cons.2 ⟨fun x hx => ?_, h⟩
      rcases List.mem_cons.1 hx with rfl | hx
      · exact hlt
      · exact String.lt_trans hlt (hb x hx)
    · rename_i hlt
      split
      · rename_i heq
        exact List.pairwise_cons.2 ⟨fun x hx => heq ▸ hb x hx, hrest⟩
      · rename_i hne
        refine List.pairwise_cons.2 ⟨fun x hx => ?_, ih hrest⟩
        rcases mem_of_mem_insertInto hx with rfl | hx
        · exact Std.lt_of_le_of_ne (String.not_lt.1 hlt) (Ne.symm hne)
        · exact hb x hx

def empty : Keyed α key := ⟨[], List.Pairwise.nil⟩

instance : EmptyCollection (Keyed α key) := ⟨empty⟩

instance : Inhabited (Keyed α key) := ⟨∅⟩

def size (m : Keyed α key) : Nat := m.toList.length

def isEmpty (m : Keyed α key) : Bool := m.toList.isEmpty

def get? (m : Keyed α key) (k : String) : Option α := m.toList.find? fun a => key a = k

def contains (m : Keyed α key) (k : String) : Bool := (m.get? k).isSome

/-- Puts in a value, in place of one with the same key. -/
def insert (m : Keyed α key) (a : α) : Keyed α key :=
  ⟨insertInto key a m.toList, pairwise_insertInto m.sorted⟩

def insertAll (m : Keyed α key) (as : List α) : Keyed α key := as.foldl insert m

/-- The values of a list; of those with equal keys the last stays. -/
def ofList (as : List α) : Keyed α key := insertAll ∅ as

def keys (m : Keyed α key) : List String := m.toList.map key

@[ext] theorem ext {m n : Keyed α key} (h : m.toList = n.toList) : m = n := by
  cases m; cases n; cases h; rfl

@[simp] theorem toList_empty : (∅ : Keyed α key).toList = [] := rfl

@[simp] theorem toList_insert (m : Keyed α key) (a : α) :
    (m.insert a).toList = insertInto key a m.toList := rfl

@[simp] theorem get?_empty (k : String) : (∅ : Keyed α key).get? k = none := rfl

theorem find?_insertInto (k : String) (a : α) (l : List α) :
    (insertInto key a l).find? (fun b => key b = k) =
      if key a = k then some a else l.find? fun b => key b = k := by
  induction l with
  | nil => by_cases ha : key a = k <;> simp [insertInto, ha]
  | cons b rest ih =>
    unfold insertInto
    split
    · by_cases ha : key a = k <;> simp [ha]
    · split
      · rename_i heq
        by_cases ha : key a = k
        · simp [ha]
        · simp [ha, ← heq]
      · rename_i hne
        by_cases hb : key b = k
        · have ha : key a ≠ k := fun ha => hne (ha.trans hb.symm)
          simp [ha, hb]
        · simp [hb, ih]

/-- Putting in a value changes what is under its own key and nothing else. -/
theorem get?_insert (m : Keyed α key) (a : α) (k : String) :
    (m.insert a).get? k = if key a = k then some a else m.get? k :=
  find?_insertInto k a m.toList

theorem insertAll_nil (m : Keyed α key) : m.insertAll [] = m := rfl

theorem insertAll_cons (m : Keyed α key) (a : α) (as : List α) :
    m.insertAll (a :: as) = (m.insert a).insertAll as := rfl

theorem insertAll_append (m : Keyed α key) (as bs : List α) :
    m.insertAll (as ++ bs) = (m.insertAll as).insertAll bs := by
  simp [insertAll]

end Keyed

abbrev Dictionary (α : Type u) := Keyed (String × α) Prod.fst

end ApiGraph

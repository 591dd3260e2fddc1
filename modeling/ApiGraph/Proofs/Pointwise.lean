import Mathlib.Data.List.Forall2

/-!
# Lists related position by position

The models that are built of schemas, or that a pass makes of models, are in a relation with
those position by position, which is `List.Forall₂`. From this follows what each element of
one list has to do with the other list. For optional values the same is `Option.Rel`.
-/

namespace ApiGraph

/-- When the relation leaves no choice, the second list has what belongs to the first. -/
theorem mem_forall₂_iff {α β : Type} {R : α → β → Prop} (hR : Relator.RightUnique R) {l : List α}
    {l' : List β} (h : List.Forall₂ R l l') {b : β} : b ∈ l' ↔ ∃ a ∈ l, R a b := by
  induction h with
  | nil => simp
  | cons hab _ ih =>
    rw [List.mem_cons, ih, List.exists_mem_cons_iff]
    refine or_congr_left ⟨?_, fun hab' => hR hab' hab⟩
    rintro rfl
    exact hab

theorem exists_of_mem_forall₂ {α β : Type} {R : α → β → Prop} {l : List α} {l' : List β}
    (h : List.Forall₂ R l l') {b : β} (hb : b ∈ l') : ∃ a ∈ l, R a b := by
  induction h with
  | nil => exact absurd hb List.not_mem_nil
  | cons hab _ ih =>
    rcases List.mem_cons.1 hb with rfl | hb
    · exact ⟨_, List.mem_cons_self, hab⟩
    · obtain ⟨a, ha, hab⟩ := ih hb
      exact ⟨a, List.mem_cons_of_mem _ ha, hab⟩

theorem exists_of_rel_some {α β : Type} {R : α → β → Prop} {o : Option α} {o' : Option β}
    (h : Option.Rel R o o') {b : β} (hb : o' = some b) : ∃ a, o = some a ∧ R a b := by
  subst hb
  obtain ⟨hab⟩ := h
  exact ⟨_, rfl, hab⟩

theorem exists_forall₂ {α β : Type} {R : α → β → Prop} {l : List α} (h : ∀ a ∈ l, ∃ b, R a b) :
    ∃ l', List.Forall₂ R l l' := by
  induction l with
  | nil => exact ⟨[], .nil⟩
  | cons a l ih =>
    obtain ⟨b, hb⟩ := h a List.mem_cons_self
    obtain ⟨l', hl'⟩ := ih fun a ha => h a (List.mem_cons_of_mem _ ha)
    exact ⟨b :: l', .cons hb hl'⟩

theorem rel_of_getElem? {α β : Type} {R : α → β → Prop} {l : List α} {l' : List β}
    (h : List.Forall₂ R l l') {i : Nat} {a : α} {b : β} (ha : l[i]? = some a)
    (hb : l'[i]? = some b) : R a b := by
  induction h generalizing i with
  | nil => cases ha
  | cons hab _ ih =>
    cases i with
    | zero =>
      cases ha
      cases hb
      exact hab
    | succ i => exact ih ha hb

/-- An element can give way to another that is related to all it was related to. -/
theorem forall₂_replace {α β : Type} {R : α → β → Prop} {a a' : α} (h : ∀ b, R a b → R a' b)
    {l r : List α} {l' : List β} (hl : List.Forall₂ R (l ++ a :: r) l') :
    List.Forall₂ R (l ++ a' :: r) l' := by
  induction l generalizing l' with
  | nil =>
    obtain ⟨b, l', hab, hr, rfl⟩ := List.forall₂_cons_left_iff.1 hl
    exact .cons (h b hab) hr
  | cons c l ih =>
    obtain ⟨b, l', hcb, hrest, rfl⟩ := List.forall₂_cons_left_iff.1 hl
    exact .cons hcb (ih hrest)

theorem forall₂_map_of_forall {α β : Type} {R : α → β → Prop} {f : α → β} {l : List α}
    (h : ∀ a ∈ l, R a (f a)) : List.Forall₂ R l (l.map f) :=
  List.forall₂_map_right_iff.2 (List.forall₂_same.2 h)

theorem forall₂_trans {α β γ : Type} {R : α → β → Prop} {S : β → γ → Prop} {T : α → γ → Prop}
    {l : List α} {l' : List β} {l'' : List γ} (h : List.Forall₂ R l l')
    (h' : List.Forall₂ S l' l'') (hT : ∀ a b c, R a b → S b c → T a c) :
    List.Forall₂ T l l'' := by
  induction h generalizing l'' with
  | nil =>
    cases h'
    exact .nil
  | cons hab _ ih =>
    cases h' with
    | cons hbc htail => exact .cons (hT _ _ _ hab hbc) (ih htail)

theorem map_eq_map_of_forall₂ {α β γ : Type} {R : α → β → Prop} {f : α → γ} {g : β → γ}
    {l : List α} {l' : List β} (h : List.Forall₂ R l l') (hR : ∀ a b, R a b → g b = f a) :
    l'.map g = l.map f := by
  induction h with
  | nil => rfl
  | cons hab _ ih => rw [List.map_cons, List.map_cons, hR _ _ hab, ih]

/-- What holds of some pair of related elements can be said of the second element alone. -/
theorem exists_mem_zip_iff {α β : Type} {R : α → β → Prop} {P : α × β → Prop} {Q : β → Prop}
    {l : List α} {l' : List β} (h : List.Forall₂ R l l') (hPQ : ∀ a b, R a b → (P (a, b) ↔ Q b)) :
    (∃ q ∈ l.zip l', P q) ↔ ∃ b ∈ l', Q b := by
  induction h with
  | nil => simp
  | cons hab _ ih =>
    rw [List.zip_cons_cons, List.exists_mem_cons_iff, List.exists_mem_cons_iff, ih, hPQ _ _ hab]

end ApiGraph

import ApiGraph.Model.Encoding
import ApiGraph.Proofs.Json.Canonical

/-!
# Writing that loses nothing

A way of writing is lossless for some values when no two of them are written to the same canonical
form. Lists and optional values are written without loss when their elements are. A member that is
left out stands for one value only: the empty list, the empty text, no extensions, or `false`.
-/

namespace ApiGraph

namespace Json

variable {α : Type}

/-- Values with the property are told apart by what is written, in its canonical form. -/
def Lossless (P : α → Prop) (write : α → Json) : Prop :=
  ∀ a b, P a → P b → (write a).canonical = (write b).canonical → a = b

theorem lossless_string : Lossless (fun _ => True) string :=
  fun _ _ _ _ h => string.inj h

section Lossless

variable {P : α → Prop} {write : α → Json} (h : Lossless P write)
include h

theorem Lossless.list {as bs : List α} (has : ∀ a ∈ as, P a) (hbs : ∀ b ∈ bs, P b)
    (heq : as.map (canonical ∘ write) = bs.map (canonical ∘ write)) : as = bs := by
  induction as generalizing bs with
  | nil => exact (List.map_eq_nil_iff.1 heq.symm).symm
  | cons a as ih =>
    obtain ⟨b, bs, rfl, hhead, htail⟩ := List.map_eq_cons_iff.1 heq.symm
    rw [List.forall_mem_cons] at has hbs
    rw [h a b has.1 hbs.1 hhead.symm, ih has.2 hbs.2 htail.symm]

theorem Lossless.array {as bs : List α} (has : ∀ a ∈ as, P a) (hbs : ∀ b ∈ bs, P b)
    (heq : (Json.array (as.map write)).canonical = (Json.array (bs.map write)).canonical) :
    as = bs := by
  rw [canonical_array, canonical_array, List.map_map, List.map_map] at heq
  exact h.list has hbs (Json.array.inj heq)

theorem Lossless.option {o p : Option α} (ho : ∀ a ∈ o, P a) (hp : ∀ b ∈ p, P b)
    (heq : (o.map write).map canonical = (p.map write).map canonical) : o = p := by
  cases o with
  | none => cases p with
    | none => rfl
    | some b => cases heq
  | some a => cases p with
    | none => cases heq
    | some b => rw [h a b (ho a rfl) (hp b rfl) (Option.some.inj heq)]

end Lossless

/-! ## Members that may be left out -/

@[simp] theorem last?_optional (name m : String) (write : α → Json) (o : Option α) :
    last? name (optional m write o) = if name = m then o.map write else none := by
  cases o with
  | none => split <;> rfl
  | some a => exact last?_cons name (m, write a) []

@[simp] theorem last?_memberIf (name m : String) (shown : Bool) (v : Json) :
    last? name (memberIf shown m v) =
      if name = m then (if shown then some v else none) else none := by
  cases shown with
  | false => split <;> rfl
  | true => exact last?_cons name (m, v) []

/-- A member that is there for `true` alone. -/
@[simp] theorem flag_inj {b c : Bool} {v : Json} :
    (if b = true then some v else none) = (if c = true then some v else none) ↔ b = c := by
  cases b <;> cases c <;> simp

@[simp] theorem map_string_inj {o p : Option String} :
    o.map (canonical ∘ string) = p.map (canonical ∘ string) ↔ o = p :=
  (Option.map_injective fun _ _ h => string.inj h).eq_iff

def list? (write : α → Json) (as : List α) : Option Json :=
  if as.isEmpty then none else some (.array (as.map write))

@[simp] theorem last?_listMember (name m : String) (write : α → Json) (as : List α) :
    last? name (listMember m write as) = if name = m then list? write as else none := by
  rw [listMember, last?_memberIf, list?]
  cases as <;> rfl

/-- An empty list is the only one that is left out. -/
theorem Lossless.list? {P : α → Prop} {write : α → Json} (h : Lossless P write) {as bs : List α}
    (has : ∀ a ∈ as, P a) (hbs : ∀ b ∈ bs, P b)
    (heq : (Json.list? write as).map canonical = (Json.list? write bs).map canonical) :
    as = bs := by
  unfold Json.list? at heq
  cases as with
  | nil => cases bs with
    | nil => rfl
    | cons b bs => cases heq
  | cons a as => cases bs with
    | nil => cases heq
    | cons b bs => exact h.array has hbs (Option.some.inj heq)

def text? (s : String) : Option Json := if s.isEmpty then none else some (.string s)

@[simp] theorem last?_textMember (name m s : String) :
    last? name (textMember m s) = if name = m then text? s else none := by
  rw [textMember, last?_memberIf, text?]
  cases s.isEmpty <;> rfl

/-- An empty text is the only one that is left out. -/
@[simp] theorem map_text?_inj {s t : String} :
    (text? s).map canonical = (text? t).map canonical ↔ s = t := by
  refine ⟨fun h => ?_, fun h => h ▸ rfl⟩
  unfold text? at h
  by_cases hs : s.isEmpty = true <;> by_cases ht : t.isEmpty = true
  · rw [String.isEmpty_iff.1 hs, String.isEmpty_iff.1 ht]
  · rw [if_pos hs, if_neg ht] at h
    cases h
  · rw [if_neg hs, if_pos ht] at h
    cases h
  · rw [if_neg hs, if_neg ht] at h
    exact string.inj (Option.some.inj h)

end Json

open Json

/-! ## Extensions -/

namespace Extensions

/-- The values are as a text gives them: doubles are finite, and the members of an object stand in
the order of their names, one for each name. -/
def Canonical (e : Extensions) : Prop := ∀ p ∈ e.toList, p.2.canonical = p.2

theorem canonical_empty : Canonical ∅ := fun _ hp => absurd hp List.not_mem_nil

theorem Canonical.toJson_canonical {e : Extensions} (h : e.Canonical) :
    e.toJson.canonical = e.toJson := canonical_dictionary h

def written? (e : Extensions) : Option Json := if e.isEmpty then none else some e.toJson

@[simp] theorem last?_members (name : String) (e : Extensions) :
    last? name e.members = if name = "extensions" then e.written? else none := by
  rw [members, last?_memberIf, written?]
  cases e.isEmpty <;> rfl

/-- Extensions are left out when there are none, and only then. -/
theorem eq_of_written? {e e' : Extensions} (h : e.Canonical) (h' : e'.Canonical)
    (heq : e.written?.map canonical = e'.written?.map canonical) : e = e' := by
  unfold written? at heq
  have hnil {e : Extensions} (he : e.isEmpty = true) : e.toList = [] := List.isEmpty_iff.1 he
  by_cases he : e.isEmpty = true <;> by_cases he' : e'.isEmpty = true
  · exact Keyed.ext ((hnil he).trans (hnil he').symm)
  · rw [if_pos he, if_neg he'] at heq
    cases heq
  · rw [if_neg he, if_pos he'] at heq
    cases heq
  · rw [if_neg he, if_neg he', Option.map_some, Option.map_some, h.toJson_canonical,
      h'.toJson_canonical] at heq
    exact Keyed.ext (object.inj (Option.some.inj heq))

end Extensions

end ApiGraph

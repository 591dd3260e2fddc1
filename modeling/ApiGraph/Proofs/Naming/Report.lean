import ApiGraph.Proofs.Naming.Step

/-!
# What a step reports

A step only ever adds events to the log. `x.Reports P` says that whatever `x` adds when it
succeeds has the property `P`, so that the events of all other kinds in the log are those
that were there before. Making a name has events of its own, which are listed here; they
are all that a step reports when all it does is to make names.
-/

namespace ApiGraph

open Identifier

/-- The request and the identifier that an event is about, if it reports a truncation. -/
def Event.truncation? : Event → Option (Request × String)
  | .truncated name suffix result => some (⟨name, suffix⟩, result)
  | _ => none

def Event.isNaming : Event → Bool
  | .emptyName .. | .leadingDigit .. | .reservedWord .. | .variableRenamed .. => true
  | .truncated .. => true
  | _ => false

namespace Naming

variable {α β : Type} {P : Event → Prop}

/-- The events that the step adds have the property. -/
def Reports (x : Naming α) (P : Event → Prop) : Prop :=
  ∀ s a t, x s = .ok a t → ∃ es, t.log.toList = s.log.toList ++ es ∧ ∀ e ∈ es, P e

theorem reports_pure (a : α) : (pure a : Naming α).Reports P := by
  intro s b t h
  obtain ⟨-, rfl⟩ := pure_eq_ok_iff.1 h
  exact ⟨[], by simp, by simp⟩

theorem reports_throw (e : Exhausted) : (throw e : Naming α).Reports P := by
  intro s b t h
  cases h

theorem reports_reportAll {es : List Event} (h : ∀ e ∈ es, P e) : (reportAll es).Reports P := by
  intro s u t hok
  cases hok
  exact ⟨es, by simp, h⟩

theorem Reports.bind {x : Naming α} {f : α → Naming β} (hx : x.Reports P)
    (hf : ∀ a, (f a).Reports P) : (x >>= f).Reports P := by
  intro s b u h
  obtain ⟨a, t, ha, hb⟩ := bind_eq_ok_iff.1 h
  obtain ⟨es, hes, hP⟩ := hx s a t ha
  obtain ⟨es', hes', hP'⟩ := hf a t b u hb
  refine ⟨es ++ es', by rw [hes', hes, List.append_assoc], fun e he => ?_⟩
  rcases List.mem_append.1 he with he | he
  · exact hP e he
  · exact hP' e he

theorem Reports.mono {x : Naming α} {Q : Event → Prop} (hx : x.Reports P)
    (h : ∀ e, P e → Q e) : x.Reports Q := by
  intro s a t hok
  obtain ⟨es, hes, hP⟩ := hx s a t hok
  exact ⟨es, hes, fun e he => h e (hP e he)⟩

/-- Among events of one kind there are none of another. -/
theorem filter_eq_nil_of_forall {es : List Event} (hes : ∀ e ∈ es, P e) {p : Event → Bool}
    (h : ∀ e, P e → p e = false) : es.filter p = [] := by
  refine List.filter_eq_nil_iff.2 fun e he => ?_
  rw [h e (hes e he)]
  exact Bool.false_ne_true

/-- Events of another kind than those reported are what they were before. -/
theorem Reports.filter_eq {x : Naming α} (hx : x.Reports P) {p : Event → Bool}
    (h : ∀ e, P e → p e = false) {s t : Session} {a : α} (hok : x s = .ok a t) :
    t.log.toList.filter p = s.log.toList.filter p := by
  obtain ⟨es, hes, hP⟩ := hx s a t hok
  rw [hes, List.filter_append, filter_eq_nil_of_forall hP h, List.append_nil]

theorem filter_reportIf {c : Bool} {e : Event} {s t : Session} {u : Unit} (p : Event → Bool)
    (h : reportIf c e s = .ok u t) :
    t.log.toList.filter p = s.log.toList.filter p ++ if c && p e then [e] else [] := by
  cases c with
  | false =>
    obtain ⟨-, rfl⟩ := pure_eq_ok_iff.1 h
    simp
  | true =>
    cases h
    simp [List.filter_cons]

/-! ## Making names -/

theorem reports_truncate (name suffix : String) :
    (truncate name suffix).Reports fun e => e.truncation?.isSome = true := by
  intro s text t h
  unfold truncate at h
  cases htrunc : s.registry.truncate ⟨name, suffix⟩ with
  | error e =>
    rw [htrunc] at h
    cases h
  | ok answer =>
    rw [htrunc] at h
    cases h
    dsimp only
    split
    · exact ⟨[.truncated name suffix answer.1], by simp, by simp [Event.truncation?]⟩
    · exact ⟨[], by simp, by simp⟩

theorem isNaming_of_isSome_truncation? {e : Event} (h : e.truncation?.isSome = true) :
    e.isNaming = true := by
  cases e <;> first | rfl | cases h

/-- Spelling a name makes no request. -/
theorem isNaming_of_mem_spellEvents {raw : String} {role : Role} {e : Event}
    (h : e ∈ spellEvents raw role) : e.isNaming = true ∧ e.truncation? = none := by
  unfold spellEvents repairEvents at h
  split at h
  · cases h
  · split at h
    · split at h
      · cases h
      · rw [List.mem_singleton.1 h]
        exact ⟨rfl, rfl⟩
    · rcases List.mem_append.1 h with h | h
      · split at h
        · rw [List.mem_singleton.1 h]
          exact ⟨rfl, rfl⟩
        · cases h
      · split at h
        · rw [List.mem_singleton.1 h]
          exact ⟨rfl, rfl⟩
        · cases h

end Naming

end ApiGraph

import ApiGraph.Proofs.Naming.Step
import ApiGraph.Proofs.Registry.Answer

/-!
# Steps that only recall names

`x.Recalls r a` says that over the registry `r` the step `x` returns `a` and asks for no
name that `r` does not know, so that the registry stays as it is. What has been reported
before makes no difference.

A step is memoizing when it only ever adds to the registry and, run again over its last
registry or any larger one, recalls its result. All steps of normalization are. For
them a run of two parts recalls what the parts recall, which is `recalls_bind_iff`, so
over a registry that is large enough a stage can be read as a pure function.
-/

namespace ApiGraph

open Identifier

namespace Naming

variable {α β : Type}

/-- Over the registry the step returns the value and needs no new name. -/
def Recalls (x : Naming α) (r : Registry) (a : α) : Prop :=
  ∀ log, ∃ log', x ⟨r, log⟩ = .ok a ⟨r, log'⟩

/-- The step only adds to the registry, and over any larger one it recalls its result. -/
def Memoizing (x : Naming α) : Prop :=
  ∀ s a t, x s = .ok a t → s.registry ≤ t.registry ∧ ∀ r, t.registry ≤ r → x.Recalls r a

/-- What is recalled is recalled in every session over the registry. -/
theorem Recalls.run {x : Naming α} {a : α} {s : Session} (h : x.Recalls s.registry a) :
    ∃ t, x s = .ok a t := by
  obtain ⟨log, hlog⟩ := h s.log
  exact ⟨⟨s.registry, log⟩, hlog⟩

/-- A step recalls one value only. -/
theorem Recalls.unique {x : Naming α} {r : Registry} {a b : α} (ha : x.Recalls r a)
    (hb : x.Recalls r b) : a = b := by
  obtain ⟨_, ha⟩ := ha #[]
  obtain ⟨_, hb⟩ := hb #[]
  rw [ha] at hb
  cases hb
  rfl

theorem Recalls.of_yields {x : Naming α} {P : α → Prop} {r : Registry} {a : α}
    (h : x.Recalls r a) (hx : x.Yields P) : P a := by
  obtain ⟨log, hlog⟩ := h #[]
  exact hx _ a _ hlog

/-! ## Memoizing steps -/

theorem memoizing_pure (a : α) : (pure a : Naming α).Memoizing := by
  intro s b t h
  obtain ⟨rfl, rfl⟩ := pure_eq_ok_iff.1 h
  exact ⟨le_refl s.registry, fun r _ log => ⟨log, rfl⟩⟩

theorem memoizing_throw (e : Exhausted) : (throw e : Naming α).Memoizing := by
  intro s b t h
  cases h

theorem memoizing_report (e : Event) : (report e).Memoizing := by
  intro s u t h
  cases h
  exact ⟨le_refl s.registry, fun r _ log => ⟨log.push e, rfl⟩⟩

theorem memoizing_reportIf (c : Bool) (e : Event) : (reportIf c e).Memoizing := by
  cases c with
  | false => exact memoizing_pure ()
  | true => exact memoizing_report e

theorem memoizing_reportAll (es : List Event) : (reportAll es).Memoizing := by
  intro s u t h
  cases h
  exact ⟨le_refl s.registry, fun r _ log => ⟨log ++ es, rfl⟩⟩

theorem Memoizing.bind {x : Naming α} {f : α → Naming β} (hx : x.Memoizing)
    (hf : ∀ a, (f a).Memoizing) : (x >>= f).Memoizing := by
  intro s b u h
  obtain ⟨a, t, ha, hb⟩ := bind_eq_ok_iff.1 h
  obtain ⟨hst, hrecallx⟩ := hx s a t ha
  obtain ⟨htu, hrecallf⟩ := hf a t b u hb
  refine ⟨hst.trans htu, fun r hr log => ?_⟩
  obtain ⟨log', hlog'⟩ := hrecallx r (htu.trans hr) log
  obtain ⟨log'', hlog''⟩ := hrecallf r hr log'
  exact ⟨log'', bind_eq_ok_iff.2 ⟨a, ⟨r, log'⟩, hlog', hlog''⟩⟩

/-- Truncation recalls what the registry answers. -/
theorem recalls_truncate_iff {q : Request} {r : Registry} {text : String} :
    (truncate q.name q.suffix).Recalls r text ↔ r.answer? q = some text := by
  constructor
  · intro h
    obtain ⟨log, hlog⟩ := h #[]
    exact (Registry.truncate_eq_ok (truncate_eq_ok hlog)).2
  · intro h log
    obtain ⟨log', hlog'⟩ := truncate_eq q ⟨r, log⟩
    rw [Registry.truncate_of_answer? h] at hlog'
    exact ⟨log', hlog'⟩

theorem memoizing_truncate (name suffix : String) : (truncate name suffix).Memoizing := by
  intro s text t h
  obtain ⟨hle, hanswer⟩ := Registry.truncate_eq_ok (truncate_eq_ok (q := ⟨name, suffix⟩) h)
  refine ⟨hle, fun r hr => ?_⟩
  exact (recalls_truncate_iff (q := ⟨name, suffix⟩)).2 (Registry.answer?_mono hr hanswer)

/-! ## What they recall -/

@[simp] theorem recalls_pure_iff {r : Registry} {a b : α} :
    (pure a : Naming α).Recalls r b ↔ a = b := by
  constructor
  · intro h
    obtain ⟨_, hlog⟩ := h #[]
    exact (pure_eq_ok_iff.1 hlog).1
  · rintro rfl log
    exact ⟨log, rfl⟩

theorem not_recalls_throw {e : Exhausted} {r : Registry} {a : α} :
    ¬ (throw e : Naming α).Recalls r a := by
  intro h
  obtain ⟨_, hlog⟩ := h #[]
  cases hlog

/-- Two steps in a row recall what the second makes of what the first recalls. -/
theorem recalls_bind_iff {x : Naming α} {f : α → Naming β} (hx : x.Memoizing)
    (hf : ∀ a, (f a).Memoizing) {r : Registry} {b : β} :
    (x >>= f).Recalls r b ↔ ∃ a, x.Recalls r a ∧ (f a).Recalls r b := by
  constructor
  · intro h
    obtain ⟨log', hlog'⟩ := h #[]
    obtain ⟨a, t, ha, hb⟩ := bind_eq_ok_iff.1 hlog'
    obtain ⟨hrt, hrecallx⟩ := hx _ a t ha
    obtain ⟨htr, hrecallf⟩ := hf a t b _ hb
    -- the registry in between lies between the first and the last, which are the same
    exact ⟨a, hrecallx r htr, hrecallf r (le_refl r)⟩
  · rintro ⟨a, ha, hb⟩ log
    obtain ⟨log', hlog'⟩ := ha log
    obtain ⟨log'', hlog''⟩ := hb log'
    exact ⟨log'', bind_eq_ok_iff.2 ⟨a, ⟨r, log'⟩, hlog', hlog''⟩⟩

theorem recalls_report {e : Event} {r : Registry} : (report e).Recalls r () :=
  fun log => ⟨log.push e, rfl⟩

theorem recalls_reportIf {c : Bool} {e : Event} {r : Registry} : (reportIf c e).Recalls r () := by
  cases c with
  | false => exact recalls_pure_iff.2 rfl
  | true => exact recalls_report

theorem recalls_reportAll {es : List Event} {r : Registry} : (reportAll es).Recalls r () :=
  fun log => ⟨log ++ es, rfl⟩

/-- Reporting does not count. -/
theorem recalls_bind_unit_iff {x : Naming Unit} {f : Unit → Naming β} (hx : x.Memoizing)
    (hf : (f ()).Memoizing) {r : Registry} {b : β} (hunit : x.Recalls r ()) :
    (x >>= f).Recalls r b ↔ (f ()).Recalls r b := by
  rw [recalls_bind_iff hx fun _ => hf]
  exact ⟨fun ⟨_, _, hb⟩ => hb, fun hb => ⟨(), hunit, hb⟩⟩

/-- A step for an optional value recalls what the step for the value does. -/
theorem recalls_mapM_option_iff {f : α → Naming β} (hf : ∀ a, (f a).Memoizing) {o : Option α}
    {r : Registry} {b? : Option β} :
    (o.mapM f).Recalls r b? ↔ Option.Rel (fun a b => (f a).Recalls r b) o b? := by
  cases o with
  | none =>
    refine recalls_pure_iff.trans ⟨?_, ?_⟩
    · rintro rfl
      exact .none
    · rintro ⟨⟩
      rfl
  | some a =>
    refine (recalls_bind_iff (hf a) fun b => memoizing_pure (some b)).trans ?_
    constructor
    · rintro ⟨b, hb, hpure⟩
      rw [← recalls_pure_iff.1 hpure]
      exact .some hb
    · rintro ⟨hb⟩
      exact ⟨_, hb, recalls_pure_iff.2 rfl⟩

end Naming

end ApiGraph

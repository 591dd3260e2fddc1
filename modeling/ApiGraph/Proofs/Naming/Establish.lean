import ApiGraph.Proofs.Naming.Recall

/-!
# What a step establishes

A name that has been made stays what it is, because the registry only grows. `x.Establishes P`
says that `x` only adds to the registry and that its result has the property `P` over the
registry that it leaves and over every larger one. So what the parts of a run establish can
all be read at the last registry of the run, and there two requests for one name have one
answer, no matter when they were made.
-/

namespace ApiGraph

open Identifier

namespace Naming

variable {α β : Type}

/-- The step only adds to the registry, and its result has the property over every registry from
then on. -/
def Establishes (x : Naming α) (P : Registry → α → Prop) : Prop :=
  ∀ s a t, x s = .ok a t → s.registry ≤ t.registry ∧ ∀ r, t.registry ≤ r → P r a

theorem establishes_pure {P : Registry → α → Prop} {a : α} (h : ∀ r, P r a) :
    (pure a : Naming α).Establishes P := by
  intro s b t hok
  obtain ⟨rfl, rfl⟩ := pure_eq_ok_iff.1 hok
  exact ⟨le_refl s.registry, fun r _ => h r⟩

theorem establishes_report (e : Event) : (report e).Establishes fun _ _ => True := by
  intro s u t hok
  cases hok
  exact ⟨le_refl s.registry, fun _ _ => trivial⟩

theorem establishes_reportIf (c : Bool) (e : Event) :
    (reportIf c e).Establishes fun _ _ => True := by
  cases c with
  | false => exact establishes_pure fun _ => trivial
  | true => exact establishes_report e

theorem establishes_reportAll (es : List Event) : (reportAll es).Establishes fun _ _ => True := by
  intro s u t hok
  cases hok
  exact ⟨le_refl s.registry, fun _ _ => trivial⟩

theorem Establishes.bind {x : Naming α} {f : α → Naming β} {P : Registry → α → Prop}
    {Q : Registry → β → Prop} (hx : x.Establishes P)
    (hf : ∀ a, (f a).Establishes fun r b => P r a → Q r b) : (x >>= f).Establishes Q := by
  intro s b u hok
  obtain ⟨a, t, ha, hb⟩ := bind_eq_ok_iff.1 hok
  obtain ⟨hst, hP⟩ := hx s a t ha
  obtain ⟨htu, hQ⟩ := hf a t b u hb
  exact ⟨hst.trans htu, fun r hr => hQ r hr (hP r (htu.trans hr))⟩

theorem Establishes.mono {x : Naming α} {P Q : Registry → α → Prop} (hx : x.Establishes P)
    (h : ∀ r a, P r a → Q r a) : x.Establishes Q := by
  intro s a t hok
  obtain ⟨hle, hP⟩ := hx s a t hok
  exact ⟨hle, fun r hr => h r a (hP r hr)⟩

theorem establishes_mapM {f : α → Naming β} {P : α → Registry → β → Prop} {l : List α}
    (h : ∀ a ∈ l, (f a).Establishes (P a)) :
    (l.mapM f).Establishes fun r bs => List.Forall₂ (fun a b => P a r b) l bs := by
  induction l with
  | nil =>
    rw [List.mapM_nil]
    exact establishes_pure fun r => .nil
  | cons a l ih =>
    rw [List.mapM_cons]
    refine (h a List.mem_cons_self).bind fun b => ?_
    refine (ih fun a ha => h a (List.mem_cons_of_mem _ ha)).bind fun bs => ?_
    exact establishes_pure fun r hbs hb => .cons hb hbs

theorem establishes_mapM_option {f : α → Naming β} {P : α → Registry → β → Prop} {o : Option α}
    (h : ∀ a ∈ o, (f a).Establishes (P a)) :
    (o.mapM f).Establishes fun r b? => Option.Rel (fun a b => P a r b) o b? := by
  cases o with
  | none => exact establishes_pure fun r => .none
  | some a => exact (h a rfl).bind fun b => establishes_pure fun r hb => .some hb

/-- What a memoizing step returns is what it recalls from then on. -/
theorem Memoizing.establishes {x : Naming α} (hx : x.Memoizing) :
    x.Establishes fun r a => x.Recalls r a := hx

/-! ## Making names -/

theorem establishes_truncate (name suffix : String) :
    (truncate name suffix).Establishes fun r text => r.answer? ⟨name, suffix⟩ = some text := by
  intro s text t hok
  obtain ⟨hle, hanswer⟩ := Registry.truncate_eq_ok (truncate_eq_ok (q := ⟨name, suffix⟩) hok)
  exact ⟨hle, fun r hr => Registry.answer?_mono hr hanswer⟩

def sanitized? (r : Registry) (raw : String) (role : Role) : Option String :=
  match spell raw role with
  | none => some role.placeholder
  | some name => r.answer? ⟨name, ""⟩

theorem establishes_trySanitize (raw : String) (role : Role) :
    (trySanitize raw role).Establishes fun r name? =>
      sanitized? r raw role = some (name?.getD role.placeholder) := by
  unfold trySanitize sanitized?
  refine (establishes_reportAll _).bind fun _ => ?_
  cases spell raw role with
  | none => exact establishes_pure fun r _ => rfl
  | some name =>
    exact (establishes_truncate name "").bind fun text => establishes_pure fun r htext _ => htext

/-- What `sanitize` makes of a name is what every later registry knows for it. -/
theorem establishes_sanitize (raw : String) (role : Role) :
    (sanitize raw role).Establishes fun r c => sanitized? r raw role = some c := by
  unfold sanitize
  refine (establishes_trySanitize raw role).bind fun name? => ?_
  split
  · exact establishes_pure fun r h => h
  · exact (establishes_report _).bind fun _ => establishes_pure fun r _ h => h

end Naming

end ApiGraph

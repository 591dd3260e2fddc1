import ApiGraph.Proofs.Naming.Recall
import ApiGraph.Proofs.Naming.Report
import ApiGraph.Proofs.Registry.Counters

/-!
# What steps are composed of

All that a step does to a session is to request names and to report events. `x.Composed P`
says that `x` is put together of such requests and reports, in any order and depending on
the names that it has got, and that what it reports itself has the property `P`; that a name
has been truncated is reported by the request. `x.Composed P F` allows it besides to give up on
requests with the property `F`, as a search does when there are no more numbers to try.

A stage is shown to be composed in this way once, by following its definition. What then
holds of it holds of every composed step: it is memoizing, it reports nothing but what `P`
allows, what has been reported before makes no difference to it, the log goes on telling
exactly which truncations are on record, and when it fails a stem is full or it has given up.
-/

namespace ApiGraph

open Identifier

/-- The truncations that the log tells of are those on record, in the order in which they were
made. -/
def Session.Booked (s : Session) : Prop :=
  s.log.toList.filterMap Event.truncation? =
    (s.registry.entries.map fun e => (e.request, e.name)).reverse

theorem Session.booked_start : start.Booked := rfl

namespace Naming

/-- A truncation that is put on record is reported, and no other. -/
theorem booked_truncate {name suffix text : String} {s t : Session}
    (h : truncate name suffix s = .ok text t) (hs : s.Booked) : t.Booked := by
  unfold truncate at h
  rw [Registry.isNew_eq] at h
  cases hanswer : s.registry.answer? ⟨name, suffix⟩ with
  | some c =>
    rw [hanswer, Registry.truncate_of_answer? hanswer] at h
    cases h
    exact hs
  | none =>
    rcases Registry.truncate_of_answer?_eq_none hanswer with
      ⟨-, herr⟩ | ⟨e, r, hreq, -, hentries, hok⟩
    · rw [herr] at h
      cases h
    · rw [hanswer, hok] at h
      cases h
      unfold Session.Booked at hs ⊢
      simp [Event.truncation?, hs, hentries, hreq]

/-- The request is for a number that is too great to be tried. -/
def PastNumbers (q : Request) : Prop :=
  ∃ (base : String) (number : Nat), renameLimit ≤ number ∧ q.suffix = base ++ "_" ++ number.repr

/-- When the step fails, a stem is full or the request has the property. -/
def FailsWith {α : Type} (F : Request → Prop) (x : Naming α) : Prop :=
  ∀ s e t, x s = .error e t → t.registry.IsFull e.request ∨ F e.request

variable {α β : Type} {P : Event → Prop} {F : Request → Prop}

/-- A step that always succeeds has no failure to account for. -/
theorem failsWith_of_ok {x : Naming α} (h : ∀ s, ∃ a t, x s = .ok a t) : x.FailsWith F := by
  intro s e t herror
  rcases h s with ⟨a, u, hok⟩
  rw [hok] at herror
  cases herror

theorem failsWith_pure (a : α) : (pure a : Naming α).FailsWith F :=
  failsWith_of_ok fun s => ⟨a, s, rfl⟩

/-- What follows a step only has to fail in this way for what the step can return. -/
theorem FailsWith.bind_yields {x : Naming α} {f : α → Naming β} {Q : α → Prop}
    (hx : x.FailsWith F) (hyields : x.Yields Q) (hf : ∀ a, Q a → (f a).FailsWith F) :
    (x >>= f).FailsWith F := by
  intro s e t h
  obtain h | ⟨a, u, ha, h⟩ := bind_eq_error_iff.1 h
  · exact hx s e t h
  · exact hf a (hyields s a u ha) u e t h

theorem FailsWith.bind {x : Naming α} {f : α → Naming β} (hx : x.FailsWith F)
    (hf : ∀ a, (f a).FailsWith F) : (x >>= f).FailsWith F :=
  hx.bind_yields (Q := fun _ => True) (fun _ _ _ _ => trivial) fun a _ => hf a

theorem FailsWith.mono {G : Request → Prop} {x : Naming α} (hx : x.FailsWith F)
    (h : ∀ q, F q → G q) : x.FailsWith G :=
  fun s e t herror => (hx s e t herror).imp_right (h e.request)

/-- The step is put together of requests for names and reports, what it reports itself has the one
property, and what it gives up on has the other. -/
inductive Composed (P : Event → Prop) (F : Request → Prop := fun _ => False) :
    {α : Type} → Naming α → Prop
  | pure {α : Type} (a : α) : Composed P F (pure a)
  | throw {α : Type} {e : Exhausted} (excused : F e.request) : Composed P F (throw e : Naming α)
  | truncate (name suffix : String) : Composed P F (truncate name suffix)
  | reportAll {es : List Event} (own : ∀ e ∈ es, P e ∧ e.truncation? = none) :
      Composed P F (reportAll es)
  | bind {α β : Type} {x : Naming α} {f : α → Naming β} (first : Composed P F x)
      (rest : ∀ a, Composed P F (f a)) : Composed P F (x >>= f)

namespace Composed

theorem mono {Q : Event → Prop} {x : Naming α} (hx : x.Composed P F) (h : ∀ e, P e → Q e) :
    x.Composed Q F := by
  induction hx with
  | pure a => exact .pure a
  | throw excused => exact .throw excused
  | truncate name suffix => exact .truncate name suffix
  | reportAll own => exact .reportAll fun e he => ⟨h e (own e he).1, (own e he).2⟩
  | bind _ _ ihx ihf => exact .bind ihx ihf

/-- A step that does not give up may be part of one that does. -/
theorem within {x : Naming α} (hx : x.Composed P) : x.Composed P F := by
  induction hx with
  | pure a => exact .pure a
  | throw excused => exact excused.elim
  | truncate name suffix => exact .truncate name suffix
  | reportAll own => exact .reportAll own
  | bind _ _ ihx ihf => exact .bind ihx ihf

theorem report {e : Event} (h : P e) (own : e.truncation? = none) :
    (report e).Composed P F := by
  have heq : Naming.report e = Naming.reportAll [e] := by
    unfold Naming.report Naming.reportAll
    simp
  rw [heq]
  exact .reportAll fun e' he' => by
    rw [List.mem_singleton.1 he']
    exact ⟨h, own⟩

theorem reportIf {e : Event} (c : Bool) (h : P e) (own : e.truncation? = none) :
    (reportIf c e).Composed P F := by
  cases c with
  | false => exact .pure ()
  | true => exact .report h own

theorem mapM {f : α → Naming β} {l : List α} (h : ∀ a ∈ l, (f a).Composed P F) :
    (l.mapM f).Composed P F := by
  induction l with
  | nil =>
    rw [List.mapM_nil]
    exact .pure []
  | cons a l ih =>
    rw [List.mapM_cons]
    refine .bind (h a List.mem_cons_self) fun b => ?_
    exact .bind (ih fun a ha => h a (List.mem_cons_of_mem _ ha)) fun bs => .pure (b :: bs)

theorem mapM_option {f : α → Naming β} {o : Option α} (h : ∀ a ∈ o, (f a).Composed P F) :
    (o.mapM f).Composed P F := by
  cases o with
  | none => exact .pure none
  | some a => exact .bind (h a rfl) fun b => .pure (some b)

/-! ## What holds of composed steps -/

theorem memoizing {x : Naming α} (hx : x.Composed P F) : x.Memoizing := by
  induction hx with
  | pure a => exact memoizing_pure a
  | throw _ => exact memoizing_throw _
  | truncate name suffix => exact memoizing_truncate name suffix
  | reportAll _ => exact memoizing_reportAll _
  | bind _ _ ihx ihf => exact ihx.bind ihf

/-- A composed step reports what it may report itself, and truncations. -/
theorem reports {x : Naming α} (hx : x.Composed P F)
    (hP : ∀ e : Event, e.truncation?.isSome = true → P e) : x.Reports P := by
  induction hx with
  | pure a => exact reports_pure a
  | throw _ => exact reports_throw _
  | truncate name suffix => exact (reports_truncate name suffix).mono hP
  | reportAll own => exact reports_reportAll fun e he => (own e he).1
  | bind _ _ ihx ihf => exact ihx.bind ihf

/-- Whatever has been reported before, a composed step does the same to the registry. -/
theorem run_of_log {x : Naming α} (hx : x.Composed P F) {s t : Session} {a : α}
    (h : x s = .ok a t) (log : Array Event) :
    ∃ log', x ⟨s.registry, log⟩ = .ok a ⟨t.registry, log'⟩ := by
  induction hx generalizing s t log with
  | pure b =>
    obtain ⟨rfl, rfl⟩ := pure_eq_ok_iff.1 h
    exact ⟨log, rfl⟩
  | throw _ => cases h
  | truncate name suffix =>
    obtain ⟨log', hlog'⟩ := truncate_eq ⟨name, suffix⟩ ⟨s.registry, log⟩
    rw [truncate_eq_ok (q := ⟨name, suffix⟩) h] at hlog'
    exact ⟨log', hlog'⟩
  | reportAll _ =>
    cases h
    exact ⟨_, rfl⟩
  | bind _ _ ihx ihf =>
    obtain ⟨b, u, hb, ha⟩ := bind_eq_ok_iff.1 h
    obtain ⟨log₁, hlog₁⟩ := ihx hb log
    obtain ⟨log₂, hlog₂⟩ := ihf b ha log₁
    exact ⟨log₂, bind_eq_ok_iff.2 ⟨b, ⟨u.registry, log₁⟩, hlog₁, hlog₂⟩⟩

/-- A composed step keeps the log and the record in step. -/
theorem booked {x : Naming α} (hx : x.Composed P F) {s t : Session} {a : α} (h : x s = .ok a t)
    (hs : s.Booked) : t.Booked := by
  induction hx generalizing s t with
  | pure b =>
    obtain ⟨-, rfl⟩ := pure_eq_ok_iff.1 h
    exact hs
  | throw _ => cases h
  | truncate name suffix => exact booked_truncate h hs
  | @reportAll es own =>
    cases h
    have hnone : es.filterMap Event.truncation? = [] :=
      List.filterMap_eq_nil_iff.2 fun e he => (own e he).2
    unfold Session.Booked at hs ⊢
    simpa [hnone] using hs
  | bind _ _ ihx ihf =>
    obtain ⟨b, u, hb, ha⟩ := bind_eq_ok_iff.1 h
    exact ihf b ha (ihx hb hs)

/-- A composed step fails on a full stem, or on what it gives up on. -/
theorem failsWith {x : Naming α} (hx : x.Composed P F) : x.FailsWith F := by
  induction hx with
  | pure a => exact failsWith_pure a
  | throw excused =>
    intro s e t h
    cases h
    exact .inr excused
  | truncate name suffix =>
    intro s e t h
    obtain ⟨htrunc, hsame⟩ := truncate_eq_error (q := ⟨name, suffix⟩) h
    obtain ⟨rfl, hfull⟩ := Registry.truncate_eq_error_iff.1 htrunc
    rw [hsame]
    exact .inl hfull
  | reportAll _ => exact failsWith_of_ok fun _ => ⟨_, _, rfl⟩
  | bind _ _ ihx ihf => exact ihx.bind ihf

end Composed

/-! ## Making names -/

theorem composed_trySanitize (raw : String) (role : Role) :
    (trySanitize raw role).Composed fun e => e.isNaming = true := by
  unfold trySanitize
  refine .bind (.reportAll fun e he => isNaming_of_mem_spellEvents he) fun _ => ?_
  split
  · exact .pure none
  · exact .bind (.truncate _ "") fun text => .pure (some text)

theorem composed_sanitize (raw : String) (role : Role) :
    (sanitize raw role).Composed fun e => e.isNaming = true := by
  unfold sanitize
  refine .bind (composed_trySanitize raw role) fun name? => ?_
  split
  · exact .pure _
  · exact .bind (.report rfl rfl) fun _ => .pure _

end Naming

end ApiGraph

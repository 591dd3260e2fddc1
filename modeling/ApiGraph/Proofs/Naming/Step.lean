import ApiGraph.Proofs.Pointwise
import ApiGraph.Session

/-!
# Steps of a session

A step succeeds when all its parts do, each from the session that the one before has
left. `bind_eq_ok_iff` says this of two parts, and `Naming.Yields` carries a property of
the result through a whole step: `x.Yields P` says that whatever `x` returns, from any
session, has the property `P`. Apart from the log, a step that asks for an identifier
does what the registry does, which the last section spells out.
-/

namespace ApiGraph

open Identifier

namespace Naming

/-! ## Steps that succeed -/

theorem pure_eq_ok_iff {α : Type} {a b : α} {s t : Session} :
    (pure a : Naming α) s = .ok b t ↔ a = b ∧ s = t := by
  change EStateM.Result.ok a s = .ok b t ↔ _
  rw [EStateM.Result.ok.injEq]

theorem bind_of_eq_ok {α β : Type} {x : Naming α} {f : α → Naming β} {s t : Session} {a : α}
    (h : x s = .ok a t) : (x >>= f) s = f a t := by
  change EStateM.bind x f s = _
  unfold EStateM.bind
  rw [h]

theorem bind_of_eq_error {α β : Type} {x : Naming α} {f : α → Naming β} {s t : Session}
    {e : Exhausted} (h : x s = .error e t) : (x >>= f) s = .error e t := by
  change EStateM.bind x f s = _
  unfold EStateM.bind
  rw [h]

/-- Two steps in a row succeed when the second succeeds where the first has led to. -/
theorem bind_eq_ok_iff {α β : Type} {x : Naming α} {f : α → Naming β} {s u : Session} {b : β} :
    (x >>= f) s = .ok b u ↔ ∃ a t, x s = .ok a t ∧ f a t = .ok b u := by
  cases hx : x s with
  | ok a t =>
    rw [bind_of_eq_ok hx]
    constructor
    · intro h
      exact ⟨a, t, rfl, h⟩
    · rintro ⟨_, _, h, hf⟩
      cases h
      exact hf
  | error e t =>
    rw [bind_of_eq_error hx]
    simp

/-- Two steps in a row fail when the first does, or the second where the first has led to. -/
theorem bind_eq_error_iff {α β : Type} {x : Naming α} {f : α → Naming β} {s u : Session}
    {e : Exhausted} :
    (x >>= f) s = .error e u ↔ x s = .error e u ∨ ∃ a t, x s = .ok a t ∧ f a t = .error e u := by
  cases hx : x s with
  | ok a t =>
    rw [bind_of_eq_ok hx]
    constructor
    · intro h
      exact .inr ⟨a, t, rfl, h⟩
    · rintro (h | ⟨_, _, h, hf⟩)
      · cases h
      · cases h
        exact hf
  | error e' t =>
    rw [bind_of_eq_error hx]
    simp

/-- Whether a step succeeds with a result that passes a test. -/
def succeedsWith {α : Type} (x : Naming α) (s : Session) (p : α → Bool) : Bool :=
  match x s with
  | .ok a _ => p a
  | .error .. => false

theorem succeedsWith_iff {α : Type} {x : Naming α} {s : Session} {p : α → Bool} :
    x.succeedsWith s p = true ↔ ∃ a t, x s = .ok a t ∧ p a = true := by
  unfold succeedsWith
  cases x s with
  | ok a t => simp
  | error e t => simp

def resultOr {α : Type} (x : Naming α) (s : Session) (default : α) : α :=
  match x s with
  | .ok a _ => a
  | .error _ _ => default

theorem resultOr_map {α β : Type} (f : α → β) (x : Naming α) (s : Session) (a : α) :
    (f <$> x).resultOr s (f a) = f (x.resultOr s a) := by
  unfold resultOr
  rw [map_eq_pure_bind]
  cases hx : x s with
  | ok b t =>
    rw [bind_of_eq_ok hx]
    rfl
  | error e t => rw [bind_of_eq_error hx]

/-! ## Reports on a condition -/

def reportIf (c : Bool) (e : Event) : Naming Unit := if c then report e else pure ()

theorem reportIf_true_bind {α : Type} (e : Event) (f : Unit → Naming α) :
    reportIf true e >>= f = report e >>= f := rfl

theorem reportIf_false_bind {α : Type} (e : Event) (f : Unit → Naming α) :
    reportIf false e >>= f = f () := rfl

/-! ## Properties of results -/

/-- Whatever the step returns has the property. -/
def Yields {α : Type} (x : Naming α) (P : α → Prop) : Prop := ∀ s a t, x s = .ok a t → P a

theorem yields_pure {α : Type} {P : α → Prop} {a : α} (h : P a) : (pure a : Naming α).Yields P := by
  intro s b t hb
  rw [← (pure_eq_ok_iff.1 hb).1]
  exact h

theorem Yields.bind {α β : Type} {x : Naming α} {f : α → Naming β} {P : α → Prop} {Q : β → Prop}
    (hx : x.Yields P) (hf : ∀ a, P a → (f a).Yields Q) : (x >>= f).Yields Q := by
  intro s b u hb
  obtain ⟨a, t, ha, hfa⟩ := bind_eq_ok_iff.1 hb
  exact hf a (hx s a t ha) t b u hfa

/-- A step whose result does not matter may be left out of account. -/
theorem yields_bind_of_forall {α β : Type} {x : Naming α} {f : α → Naming β} {Q : β → Prop}
    (hf : ∀ a, (f a).Yields Q) : (x >>= f).Yields Q := by
  intro s b u hb
  obtain ⟨a, t, -, hfa⟩ := bind_eq_ok_iff.1 hb
  exact hf a t b u hfa

theorem Yields.mono {α : Type} {x : Naming α} {P Q : α → Prop} (hx : x.Yields P)
    (h : ∀ a, P a → Q a) : x.Yields Q :=
  fun s a t ha => h a (hx s a t ha)

theorem Yields.and {α : Type} {x : Naming α} {P Q : α → Prop} (hP : x.Yields P)
    (hQ : x.Yields Q) : x.Yields fun a => P a ∧ Q a :=
  fun s a t ha => ⟨hP s a t ha, hQ s a t ha⟩

/-- What follows a step matters only for what the step can return. -/
theorem Yields.bind_congr {α β : Type} {x : Naming α} {f g : α → Naming β} {P : α → Prop}
    (hx : x.Yields P) (h : ∀ a, P a → f a = g a) : x >>= f = x >>= g := by
  funext s
  cases hs : x s with
  | ok a t => rw [bind_of_eq_ok hs, bind_of_eq_ok hs, h a (hx s a t hs)]
  | error e t => rw [bind_of_eq_error hs, bind_of_eq_error hs]

/-- What a step makes of one element, a loop makes of each in its place. -/
theorem yields_mapM_forall₂ {α β : Type} {f : α → Naming β} {R : α → β → Prop} {l : List α}
    (h : ∀ a ∈ l, (f a).Yields (R a)) : (l.mapM f).Yields (List.Forall₂ R l) := by
  induction l with
  | nil =>
    rw [List.mapM_nil]
    exact yields_pure .nil
  | cons a l ih =>
    rw [List.mapM_cons]
    refine (h a List.mem_cons_self).bind fun b hb => ?_
    refine (ih fun a ha => h a (List.mem_cons_of_mem _ ha)).bind fun bs hbs => ?_
    exact yields_pure (.cons hb hbs)

theorem yields_mapM {α β : Type} {f : α → Naming β} {Q : β → Prop} {l : List α}
    (h : ∀ a ∈ l, (f a).Yields Q) : (l.mapM f).Yields fun bs => ∀ b ∈ bs, Q b := by
  refine (yields_mapM_forall₂ (R := fun _ => Q) h).mono fun bs hbs b hb => ?_
  obtain ⟨a, -, hQ⟩ := exists_of_mem_forall₂ hbs hb
  exact hQ

/-- What each result keeps of its origin, the list of results keeps. -/
theorem yields_mapM_map {α β γ : Type} {f : α → Naming β} {g : β → γ} {h : α → γ} {l : List α}
    (hf : ∀ a ∈ l, (f a).Yields fun b => g b = h a) :
    (l.mapM f).Yields fun bs => bs.map g = l.map h :=
  (yields_mapM_forall₂ hf).mono fun _ hbs => map_eq_map_of_forall₂ hbs fun _ _ hb => hb

theorem yields_mapM_option {α β : Type} {f : α → Naming β} {Q : β → Prop} {o : Option α}
    (h : ∀ a ∈ o, (f a).Yields Q) : (o.mapM f).Yields fun b? => ∀ b ∈ b?, Q b := by
  cases o with
  | none => exact yields_pure (by simp)
  | some a =>
    refine (h a rfl).bind fun b hb => ?_
    refine yields_pure fun c hc => ?_
    cases hc
    exact hb

/-! ## Steps that ask for an identifier -/

/-- Apart from the log, truncation does what the registry does. -/
theorem truncate_eq (q : Request) (s : Session) :
    ∃ log, truncate q.name q.suffix s =
      match s.registry.truncate q with
      | .ok (text, r) => .ok text ⟨r, log⟩
      | .error e => .error e ⟨s.registry, log⟩ := by
  unfold truncate
  cases s.registry.truncate q with
  | ok answer => exact ⟨_, rfl⟩
  | error e => exact ⟨s.log, rfl⟩

theorem trySanitize_eq (raw : String) (role : Role) (s : Session) :
    ∃ log, trySanitize raw role s =
      match spell raw role with
      | none => .ok none ⟨s.registry, log⟩
      | some name =>
        match s.registry.truncate ⟨name, ""⟩ with
        | .ok (text, r) => .ok (some text) ⟨r, log⟩
        | .error e => .error e ⟨s.registry, log⟩ := by
  unfold trySanitize
  cases spell raw role with
  | none => exact ⟨s.log ++ spellEvents raw role, rfl⟩
  | some name =>
    obtain ⟨log, hlog⟩ := truncate_eq ⟨name, ""⟩ ⟨s.registry, s.log ++ spellEvents raw role⟩
    refine ⟨log, ?_⟩
    -- The events of the spelling are in the log before truncation starts.
    change EStateM.bind (truncate name "") (fun text => pure (some text))
      ⟨s.registry, s.log ++ spellEvents raw role⟩ = _
    simp only [EStateM.bind, hlog]
    cases s.registry.truncate ⟨name, ""⟩ <;> rfl

theorem truncate_eq_ok {q : Request} {s t : Session} {text : String}
    (h : truncate q.name q.suffix s = .ok text t) :
    s.registry.truncate q = .ok (text, t.registry) := by
  obtain ⟨log, hlog⟩ := truncate_eq q s
  rw [hlog] at h
  cases htrunc : s.registry.truncate q with
  | ok answer =>
    rw [htrunc] at h
    cases h
    rfl
  | error e =>
    rw [htrunc] at h
    cases h

theorem truncate_eq_error {q : Request} {s t : Session} {e : Exhausted}
    (h : truncate q.name q.suffix s = .error e t) :
    s.registry.truncate q = .error e ∧ t.registry = s.registry := by
  obtain ⟨log, hlog⟩ := truncate_eq q s
  rw [hlog] at h
  cases htrunc : s.registry.truncate q with
  | ok answer =>
    rw [htrunc] at h
    cases h
  | error e' =>
    rw [htrunc] at h
    cases h
    exact ⟨rfl, rfl⟩

end Naming

end ApiGraph

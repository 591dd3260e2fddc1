import ApiGraph.Proofs.Naming.Step
import ApiGraph.Proofs.Registry.Answer
import Mathlib.Data.List.Dedup
import Mathlib.Data.List.Perm.Basic

/-!
# Histories of calls

A history is any sequence of calls that ask a session for identifiers, in any order
and with any names. Every call puts at most one request to the registry, that of a
raw name being its spelling without a suffix, and `Turn.issued?` is what it got.

`Consistent` says what holds of a history as a whole: equal requests got equal
identifiers, different long requests got different ones, and the registry has
exactly the long requests that were answered. It is proved from one lemma on a
single turn and one induction over the calls.
-/

namespace ApiGraph

open Identifier

/-! ## Calls -/

inductive Call where
  | truncate (q : Request)
  | trySanitize (raw : String) (role : Role)
  | sanitize (raw : String) (role : Role)

namespace Call

/-- What a call does. Only `trySanitize` answers `none`. -/
def perform : Call → Naming (Option String)
  | truncate q => do return some (← Naming.truncate q.name q.suffix)
  | trySanitize raw role => Naming.trySanitize raw role
  | sanitize raw role => do return some (← Naming.sanitize raw role)

/-- The request that a call puts to the registry, unless nothing legal is left of its name. -/
def request? : Call → Option Request
  | truncate q => some q
  | trySanitize raw role | sanitize raw role => (spell raw role).map fun name => ⟨name, ""⟩

/-- The answer to a call that puts no request. -/
def fallback : Call → Option String
  | truncate _ | trySanitize _ _ => none
  | sanitize _ role => some role.placeholder

/-- What comes of a call, apart from the log, is decided by its request. -/
theorem perform_eq (c : Call) (s : Session) :
    ∃ log, c.perform s =
      match c.request? with
      | none => .ok c.fallback ⟨s.registry, log⟩
      | some q =>
        match s.registry.truncate q with
        | .ok (text, r) => .ok (some text) ⟨r, log⟩
        | .error e => .error e ⟨s.registry, log⟩ := by
  cases c with
  | truncate q =>
    obtain ⟨log, hlog⟩ := Naming.truncate_eq q s
    refine ⟨log, ?_⟩
    simp only [perform, request?, bind, EStateM.bind, hlog]
    cases s.registry.truncate q <;> rfl
  | trySanitize raw role =>
    obtain ⟨log, hlog⟩ := Naming.trySanitize_eq raw role s
    refine ⟨log, ?_⟩
    simp only [perform, request?, hlog]
    cases spell raw role <;> rfl
  | sanitize raw role =>
    obtain ⟨log, hlog⟩ := Naming.trySanitize_eq raw role s
    simp only [perform, request?, Naming.sanitize, bind, EStateM.bind, hlog]
    cases spell raw role with
    | none => exact ⟨log.push (.emptyName raw role), rfl⟩
    | some name =>
      refine ⟨log, ?_⟩
      simp only [Option.map_some]
      cases s.registry.truncate ⟨name, ""⟩ <;> rfl

end Call

/-! ## Turns and histories -/

/-- A call with the registries before and after it. -/
structure Turn where
  call : Call
  before : Registry
  result : Except Exhausted (Option String)
  after : Registry

def Turn.issued? (t : Turn) : Option (Request × String) :=
  match t.call.request?, t.result with
  | some q, .ok (some text) => some (q, text)
  | _, _ => none

/-- Makes a call. A call that fails leaves a session to go on with. -/
def Call.turn (c : Call) (s : Session) : Turn × Session :=
  match c.perform s with
  | .ok answer s' => (⟨c, s.registry, .ok answer, s'.registry⟩, s')
  | .error e s' => (⟨c, s.registry, .error e, s'.registry⟩, s')

def history : Session → List Call → List Turn × Session
  | s, [] => ([], s)
  | s, c :: calls =>
    let (t, s) := c.turn s
    let (turns, s) := history s calls
    (t :: turns, s)

/-- The long requests that were answered in some turns, once each. -/
def longRequests (turns : List Turn) : List Request :=
  (((turns.filterMap Turn.issued?).map (·.1)).filter fun q => !q.fits).dedup

/-- A turn either leaves the registry alone and issues nothing, or it truncates the request of
its call. -/
theorem Call.turn_cases (c : Call) (s : Session) :
    (c.turn s).1.call = c ∧ (c.turn s).1.before = s.registry ∧
      (c.turn s).1.after = (c.turn s).2.registry ∧
      (((c.turn s).1.issued? = none ∧ (c.turn s).2.registry = s.registry ∧
          ∀ q, c.request? = some q → s.registry.answer? q = none) ∨
        ∃ q text, c.request? = some q ∧ (c.turn s).1.issued? = some (q, text) ∧
          s.registry.truncate q = .ok (text, (c.turn s).2.registry)) := by
  obtain ⟨log, hlog⟩ := c.perform_eq s
  unfold Call.turn
  cases hreq : c.request? with
  | none =>
    rw [hlog, hreq]
    exact ⟨rfl, rfl, rfl, .inl ⟨by simp [Turn.issued?, hreq], rfl, by simp⟩⟩
  | some q =>
    simp only [hreq] at hlog
    cases htrunc : s.registry.truncate q with
    | ok answer =>
      rw [hlog, htrunc]
      exact ⟨rfl, rfl, rfl, .inr ⟨q, answer.1, rfl, by simp [Turn.issued?, hreq], htrunc⟩⟩
    | error e =>
      rw [hlog, htrunc]
      refine ⟨rfl, rfl, rfl, .inl ⟨by simp [Turn.issued?, hreq], rfl, ?_⟩⟩
      rintro p hp
      cases hp
      by_contra hsome
      obtain ⟨text, htext⟩ := Option.ne_none_iff_exists'.1 hsome
      rw [Registry.truncate_of_answer? htext] at htrunc
      cases htrunc

/-- A turn of a short request issues the joined text and leaves the registry alone. -/
theorem Call.turn_of_fits {c : Call} {q : Request} (hreq : c.request? = some q)
    (hfits : q.fits = true) (s : Session) :
    (c.turn s).1.issued? = some (q, q.joined) ∧ (c.turn s).1.after = (c.turn s).1.before := by
  obtain ⟨-, hbefore, hafter, ⟨-, -, hnone⟩ | ⟨p, text, hp, hissued, htrunc⟩⟩ := c.turn_cases s
  · have hans := hnone q hreq
    rw [Registry.answer?_of_fits hfits] at hans
    cases hans
  · rw [hreq] at hp
    cases hp
    rw [Registry.truncate_of_fits hfits] at htrunc
    obtain ⟨rfl, hsame⟩ := Prod.mk.inj (Except.ok.inj htrunc)
    exact ⟨hissued, by rw [hafter, hbefore, hsame]⟩

/-! ## What a history preserves -/

theorem history_cons (s : Session) (c : Call) (calls : List Call) :
    history s (c :: calls) =
      ((c.turn s).1 :: (history (c.turn s).2 calls).1, (history (c.turn s).2 calls).2) := rfl

theorem exists_turn_of_mem_history {s : Session} {calls : List Call} {t : Turn}
    (h : t ∈ (history s calls).1) : ∃ (c : Call) (s' : Session), t = (c.turn s').1 := by
  induction calls generalizing s with
  | nil => cases h
  | cons c calls ih =>
    rw [history_cons] at h
    rcases List.mem_cons.1 h with rfl | h
    · exact ⟨c, s, rfl⟩
    · exact ih h

theorem Call.le_turn (c : Call) (s : Session) : s.registry ≤ (c.turn s).2.registry := by
  obtain ⟨-, -, -, ⟨-, hsame, -⟩ | ⟨q, text, -, -, htrunc⟩⟩ := c.turn_cases s
  · rw [hsame]
  · exact (Registry.truncate_eq_ok htrunc).1

theorem le_history (s : Session) (calls : List Call) :
    s.registry ≤ (history s calls).2.registry := by
  induction calls generalizing s with
  | nil => exact le_refl s.registry
  | cons c calls ih => exact le_trans (c.le_turn s) (ih (c.turn s).2)

/-- What is issued in a turn stays the answer until the end. -/
theorem answer?_of_issued {s : Session} {calls : List Call} {t : Turn} {q : Request}
    {text : String} (h : t ∈ (history s calls).1) (hissued : t.issued? = some (q, text)) :
    (history s calls).2.registry.answer? q = some text := by
  induction calls generalizing s with
  | nil => cases h
  | cons c calls ih =>
    rw [history_cons] at h ⊢
    rcases List.mem_cons.1 h with rfl | h
    · obtain ⟨-, -, -, ⟨hnone, -, -⟩ | ⟨p, text', -, hsome, htrunc⟩⟩ := c.turn_cases s
      · rw [hnone] at hissued
        cases hissued
      · rw [hsome] at hissued
        cases hissued
        -- the registry has the answer now, and later turns only add to it
        exact Registry.answer?_mono (le_history _ calls) (Registry.truncate_eq_ok htrunc).2
    · exact ih h

theorem mem_longRequests {turns : List Turn} {q : Request} :
    q ∈ longRequests turns ↔ q.fits = false ∧ ∃ t ∈ turns, ∃ text, t.issued? = some (q, text) := by
  simp only [longRequests, List.mem_dedup, List.mem_filter, List.mem_map, List.mem_filterMap,
    Bool.not_eq_true']
  constructor
  · rintro ⟨⟨answer, ⟨t, ht, hissued⟩, rfl⟩, hfits⟩
    exact ⟨hfits, t, ht, answer.2, hissued⟩
  · rintro ⟨hfits, t, ht, text, hissued⟩
    exact ⟨⟨(q, text), ⟨t, ht, hissued⟩, rfl⟩, hfits⟩

/-- The requests on record at the end are those on record at the start and the long ones that
were answered. -/
theorem mem_requests_history (s : Session) (calls : List Call) (q : Request) :
    q ∈ (history s calls).2.registry.requests ↔
      q ∈ s.registry.requests ∨ q ∈ longRequests (history s calls).1 := by
  induction calls generalizing s with
  | nil => simp [history, longRequests]
  | cons c calls ih =>
    rw [history_cons, ih, mem_longRequests, mem_longRequests]
    obtain ⟨-, -, -, ⟨hnone, hsame, -⟩ | ⟨p, text, -, hsome, htrunc⟩⟩ := c.turn_cases s
    · simp [hnone, hsame]
    · rw [Registry.mem_requests_of_truncate htrunc]
      have hhead : (∃ a, (c.turn s).1.issued? = some (q, a)) ↔ q = p := by
        simp [hsome, eq_comm]
      simp only [List.mem_cons, exists_eq_or_imp, hhead, and_or_left]
      constructor
      · rintro ((h | ⟨hfits, rfl⟩) | h)
        · exact .inl h
        · exact .inr (.inl ⟨hfits, rfl⟩)
        · exact .inr (.inr h)
      · rintro (h | ⟨hfits, rfl⟩ | h)
        · exact .inl (.inl h)
        · exact .inl (.inr ⟨hfits, rfl⟩)
        · exact .inr h

/-! ## Consistent histories -/

/-- What the turns of a history have in common, and what the registry holds after them. -/
structure Consistent (turns : List Turn) (final : Registry) : Prop where
  /-- Equal requests get equal identifiers. -/
  stable : ∀ t ∈ turns, ∀ u ∈ turns, ∀ q a b,
    t.issued? = some (q, a) → u.issued? = some (q, b) → a = b
  /-- Different long requests get different identifiers. -/
  distinct : ∀ t ∈ turns, ∀ u ∈ turns, ∀ q p a b,
    t.issued? = some (q, a) → u.issued? = some (p, b) →
      q.fits = false → p.fits = false → q ≠ p → a ≠ b
  /-- The identifier of a long request fills all its 63 characters: the start of the name, the
  suffix or the start of it, an underscore and four digits. -/
  form : ∀ t ∈ turns, ∀ q a, t.issued? = some (q, a) → q.fits = false →
    a.length = 63 ∧ ∃ digits : List Char, digits.length = 4 ∧ digits.all Char.isDigit = true ∧
      a.toList = q.name.toList.take (58 - (q.suffix.toList.take 58).length) ++
        q.suffix.toList.take 58 ++ '_' :: digits
  /-- A short request is answered by the joined text and leaves the registry alone. -/
  short : ∀ t ∈ turns, ∀ q, t.call.request? = some q → q.fits = true →
    t.issued? = some (q, q.name ++ q.suffix) ∧ t.after = t.before
  /-- The registry counts the long requests that were answered. -/
  size : final.size = (longRequests turns).length

/-- Every history that starts with an empty registry is consistent. -/
theorem history_consistent (calls : List Call) :
    Consistent (history .start calls).1 (history .start calls).2.registry where
  stable := by
    intro t ht u hu q a b hta hub
    have ha := answer?_of_issued ht hta
    rw [answer?_of_issued hu hub] at ha
    exact (Option.some.inj ha).symm
  distinct := by
    intro t ht u hu q p a b hta hub hq hp hne hab
    have ha := answer?_of_issued ht hta
    have hb := answer?_of_issued hu hub
    rw [Registry.answer?_of_long hq] at ha
    rw [Registry.answer?_of_long hp, ← hab] at hb
    exact hne (Registry.get?_inj ha hb)
  form := by
    intro t ht q a hta hq
    have ha := answer?_of_issued ht hta
    rw [Registry.answer?_of_long hq] at ha
    obtain ⟨e, -, rfl, rfl⟩ := Registry.get?_eq_some_iff.1 ha
    exact ⟨Request.length_numbered hq e.counter, fourDigits e.counter, length_fourDigits _,
      all_isDigit_fourDigits _, Request.toList_numbered e.request e.counter⟩
  short := by
    intro t ht q hreq hfits
    obtain ⟨c, s, rfl⟩ := exists_turn_of_mem_history ht
    rw [(c.turn_cases s).1] at hreq
    exact Call.turn_of_fits hreq hfits s
  size := by
    have hmem : ∀ q, q ∈ (history .start calls).2.registry.requests ↔
        q ∈ longRequests (history .start calls).1 := by
      intro q
      rw [mem_requests_history]
      exact or_iff_right List.not_mem_nil
    -- neither list repeats a request, so the same members means the same length
    have hperm : (history .start calls).2.registry.requests.Perm
        (longRequests (history .start calls).1) :=
      (List.perm_ext_iff_of_nodup (history .start calls).2.registry.request_nodup
        (List.nodup_dedup _)).2 hmem
    rw [← hperm.length_eq, Registry.requests, List.length_map, Registry.size]

end ApiGraph

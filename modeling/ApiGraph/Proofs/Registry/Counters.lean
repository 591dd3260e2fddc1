import ApiGraph.Proofs.Registry.History

/-!
# Counters

What a registry has issued is seen in its identifiers: `IsNextCounter r q c` says that the stem of
`q` has been issued under all counters below `c` and not under `c`, whichever requests it was
issued for, and `IsFull r q` says that a new long request finds its stem issued under every
counter. `truncate` is accounted for by these two, which is `answersNew` and
`truncate_eq_error_iff`.

A full stem has `counterLimit` identifiers on record. So a registry that holds fewer answers every
request, and so do the turns of a history that puts no more long requests than there are counters.
-/

namespace ApiGraph

open Identifier

namespace Identifier.Registry

/-! ## Identifiers on record -/

/-- The identifiers issued for long requests, the latest first. -/
def issued (r : Registry) : List String := r.entries.map (·.name)

/-- Whether a stem has been issued under a counter does not depend on the requests that it was
issued for. -/
theorem numbered_mem_issued_iff {r : Registry} {q : Request} {c : Nat} (hq : q.fits = false)
    (hc : c < counterLimit) : q.numbered c ∈ r.issued ↔ c ∈ r.used q.stem := by
  rw [issued, List.mem_map, mem_used, List.mem_map]
  constructor
  · rintro ⟨e, he, hname⟩
    obtain ⟨hstem, hcounter⟩ :=
      Request.numbered_inj (r.fits_eq_false e he) hq (r.counter_lt e he) hc hname
    refine ⟨e, he, ?_⟩
    rw [Entry.mark, e.stem_eq, hstem, hcounter]
  · rintro ⟨e, he, hmark⟩
    obtain ⟨hstem, hcounter⟩ := Prod.mk.inj hmark
    refine ⟨e, he, ?_⟩
    rw [Entry.name, Request.numbered, Request.numbered, ← e.stem_eq, hstem, hcounter]

/-! ## New requests -/

/-- The least counter under which the stem of a request has not been issued. -/
structure IsNextCounter (r : Registry) (q : Request) (c : Nat) : Prop where
  lt : c < counterLimit
  free : q.numbered c ∉ r.issued
  least : ∀ k < c, q.numbered k ∈ r.issued

/-- A long request is not on record, and its stem has been issued under every counter. -/
structure IsFull (r : Registry) (q : Request) : Prop where
  isNew : r.isNew q = true
  spent : ∀ c < counterLimit, q.numbered c ∈ r.issued

/-- `r'` is `r` with one more request on record. -/
structure Adds (r : Registry) (q : Request) (text : String) (r' : Registry) : Prop where
  /-- All entries are kept, in the same order. -/
  kept : r ≤ r'
  get?_eq : ∀ p, r'.get? p = if p = q then some text else r.get? p
  size_eq : r'.size = r.size + 1

/-- What becomes of a long request that is not on record. -/
inductive AnswersNew (r : Registry) (q : Request) : Except Exhausted (String × Registry) → Prop
  | issued {c : Nat} {r' : Registry} (next : r.IsNextCounter q c)
      (adds : r.Adds q (q.numbered c) r') : AnswersNew r q (.ok (q.numbered c, r'))
  | full (full : r.IsFull q) : AnswersNew r q (.error ⟨q⟩)

variable {r : Registry} {q : Request}

theorem isNew_iff : r.isNew q = true ↔ r.answer? q = none := by
  rw [isNew_eq, Option.isNone_iff_eq_none]

theorem fits_eq_false_of_isNew (h : r.isNew q = true) : q.fits = false := by
  unfold isNew at h
  rw [Bool.and_eq_true, Bool.not_eq_true'] at h
  exact h.1

theorem isNextCounter_leastFree (hq : q.fits = false)
    (hlt : leastFree 0 (r.used q.stem) < counterLimit) :
    r.IsNextCounter q (leastFree 0 (r.used q.stem)) where
  lt := hlt
  free := fun h => leastFree_not_mem 0 _ ((numbered_mem_issued_iff hq hlt).1 h)
  least := fun _ hk => (numbered_mem_issued_iff hq (Nat.lt_trans hk hlt)).2
    (mem_of_lt_leastFree (Nat.zero_le _) hk)

theorem isFull_of_le_leastFree (hnew : r.isNew q = true)
    (hle : counterLimit ≤ leastFree 0 (r.used q.stem)) : r.IsFull q where
  isNew := hnew
  spent := fun _ hc => (numbered_mem_issued_iff (fits_eq_false_of_isNew hnew) hc).2
    (mem_of_lt_leastFree (Nat.zero_le _) (Nat.lt_of_lt_of_le hc hle))

theorem adds_of_entries {r' : Registry} {e : Entry} (h : r'.entries = e :: r.entries) :
    r.Adds e.request e.name r' where
  kept := le_iff.2 (h ▸ List.suffix_cons e r.entries)
  get?_eq := by
    intro p
    rw [get?, entry?, h, List.find?_cons]
    by_cases hp : e.request = p
    · simp [hp]
    · simp [hp, Ne.symm hp, get?, entry?]
  size_eq := by rw [size, h, List.length_cons, size]

/-- A new long request gets its stem under the next counter, and is put on record, unless the stem
is full. -/
theorem answersNew (h : r.isNew q = true) : r.AnswersNew q (r.truncate q) := by
  obtain ⟨hle, herr⟩ | ⟨e, r', rfl, hcounter, hentries, hok⟩ :=
    truncate_of_answer?_eq_none (isNew_iff.1 h)
  · rw [herr]
    exact .full (isFull_of_le_leastFree h hle)
  · have hlt : e.counter < counterLimit := r'.counter_lt e (hentries ▸ List.mem_cons_self)
    rw [hok]
    refine .issued ?_ (adds_of_entries hentries)
    rw [hcounter] at hlt ⊢
    exact isNextCounter_leastFree (fits_eq_false_of_isNew h) hlt

theorem IsFull.truncate_eq (h : r.IsFull q) : r.truncate q = .error ⟨q⟩ := by
  have hans := answersNew h.isNew
  cases htrunc : r.truncate q with
  | ok answer =>
    rw [htrunc] at hans
    cases hans with
    | issued next _ => exact absurd (h.spent _ next.lt) next.free
  | error e =>
    rw [htrunc] at hans
    cases hans
    rfl

/-- Truncation fails on new long requests with a full stem, and on no others. -/
theorem truncate_eq_error_iff {e : Exhausted} :
    r.truncate q = .error e ↔ e = ⟨q⟩ ∧ r.IsFull q := by
  constructor
  · intro h
    have hnew : r.isNew q = true := by
      rw [isNew_iff]
      by_contra hsome
      obtain ⟨text, htext⟩ := Option.ne_none_iff_exists'.1 hsome
      rw [truncate_of_answer? htext] at h
      cases h
    have hans := answersNew hnew
    rw [h] at hans
    cases hans with
    | full full => exact ⟨rfl, full⟩
  · rintro ⟨rfl, hfull⟩
    exact hfull.truncate_eq

/-! ## Room -/

/-- A full stem has been issued as often as there are counters. -/
theorem IsFull.counterLimit_le_size (h : r.IsFull q) : counterLimit ≤ r.size := by
  have hused : ∀ c < counterLimit, c ∈ r.used q.stem := fun c hc =>
    (numbered_mem_issued_iff (fits_eq_false_of_isNew h.isNew) hc).1 (h.spent c hc)
  -- the least free counter lies beyond the limit, and not beyond the number of those given away
  have hle : counterLimit ≤ leastFree 0 (r.used q.stem) := by
    by_contra hlt
    exact leastFree_not_mem 0 _ (hused _ (Nat.not_le.1 hlt))
  have hlength : (r.used q.stem).length ≤ r.size := by
    rw [used, List.length_reverse, List.length_map]
    exact List.length_filter_le _ _
  have hfree := leastFree_le 0 (r.used q.stem)
  omega

/-- A registry that holds fewer requests than a stem has counters answers every request. -/
theorem exists_truncate_of_size_lt (h : r.size < counterLimit) (q : Request) :
    ∃ answer, r.truncate q = .ok answer := by
  cases htrunc : r.truncate q with
  | ok answer => exact ⟨answer, rfl⟩
  | error e =>
    have hle := (truncate_eq_error_iff.1 htrunc).2.counterLimit_le_size
    omega

end Identifier.Registry

/-! ## Histories with room -/

/-- The long requests that some calls put to the registry, once each. -/
def longCalls (calls : List Call) : List Request :=
  ((calls.filterMap Call.request?).filter fun q => !q.fits).dedup

theorem mem_longCalls {calls : List Call} {q : Request} :
    q ∈ longCalls calls ↔ q.fits = false ∧ ∃ c ∈ calls, c.request? = some q := by
  simp only [longCalls, List.mem_dedup, List.mem_filter, List.mem_filterMap, Bool.not_eq_true']
  exact and_comm

/-- A call fails when the stem of its request is full. -/
theorem Call.result_of_turn (c : Call) (s : Session) :
    (∃ answer, (c.turn s).1.result = .ok answer) ∨
      ∃ q, c.request? = some q ∧ (c.turn s).1.result = .error ⟨q⟩ ∧ s.registry.IsFull q := by
  obtain ⟨log, hlog⟩ := c.perform_eq s
  unfold Call.turn
  cases hreq : c.request? with
  | none =>
    rw [hlog, hreq]
    exact .inl ⟨c.fallback, rfl⟩
  | some q =>
    rw [hlog, hreq]
    cases htrunc : s.registry.truncate q with
    | ok answer => exact .inl ⟨some answer.1, by simp only [htrunc]⟩
    | error e =>
      obtain ⟨rfl, hfull⟩ := Registry.truncate_eq_error_iff.1 htrunc
      exact .inr ⟨q, rfl, by simp only [htrunc], hfull⟩

section Room

variable {qs : List Request} {c : Call} {s : Session}

/-- A call does not fail while all long requests, those on record and its own, are among as many
as a stem has counters. -/
theorem Call.turn_ok (hroom : qs.length ≤ counterLimit)
    (hrecord : ∀ q ∈ s.registry.requests, q ∈ qs)
    (hown : ∀ q, c.request? = some q → q.fits = false → q ∈ qs) :
    ∃ answer, (c.turn s).1.result = .ok answer := by
  obtain hok | ⟨q, hreq, -, hfull⟩ := c.result_of_turn s
  · exact hok
  · exfalso
    have hfits := Registry.fits_eq_false_of_isNew hfull.isNew
    -- the request is a further one beside as many as there are counters
    have hnot : q ∉ s.registry.requests := by
      intro hmem
      obtain ⟨e, he, rfl⟩ := List.mem_map.1 hmem
      have hans := Registry.isNew_iff.1 hfull.isNew
      rw [Registry.answer?_of_long hfits, Registry.get?_eq_some_iff.2 ⟨e, he, rfl, rfl⟩] at hans
      cases hans
    have hsub : (q :: s.registry.requests).Subperm qs :=
      List.subperm_of_subset (List.nodup_cons.2 ⟨hnot, s.registry.request_nodup⟩)
        (List.cons_subset.2 ⟨hown q hreq hfits, hrecord⟩)
    have hlength := hsub.length_le
    have hsize := hfull.counterLimit_le_size
    rw [List.length_cons, Registry.requests, List.length_map] at hlength
    unfold Registry.size at hsize
    omega

/-- A call adds its own request to those on record, if that is long, and no other. -/
theorem Call.mem_requests_turn {q : Request} (h : q ∈ (c.turn s).2.registry.requests) :
    q ∈ s.registry.requests ∨ c.request? = some q ∧ q.fits = false := by
  obtain ⟨-, -, -, ⟨-, hsame, -⟩ | ⟨p, text, hreq, -, htrunc⟩⟩ := c.turn_cases s
  · rw [hsame] at h
    exact .inl h
  · obtain hmem | ⟨hfits, rfl⟩ := (Registry.mem_requests_of_truncate htrunc q).1 h
    · exact .inl hmem
    · exact .inr ⟨hreq, hfits⟩

theorem history_ok_of_room (hroom : qs.length ≤ counterLimit) {calls : List Call}
    (hrecord : ∀ q ∈ s.registry.requests, q ∈ qs)
    (hcalls : ∀ c ∈ calls, ∀ q, c.request? = some q → q.fits = false → q ∈ qs) :
    ∀ t ∈ (history s calls).1, ∃ answer, t.result = .ok answer := by
  -- the requests on record stay among those that all calls together put
  induction calls generalizing s with
  | nil => simp [history]
  | cons c calls ih =>
    rw [history_cons]
    refine List.forall_mem_cons.2 ⟨Call.turn_ok hroom hrecord (hcalls c List.mem_cons_self), ?_⟩
    refine ih (fun q hq => ?_) fun c' hc' => hcalls c' (List.mem_cons_of_mem c hc')
    obtain hmem | ⟨hreq, hfits⟩ := Call.mem_requests_turn hq
    · exact hrecord q hmem
    · exact hcalls c List.mem_cons_self q hreq hfits

end Room

/-- No call of a history fails that puts no more long requests than a stem has counters. -/
theorem history_ok {calls : List Call} (h : (longCalls calls).length ≤ counterLimit) :
    ∀ t ∈ (history .start calls).1, ∃ answer, t.result = .ok answer := by
  refine history_ok_of_room h (fun q hq => absurd hq List.not_mem_nil) fun c hc q hreq hfits => ?_
  exact mem_longCalls.2 ⟨hfits, c, hc, hreq⟩

end ApiGraph

import ApiGraph.Proofs.Registry.History

/-!
# Shared identifiers

The registry keeps long requests apart from each other, but a short request is answered
without a look at it. So a short request gets the identifier of a long one when it spells
that identifier out, before the long request is made or after it.

Main statement: in every history, a long request shares its identifier with itself and with
the short requests that spell out its stem, an underscore and the four digits of its
counter, and with no other request. Nothing rules such a short request out: any session
answers it in this way.
-/

namespace ApiGraph

open Identifier

/-- A long request that was answered is on record, under the identifier that it got. -/
theorem exists_entry_of_issued {s : Session} {calls : List Call} {t : Turn} {q : Request}
    {a : String} (ht : t ∈ (history s calls).1) (hissued : t.issued? = some (q, a))
    (hq : q.fits = false) :
    ∃ e ∈ (history s calls).2.registry.entries, e.request = q ∧ q.numbered e.counter = a := by
  have ha := answer?_of_issued ht hissued
  rw [Registry.answer?_of_long hq] at ha
  obtain ⟨e, he, rfl, hname⟩ := Registry.get?_eq_some_iff.1 ha
  exact ⟨e, he, rfl, hname⟩

/-- A short request that was answered got its own text. -/
theorem eq_joined_of_issued {s : Session} {calls : List Call} {t : Turn} {p : Request} {b : String}
    (ht : t ∈ (history s calls).1) (hissued : t.issued? = some (p, b)) (hp : p.fits = true) :
    b = p.joined := by
  have hb := answer?_of_issued ht hissued
  rw [Registry.answer?_of_fits hp, Option.some.injEq] at hb
  exact hb.symm

/-- The identifier of a long request is short enough to be asked for, and then every session
gives it away once more. -/
theorem turn_issues_numbered {q : Request} (hq : q.fits = false) (counter : Nat) (s : Session) :
    (⟨q.numbered counter, ""⟩ : Request).fits = true ∧
      ((Call.truncate ⟨q.numbered counter, ""⟩).turn s).1.issued? =
        some (⟨q.numbered counter, ""⟩, q.numbered counter) := by
  have hfits : (⟨q.numbered counter, ""⟩ : Request).fits = true := by
    simp [Request.fits_iff, Request.length_numbered hq]
  obtain ⟨hissued, -⟩ := Call.turn_of_fits (c := .truncate ⟨q.numbered counter, ""⟩) rfl hfits s
  rw [Request.joined, String.append_empty] at hissued
  exact ⟨hfits, hissued⟩

/-- In a history a long request and another one get the same identifier exactly when they are the
same request, or the other one is short and spells out what the long one got. -/
theorem truncated_shared_iff (calls : List Call) (t u : Turn) (ht : t ∈ (history .start calls).1)
    (hu : u ∈ (history .start calls).1) (q p : Request) (a b : String)
    (hqa : t.issued? = some (q, a)) (hpb : u.issued? = some (p, b)) (hq : q.fits = false) :
    a = b ↔ p = q ∨ p.fits = true ∧ ∃ e ∈ (history .start calls).2.registry.entries,
      e.request = q ∧ p.joined.toList = q.stem ++ '_' :: fourDigits e.counter := by
  obtain ⟨e, he, hreq, ha⟩ := exists_entry_of_issued ht hqa hq
  constructor
  · rintro rfl
    cases hp : p.fits with
    | true =>
      have hjoined := eq_joined_of_issued hu hpb hp
      refine .inr ⟨rfl, e, he, hreq, ?_⟩
      rw [← hjoined, ← ha, Request.toList_numbered]
    | false =>
      obtain ⟨e', he', hreq', ha'⟩ := exists_entry_of_issued hu hpb hp
      have hname : e'.name = e.name := by
        rw [Entry.name, Entry.name, hreq, hreq', ha, ha']
      rw [← hreq, ← hreq', Registry.name_inj he' he hname]
      exact .inl rfl
  · rintro (rfl | ⟨hp, e', he', hreq', hspells⟩)
    · have hsame := answer?_of_issued ht hqa
      rw [answer?_of_issued hu hpb, Option.some.injEq] at hsame
      exact hsame.symm
    · -- the two entries are of one request, so they have one counter
      have hentry : e' = e := List.inj_on_of_nodup_map
        (history .start calls).2.registry.request_nodup he' he (hreq'.trans hreq.symm)
      rw [eq_joined_of_issued hu hpb hp, ← ha, ← String.toList_inj, hspells, hentry,
        Request.toList_numbered]

/-- A request that is too long by one character. -/
def Identifier.Request.overlong : Request := ⟨String.ofList (List.replicate 64 'a'), ""⟩

theorem Identifier.Request.fits_overlong : Request.overlong.fits = false := by
  decide +kernel

/-- A long request, and then a short one that spells out what the long one gets. -/
def spellingCalls : List Call :=
  [.truncate .overlong, .truncate ⟨Request.overlong.numbered 0, ""⟩]

theorem issued_spellingCalls :
    ∃ t u, (history .start spellingCalls).1 = [t, u] ∧
      t.issued? = some (.overlong, Request.overlong.numbered 0) ∧
      u.issued? = some (⟨Request.overlong.numbered 0, ""⟩, Request.overlong.numbered 0) := by
  have hfirst : ((Call.truncate .overlong).turn .start).1.issued? =
      some (.overlong, Request.overlong.numbered 0) := by
    decide +kernel
  obtain ⟨-, hsecond⟩ :=
    turn_issues_numbered Request.fits_overlong 0 ((Call.truncate .overlong).turn .start).2
  exact ⟨_, _, rfl, hfirst, hsecond⟩

theorem truncated_shared_spellingCalls :
    ∃ t ∈ (history .start spellingCalls).1, ∃ u ∈ (history .start spellingCalls).1,
      ∃ p a b, t.issued? = some (.overlong, a) ∧ u.issued? = some (p, b) ∧
        Request.overlong.fits = false ∧
        (a = b ↔ p = .overlong ∨
          p.fits = true ∧ ∃ e ∈ (history .start spellingCalls).2.registry.entries,
            e.request = .overlong ∧
              p.joined.toList = Request.overlong.stem ++ '_' :: fourDigits e.counter) := by
  obtain ⟨t, u, hturns, ht, hu⟩ := issued_spellingCalls
  have htmem : t ∈ (history .start spellingCalls).1 := by simp [hturns]
  have humem : u ∈ (history .start spellingCalls).1 := by simp [hturns]
  exact ⟨t, htmem, u, humem, _, _, _, ht, hu, Request.fits_overlong,
    truncated_shared_iff spellingCalls t u htmem humem _ _ _ _ ht hu Request.fits_overlong⟩

/-- A long and a short request can get the same identifier. -/
theorem exists_truncated_eq_short :
    ∃ calls, ∃ t ∈ (history .start calls).1, ∃ u ∈ (history .start calls).1, ∃ q p a,
      t.issued? = some (q, a) ∧ u.issued? = some (p, a) ∧ q.fits = false ∧ p.fits = true := by
  obtain ⟨t, u, hturns, ht, hu⟩ := issued_spellingCalls
  obtain ⟨hfits, -⟩ := turn_issues_numbered Request.fits_overlong 0 .start
  exact ⟨spellingCalls, t, by simp [hturns], u, by simp [hturns], _, _, _, ht, hu,
    Request.fits_overlong, hfits⟩

end ApiGraph

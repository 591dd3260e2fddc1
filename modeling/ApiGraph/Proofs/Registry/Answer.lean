import ApiGraph.Identifier.Registry
import ApiGraph.Proofs.Lookup
import Mathlib.Order.Basic

/-!
# Answers of a registry

`answer? r q` is what the registry `r` knows about the request `q` without being
changed: the joined text of a short request, and the recorded identifier of a long
one. A registry only ever grows at the front, and `r ≤ r'` says that `r'` is `r`
after some more recordings. The two main facts tie both together: `truncate` puts
its result on record in a larger registry, and a registry that has an answer gives
it again and stays as it is. The third fact is that an identifier on record belongs
to one request only.
-/

namespace ApiGraph.Identifier

/-! ## Counters and stems -/

theorem digitChar_inj {m n : Nat} (hm : m < 10) (hn : n < 10)
    (h : m.digitChar = n.digitChar) : m = n := by
  have hall : ∀ a < 10, ∀ b < 10, a.digitChar = b.digitChar → a = b := by decide
  exact hall m hm n hn h

theorem isDigit_digitChar {n : Nat} (h : n < 10) : n.digitChar.isDigit = true := by
  have hall : ∀ a < 10, a.digitChar.isDigit = true := by decide
  exact hall n h

@[simp] theorem length_fourDigits (n : Nat) : (fourDigits n).length = 4 := rfl

theorem all_isDigit_fourDigits (n : Nat) : (fourDigits n).all Char.isDigit = true := by
  have hdigit : ∀ k, (k % 10).digitChar.isDigit = true :=
    fun k => isDigit_digitChar (Nat.mod_lt k (by decide))
  simp [fourDigits, hdigit]

/-- Below the limit a counter can be read back from its four digits. -/
theorem fourDigits_inj {m n : Nat} (hm : m < counterLimit) (hn : n < counterLimit)
    (h : fourDigits m = fourDigits n) : m = n := by
  have hlt : ∀ k, k % 10 < 10 := fun k => Nat.mod_lt k (by decide)
  simp only [fourDigits, List.cons.injEq, and_true] at h
  obtain ⟨h₃, h₂, h₁, h₀⟩ := h
  have e₃ := digitChar_inj (hlt _) (hlt _) h₃
  have e₂ := digitChar_inj (hlt _) (hlt _) h₂
  have e₁ := digitChar_inj (hlt _) (hlt _) h₁
  have e₀ := digitChar_inj (hlt _) (hlt _) h₀
  unfold counterLimit at hm hn
  omega

namespace Request

theorem fits_iff (q : Request) :
    q.fits = true ↔ q.name.length + q.suffix.length ≤ maxLength := by
  simp [fits]

/-- The stem of a long request is full. -/
theorem length_stem {q : Request} (h : q.fits = false) : q.stem.length = stemLength := by
  have hlong : ¬ q.name.length + q.suffix.length ≤ maxLength := by
    rw [← fits_iff, h]
    exact Bool.false_ne_true
  simp only [stem, List.length_append, List.length_take, String.length_toList, stemLength,
    maxLength] at hlong ⊢
  omega

theorem toList_numbered (q : Request) (n : Nat) :
    (q.numbered n).toList = q.stem ++ '_' :: fourDigits n := by
  rw [numbered, String.toList_ofList]

theorem length_numbered {q : Request} (h : q.fits = false) (n : Nat) :
    (q.numbered n).length = maxLength := by
  rw [← String.length_toList, toList_numbered, List.length_append, length_stem h]
  rfl

/-- The identifier of a long request determines its stem and its counter. -/
theorem numbered_inj {q p : Request} {m n : Nat} (hq : q.fits = false) (hp : p.fits = false)
    (hm : m < counterLimit) (hn : n < counterLimit) (h : q.numbered m = p.numbered n) :
    q.stem = p.stem ∧ m = n := by
  have hlist : q.stem ++ '_' :: fourDigits m = p.stem ++ '_' :: fourDigits n := by
    rw [← toList_numbered, ← toList_numbered, h]
  have hlen : q.stem.length = p.stem.length := by rw [length_stem hq, length_stem hp]
  obtain ⟨hstem, htail⟩ := List.append_inj hlist hlen
  exact ⟨hstem, fourDigits_inj hm hn (List.cons.inj htail).2⟩

end Request

namespace Registry

/-! ## Growth -/

/-- The larger registry has everything the smaller one has, and in the same order. -/
instance : LE Registry := ⟨fun r r' => r.entries <:+ r'.entries⟩

theorem le_iff {r r' : Registry} : r ≤ r' ↔ r.entries <:+ r'.entries := Iff.rfl

theorem ext_entries {r r' : Registry} (h : r.entries = r'.entries) : r = r' := by
  cases r
  cases r'
  cases h
  rfl

instance : PartialOrder Registry where
  le_refl r := List.suffix_refl r.entries
  le_trans _ _ _ h h' := List.IsSuffix.trans h h'
  le_antisymm r r' h h' :=
    ext_entries (h.eq_of_length (Nat.le_antisymm h.length_le h'.length_le))

/-! ## Entries -/

theorem entry?_eq_some_iff {r : Registry} {q : Request} {e : Entry} :
    r.entry? q = some e ↔ e ∈ r.entries ∧ e.request = q :=
  find?_key_eq_some_iff r.request_nodup

/-- No identifier is on record twice. -/
theorem name_inj {r : Registry} {e e' : Entry} (he : e ∈ r.entries) (he' : e' ∈ r.entries)
    (h : e.name = e'.name) : e = e' := by
  obtain ⟨hstem, hcounter⟩ := Request.numbered_inj (r.fits_eq_false e he)
    (r.fits_eq_false e' he') (r.counter_lt e he) (r.counter_lt e' he') h
  have hmark : e.mark = e'.mark := by
    rw [Entry.mark, Entry.mark, e.stem_eq, e'.stem_eq, hstem, hcounter]
  exact List.inj_on_of_nodup_map r.mark_nodup he he' hmark

theorem get?_eq_some_iff {r : Registry} {q : Request} {t : String} :
    r.get? q = some t ↔ ∃ e ∈ r.entries, e.request = q ∧ e.name = t := by
  simp [get?, Option.map_eq_some_iff, entry?_eq_some_iff, and_assoc]

/-- An identifier on record belongs to one request. -/
theorem get?_inj {r : Registry} {q p : Request} {t : String} (hq : r.get? q = some t)
    (hp : r.get? p = some t) : q = p := by
  obtain ⟨e, he, rfl, hname⟩ := get?_eq_some_iff.1 hq
  obtain ⟨e', he', rfl, hname'⟩ := get?_eq_some_iff.1 hp
  rw [name_inj he he' (hname.trans hname'.symm)]

theorem get?_mono {r r' : Registry} (h : r ≤ r') {q : Request} {t : String}
    (ht : r.get? q = some t) : r'.get? q = some t := by
  obtain ⟨e, he, hreq, hname⟩ := get?_eq_some_iff.1 ht
  exact get?_eq_some_iff.2 ⟨e, h.mem he, hreq, hname⟩

def requests (r : Registry) : List Request := r.entries.map (·.request)

/-! ## Answers -/

/-- The answer to a request that needs nothing new on record. -/
def answer? (r : Registry) (q : Request) : Option String :=
  if q.fits then some q.joined else r.get? q

theorem answer?_of_fits {r : Registry} {q : Request} (h : q.fits = true) :
    r.answer? q = some q.joined := by
  rw [answer?, if_pos h]

theorem answer?_of_long {r : Registry} {q : Request} (h : q.fits = false) :
    r.answer? q = r.get? q := by
  rw [answer?, h]
  rfl

/-- A request is new when the registry has no answer to it. -/
theorem isNew_eq (r : Registry) (q : Request) : r.isNew q = (r.answer? q).isNone := by
  unfold isNew answer? get?
  cases q.fits with
  | true => rfl
  | false => simp

/-- Answers stay what they are. -/
theorem answer?_mono {r r' : Registry} (h : r ≤ r') {q : Request} {t : String}
    (ht : r.answer? q = some t) : r'.answer? q = some t := by
  cases hfits : q.fits with
  | true => rwa [answer?_of_fits hfits] at ht ⊢
  | false =>
    rw [answer?_of_long hfits] at ht ⊢
    exact get?_mono h ht

/-- A request with an answer leaves the registry alone. -/
theorem truncate_of_answer? {r : Registry} {q : Request} {t : String}
    (h : r.answer? q = some t) : r.truncate q = .ok (t, r) := by
  cases hfits : q.fits with
  | true =>
    rw [answer?_of_fits hfits] at h
    rw [truncate_of_fits hfits, Option.some.inj h]
  | false =>
    rw [answer?_of_long hfits] at h
    obtain ⟨e, he, rfl⟩ := Option.map_eq_some_iff.1 h
    unfold truncate
    rw [dif_neg (by simp [hfits])]
    split
    · rename_i e' he'
      rw [he] at he'
      rw [Option.some.inj he']
    · rename_i hnone
      rw [he] at hnone
      cases hnone

/-- A request without an answer is recorded in front of the others, under its stem and the least
counter that the stem has not given away, unless there is none left. -/
theorem truncate_of_answer?_eq_none {r : Registry} {q : Request} (h : r.answer? q = none) :
    counterLimit ≤ leastFree 0 (r.used q.stem) ∧ r.truncate q = .error ⟨q⟩ ∨
      ∃ e r', e.request = q ∧ e.counter = leastFree 0 (r.used q.stem) ∧
        r'.entries = e :: r.entries ∧ r.truncate q = .ok (e.name, r') := by
  have hfits : q.fits = false := by
    by_contra hlong
    rw [answer?_of_fits (by simpa using hlong)] at h
    cases h
  have hentry : r.entry? q = none := by
    rw [answer?_of_long hfits] at h
    exact Option.map_eq_none_iff.1 h
  unfold truncate
  rw [dif_neg (by simp [hfits])]
  split
  · rename_i e he
    rw [hentry] at he
    cases he
  · dsimp only
    split
    · exact .inr ⟨{ request := q, counter := leastFree 0 (r.used q.stem) }, _, rfl, rfl, rfl, rfl⟩
    · rename_i hlimit
      exact .inl ⟨Nat.not_lt.1 hlimit, rfl⟩

/-- Truncation puts its result on record. -/
theorem truncate_eq_ok {r r' : Registry} {q : Request} {t : String}
    (h : r.truncate q = .ok (t, r')) : r ≤ r' ∧ r'.answer? q = some t := by
  cases hans : r.answer? q with
  | some t' =>
    rw [truncate_of_answer? hans] at h
    cases h
    exact ⟨le_refl r, hans⟩
  | none =>
    obtain ⟨-, herr⟩ | ⟨e, r'', rfl, -, hentries, hok⟩ := truncate_of_answer?_eq_none hans
    · rw [herr] at h
      cases h
    · rw [hok] at h
      cases h
      refine ⟨le_iff.2 (hentries ▸ List.suffix_cons e r.entries), ?_⟩
      have hmem : e ∈ r'.entries := hentries ▸ List.mem_cons_self
      rw [answer?_of_long (r'.fits_eq_false e hmem)]
      exact get?_eq_some_iff.2 ⟨e, hmem, rfl, rfl⟩

/-- Truncation records its own request, if that is long, and no other. -/
theorem mem_requests_of_truncate {r r' : Registry} {q : Request} {t : String}
    (h : r.truncate q = .ok (t, r')) (p : Request) :
    p ∈ r'.requests ↔ p ∈ r.requests ∨ q.fits = false ∧ p = q := by
  cases hans : r.answer? q with
  | some t' =>
    rw [truncate_of_answer? hans] at h
    cases h
    refine ⟨.inl, ?_⟩
    rintro (hp | ⟨hfits, rfl⟩)
    · exact hp
    · rw [answer?_of_long hfits] at hans
      obtain ⟨e, he, hreq, -⟩ := get?_eq_some_iff.1 hans
      exact List.mem_map.2 ⟨e, he, hreq⟩
  | none =>
    obtain ⟨-, herr⟩ | ⟨e, r'', rfl, -, hentries, hok⟩ := truncate_of_answer?_eq_none hans
    · rw [herr] at h
      cases h
    · rw [hok] at h
      cases h
      have hfits : e.request.fits = false :=
        r'.fits_eq_false e (hentries ▸ List.mem_cons_self)
      simp [requests, hentries, hfits, or_comm]

end Registry

end ApiGraph.Identifier

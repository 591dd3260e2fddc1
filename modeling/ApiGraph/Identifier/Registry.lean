import ApiGraph.Identifier.Legal

/-!
# Registry of truncated names

A request asks for a name joined to a suffix. A request that fits into
`maxLength` characters is answered by the joined text. A longer one is answered by
its stem (the suffix, and as much of the name as leaves `stemLength` characters in
all) followed by an underscore and a counter of four digits.

The registry remembers which counter every long request got. A new request takes
the least counter that its stem has not given away yet, so equal requests get
equal answers and different long requests never share one; both facts are kept
as fields of the type. The counter of a stem runs out after `counterLimit` requests.
-/

namespace ApiGraph.Identifier

/-- The characters kept in front of the counter. -/
def stemLength : Nat := 58

def counterLimit : Nat := 10000

/-- A name to be joined to a suffix. -/
structure Request where
  name : String
  suffix : String
  deriving DecidableEq

def fourDigits (n : Nat) : List Char :=
  [(n / 1000 % 10).digitChar, (n / 100 % 10).digitChar, (n / 10 % 10).digitChar,
   (n % 10).digitChar]

namespace Request

def joined (q : Request) : String := q.name ++ q.suffix

def fits (q : Request) : Bool := q.name.length + q.suffix.length ≤ maxLength

/-- The suffix, and before it as much of the name as the stem has room for. -/
def stem (q : Request) : List Char :=
  let kept := q.suffix.toList.take stemLength
  q.name.toList.take (stemLength - kept.length) ++ kept

def numbered (q : Request) (counter : Nat) : String :=
  String.ofList (q.stem ++ '_' :: fourDigits counter)

end Request

/-- The least number from `n` on that is not in a list. Every number found in the list is struck
off, so the search ends. -/
def leastFree (n : Nat) (used : List Nat) : Nat :=
  if h : n ∈ used then leastFree (n + 1) (used.erase n) else n
termination_by used.length
decreasing_by
  rw [List.length_erase_of_mem h]
  exact Nat.sub_lt (List.length_pos_of_mem h) (by decide)

theorem le_leastFree (n : Nat) (used : List Nat) : n ≤ leastFree n used := by
  fun_induction leastFree n used with
  | case1 n used h ih => omega
  | case2 n used h => omega

/-- The least free number is free. -/
theorem leastFree_not_mem (n : Nat) (used : List Nat) : leastFree n used ∉ used := by
  fun_induction leastFree n used with
  | case1 n used h ih =>
    have hle := le_leastFree (n + 1) (used.erase n)
    exact fun hmem => ih ((List.mem_erase_of_ne (by omega)).2 hmem)
  | case2 n used h => exact h

/-- Every smaller number, from the start of the search on, is in the list. -/
theorem mem_of_lt_leastFree {n k : Nat} {used : List Nat} (hn : n ≤ k)
    (hk : k < leastFree n used) : k ∈ used := by
  fun_induction leastFree n used with
  | case1 n used h ih =>
    rcases Nat.eq_or_lt_of_le hn with rfl | hlt
    · exact h
    · exact List.mem_of_mem_erase (ih hlt hk)
  | case2 n used h => omega

/-- A list of so many numbers leaves one free among as many and one more. -/
theorem leastFree_le (n : Nat) (used : List Nat) : leastFree n used ≤ n + used.length := by
  fun_induction leastFree n used with
  | case1 n used h ih =>
    have hpos := List.length_pos_of_mem h
    rw [List.length_erase_of_mem h] at ih
    omega
  | case2 n used h => omega

/-- A long request and the counter it got. The stem is kept at hand, because every later request
is compared with it. -/
structure Entry where
  request : Request
  counter : Nat
  stem : List Char := request.stem
  stem_eq : stem = request.stem := by rfl

namespace Entry

/-- The identifier issued for the request. -/
def name (e : Entry) : String := e.request.numbered e.counter

/-- What sets the issued identifier apart: the stem and the counter. -/
def mark (e : Entry) : List Char × Nat := (e.stem, e.counter)

end Entry

/-- The long requests answered so far, the latest first. -/
structure Registry where
  entries : List Entry
  request_nodup : (entries.map (·.request)).Nodup
  mark_nodup : (entries.map (·.mark)).Nodup
  fits_eq_false : ∀ e ∈ entries, e.request.fits = false
  counter_lt : ∀ e ∈ entries, e.counter < counterLimit

/-- A request whose stem has no counter left. -/
structure Exhausted where
  request : Request

def Exhausted.message (e : Exhausted) : String :=
  "Failed to truncate '" ++ e.request.name ++ "' (suffix '" ++ e.request.suffix ++ "'): all " ++
    counterLimit.repr ++ " disambiguation counters are in use"

namespace Registry

def empty : Registry := ⟨[], by simp, by simp, by simp, by simp⟩

instance : EmptyCollection Registry := ⟨empty⟩

instance : Inhabited Registry := ⟨∅⟩

def size (r : Registry) : Nat := r.entries.length

def entry? (r : Registry) (q : Request) : Option Entry :=
  r.entries.find? fun e => e.request = q

def get? (r : Registry) (q : Request) : Option String := (r.entry? q).map (·.name)

/-- The counters a stem has given away, the first one first. -/
def used (r : Registry) (stem : List Char) : List Nat :=
  ((r.entries.filter fun e => e.stem = stem).map (·.counter)).reverse

theorem mem_used {r : Registry} {stem : List Char} {n : Nat} :
    n ∈ r.used stem ↔ (stem, n) ∈ r.entries.map (·.mark) := by
  simp [used, Entry.mark, and_comm, and_assoc, eq_comm]

def record (r : Registry) (e : Entry) (hfits : e.request.fits = false)
    (hnew : r.entry? e.request = none) (hfree : e.counter ∉ r.used e.stem)
    (hlt : e.counter < counterLimit) : Registry where
  entries := e :: r.entries
  request_nodup := by
    rw [List.map_cons, List.nodup_cons]
    refine ⟨fun hmem => ?_, r.request_nodup⟩
    obtain ⟨x, hx, heq⟩ := List.mem_map.1 hmem
    exact absurd heq (by simpa using List.find?_eq_none.1 hnew x hx)
  mark_nodup := by
    rw [List.map_cons, List.nodup_cons]
    exact ⟨fun hmem => hfree (mem_used.2 hmem), r.mark_nodup⟩
  fits_eq_false := by
    intro x hx
    rcases List.mem_cons.1 hx with rfl | hx
    · exact hfits
    · exact r.fits_eq_false x hx
  counter_lt := by
    intro x hx
    rcases List.mem_cons.1 hx with rfl | hx
    · exact hlt
    · exact r.counter_lt x hx

/-- Whether answering a request would have to be recorded. -/
def isNew (r : Registry) (q : Request) : Bool := !q.fits && (r.entry? q).isNone

/-- Answers a request: a short one by its joined text, a recorded one by what it got before, and
a new one by its stem with the least unused counter. -/
def truncate (r : Registry) (q : Request) : Except Exhausted (String × Registry) :=
  if hfits : q.fits = true then .ok (q.joined, r)
  else
    match hentry : r.entry? q with
    | some e => .ok (e.name, r)
    | none =>
      let counter := leastFree 0 (r.used q.stem)
      if hlt : counter < counterLimit then
        .ok (q.numbered counter,
          r.record { request := q, counter } (by simpa using hfits) hentry
            (leastFree_not_mem 0 _) hlt)
      else .error ⟨q⟩

theorem truncate_of_fits {r : Registry} {q : Request} (h : q.fits = true) :
    r.truncate q = .ok (q.joined, r) := by
  simp [truncate, h]

end Registry

end ApiGraph.Identifier

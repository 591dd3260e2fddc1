import ApiGraph.Proofs.Naming.Termination
import ApiGraph.Proofs.Operation.Build

/-!
# Identifiers of operations

Operations are built in the order of their declarations, and each is told apart from those
before it. `Identified r taken own id` says which identifier `id` an operation gets when
`own` is made of its declared name and `taken` are the identifiers of the operations before
it: its own one if that is not taken, and else the first numbered form of it that is not.
What a numbered form is truncated to is asked of the registry `r` of the whole run, in which
every request has the answer that it got when it was made.

Main statement: building keeps the declarations and their order, gives every operation the
identifier that it gets in this sense, so that no identifier is given twice, never goes back
to an operation for the sake of a later one, and warns once for every operation that does not
get its own identifier.
-/

namespace ApiGraph

open Identifier Naming

def Event.isDuplicateOperation : Event → Bool
  | .duplicateOperation .. => true
  | _ => false

theorem Event.isDuplicateOperation_eq_false {e : Event} (h : e.isTyping = true) :
    e.isDuplicateOperation = false := by
  cases e with
  | duplicateOperation baseId operationId renamed => cases h
  | _ => rfl

def Event.isIdentifying : Event → Bool
  | .duplicateOperation .. => true
  | e => e.isTyping

theorem Event.isIdentifying_of_isTyping {e : Event} (h : e.isTyping = true) :
    e.isIdentifying = true := by
  cases e <;> first | rfl | exact h

namespace Operation

/-- The identifier of an operation whose own identifier is `own`, after others have been taken. -/
inductive Identified (r : Registry) (taken : List String) (own : String) : String → Prop
  | own (free : own ∉ taken) : Identified r taken own own
  | numbered {n : Nat} {id : String} (isTaken : own ∈ taken) (pos : 0 < n)
      (answer : r.answer? ⟨own, "_" ++ n.repr⟩ = some id) (free : id ∉ taken)
      (passed : ∀ b, 0 < b → b < n → ∃ c ∈ taken, r.answer? ⟨own, "_" ++ b.repr⟩ = some c) :
      Identified r taken own id

/-- The warning about an operation that did not get its own identifier. -/
def renaming? (r : Registry) (o : Operation) : Option Event :=
  (sanitized? r o.baseId .operation).bind fun own =>
    if o.operationId = own then none
    else some (.duplicateOperation o.baseId own o.operationId)

/-- What building makes of declarations, from the session `s` to the session `t`. -/
structure IdentifiedInOrder (packageName : String) (specs : List OperationSpec) (s t : Session)
    (os : List Operation) : Prop where
  /-- There is one operation for each declaration, in the same order. -/
  copies : List.Forall₂ Copies specs os
  /-- No identifier is given twice. -/
  distinct : (os.map operationId).Nodup
  /-- An operation gets its own identifier, or else the first numbered form, that the operations
  before it have not taken. -/
  identified : ∀ before o after, os = before ++ o :: after →
    ∃ own, sanitized? t.registry o.baseId .operation = some own ∧
      Identified t.registry (before.map operationId) own o.operationId
  /-- The first operations come out as they do without the ones after them. -/
  settled : ∀ n, ∃ u, buildAll packageName (specs.take n) s = .ok (os.take n) u
  /-- There is one warning for each operation that did not get its own identifier. -/
  warnings : t.log.toList.filter Event.isDuplicateOperation =
    s.log.toList.filter Event.isDuplicateOperation ++ os.filterMap (renaming? t.registry)

/-! ## Identifiers -/

namespace Identified

variable {r : Registry} {taken : List String} {own id : String}

theorem not_mem (h : Identified r taken own id) : id ∉ taken := by
  cases h with
  | own free => exact free
  | numbered _ _ _ free _ => exact free

/-- An operation is renamed when its own identifier is taken, and only then. -/
theorem eq_own_iff (h : Identified r taken own id) : id = own ↔ own ∉ taken := by
  cases h with
  | own free => exact iff_of_true rfl free
  | numbered isTaken _ _ free _ =>
    refine iff_of_false ?_ (not_not_intro isTaken)
    rintro rfl
    exact free isTaken

theorem congr {taken' : List String} (h : Identified r taken own id)
    (htaken : ∀ c, c ∈ taken ↔ c ∈ taken') : Identified r taken' own id := by
  cases h with
  | own free => exact .own fun hc => free ((htaken own).2 hc)
  | numbered isTaken pos answer free passed =>
    refine .numbered ((htaken own).1 isTaken) pos answer (fun hc => free ((htaken id).2 hc)) ?_
    intro b hb hbn
    obtain ⟨c, hc, heq⟩ := passed b hb hbn
    exact ⟨c, (htaken c).1 hc, heq⟩

end Identified

/-! ## The search for a numbered identifier -/

theorem freeId_eq (operationId : String) (taken : List String) (tries n : Nat) :
    freeId operationId taken tries n = do
      let found ← firstFree (fun k => ⟨operationId, "_" ++ k.repr⟩) taken.contains tries n
      return found.1 := by
  induction tries generalizing n with
  | zero => rfl
  | succ tries ih =>
    unfold freeId firstFree
    rw [bind_assoc]
    refine bind_congr fun c => ?_
    split
    · exact ih (n + 1)
    · rfl

theorem numbered_injective (operationId : String) :
    Function.Injective fun k : Nat => (⟨operationId, "_" ++ k.repr⟩ : Request) :=
  fun _ _ h => numberSuffix_inj (Request.mk.inj h).2

/-- The tries that there are for an operation do as well as one for every number. -/
theorem freeId_distinguish_eq (operationId : String) (taken : List String) :
    freeId operationId taken (min (2 * taken.length + 1) (renameLimit - 1)) 1 = do
      let found ← firstFree (fun k => ⟨operationId, "_" ++ k.repr⟩) taken.contains
        (renameLimit - 1) 1
      return found.1 := by
  rw [freeId_eq, firstFree_min (numbered_injective operationId) (fun _ _ => rfl)
    (fun _ => List.contains_iff_mem.1) 1 (le_refl _)]

theorem composed_freeId (operationId : String) (taken : List String) :
    (freeId operationId taken (min (2 * taken.length + 1) (renameLimit - 1)) 1).Composed
      (fun e => e.isTyping = true) PastNumbers := by
  rw [freeId_distinguish_eq]
  refine .bind ((composed_firstFree _ _ ⟨"", renameLimit, le_refl _, ?_⟩).mono
    fun _ => Event.isTyping_of_isNaming) fun found => .pure found.1
  have hlast : 1 + (renameLimit - 1) = renameLimit := by decide
  rw [hlast, String.empty_append]

theorem establishes_freeId {own : String} {taken : List String} (htaken : own ∈ taken)
    (tries : Nat) :
    (freeId own taken tries 1).Establishes fun r id => Identified r taken own id := by
  have hsearch : (firstFree (fun k => ⟨own, "_" ++ k.repr⟩) taken.contains tries 1).Establishes
      fun r found => (firstFree (fun k => ⟨own, "_" ++ k.repr⟩) taken.contains tries 1).Recalls r
        found :=
    memoizing_firstFree _ _ _ _
  rw [freeId_eq]
  refine hsearch.bind fun (id, n) => establishes_pure fun r hfound => ?_
  obtain ⟨hpos, -, hanswer, hfree, hpassed⟩ := recalls_firstFree_iff.1 hfound
  refine .numbered htaken hpos hanswer (by simpa using hfree) fun b hb hbn => ?_
  obtain ⟨c, hc, heq⟩ := hpassed b hb hbn
  exact ⟨c, by simpa using hc, heq⟩

/-! ## One operation after others -/

/-- Apart from its identifier an operation stays as it is, and that gets a place among those
taken. -/
theorem establishes_distinguish (taken : List String) (o : Operation) :
    (distinguish taken o).Establishes fun r o' =>
      ∃ id, Identified r taken o.operationId id ∧ o' = { o with operationId := id } := by
  unfold distinguish
  split
  · rename_i htaken
    refine (establishes_freeId (by simpa using htaken) _).bind fun id => ?_
    refine (establishes_report _).bind fun _ => ?_
    exact establishes_pure fun r _ hid => ⟨id, hid, rfl⟩
  · rename_i hfree
    exact establishes_pure fun r => ⟨o.operationId, .own (by simpa using hfree), rfl⟩

/-- What an operation has and what it is called, built after others with the identifiers `taken`. -/
structure BuiltAfter (r : Registry) (taken : List String) (spec : OperationSpec) (o : Operation) :
    Prop where
  copies : Copies spec o
  identified : ∃ own, sanitized? r o.baseId .operation = some own ∧
    Identified r taken own o.operationId
  follows : Follows (KnownClass r) spec o

theorem establishes_builtAfter (packageName : String) (taken : List String)
    (spec : OperationSpec) :
    (build packageName spec >>= distinguish taken).Establishes fun r o =>
      BuiltAfter r taken spec o := by
  refine (establishes_build packageName spec).bind fun o => ?_
  refine (establishes_distinguish taken o).mono fun r o' h hbuild => ?_
  obtain ⟨id, hid, rfl⟩ := h
  obtain ⟨hcopies, hown, hfollows⟩ := hbuild
  rw [← hcopies.baseId] at hown
  exact ⟨⟨hcopies.baseId, hcopies.method, hcopies.path, hcopies.authMethods, hcopies.extensions⟩,
    ⟨o.operationId, hown, hid⟩, ⟨hfollows.parameters, hfollows.returnType⟩⟩

/-- Telling an operation apart adds a warning if it gives another identifier, and only then. -/
theorem warnings_distinguish {taken : List String} {o o' : Operation} {s t : Session}
    (h : distinguish taken o s = .ok o' t) :
    t.log.toList.filter Event.isDuplicateOperation =
      s.log.toList.filter Event.isDuplicateOperation ++
        if o'.operationId = o.operationId then []
        else [.duplicateOperation o.baseId o.operationId o'.operationId] := by
  obtain ⟨-, hafter⟩ := establishes_distinguish taken o s o' t h
  obtain ⟨id, hid, rfl⟩ := hafter t.registry (le_refl t.registry)
  have hiff := hid.eq_own_iff
  unfold distinguish at h
  split at h
  · rename_i htaken
    have hne : id ≠ o.operationId := fun heq => hiff.1 heq (by simpa using htaken)
    obtain ⟨renamed, s₁, hfree, h⟩ := bind_eq_ok_iff.1 h
    obtain ⟨_, s₂, hreport, h⟩ := bind_eq_ok_iff.1 h
    obtain ⟨heq, rfl⟩ := pure_eq_ok_iff.1 h
    obtain rfl : renamed = id := congrArg operationId heq
    cases hreport
    -- the search reports truncated names at most
    have hlog := ((composed_freeId _ _).reports
      fun _ => Event.isTyping_of_isSome_truncation?).filter_eq
      (fun _ => Event.isDuplicateOperation_eq_false) hfree
    rw [if_neg hne, ← hlog]
    simp [Event.isDuplicateOperation]
  · obtain ⟨heq, rfl⟩ := pure_eq_ok_iff.1 h
    rw [if_pos (congrArg operationId heq).symm, List.append_nil]

/-- The warning of an operation is the only one of its kind that building it adds. -/
theorem warnings_builtAfter {packageName : String} {taken : List String} {spec : OperationSpec}
    {s t : Session} {o : Operation}
    (h : (build packageName spec >>= distinguish taken) s = .ok o t) {r : Registry}
    (hr : t.registry ≤ r) :
    t.log.toList.filter Event.isDuplicateOperation =
      s.log.toList.filter Event.isDuplicateOperation ++ (renaming? r o).toList := by
  obtain ⟨o₀, s₁, hbuild, hdistinguish⟩ := bind_eq_ok_iff.1 h
  have hlog := ((composed_build packageName spec).reports
    fun _ => Event.isTyping_of_isSome_truncation?).filter_eq
    (fun _ => Event.isDuplicateOperation_eq_false) hbuild
  obtain ⟨-, hbuilt⟩ := establishes_build packageName spec s o₀ s₁ hbuild
  obtain ⟨hle, hafter⟩ := establishes_distinguish taken o₀ s₁ o t hdistinguish
  obtain ⟨hcopies, hown, -⟩ := hbuilt r (hle.trans hr)
  obtain ⟨id, -, ho⟩ := hafter r hr
  have hbase : o.baseId = o₀.baseId := by rw [ho]
  rw [warnings_distinguish hdistinguish, hlog, renaming?, hbase, hcopies.baseId, hown,
    Option.bind_some]
  split <;> rfl

/-! ## All operations -/

theorem buildAfter_cons (packageName : String) (taken : List String) (spec : OperationSpec)
    (specs : List OperationSpec) :
    buildAfter packageName taken (spec :: specs) = do
      let o ← build packageName spec >>= distinguish taken
      let os ← buildAfter packageName (o.operationId :: taken) specs
      return o :: os := by
  rw [buildAfter, bind_assoc]

/-- Operations built one after the other, the first of them after others with the identifiers
`taken`. -/
inductive BuiltInTurn (r : Registry) :
    List String → List OperationSpec → List Operation → Prop
  | nil {taken : List String} : BuiltInTurn r taken [] []
  | cons {taken : List String} {spec : OperationSpec} {o : Operation}
      {specs : List OperationSpec} {os : List Operation} (first : BuiltAfter r taken spec o)
      (rest : BuiltInTurn r (o.operationId :: taken) specs os) :
      BuiltInTurn r taken (spec :: specs) (o :: os)

theorem establishes_buildAfter (packageName : String) (taken : List String)
    (specs : List OperationSpec) :
    (buildAfter packageName taken specs).Establishes fun r os => BuiltInTurn r taken specs os := by
  induction specs generalizing taken with
  | nil => exact establishes_pure fun r => .nil
  | cons spec specs ih =>
    rw [buildAfter_cons]
    refine (establishes_builtAfter packageName taken spec).bind fun o => ?_
    refine (ih (o.operationId :: taken)).bind fun os => ?_
    exact establishes_pure fun r hos ho => .cons ho hos

theorem warnings_buildAfter {packageName : String} {taken : List String}
    {specs : List OperationSpec} {s t : Session} {os : List Operation}
    (h : buildAfter packageName taken specs s = .ok os t) {r : Registry} (hr : t.registry ≤ r) :
    t.log.toList.filter Event.isDuplicateOperation =
      s.log.toList.filter Event.isDuplicateOperation ++ os.filterMap (renaming? r) := by
  induction specs generalizing taken s os with
  | nil =>
    obtain ⟨rfl, rfl⟩ := pure_eq_ok_iff.1 h
    simp
  | cons spec specs ih =>
    rw [buildAfter_cons] at h
    obtain ⟨o, s₁, ho, h⟩ := bind_eq_ok_iff.1 h
    obtain ⟨os', s₂, hos, h⟩ := bind_eq_ok_iff.1 h
    obtain ⟨rfl, rfl⟩ := pure_eq_ok_iff.1 h
    obtain ⟨hle, -⟩ := establishes_buildAfter packageName _ specs s₁ os' s₂ hos
    rw [ih hos, warnings_builtAfter ho (hle.trans hr), List.append_assoc, List.filterMap_cons]
    cases renaming? r o <;> rfl

/-- The first operations do not depend on the ones after them. -/
theorem buildAfter_take {packageName : String} {taken : List String} {specs : List OperationSpec}
    {s t : Session} {os : List Operation} (h : buildAfter packageName taken specs s = .ok os t)
    (n : Nat) : ∃ u, buildAfter packageName taken (specs.take n) s = .ok (os.take n) u := by
  induction specs generalizing taken s os n with
  | nil =>
    obtain ⟨rfl, rfl⟩ := pure_eq_ok_iff.1 h
    exact ⟨s, by simp [buildAfter, pure_eq_ok_iff]⟩
  | cons spec specs ih =>
    rw [buildAfter_cons] at h
    obtain ⟨o, s₁, ho, h⟩ := bind_eq_ok_iff.1 h
    obtain ⟨os', s₂, hos, h⟩ := bind_eq_ok_iff.1 h
    obtain ⟨rfl, rfl⟩ := pure_eq_ok_iff.1 h
    cases n with
    | zero => exact ⟨s, rfl⟩
    | succ n =>
      obtain ⟨u, hu⟩ := ih hos n
      refine ⟨u, ?_⟩
      rw [List.take_succ_cons, List.take_succ_cons, buildAfter_cons]
      exact bind_eq_ok_iff.2 ⟨o, s₁, ho, bind_eq_ok_iff.2 ⟨_, u, hu, rfl⟩⟩

theorem composed_distinguish (taken : List String) (o : Operation) :
    (distinguish taken o).Composed (fun e => e.isIdentifying = true) PastNumbers := by
  unfold distinguish
  split
  · refine .bind ((composed_freeId _ _).mono fun _ => Event.isIdentifying_of_isTyping)
      fun renamed => ?_
    exact .bind (.report rfl rfl) fun _ => .pure _
  · exact .pure o

theorem composed_buildAfter (packageName : String) (taken : List String)
    (specs : List OperationSpec) :
    (buildAfter packageName taken specs).Composed (fun e => e.isIdentifying = true)
      PastNumbers := by
  induction specs generalizing taken with
  | nil => exact .pure []
  | cons spec specs ih =>
    unfold buildAfter
    refine .bind ((composed_build packageName spec).within.mono
      fun _ => Event.isIdentifying_of_isTyping) fun o => ?_
    refine .bind (composed_distinguish taken o) fun o' => ?_
    exact .bind (ih (o'.operationId :: taken)) fun os => .pure (o' :: os)

namespace BuiltInTurn

variable {r : Registry} {taken : List String} {specs : List OperationSpec} {os : List Operation}

theorem copies (h : BuiltInTurn r taken specs os) : List.Forall₂ Copies specs os := by
  induction h with
  | nil => exact .nil
  | cons first _ ih => exact .cons first.copies ih

theorem follows (h : BuiltInTurn r taken specs os) :
    List.Forall₂ (Follows (KnownClass r)) specs os := by
  induction h with
  | nil => exact .nil
  | cons first _ ih => exact .cons first.follows ih

theorem identified (h : BuiltInTurn r taken specs os) {before after : List Operation}
    {o : Operation} (hsplit : os = before ++ o :: after) :
    ∃ own, sanitized? r o.baseId .operation = some own ∧
      Identified r (before.map operationId ++ taken) own o.operationId := by
  induction h generalizing before with
  | nil => simp at hsplit
  | @cons taken spec o' specs os first _ ih =>
    cases before with
    | nil =>
      obtain ⟨rfl, rfl⟩ := List.cons.inj hsplit
      exact first.identified
    | cons x before =>
      obtain ⟨rfl, hrest⟩ := List.cons.inj hsplit
      obtain ⟨own, hown, hid⟩ := ih hrest
      refine ⟨own, hown, hid.congr fun c => ?_⟩
      -- the identifier of the first operation has gone from the taken ones to those before
      simp only [List.map_cons, List.cons_append, List.mem_append, List.mem_cons]
      exact or_left_comm

theorem distinct (h : BuiltInTurn r taken specs os) :
    (os.map operationId).Nodup ∧ ∀ c ∈ taken, c ∉ os.map operationId := by
  induction h with
  | nil => exact ⟨List.nodup_nil, by simp⟩
  | cons first _ ih =>
    obtain ⟨hnodup, hdisjoint⟩ := ih
    obtain ⟨own, -, hid⟩ := first.identified
    refine ⟨List.nodup_cons.2 ⟨hdisjoint _ List.mem_cons_self, hnodup⟩, fun c hc hmem => ?_⟩
    rcases List.mem_cons.1 hmem with rfl | hmem
    · exact hid.not_mem hc
    · exact hdisjoint c (List.mem_cons_of_mem _ hc) hmem

end BuiltInTurn

/-- Building operations keeps their declarations in order, gives each the first free identifier and
warns once about each that does not get its own. -/
theorem buildAll_identified (packageName : String) (specs : List OperationSpec) (s t : Session)
    (os : List Operation) (h : buildAll packageName specs s = .ok os t) :
    IdentifiedInOrder packageName specs s t os := by
  obtain ⟨-, hbuilt⟩ := establishes_buildAfter packageName [] specs s os t h
  have hturn := hbuilt t.registry (le_refl t.registry)
  refine ⟨hturn.copies, hturn.distinct.1, fun before o after hsplit => ?_, buildAfter_take h,
    warnings_buildAfter h (le_refl t.registry)⟩
  simpa using hturn.identified hsplit

/-- Operations of one name, one of them under a name that another is going to be renamed to. -/
def homonyms : List OperationSpec :=
  [⟨"get-pet", .get, "/pets/x", [], [], none, [], ∅⟩,
   ⟨"get_pet", .get, "/pets/y", [], [], none, ["key"], ∅⟩,
   ⟨"get_pet_1", .put, "/pets/z", [], [], none, [], ∅⟩,
   ⟨"get pet", .get, "/pets", [], [], none, [], ∅⟩]

theorem buildAll_homonyms :
    ∃ os s, buildAll "OpenAPIClientPackage" homonyms .start = .ok os s ∧
      os.map operationId = ["get_pet", "get_pet_1", "get_pet_1_1", "get_pet_2"] ∧
        IdentifiedInOrder "OpenAPIClientPackage" homonyms .start s os := by
  obtain ⟨os, s, h, hids⟩ := (succeedsWith_iff (s := .start)
    (x := buildAll "OpenAPIClientPackage" homonyms)
    (p := fun os => os.map operationId = ["get_pet", "get_pet_1", "get_pet_1_1", "get_pet_2"])).1
    (by decide +kernel)
  exact ⟨os, s, h, by simpa using hids,
    buildAll_identified "OpenAPIClientPackage" homonyms .start s os h⟩

end Operation

end ApiGraph

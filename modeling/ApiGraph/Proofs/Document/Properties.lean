import ApiGraph.Document.Reader
import ApiGraph.Proofs.Json.Members
import ApiGraph.Proofs.Keyed

/-!
# Properties of a document's schemas

A property that is declared twice keeps one place, so the properties of every schema that
is read have different names. `Document.DistinctProperties` says so of the named schemas
of a document, and every document that has been read from a text is such a document.
-/

namespace ApiGraph

def Schema.DistinctProperties (s : Schema) : Prop := (s.properties.map Prod.fst).Nodup

instance : DecidablePred Schema.DistinctProperties :=
  fun s => inferInstanceAs (Decidable (s.properties.map Prod.fst).Nodup)

def Document.DistinctProperties (d : Document) : Prop :=
  ∀ p ∈ d.schemas.toList, p.2.DistinctProperties

instance : DecidablePred Document.DistinctProperties :=
  fun d => inferInstanceAs (Decidable (∀ p ∈ d.schemas.toList, p.2.DistinctProperties))

/-! ## Readers -/

namespace Json

variable {α β σ : Type}

def Read.Yields (x : Read α) (P : α → Prop) : Prop := ∀ a, x = .ok a → P a

namespace Read

theorem yields_ok {P : α → Prop} {a : α} (h : P a) : Read.Yields (.ok a) P := by
  rintro _ ⟨⟩
  exact h

theorem yields_error {P : α → Prop} (e : ReadError) : Read.Yields (.error e) P := by
  rintro _ ⟨⟩

theorem Yields.bind {x : Read α} {f : α → Read β} {P : α → Prop} {Q : β → Prop} (hx : x.Yields P)
    (hf : ∀ a, P a → Read.Yields (f a) Q) : Read.Yields (x >>= f) Q := by
  cases x with
  | error e => exact yields_error e
  | ok a => exact hf a (hx a rfl)

theorem yields_bind_of_forall {x : Read α} {f : α → Read β} {Q : β → Prop}
    (hf : ∀ a, Read.Yields (f a) Q) : Read.Yields (x >>= f) Q :=
  Yields.bind (P := fun _ => True) (fun _ _ => trivial) fun a _ => hf a

theorem Yields.map {x : Read α} {f : α → β} {P : α → Prop} {Q : β → Prop} (hx : x.Yields P)
    (hf : ∀ a, P a → Q (f a)) : Read.Yields (f <$> x) Q := by
  cases x with
  | error e => exact yields_error e
  | ok a => exact yields_ok (hf a (hx a rfl))

theorem yields_ite {c : Prop} [Decidable c] {x y : Read α} {P : α → Prop} (hx : x.Yields P)
    (hy : y.Yields P) : Read.Yields (if c then x else y) P := by
  split
  · exact hx
  · exact hy

theorem yields_mapM {f : α → Read β} {Q : β → Prop} {l : List α}
    (h : ∀ a ∈ l, Read.Yields (f a) Q) : Read.Yields (l.mapM f) fun bs => ∀ b ∈ bs, Q b := by
  induction l with
  | nil =>
    rw [List.mapM_nil]
    exact yields_ok (by simp)
  | cons a l ih =>
    rw [List.mapM_cons]
    refine (h a List.mem_cons_self).bind fun b hb => ?_
    refine (ih fun a ha => h a (List.mem_cons_of_mem _ ha)).bind fun bs hbs => ?_
    exact yields_ok (List.forall_mem_cons.2 ⟨hb, hbs⟩)

end Read

/-- What holds at the start of a record and is kept by every member holds at its end. -/
theorem yields_readMembers {known : List String} {read : σ → String → Tree → Read σ}
    {P : σ → Prop} (hread : ∀ s name t, P s → Read.Yields (read s name t) P) {seen : List String}
    {s : σ} (hs : P s) (members : List (Option String × Tree)) :
    Read.Yields (readMembers known read seen s members) P := by
  induction members generalizing seen s with
  | nil => exact Read.yields_ok hs
  | cons member members ih =>
    unfold readMembers
    refine Read.yields_bind_of_forall fun name => ?_
    split
    · exact Read.yields_error _
    · exact Read.Yields.bind (hread s name member.2 hs) fun s' hs' => ih hs'

theorem yields_wrongKind {P : α → Prop} (wanted : String) (t : Tree) :
    Read.Yields (t.wrongKind wanted : Read α) P :=
  fun a h => absurd h (t.wrongKind_ne_ok wanted a)

theorem yields_readOptional {read : Tree → Read α} {P : α → Prop}
    (hread : ∀ t, Read.Yields (read t) P) (t : Tree) :
    Read.Yields (t.readOptional read) fun o => ∀ a ∈ o, P a := by
  rintro (_ | a) h
  · intro _ ha
    cases ha
  · rintro _ ⟨⟩
    exact hread t a (t.read_of_readOptional h)

theorem yields_readList {read : Tree → Read α} {P : α → Prop}
    (hread : ∀ t, Read.Yields (read t) P) (levels : Nat) (t : Tree) :
    Read.Yields (t.readList levels read) fun values => ∀ a ∈ values, P a := by
  unfold Tree.readList
  split
  · refine Read.yields_bind_of_forall fun _ => ?_
    refine (Read.yields_mapM fun t _ => hread t).bind fun values hvalues => ?_
    exact Read.yields_bind_of_forall fun _ => Read.yields_ok hvalues
  · exact yields_wrongKind _ _

theorem yields_readMap {read : Tree → Read α} {P : α → Prop}
    (hread : ∀ t, Read.Yields (read t) P) (levels : Nat) (t : Tree) :
    Read.Yields (t.readMap levels read) fun values => ∀ p ∈ values, P p.2 := by
  unfold Tree.readMap
  split
  · refine Read.yields_bind_of_forall fun _ => ?_
    refine (Read.yields_mapM (Q := fun p => P p.2) fun member _ => ?_).bind fun values hvalues => ?_
    · refine Read.yields_bind_of_forall fun key => ?_
      exact Read.Yields.bind (hread member.2) fun a ha => Read.yields_ok ha
    · exact Read.yields_bind_of_forall fun _ => Read.yields_ok hvalues
  · exact yields_wrongKind _ _

end Json

open Json

/-! ## Schemas -/

namespace Schema

/-- Declaring a property adds its name at most once. -/
theorem map_fst_declare (properties : List (String × Schema)) (p : String × Schema) :
    (declare properties p).map Prod.fst =
      if p.1 ∈ properties.map Prod.fst then properties.map Prod.fst
      else properties.map Prod.fst ++ [p.1] := by
  induction properties with
  | nil => simp [declare]
  | cons q properties ih =>
    unfold declare
    by_cases hq : q.1 = p.1
    · simp [hq]
    · have hqp : ¬ p.1 = q.1 := fun h => hq h.symm
      rw [if_neg hq, List.map_cons, ih, List.map_cons]
      by_cases hp : p.1 ∈ properties.map Prod.fst
      · rw [if_pos hp, if_pos (List.mem_cons_of_mem _ hp)]
      · rw [if_neg hp, if_neg (by simpa [hqp] using hp), List.cons_append]

theorem nodup_foldl_declare {properties declared : List (String × Schema)}
    (h : (properties.map Prod.fst).Nodup) :
    ((declared.foldl declare properties).map Prod.fst).Nodup := by
  induction declared generalizing properties with
  | nil => exact h
  | cons p declared ih =>
    refine ih ?_
    rw [map_fst_declare]
    split
    · exact h
    · rename_i hp
      exact List.nodup_append_comm.1 (List.nodup_cons.2 ⟨hp, h⟩)

/-- The properties of a schema that has been read have different names. -/
theorem yields_read (levels : Nat) (t : Tree) :
    Read.Yields (read levels t) DistinctProperties := by
  have hempty : DistinctProperties {} := List.nodup_nil
  unfold read
  split
  · cases levels with
    | zero => exact Read.yields_error _
    | succ levels =>
      dsimp only
      refine (yields_readMembers (fun s name t hs => ?_) hempty _).bind fun s hs => ?_
      · -- every member but one leaves the properties as they are
        have hkeep {α : Type} (x : Read α) (f : α → Schema)
            (hf : ∀ a, (f a).properties = s.properties) :
            Read.Yields (x >>= fun a => pure (f a)) DistinctProperties := by
          refine Read.yields_bind_of_forall fun a => Read.yields_ok ?_
          rw [DistinctProperties, hf]
          exact hs
        iterate 3 refine Read.yields_ite (hkeep _ _ fun _ => rfl) ?_
        refine Read.yields_ite ?_ ?_
        · exact Read.yields_bind_of_forall fun declared =>
            Read.yields_ok (nodup_foldl_declare hempty)
        iterate 7 refine Read.yields_ite (hkeep _ _ fun _ => rfl) ?_
        exact hkeep _ _ fun _ => rfl
      · exact Read.yields_bind_of_forall fun _ => Read.yields_ok hs
  · exact yields_wrongKind _ _

end Schema

/-! ## Documents -/

namespace Document

def Forall (P : Schema → Prop) (Q : OperationSpec → Prop) (d : Document) : Prop :=
  (∀ p ∈ d.schemas.toList, P p.2) ∧ ∀ o ∈ d.operations, Q o

section Forall

variable {P : Schema → Prop} {Q : OperationSpec → Prop}

theorem yields_readSchemas (hP : ∀ levels t, Read.Yields (Schema.read levels t) P) (levels : Nat)
    (t : Tree) : Read.Yields (readSchemas levels t) fun schemas =>
      ∀ p ∈ schemas.toList, P p.2 := by
  unfold readSchemas
  refine (yields_readMap (hP (levels - 1)) levels t).bind fun values hvalues => ?_
  exact Read.yields_ok fun p hp => hvalues p (Keyed.mem_of_mem_ofList hp)

/-- What holds of every schema and every operation that is read holds of those of a document. -/
theorem yields_read (hP : ∀ levels t, Read.Yields (Schema.read levels t) P)
    (hQ : ∀ levels t, Read.Yields (OperationSpec.read levels t) Q) (levels : Nat) (t : Tree) :
    Read.Yields (read levels t) (Forall P Q) := by
  have hempty : Forall P Q ⟨∅, []⟩ :=
    ⟨fun p hp => absurd hp List.not_mem_nil, fun o ho => absurd ho List.not_mem_nil⟩
  unfold read
  split
  · refine Read.yields_bind_of_forall fun _ => ?_
    refine (yields_readMembers (fun d name t hd => ?_) hempty _).bind fun d hd => ?_
    · split_ifs
      · exact (yields_readSchemas hP _ _).bind fun schemas hschemas =>
          Read.yields_ok ⟨hschemas, hd.2⟩
      · exact (yields_readList (hQ _) _ _).bind fun operations hoperations =>
          Read.yields_ok ⟨hd.1, hoperations⟩
      · exact Read.yields_bind_of_forall fun _ => Read.yields_ok hd
    · exact Read.yields_bind_of_forall fun _ => Read.yields_ok hd
  · refine Read.yields_bind_of_forall fun _ => ?_
    split
    · exact Read.yields_bind_of_forall fun _ => Read.yields_ok hempty
    · refine (yields_readSchemas hP _ _).bind fun schemas hschemas => ?_
      exact Read.yields_bind_of_forall fun _ => Read.yields_ok ⟨hschemas, hempty.2⟩
    · refine (yields_readSchemas hP _ _).bind fun schemas hschemas => ?_
      refine (yields_readList (hQ _) _ _).bind fun operations hoperations => ?_
      split
      · exact Read.yields_bind_of_forall fun _ => Read.yields_ok ⟨hschemas, hoperations⟩
      · exact Read.yields_error _
  · exact yields_wrongKind _ _

theorem forall_of_ofText (hP : ∀ levels t, Read.Yields (Schema.read levels t) P)
    (hQ : ∀ levels t, Read.Yields (OperationSpec.read levels t) Q) {s : String} {d : Document}
    (h : ofText s = .ok d) : d.Forall P Q := by
  have hread : Read.Yields (ofText s) (Forall P Q) := by
    unfold ofText readWhole
    refine (yields_read hP hQ _ _).bind fun d hd => ?_
    split
    · exact Read.yields_error _
    · exact Read.yields_ok hd
  exact hread d h

end Forall

/-- A document that has been read from a text declares no property twice. -/
theorem distinctProperties_of_ofText {s : String} {d : Document} (h : ofText s = .ok d) :
    d.DistinctProperties :=
  (forall_of_ofText (Q := fun _ => True) Schema.yields_read (fun _ _ _ _ => trivial) h).1

end Document

end ApiGraph

import ApiGraph.GeneratedApi
import ApiGraph.Proofs.Model.Legality

/-!
# Legality of generated interfaces

`GeneratedApi.Legal` says that every identifier in the result of a run is legal in its
role: those of the models, and those of operations, their tags and their parameters.
Main statement: whatever the document and the configuration, a run that succeeds has a
legal result.

A renamed operation is the only one whose name is joined from parts. Its number has 32
bits, so that it never fills the stem of a truncated name alone and the name in front
of it keeps its first letter.
-/

namespace ApiGraph

open Identifier Naming

structure Parameter.Legal (p : Parameter) : Prop where
  name : isLegal p.name .parameter = true
  dataType : p.dataType.Legal
  annotations : p.annotations.Legal

structure Operation.Legal (o : Operation) : Prop where
  operationId : isLegal o.operationId .operation = true
  tag : ∀ t ∈ o.tag, isLegal t .tag = true
  parameters : ∀ p ∈ o.parameters, p.Legal
  returnType : ∀ t ∈ o.returnType, t.Legal
  annotations : o.annotations.Legal

structure GeneratedApi.Legal (api : GeneratedApi) : Prop where
  models : api.models.Legal
  operations : ∀ o ∈ api.operations, o.Legal

/-! ## Operations -/

theorem Parameter.yields_build (packageName : String) (spec : ParameterSpec) :
    (build packageName spec).Yields Legal := by
  unfold build
  refine (yields_sanitize spec.name .parameter).bind fun name hname => ?_
  refine (TypeRef.yields_resolve packageName _).bind fun dataType htype => ?_
  exact yields_pure ⟨hname, htype, fun _ hc => by cases hc⟩

theorem Operation.yields_build (packageName : String) (spec : OperationSpec) :
    (build packageName spec).Yields Legal := by
  unfold build
  refine (yields_sanitize spec.operationId .operation).bind fun operationId hid => ?_
  refine (yields_mapM_option fun tag _ => yields_sanitize tag .tag).bind fun tag htag => ?_
  refine (yields_mapM fun parameter _ =>
    Parameter.yields_build packageName parameter).bind fun parameters hparameters => ?_
  refine (yields_mapM_option fun response _ =>
    TypeRef.yields_resolve packageName response).bind fun returnType hreturn => ?_
  exact yields_pure ⟨hid, htag, hparameters, hreturn, fun _ hc => by cases hc⟩

/-- A number of 32 bits is a short suffix. -/
theorem Operation.length_numberSuffix_lt {n : Nat} (h : n < renameLimit) :
    ("_" ++ n.repr).length < stemLength := by
  have hlen : n.repr.length ≤ 10 :=
    (Nat.length_repr_le_iff (by decide)).2 (Nat.lt_trans h (by decide))
  rw [String.length_append]
  exact Nat.lt_of_le_of_lt (Nat.add_le_add_left hlen _) (by decide)

theorem Operation.wordlike_numbered {operationId : String}
    (hid : isLegal operationId .operation = true) {n : Nat} (hn : n < renameLimit) :
    (⟨operationId, "_" ++ n.repr⟩ : Request).Wordlike where
  name := ((isLegal_iff _ _).1 hid).1
  suffix := all_isWordChar_numberSuffix n
  suffix_of_full := fun hfull => absurd (length_numberSuffix_lt hn) (Nat.not_lt.2 hfull)

theorem Operation.isReserved_numbered (operationId : String) (n : Nat) (role : Role) :
    isReserved (⟨operationId, "_" ++ n.repr⟩ : Request).joined role = false := by
  refine isReserved_eq_false_of_underscore ?_ role
  simp [Request.joined]

/-- The search keeps to numbers below its end, which is what its callers keep to 32 bits. -/
theorem Operation.yields_freeId {operationId : String}
    (hid : isLegal operationId .operation = true) (taken : List String) {tries n : Nat}
    (hn : n + tries ≤ renameLimit) :
    (freeId operationId taken tries n).Yields fun c => isLegal c .operation = true := by
  induction tries generalizing n with
  | zero =>
    intro s a t h
    cases h
  | succ tries ih =>
    have hlt : n < renameLimit := by omega
    unfold freeId
    refine (yields_truncate (wordlike_numbered hid hlt)
      (isReserved_numbered operationId n .operation)).bind fun candidate hcandidate => ?_
    split
    · exact ih (by omega)
    · exact yields_pure hcandidate

theorem Operation.yields_distinguish (taken : List String) {o : Operation} (ho : o.Legal) :
    (distinguish taken o).Yields Legal := by
  have hbound : 1 + min (2 * taken.length + 1) (renameLimit - 1) ≤ renameLimit := by
    have hpos : 0 < renameLimit := by decide
    omega
  unfold distinguish
  split
  · refine (yields_freeId ho.operationId taken hbound).bind fun renamed hrenamed => ?_
    refine yields_bind_of_forall fun _ => ?_
    exact yields_pure ⟨hrenamed, ho.tag, ho.parameters, ho.returnType, ho.annotations⟩
  · exact yields_pure ho

theorem Operation.yields_buildAfter (packageName : String) (taken : List String)
    (specs : List OperationSpec) :
    (buildAfter packageName taken specs).Yields fun os => ∀ o ∈ os, o.Legal := by
  induction specs generalizing taken with
  | nil => exact yields_pure (by simp)
  | cons spec specs ih =>
    unfold buildAfter
    refine (yields_build packageName spec).bind fun o ho => ?_
    refine (yields_distinguish taken ho).bind fun o' ho' => ?_
    refine (ih (o'.operationId :: taken)).bind fun os hos => ?_
    exact yields_pure (List.forall_mem_cons.2 ⟨ho', hos⟩)

theorem Operation.Legal.annotate {o : Operation} (h : o.Legal) (config : Config) :
    (o.annotate config).Legal := by
  refine ⟨h.operationId, h.tag, fun p' hp' => ?_, h.returnType, h.annotations⟩
  obtain ⟨p, hp, rfl⟩ := List.mem_map.1 hp'
  obtain ⟨hname, htype, hannotations⟩ := h.parameters p hp
  exact ⟨hname, htype, hannotations⟩

/-! ## Runs -/

theorem GeneratedApi.yields_build (config : Config) (d : Document) :
    (build config d).Yields Legal := by
  unfold build
  refine (ModelSet.yields_build config.packageName d).bind fun built hbuilt => ?_
  refine (ModelSet.yields_normalize config.enumNameExtensions hbuilt).bind fun models hmodels => ?_
  refine (Operation.yields_buildAfter config.packageName [] d.operations).bind fun raw hraw => ?_
  refine yields_bind_of_forall fun _ => ?_
  refine yields_bind_of_forall fun _ => ?_
  refine yields_bind_of_forall fun _ => ?_
  refine yields_pure ⟨hmodels, fun o' ho' => ?_⟩
  obtain ⟨o, ho, rfl⟩ := List.mem_map.1 ho'
  exact (hraw o ho).annotate config

/-- Whatever the document and the configuration, a run that succeeds makes legal identifiers
only. -/
theorem GeneratedApi.generate_legal (config : Config) (d : Document) (api : GeneratedApi)
    (s : Session) (h : generate config d = .ok api s) : api.Legal :=
  yields_build config d .start api s h

/-- Two schemas whose enumerations want the same class name, and two operations of one name. -/
def Document.withCollisions : Document where
  schemas := .ofList
    [("Pet", { properties := [("statusKind", { enumValues := [.string "sold"] })] }),
     ("PetStatus", { properties := [("kind", { enumValues := [.string "good"] })] })]
  operations :=
    [⟨"list", .get, "/pets", ["pets"], [], none, [], ∅⟩,
     ⟨"list", .get, "/stores", ["stores"], [], none, [], ∅⟩]

theorem GeneratedApi.generate_withCollisions_legal :
    ∃ api s, generate {} .withCollisions = .ok api s ∧
      (api.models.contains "PetStatusKindEnum_1" ∧
        api.operations.map (·.operationId) = ["list", "list_1"]) ∧ api.Legal := by
  obtain ⟨api, s, h, hnames⟩ := (succeedsWith_iff (x := build {} .withCollisions) (s := .start)
    (p := fun api => api.models.contains "PetStatusKindEnum_1" &&
      api.operations.map (·.operationId) = ["list", "list_1"])).1 (by decide +kernel)
  exact ⟨api, s, h, by simpa using hnames, generate_legal {} .withCollisions api s h⟩

end ApiGraph

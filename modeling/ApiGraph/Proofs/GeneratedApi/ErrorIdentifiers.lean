import ApiGraph.Proofs.GeneratedApi.Legality
import ApiGraph.Proofs.GeneratedApi.Stages

/-!
# Identifiers of errors

The errors of an operation are identified by the package of the operations and the identifier of
the operation, written with colons where these are separated by dots. An operation is given this
text in parts: the package name with colons for its dots, the part of the package for the side,
and the identifier as it is.

Main statement: in the result of a run the parts make up the dotted name with colons for all of
its dots, it starts with the root that the package tells, and no two operations have the same.
Whatever the package is called, this rests on the identifiers of the operations alone: they are
legal, so that they have no dots, and no two are the same.
-/

namespace ApiGraph

open Identifier Naming

/-- A text with a colon for each of its dots. -/
def Text.colonize (s : String) : String := s.map fun c => if c = '.' then ':' else c

/-- The identifiers of errors follow the rule, start with the root of the package and tell the
operations apart. -/
structure GeneratedApi.ErrorsIdentified (config : Config) (api : GeneratedApi) : Prop where
  errorIdentifier : ∀ o ∈ api.operations, o.annotations.errorIdentifier =
    some (Text.colonize (config.apiPackage ++ "." ++ o.operationId))
  rooted : ∀ o ∈ api.operations, ∃ rest,
    o.annotations.errorIdentifier = some (api.package.errorIdentifier ++ ":" ++ rest)
  distinct : (api.operations.map (·.annotations.errorIdentifier)).Nodup

/-! ## Colons for dots -/

theorem Text.colonize_append (s t : String) : colonize (s ++ t) = colonize s ++ colonize t := by
  refine String.toList_injective ?_
  simp [colonize, String.toList_map]

theorem Text.colonize_of_not_mem {s : String} (h : '.' ∉ s.toList) : colonize s = s := by
  refine String.toList_injective ?_
  rw [colonize, String.toList_map]
  refine (List.map_congr_left fun c hc => if_neg ?_).trans (List.map_id _)
  rintro rfl
  exact h hc

theorem Config.errorRoot_eq_colonize (config : Config) :
    config.errorRoot = Text.colonize config.packageName := by
  refine String.toList_injective ?_
  rw [errorRoot, Text.colonize, String.toList_ofList, String.toList_map]

/-! ## One operation -/

namespace Operation

/-- An identifier without dots is written as it is. -/
theorem errorIdentifier_eq_colonize (config : Config) {o : Operation}
    (h : '.' ∉ o.operationId.toList) :
    o.errorIdentifier config = Text.colonize (config.apiPackage ++ "." ++ o.operationId) := by
  have hdot : Text.colonize "." = ":" := by decide +kernel
  have hside : Text.colonize config.flavor.apiPackage = config.flavor.apiPackage := by
    cases config.flavor <;> decide +kernel
  rw [errorIdentifier, Config.apiPackage, Text.colonize_append, Text.colonize_append,
    Text.colonize_append, Text.colonize_append, hdot, hside, Text.colonize_of_not_mem h,
    config.errorRoot_eq_colonize]

/-- Under one configuration the identifier of errors tells the identifier of the operation. -/
theorem operationId_of_errorIdentifier {config : Config} {o o' : Operation}
    (h : o.errorIdentifier config = o'.errorIdentifier config) :
    o.operationId = o'.operationId := by
  have hlist := congrArg String.toList h
  simp only [errorIdentifier, String.toList_append] at hlist
  -- Root and side are the same on both sides, whatever stands in them.
  exact String.toList_injective (List.append_cancel_left hlist)

theorem Legal.dot_not_mem {o : Operation} (h : o.Legal) : '.' ∉ o.operationId.toList := by
  obtain ⟨hword, -, -⟩ := (isLegal_iff _ _).1 h.operationId
  intro hmem
  exact absurd (List.all_eq_true.1 (all_of_isWord hword) '.' hmem) (by decide)

theorem nodup_of_buildAll {packageName : String} {specs : List OperationSpec} {s t : Session}
    {os : List Operation} (h : buildAll packageName specs s = .ok os t) :
    (os.map operationId).Nodup := by
  obtain ⟨-, hbuilt⟩ := establishes_buildAfter packageName [] specs s os t h
  exact (hbuilt t.registry (le_refl t.registry)).distinct.1

end Operation

/-! ## Runs -/

namespace GeneratedApi

/-- Whatever the document and the package name, the operations of a run have error identifiers by
the rule, under the root of the package, and no two have the same. -/
theorem generate_errorsIdentified (config : Config) (d : Document) (api : GeneratedApi)
    (s : Session) (h : generate config d = .ok api s) : api.ErrorsIdentified config := by
  obtain ⟨_, _, hraw⟩ := stages_of_generate h
  have hlegal := Operation.yields_buildAfter config.packageName [] d.operations _ _ _ hraw
  have hnodup := Operation.nodup_of_buildAll hraw
  constructor
  case errorIdentifier =>
    intro o' ho'
    obtain ⟨o, ho, rfl⟩ := List.mem_map.1 ho'
    exact congrArg some (Operation.errorIdentifier_eq_colonize config (hlegal o ho).dot_not_mem)
  case rooted =>
    intro o' ho'
    obtain ⟨o, -, rfl⟩ := List.mem_map.1 ho'
    refine ⟨config.flavor.apiPackage ++ ":" ++ o.operationId, ?_⟩
    change some (config.errorRoot ++ ":" ++ config.flavor.apiPackage ++ ":" ++ o.operationId) =
      some (config.errorRoot ++ ":" ++ (config.flavor.apiPackage ++ ":" ++ o.operationId))
    simp only [String.append_assoc]
  case distinct =>
    unfold List.Nodup at hnodup ⊢
    rw [Operation.annotateAll, List.map_map, List.pairwise_map]
    rw [List.pairwise_map] at hnodup
    refine hnodup.imp fun hne heq => hne ?_
    exact Operation.operationId_of_errorIdentifier (Option.some.inj heq)

/-- A package name with empty segments and a letter beyond ASCII. -/
def dottedConfig : Config := { packageName := "Örg..Pet.", flavor := .server }

theorem generate_dotted_errorsIdentified :
    ∃ api s, generate dottedConfig .withCollisions = .ok api s ∧
      api.operations.map (·.annotations.errorIdentifier) =
        [some "Örg::Pet::impl:list", some "Örg::Pet::impl:list_1"] ∧
      api.ErrorsIdentified dottedConfig := by
  obtain ⟨api, s, h, hids⟩ := (succeedsWith_iff (x := build dottedConfig .withCollisions)
    (s := .start) (p := fun api => api.operations.map (·.annotations.errorIdentifier) =
      [some "Örg::Pet::impl:list", some "Örg::Pet::impl:list_1"])).1 (by decide +kernel)
  exact ⟨api, s, h, of_decide_eq_true hids,
    generate_errorsIdentified dottedConfig .withCollisions api s h⟩

end GeneratedApi

end ApiGraph

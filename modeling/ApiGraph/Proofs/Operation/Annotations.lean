import ApiGraph.Operation.Annotate
import ApiGraph.Proofs.Pointwise

/-!
# Annotated operations

Annotating works in place on operations that may have been annotated before. `o.AnnotatedTo o'`
says what it may change in an operation: the root of its error identifiers, on the server side
the name of its request method, the authentication methods if the configured one has to be
added, and in each parameter the class to pass and the example.

Main statement: operations are annotated in this sense, one by one and in their order, and
annotating them again with the same configuration changes nothing. What is written anew is made
of members that annotating leaves alone, and an authentication method that has been added keeps
it from being added once more.
-/

namespace ApiGraph

/-- The parameters are the same, apart from the example and the class to pass. -/
def Parameter.AnnotatedTo (p p' : Parameter) : Prop :=
  ∃ exampleValue objectParam,
    p' = { p with exampleValue, annotations := { p.annotations with objectParam } }

theorem Parameter.annotate_annotate (config : Config) (p : Parameter) :
    (p.annotate config).annotate config = p.annotate config :=
  rfl

namespace Operation

/-- What becomes of the authentication methods of an operation: the configured one is the only one
where a client operation has none, and else they stay as they are. -/
inductive AuthAnnotated (config : Config) : List String → List String → Prop
  | added {auth : String} (client : config.flavor = .client)
      (configured : config.addAuth = some auth) : AuthAnnotated config [] [auth]
  | kept {auths : List String}
      (free : config.flavor = .server ∨ config.addAuth = none ∨ auths ≠ []) :
      AuthAnnotated config auths auths

/-- The operations are the same, apart from what annotating is for. -/
structure AnnotatedTo (config : Config) (o o' : Operation) : Prop where
  kept : ∃ authMethods parameters errorIdentifier methodVerb,
    o' = { o with
      authMethods, parameters
      annotations := { o.annotations with errorIdentifier, methodVerb } }
  authMethods : AuthAnnotated config o.authMethods o'.authMethods
  methodVerb : o'.annotations.methodVerb =
    if config.flavor = .server then some o.method.serverVerb else o.annotations.methodVerb
  parameters : List.Forall₂ Parameter.AnnotatedTo o.parameters o'.parameters

/-! ## One annotation -/

theorem authAnnotated_annotate (config : Config) (o : Operation) :
    AuthAnnotated config o.authMethods (o.annotate config).authMethods := by
  change AuthAnnotated config o.authMethods (o.authMethods ++ (o.addedAuth? config).toList)
  unfold addedAuth?
  cases hflavor : config.flavor with
  | server =>
    rw [Option.toList_none, List.append_nil]
    exact .kept (.inl hflavor)
  | client =>
    cases o.authMethods with
    | cons auth auths =>
      rw [List.isEmpty_cons, if_neg Bool.false_ne_true, Option.toList_none, List.append_nil]
      exact .kept (.inr (.inr (List.cons_ne_nil auth auths)))
    | nil =>
      rw [List.isEmpty_nil, if_pos rfl, List.nil_append]
      cases hauth : config.addAuth with
      | none => exact .kept (.inr (.inl hauth))
      | some auth => exact .added hflavor hauth

theorem annotatedTo_annotate (config : Config) (o : Operation) :
    o.AnnotatedTo config (o.annotate config) where
  kept := ⟨_, _, _, _, rfl⟩
  authMethods := o.authAnnotated_annotate config
  methodVerb := by
    change o.methodVerb? config = _
    unfold methodVerb?
    cases config.flavor <;> rfl
  parameters := forall₂_map_of_forall fun _ _ => ⟨_, _, rfl⟩

/-! ## A second annotation -/

/-- The authentication methods that annotating leaves are left by annotating again. -/
theorem AuthAnnotated.free {config : Config} {auths auths' : List String}
    (h : AuthAnnotated config auths auths') :
    config.flavor = .server ∨ config.addAuth = none ∨ auths' ≠ [] := by
  cases h with
  | added _ _ => exact .inr (.inr (List.cons_ne_nil _ _))
  | kept free => exact free

theorem addedAuth?_annotate (config : Config) (o : Operation) :
    (o.annotate config).addedAuth? config = none := by
  unfold addedAuth?
  -- Nothing is added by a server, by a client without a configured method, or to a list that
  -- is not empty, and the first annotation leaves one of the three.
  rcases (o.authAnnotated_annotate config).free with hserver | hnone | hne
  · rw [hserver]
  · rw [hnone]
    cases config.flavor with
    | server => rfl
    | client => exact ite_self none
  · have hempty : (o.annotate config).authMethods.isEmpty = false :=
      List.isEmpty_eq_false_iff.2 hne
    rw [hempty]
    cases config.flavor <;> rfl

theorem methodVerb?_annotate (config : Config) (o : Operation) :
    (o.annotate config).methodVerb? config = o.methodVerb? config := by
  cases hflavor : config.flavor with
  | server =>
    rw [methodVerb?, methodVerb?, hflavor]
    rfl
  | client =>
    rw [methodVerb?, hflavor]
    rfl

theorem annotate_annotate (config : Config) (o : Operation) :
    (o.annotate config).annotate config = o.annotate config := by
  have hauth : (o.annotate config).authMethods ++
      ((o.annotate config).addedAuth? config).toList = (o.annotate config).authMethods := by
    rw [addedAuth?_annotate, Option.toList_none, List.append_nil]
  have hparameters : (o.annotate config).parameters.map (Parameter.annotate config) =
      (o.annotate config).parameters := by
    change (o.parameters.map _).map _ = o.parameters.map _
    rw [List.map_map]
    exact List.map_congr_left fun p _ => p.annotate_annotate config
  rw [annotate, hauth, hparameters, methodVerb?_annotate]
  rfl

/-- Annotating changes nothing in any operation but what it is for, and a second time nothing. -/
theorem annotateAll_annotatedTo (config : Config) (os : List Operation) :
    List.Forall₂ (AnnotatedTo config) os (annotateAll config os) ∧
      annotateAll config (annotateAll config os) = annotateAll config os := by
  refine ⟨forall₂_map_of_forall fun o _ => o.annotatedTo_annotate config, ?_⟩
  unfold annotateAll
  rw [List.map_map]
  exact List.map_congr_left fun o _ => o.annotate_annotate config

end Operation

end ApiGraph

import ApiGraph.Operation.Build
import ApiGraph.Proofs.TypeRef.Resolve

/-!
# Building one operation

What an operation is made of: the members that are copied from its declaration, the
identifier that the registry knows for its declared name, and types of its parameters and its
response that follow their references.
-/

namespace ApiGraph

open Identifier Naming

namespace Parameter

theorem composed_build (packageName : String) (spec : ParameterSpec) :
    (build packageName spec).Composed fun e => e.isTyping = true := by
  unfold build
  refine .bind (composed_typing_sanitize _ _) fun name => ?_
  exact .bind (TypeRef.composed_resolve _ _) fun dataType => .pure _

/-- The type of a parameter is that of its element, if it has one. -/
theorem establishes_build (packageName : String) (spec : ParameterSpec) :
    (build packageName spec).Establishes fun r p =>
      p.dataType.Follows (KnownClass r) (spec.schema.element?.getD spec.schema) := by
  unfold build
  refine (establishes_sanitize _ _).bind fun name => ?_
  refine (TypeRef.establishes_resolve packageName _).bind fun dataType => ?_
  exact establishes_pure fun r htype _ => htype

end Parameter

namespace Operation

/-- The operation has the members of its declaration that building copies. -/
structure Copies (spec : OperationSpec) (o : Operation) : Prop where
  baseId : o.baseId = spec.operationId
  method : o.method = spec.method
  path : o.path = spec.path
  authMethods : o.authMethods = spec.authMethods
  extensions : o.extensions = spec.extensions

/-- The types of the parameters and of the response follow the references in the declaration. -/
structure Follows (classOf : String → String → Prop) (spec : OperationSpec) (o : Operation) :
    Prop where
  parameters : List.Forall₂ (fun spec p =>
    p.dataType.Follows classOf (spec.schema.element?.getD spec.schema)) spec.parameters o.parameters
  returnType : Option.Rel (fun s t => t.Follows classOf s) spec.response o.returnType

theorem Follows.mono {classOf classOf' : String → String → Prop}
    (h : ∀ name c, classOf' name c → classOf name c) {spec : OperationSpec} {o : Operation}
    (ho : o.Follows classOf spec) : o.Follows classOf' spec where
  parameters := ho.parameters.imp fun _ _ hp => hp.mono h
  returnType := by
    have hreturn := ho.returnType
    generalize spec.response = s? at hreturn ⊢
    generalize o.returnType = t? at hreturn ⊢
    cases hreturn with
    | none => exact .none
    | some ht => exact .some (ht.mono h)

theorem composed_build (packageName : String) (spec : OperationSpec) :
    (build packageName spec).Composed fun e => e.isTyping = true := by
  unfold build
  refine .bind (composed_typing_sanitize _ _) fun operationId => ?_
  refine .bind (.mapM_option fun tag _ => composed_typing_sanitize tag .tag) fun tag => ?_
  refine .bind (.mapM fun spec _ => Parameter.composed_build packageName spec) fun parameters => ?_
  refine .bind (.mapM_option fun s _ => TypeRef.composed_resolve packageName s) fun returnType => ?_
  exact .pure _

/-- Building one operation copies its declaration, makes its own identifier and follows its
references. -/
theorem establishes_build (packageName : String) (spec : OperationSpec) :
    (build packageName spec).Establishes fun r o =>
      Copies spec o ∧ sanitized? r spec.operationId .operation = some o.operationId ∧
        Follows (KnownClass r) spec o := by
  unfold build
  refine (establishes_sanitize _ _).bind fun operationId => ?_
  refine (establishes_mapM_option fun tag _ => establishes_sanitize tag .tag).bind fun tag => ?_
  refine (establishes_mapM fun spec _ => Parameter.establishes_build packageName spec).bind
    fun parameters => ?_
  refine (establishes_mapM_option fun s _ => TypeRef.establishes_resolve packageName s).bind
    fun returnType => establishes_pure fun r hreturn hparameters _ hid => ?_
  exact ⟨⟨rfl, rfl, rfl, rfl, rfl⟩, hid, hparameters, hreturn⟩

end Operation

end ApiGraph

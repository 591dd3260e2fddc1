import ApiGraph.Proofs.Naming.Composed
import ApiGraph.Proofs.Naming.Establish
import ApiGraph.TypeRef.Resolve

/-!
# Types of references

Resolving a schema looks at one schema only, the one that it leads to through the items of
arrays. `t.Follows classOf s` says that when this is a reference of a name that has a class
name, the type `t` of the schema `s` is the class of that name.

Main statement: a resolved type follows what the registry knows from then on to be the class
names, so that references before and after a definition have one type.
-/

namespace ApiGraph

open Identifier Naming

/-- The schema that decides the type of a schema: an array leads to what its items lead to. -/
inductive Schema.LeadsTo : Schema → Schema → Prop
  | self {s : Schema} (isArray : s.isArray = false) : LeadsTo s s
  | items {s e n : Schema} (isArray : s.isArray = true) (items : s.items = some e)
      (leads : LeadsTo e n) : LeadsTo s n

/-- If the schema leads to a reference of a name that has a class, the type is that class. -/
def TypeRef.Follows (classOf : String → String → Prop) (s : Schema) (t : TypeRef) : Prop :=
  ∀ n name c, s.LeadsTo n → n.referenceName? = some name → classOf name c → t = .model c

/-- The registry knows the class name for a name. -/
def Naming.KnownClass (r : Registry) (name c : String) : Prop := sanitized? r name .model = some c

def Event.isTyping : Event → Bool
  | .untypedArray | .freeFormObject | .anonymousSchema .. => true
  | e => e.isNaming

theorem Event.isTyping_of_isNaming {e : Event} (h : e.isNaming = true) : e.isTyping = true := by
  cases e <;> first | rfl | exact h

theorem Event.isTyping_of_isSome_truncation? {e : Event} (h : e.truncation?.isSome = true) :
    e.isTyping = true :=
  isTyping_of_isNaming (isNaming_of_isSome_truncation? h)

theorem Naming.composed_typing_sanitize (raw : String) (role : Role) :
    (sanitize raw role).Composed fun e => e.isTyping = true :=
  (composed_sanitize raw role).mono fun _ => Event.isTyping_of_isNaming

theorem Naming.KnownClass.unique {r : Registry} {name c c' : String} (h : KnownClass r name c)
    (h' : KnownClass r name c') : c = c' :=
  Option.some.inj (h.symm.trans h')

namespace Schema

/-- Only an array leads to another schema than itself. -/
theorem LeadsTo.eq_of_not_isArray {s n : Schema} (h : s.LeadsTo n) (hs : s.isArray = false) :
    n = s := by
  cases h with
  | self _ => rfl
  | items harray _ _ =>
    rw [hs] at harray
    cases harray

theorem LeadsTo.of_items {s e n : Schema} (h : s.LeadsTo n) (hs : s.isArray = true)
    (hitems : s.items = some e) : e.LeadsTo n := by
  cases h with
  | self harray =>
    rw [hs] at harray
    cases harray
  | items _ hitems' hleads =>
    rw [hitems] at hitems'
    cases hitems'
    exact hleads

theorem isSome_reference {s : Schema} {name : String} (h : s.referenceName? = some name) :
    s.reference.isSome = true := by
  unfold referenceName? at h
  rw [Option.map_eq_some_iff] at h
  obtain ⟨reference, href, -⟩ := h
  rw [href, Option.isSome_some]

/-- A reference is no scalar, whatever else the schema declares. -/
theorem ofSchema?_of_reference {s : Schema} {name : String} (h : s.referenceName? = some name) :
    Scalar.ofSchema? s = none := by
  rw [Scalar.ofSchema?, if_pos (isSome_reference h)]

end Schema

namespace TypeRef

theorem Follows.mono {classOf classOf' : String → String → Prop}
    (h : ∀ name c, classOf' name c → classOf name c) {s : Schema} {t : TypeRef}
    (ht : t.Follows classOf s) : t.Follows classOf' s :=
  fun n name c hleads hname hc => ht n name c hleads hname (h name c hc)

theorem Follows.of_items {classOf : String → String → Prop} {s e : Schema} {t : TypeRef}
    (hs : s.isArray = true) (hitems : s.items = some e) (h : t.Follows classOf e) :
    t.Follows classOf s :=
  fun n name c hleads hname hc => h n name c (hleads.of_items hs hitems) hname hc

/-! ## Resolving -/

theorem composed_resolveNamed (s : Schema) :
    (resolveNamed s).Composed fun e => e.isTyping = true := by
  unfold resolveNamed
  split
  · exact .bind (composed_typing_sanitize _ _) fun c => .pure (model c)
  · split
    · exact .bind (.report rfl rfl) fun _ => .pure freeFormObject
    · exact .bind (.report rfl rfl) fun _ => .pure freeFormObject

theorem resolve_of_items (packageName : String) {s e : Schema} (hs : s.isArray = true)
    (hitems : s.items = some e) : resolve packageName s = resolve packageName e := by
  rw [resolve, if_pos hs]
  split
  · rename_i e' he'
    rw [hitems] at he'
    cases he'
    rfl
  · rename_i hnone
    rw [hitems] at hnone
    cases hnone

theorem resolve_of_items_eq_none (packageName : String) {s : Schema} (hs : s.isArray = true)
    (hitems : s.items = none) :
    resolve packageName s = do
      report .untypedArray
      return freeFormObject := by
  rw [resolve, if_pos hs]
  split
  · rename_i e he
    rw [hitems] at he
    cases he
  · rfl

theorem composed_resolve (packageName : String) (s : Schema) :
    (resolve packageName s).Composed fun e => e.isTyping = true := by
  induction s using TypeRef.resolve.induct with
  | case1 s harray items hitems ih =>
    rw [resolve_of_items packageName harray hitems]
    exact ih
  | case2 s harray hitems =>
    rw [resolve_of_items_eq_none packageName harray hitems]
    exact .bind (.report rfl rfl) fun _ => .pure _
  | case3 s harray scalar hscalar =>
    rw [resolve, if_neg harray, hscalar]
    exact .pure _
  | case4 s harray hscalar =>
    rw [resolve, if_neg harray, hscalar]
    exact composed_resolveNamed s

theorem establishes_resolveNamed {s : Schema} (hs : s.isArray = false) :
    (resolveNamed s).Establishes fun r t => t.Follows (KnownClass r) s := by
  unfold resolveNamed
  split
  · rename_i name hname
    refine (establishes_sanitize name .model).bind fun c => establishes_pure fun r hc => ?_
    intro n name' c' hleads hname' hc'
    rw [hleads.eq_of_not_isArray hs, hname, Option.some.injEq] at hname'
    rw [← hname'] at hc'
    rw [hc'.unique hc]
  · rename_i hnone
    have hfree : ∀ r, freeFormObject.Follows (KnownClass r) s := by
      intro r n name c hleads hname _
      rw [hleads.eq_of_not_isArray hs, hnone] at hname
      cases hname
    split <;> exact (establishes_report _).bind fun _ => establishes_pure fun r _ => hfree r

/-- A reference resolves to the class name of the name that it refers to. -/
theorem establishes_resolve (packageName : String) (s : Schema) :
    (resolve packageName s).Establishes fun r t => t.Follows (KnownClass r) s := by
  induction s using TypeRef.resolve.induct with
  | case1 s harray items hitems ih =>
    rw [resolve_of_items packageName harray hitems]
    exact ih.mono fun r t ht => .of_items harray hitems ht
  | case2 s harray hitems =>
    rw [resolve_of_items_eq_none packageName harray hitems]
    refine (establishes_report _).bind fun _ => establishes_pure fun r _ => ?_
    intro n name c hleads _ _
    cases hleads with
    | self hself => exact absurd harray (by simp [hself])
    | items _ hsome _ =>
      rw [hitems] at hsome
      cases hsome
  | case3 s harray scalar hscalar =>
    rw [resolve, if_neg harray, hscalar]
    refine establishes_pure fun r n name c hleads hname _ => ?_
    rw [hleads.eq_of_not_isArray (by simpa using harray)] at hname
    rw [Schema.ofSchema?_of_reference hname] at hscalar
    cases hscalar
  | case4 s harray hscalar =>
    rw [resolve, if_neg harray, hscalar]
    exact establishes_resolveNamed (by simpa using harray)

end TypeRef

end ApiGraph

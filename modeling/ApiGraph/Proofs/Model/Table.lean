import ApiGraph.Proofs.Keyed
import ApiGraph.Proofs.Lifting.Frame
import ApiGraph.Proofs.Model.Steps

/-!
# Models under keys

A set of models is looked up by the class names of the models themselves. A `ModelTable` keeps
the keys beside the models: a model is put in under a copy of its class name, and is then
changed in its place while its key stays, so that the two could differ. Here the operations on
sets are defined on tables once more, in this way.

Main statement: from nothing, through any sequence of insertions, collections, normalizations and
markings of unions, the table holds the models of the set, each under its own class name. So a
walk over it meets every class name once, in increasing order, its size is the number of class
names, and what is found is what was put in last.
-/

namespace ApiGraph

open Naming

/-- Models under keys that are kept beside them. -/
abbrev ModelTable := Dictionary Model

namespace ModelTable

/-- Puts in a model under its class name, and gives back the one that has been there. -/
def exchange (t : ModelTable) (m : Model) : Option Model × ModelTable :=
  ((t.get? m.className).map Prod.snd, t.insert (m.className, m))

def exchangeAll (t : ModelTable) (models : List Model) : ModelTable :=
  models.foldl (fun t m => (exchange t m).2) t

def models (t : ModelTable) : List Model := t.toList.map Prod.snd

/-- Puts models in the places of those that there are. -/
def replace (t : ModelTable) (models : List Model) : ModelTable where
  toList := t.keys.zip models
  sorted := by
    have hkeys : t.keys.Pairwise (· < ·) := List.pairwise_map.2 t.sorted
    rw [← List.pairwise_map (f := Prod.fst) (R := (· < ·)), List.zip_eq_zip_take_min,
      List.map_fst_zip (by simp)]
    exact hkeys.sublist (List.take_sublist _ _)

def unions (t : ModelTable) : ModelSet := .ofList (t.models.filter Model.isUnion)

def annotateUnions (t : ModelTable) : ModelTable :=
  t.replace (t.models.map (unions t).markModel)

def annotationEvents (t : ModelTable) : List Event :=
  t.models.flatMap fun m => m.fields.flatMap (unions t).unionEvents

def merge : ModelTable → List Model → Naming ModelTable
  | t, [] => return t
  | t, lifted :: rest => do
    reportIf ((t.get? lifted.className).any fun row => row.2.origin = .source)
      (.declaredModelReplaced lifted.className)
    merge (t.exchange lifted).2 rest

def normalize (nameExtensions : List String) (t : ModelTable) : Naming ModelTable := do
  let (models, lifted) ← Model.normalizeAll nameExtensions ∅ t.models
  let merged ← merge (t.replace models) lifted.toList
  reportAll merged.annotationEvents
  let result := merged.annotateUnions
  report (.modelsNormalized result.size lifted.size)
  return result

def ofSet (s : ModelSet) : ModelTable where
  toList := s.toList.map fun m => (m.className, m)
  sorted := List.pairwise_map.2 s.sorted

/-! ## The table of a set -/

@[simp] theorem keys_ofSet (s : ModelSet) : (ofSet s).keys = s.keys := by
  simp [Keyed.keys, ofSet, Function.comp_def]

@[simp] theorem models_ofSet (s : ModelSet) : (ofSet s).models = s.toList := by
  simp [models, ofSet, Function.comp_def]

theorem size_ofSet (s : ModelSet) : (ofSet s).size = s.size := List.length_map _

theorem get?_ofSet (s : ModelSet) (c : String) :
    (ofSet s).get? c = (s.get? c).map fun m => (m.className, m) := List.find?_map

theorem exchange_ofSet (s : ModelSet) (m : Model) :
    (ofSet s).exchange m = (s.get? m.className, ofSet (s.insert m)) := by
  have hinsert : (ofSet s).insert (m.className, m) = ofSet (s.insert m) :=
    Keyed.ext (Keyed.map_insertInto (fun m : Model => (m.className, m)) (fun _ => rfl) m
      s.toList).symm
  rw [exchange, hinsert, get?_ofSet, Option.map_map]
  simp [Function.comp_def]

theorem exchangeAll_ofSet (s : ModelSet) (ms : List Model) :
    (ofSet s).exchangeAll ms = ofSet (s.insertAll ms) := by
  induction ms generalizing s with
  | nil => rfl
  | cons m ms ih =>
    rw [exchangeAll, List.foldl_cons, exchange_ofSet, ← exchangeAll, ih, Keyed.insertAll_cons]

/-- Models with the same class names in the same order are as good as their set. -/
theorem replace_ofSet {s : ModelSet} {ms : List Model}
    (h : ms.map Model.className = s.keys) : (ofSet s).replace ms = ofSet (Keyed.ofList ms) := by
  have hsorted : ms.Pairwise fun a b => a.className < b.className := by
    have hkeys : s.keys.Pairwise (· < ·) := List.pairwise_map.2 s.sorted
    rw [← h] at hkeys
    exact List.pairwise_map.1 hkeys
  refine Keyed.ext ?_
  change (ofSet s).keys.zip ms = (Keyed.ofList ms : ModelSet).toList.map _
  rw [Keyed.toList_ofList_of_sorted hsorted, keys_ofSet, ← h, List.map_prod_right_eq_zip]

/-! ## Marking unions -/

theorem union?_unions_ofSet (s : ModelSet) (c : String) :
    (unions (ofSet s)).union? c = s.union? c := by
  have hsorted : (s.toList.filter Model.isUnion).Pairwise fun a b => a.className < b.className :=
    s.sorted.sublist List.filter_sublist
  -- to look for a union among the unions, or among all models and then ask whether it is one
  ext m
  rw [ModelSet.union?, ModelSet.union?, unions, models_ofSet, Option.filter_eq_some_iff,
    Option.filter_eq_some_iff, Keyed.get?_eq_some_iff, Keyed.get?_eq_some_iff,
    Keyed.toList_ofList_of_sorted hsorted, List.mem_filter]
  tauto

theorem refersToMixed_unions_ofSet (s : ModelSet) :
    (unions (ofSet s)).refersToMixed = s.refersToMixed := by
  funext f
  simp only [ModelSet.refersToMixed, union?_unions_ofSet]

theorem unionEvents_unions_ofSet (s : ModelSet) :
    (unions (ofSet s)).unionEvents = s.unionEvents := by
  funext f
  simp only [ModelSet.unionEvents, union?_unions_ofSet]

theorem annotationEvents_ofSet (s : ModelSet) :
    (ofSet s).annotationEvents = s.annotationEvents := by
  rw [annotationEvents, models_ofSet, unionEvents_unions_ofSet]
  rfl

theorem annotateUnions_ofSet (s : ModelSet) :
    (ofSet s).annotateUnions = ofSet s.annotateUnions := by
  have hclasses : (s.toList.map s.markModel).map Model.className = s.keys := by
    simp [Keyed.keys, ModelSet.markModel, Function.comp_def]
  have hset : (Keyed.ofList (s.toList.map s.markModel) : ModelSet) = s.annotateUnions :=
    Keyed.ext (Keyed.toList_ofList_of_sorted s.annotateUnions.sorted)
  rw [annotateUnions, models_ofSet, ModelSet.markModel_congr (refersToMixed_unions_ofSet s),
    replace_ofSet hclasses, hset]

/-! ## Normalization -/

theorem merge_ofSet (s : ModelSet) (lifted : List Model) :
    merge (ofSet s) lifted = ofSet <$> s.merge lifted := by
  induction lifted generalizing s with
  | nil => rfl
  | cons e lifted ih =>
    have hany : ((ofSet s).get? e.className).any (fun row => row.2.origin = .source) =
        (s.get? e.className).any fun m => m.origin = .source := by
      rw [get?_ofSet, Option.any_map]
    rw [merge, hany, exchange_ofSet, ih, ModelSet.merge_cons, map_bind]

/-- Normalizing the table of a set comes to the table of the normalized set. -/
theorem normalize_ofSet (nameExtensions : List String) (s : ModelSet) :
    normalize nameExtensions (ofSet s) = ofSet <$> s.normalize nameExtensions := by
  rw [normalize, ModelSet.normalize, models_ofSet, map_bind]
  -- the models that the pass returns have the class names of those whose places they take
  refine (s.yields_normalizeAll_makes nameExtensions).bind_congr fun (models, lifted) hpass => ?_
  dsimp only
  rw [replace_ofSet (Model.KeptUpTo.map_className hpass.1), merge_ofSet, map_bind, bind_map_left]
  refine bind_congr fun merged => ?_
  rw [annotationEvents_ofSet, annotateUnions_ofSet, size_ofSet]
  simp only [map_bind, map_pure]

end ModelTable

/-! ## Sequences of edits -/

namespace ModelSet

/-- A way from one set of models to another. -/
inductive Edit where
  | insert (m : Model)
  /-- Collects models into a set of their own. -/
  | collect (models : List Model)
  /-- Normalizes the set in a session. -/
  | normalize (nameExtensions : List String) (session : Session)
  | annotateUnions

/-- What an edit does to a set. A normalization that fails leaves it as it is. -/
def Edit.onSet : Edit → ModelSet → ModelSet
  | insert m, s => s.insert m
  | collect models, _ => .ofList models
  | normalize nameExtensions session, s => (s.normalize nameExtensions).resultOr session s
  | annotateUnions, s => s.annotateUnions

def Edit.onTable : Edit → ModelTable → ModelTable
  | insert m, t => (t.exchange m).2
  | collect models, _ => ModelTable.exchangeAll ∅ models
  | normalize nameExtensions session, t => (t.normalize nameExtensions).resultOr session t
  | annotateUnions, t => t.annotateUnions

def reached (edits : List Edit) : ModelSet := edits.foldl (fun s e => e.onSet s) ∅

end ModelSet

def ModelTable.reached (edits : List ModelSet.Edit) : ModelTable :=
  edits.foldl (fun t e => e.onTable t) ∅

namespace ModelSet

/-- Every edit keeps models under their own class names. -/
theorem Edit.onTable_ofSet (e : Edit) (s : ModelSet) :
    e.onTable (.ofSet s) = .ofSet (e.onSet s) := by
  cases e with
  | insert m => exact congrArg Prod.snd (ModelTable.exchange_ofSet s m)
  | collect models => exact ModelTable.exchangeAll_ofSet ∅ models
  | normalize nameExtensions session =>
    change (ModelTable.normalize nameExtensions (.ofSet s)).resultOr session (.ofSet s) = _
    rw [ModelTable.normalize_ofSet]
    exact resultOr_map ModelTable.ofSet (s.normalize nameExtensions) session s
  | annotateUnions => exact ModelTable.annotateUnions_ofSet s

theorem reached_eq_ofSet (edits : List Edit) :
    ModelTable.reached edits = .ofSet (reached edits) := by
  have hrun (s : ModelSet) : edits.foldl (fun t e => e.onTable t) (ModelTable.ofSet s) =
      .ofSet (edits.foldl (fun s e => e.onSet s) s) := by
    induction edits generalizing s with
    | nil => rfl
    | cons e edits ih => rw [List.foldl_cons, Edit.onTable_ofSet, ih, List.foldl_cons]
  exact hrun ∅

/-- The table `t` holds the models of the set `s`, each under its own class name. -/
structure KeptTogether (t : ModelTable) (s : ModelSet) : Prop where
  own : ∀ row ∈ t.toList, row.1 = row.2.className
  /-- A walk over the models and one over the keys go along the set. -/
  models : t.models = s.toList
  keys : t.keys = s.toList.map Model.className
  /-- The class names increase in the order of their code points. -/
  increasing : (s.toList.map Model.className).Pairwise fun a b =>
    a.toList.map Char.toNat < b.toList.map Char.toNat
  /-- A walk meets each class name once. -/
  once : ∀ c, (s.toList.map Model.className).count c = if (s.get? c).isSome then 1 else 0
  size : t.size = (s.toList.map Model.className).dedup.length ∧ s.size = t.size
  get?_eq : ∀ c, (t.get? c).map Prod.snd = s.get? c
  /-- Putting in a model gives back the one that it replaces. -/
  exchange : ∀ m, t.exchange m = (s.get? m.className, .ofSet (s.insert m))
  exchangeAll : ∀ ms, t.exchangeAll ms = .ofSet (s.insertAll ms)
  /-- After models have been put in, the last one of a class name is found, and a class name that
  is new counts once. -/
  get?_inserted : ∀ ms c, (s.insertAll ms).get? c =
    (ms.reverse.find? fun m => m.className = c).or (s.get? c)
  size_inserted : ∀ ms, (s.insertAll ms).size =
    (s.toList.map Model.className ++ ms.map Model.className).dedup.length

theorem keptTogether_ofSet (s : ModelSet) : KeptTogether (.ofSet s) s where
  own := by
    intro row hrow
    obtain ⟨m, -, rfl⟩ := List.mem_map.1 hrow
    rfl
  models := ModelTable.models_ofSet s
  keys := ModelTable.keys_ofSet s
  increasing := by
    rw [List.pairwise_map]
    refine s.sorted.imp fun {a b} hlt => ?_
    have hchars : a.className.toList < b.className.toList := String.lt_iff.1 hlt
    exact List.map_lt (fun x y (hchar : x.val < y.val) => UInt32.lt_iff_toNat_lt.1 hchar) hchars
  once := by
    intro c
    split
    · rename_i hsome
      exact List.count_eq_one_of_mem s.nodup_keys
        (Keyed.mem_keys_iff.2 (Option.isSome_iff_exists.1 hsome))
    · rename_i hnone
      refine List.count_eq_zero_of_not_mem fun hmem => hnone ?_
      exact Option.isSome_iff_exists.2 (Keyed.mem_keys_iff.1 hmem)
  size := by
    have hsize := ModelTable.size_ofSet s
    refine ⟨?_, hsize.symm⟩
    rw [hsize, s.nodup_keys.dedup]
    exact s.length_keys.symm
  get?_eq := by
    intro c
    rw [ModelTable.get?_ofSet, Option.map_map]
    simp [Function.comp_def]
  exchange := ModelTable.exchange_ofSet s
  exchangeAll := ModelTable.exchangeAll_ofSet s
  get?_inserted := s.get?_insertAll
  size_inserted := s.size_insertAll

/-- Whatever has been done to a set, its models lie under their own class names. -/
theorem reached_keptTogether (edits : List Edit) :
    KeptTogether (ModelTable.reached edits) (reached edits) := by
  rw [reached_eq_ofSet]
  exact keptTogether_ofSet (reached edits)

example :
    ((ModelTable.reached [.insert (Model.new "200_response" "Model200_response")]).exchange
      (Model.new "other" "Model200_response")).1.map Model.name = some "200_response" := by
  decide +kernel

end ModelSet

end ApiGraph

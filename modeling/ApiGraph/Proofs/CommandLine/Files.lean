import ApiGraph.CommandLine.Directory
import ApiGraph.Proofs.Fallible

/-!
# Files of a directory

A path leads to a place, step by step, and reading and writing look at that place alone. A file can
be written at every place to which a path leads, unless it is a directory. Writing puts a text
there: what was a directory stays one, so every path that led somewhere leads there still, and every
other file is as it was.

Main statements: a text is written just when its path leads to such a place, and the file that has
been written is read back as the text that was written.
-/

namespace ApiGraph.CommandLine.Directory

variable {d d' : Directory} {place target : List String} {path text : String}

def locate (d : Directory) (path : String) : Except Refusal (List String) := do
  (segments path).foldlM d.enter (← start path)

/-- The directory with a text at a place. The null device takes any text and keeps none. -/
def put (d : Directory) (place : List String) (text : String) : Directory :=
  if place = nullDevice then d
  else ⟨(place, text) :: d.files.filter fun (file, _) => file ≠ place⟩

/-- The path leads to a place for a file, and is not spelled as the path of a directory. -/
structure Takes (d : Directory) (path : String) (place : List String) : Prop where
  locate : d.locate path = .ok place
  file : d.isDirectory place = false
  slash : endsInSlash path = false

/-! ## Places -/

theorem isDirectory_iff : d.isDirectory place = true ↔
    place.isPrefixOf home = true ∨
      ∃ file ∈ d.files.map Prod.fst, place.isPrefixOf file = true ∧ place ≠ file := by
  simp [isDirectory]

theorem mem_files_put {file : List String} (h : file ∈ d.files.map Prod.fst) :
    file ∈ (d.put place text).files.map Prod.fst := by
  unfold put
  split
  · exact h
  · by_cases hfile : file = place
    · exact hfile ▸ List.mem_cons_self
    · obtain ⟨entry, hentry, rfl⟩ := List.mem_map.1 h
      exact List.mem_cons_of_mem _
        (List.mem_map_of_mem (List.mem_filter.2 ⟨hentry, by simpa using hfile⟩))

theorem isDirectory_put (h : d.isDirectory place = true) :
    (d.put target text).isDirectory place = true := by
  rw [isDirectory_iff] at h ⊢
  exact h.imp_right fun ⟨file, hfile, hplace⟩ => ⟨file, mem_files_put hfile, hplace⟩

/-- A step that could be taken can be taken when a text has been put somewhere. -/
theorem enter_put {segment : String} {next : List String} (h : d.enter place segment = .ok next) :
    (d.put target text).enter place segment = .ok next := by
  unfold enter at h ⊢
  split at h
  · cases h
  · rename_i hdirectory
    rw [Bool.not_eq_true, Bool.not_eq_false'] at hdirectory
    rw [isDirectory_put hdirectory]
    exact h

theorem foldlM_enter_put {segments : List String} {written : List String}
    (h : segments.foldlM d.enter place = .ok target) :
    segments.foldlM (d.put written text).enter place = .ok target := by
  induction segments generalizing place with
  | nil => exact h
  | cons segment segments ih =>
    rw [List.foldlM_cons] at h ⊢
    obtain ⟨next, hnext, h⟩ := Except.bind_eq_ok_iff.1 h
    exact Except.bind_eq_ok_iff.2 ⟨next, enter_put hnext, ih h⟩

theorem locate_put {written : List String} (h : d.locate path = .ok target) :
    (d.put written text).locate path = .ok target := by
  obtain ⟨place, hstart, h⟩ := Except.bind_eq_ok_iff.1 h
  exact Except.bind_eq_ok_iff.2 ⟨place, hstart, foldlM_enter_put h⟩

/-! ## Files -/

theorem lookup_put_self (h : place ≠ nullDevice) :
    (d.put place text).files.lookup place = some text := by
  rw [put, if_neg h, List.lookup_cons_self]

theorem lookup_filter_ne {other : List String} (h : other ≠ place)
    (files : List (List String × String)) :
    (files.filter fun (file, _) => file ≠ place).lookup other = files.lookup other := by
  induction files with
  | nil => rfl
  | cons entry files ih =>
    by_cases hentry : entry.1 = place
    · have hkey : (other == entry.1) = false := by simpa [hentry] using h
      rw [List.filter_cons_of_neg (by simpa using hentry), ih, List.lookup_cons, hkey]
    · rw [List.filter_cons_of_pos (by simpa using hentry), List.lookup_cons, List.lookup_cons, ih]

/-- Every other file is as it was. -/
theorem lookup_put_of_ne {other : List String} (h : other ≠ place) :
    (d.put place text).files.lookup other = d.files.lookup other := by
  unfold put
  split
  · rfl
  · rw [List.lookup_cons, beq_false_of_ne h]
    exact lookup_filter_ne h d.files

theorem isDirectory_of_start (h : start path = .ok place) : d.isDirectory place = true := by
  unfold start at h
  split at h
  · cases h
  · split at h
    · cases h
    · cases h
      rw [isDirectory_iff]
      left
      split <;> rfl

theorem enter_dot (h : d.isDirectory place = true) : d.enter place "." = .ok place := by
  simp [enter, h]

/-- The last step of a path that is written is a step of the walk to its place. -/
theorem locate_eq : d.locate path = (do
    let parent ← (segments path).dropLast.foldlM d.enter (← start path)
    d.enter parent ((segments path).getLast?.getD ".")) := by
  unfold locate
  cases hstart : start path with
  | error reason => rfl
  | ok first =>
    change (segments path).foldlM d.enter first = (_ >>= _ : Except Refusal (List String))
    rcases List.eq_nil_or_concat (segments path) with hnone | ⟨before, last, hsegments⟩
    · -- a path without segments leads to the directory where it starts
      rw [hnone]
      exact (enter_dot (isDirectory_of_start hstart)).symm
    · rw [hsegments, List.concat_eq_append, List.foldlM_append, List.dropLast_concat,
        List.getLast?_concat, Option.getD_some]
      simp only [List.foldlM_cons, List.foldlM_nil, bind_pure]
      rfl

theorem write_of_endsInSlash (h : endsInSlash path = true) : d.write path text ≠ .ok d' := by
  intro hwrite
  obtain ⟨first, -, hwrite⟩ := Except.bind_eq_ok_iff.1 hwrite
  obtain ⟨parent, -, hwrite⟩ := Except.bind_eq_ok_iff.1 hwrite
  rw [if_pos h] at hwrite
  obtain ⟨_, -, hwrite⟩ := Except.bind_eq_ok_iff.1 hwrite
  cases hwrite

theorem write_of_not_endsInSlash (h : endsInSlash path = false) :
    d.write path text = (do
      let target ← d.locate path
      if d.isDirectory target then .error .isDirectory else .ok (d.put target text)) := by
  rw [locate_eq, bind_assoc]
  unfold write
  apply bind_congr
  intro first
  rw [bind_assoc]
  apply bind_congr
  intro parent
  rw [if_neg (Bool.eq_false_iff.1 h)]
  apply bind_congr
  intro target
  unfold put
  split
  · rfl
  · split <;> rfl

/-- A text is written just when its path leads to a place for a file, and it is put there. -/
theorem write_eq_ok_iff :
    d.write path text = .ok d' ↔ ∃ place, d.Takes path place ∧ d' = d.put place text := by
  cases hslash : endsInSlash path with
  | true =>
    constructor
    · intro h
      exact absurd h (write_of_endsInSlash hslash)
    · rintro ⟨place, htakes, -⟩
      rw [htakes.slash] at hslash
      cases hslash
  | false =>
    rw [write_of_not_endsInSlash hslash, Except.bind_eq_ok_iff]
    constructor
    · rintro ⟨place, hlocate, h⟩
      split at h
      · cases h
      · cases h
        exact ⟨place, ⟨hlocate, Bool.eq_false_iff.2 ‹_›, hslash⟩, rfl⟩
    · rintro ⟨place, htakes, rfl⟩
      exact ⟨place, htakes.locate, if_neg (Bool.eq_false_iff.1 htakes.file)⟩

/-- A file is read at the place that its path leads to. -/
theorem read_of_locate (hplace : d.locate path = .ok place)
    (htext : d.files.lookup place = some text) (hslash : endsInSlash path = false) :
    d.read path = .ok text := by
  obtain ⟨first, hstart, hwalk⟩ := Except.bind_eq_ok_iff.1 hplace
  refine Except.bind_eq_ok_iff.2 ⟨first, hstart, Except.bind_eq_ok_iff.2 ⟨place, hwalk, ?_⟩⟩
  rw [htext]
  exact if_neg (Bool.eq_false_iff.1 hslash)

/-- The file that has been written holds the text. -/
theorem Takes.read_put (h : d.Takes path place) (hnull : place ≠ nullDevice) :
    (d.put place text).read path = .ok text :=
  read_of_locate (locate_put h.locate) (lookup_put_self hnull) h.slash

end ApiGraph.CommandLine.Directory

import ApiGraph.Toml.Basic

/-!
# Adding to tables

The rules on what a TOML text may add to a table. A key is given a value once. A
header may define a table that earlier headers only passed through, but not one that
is defined already; a dotted key may go through tables that dotted keys made, but not
through one that a header defined. A table between braces is closed. A repeated header
starts another table under its name, and what follows goes into the last one.
-/

namespace ApiGraph.Toml

structure Table where
  kind : TableKind
  entries : Entries

namespace Table

def empty (kind : TableKind) : Table := ⟨kind, []⟩

/-- The entries with the value of a key replaced in its place, or put at the end. -/
def replace (key : String) (v : Value) : Entries → Entries
  | [] => [(key, v)]
  | e :: rest => if e.1 = key then (key, v) :: rest else e :: replace key v rest

/-- The last table under a repeated header changed. -/
def changeLast (change : Table → Option Table) :
    List Entries → Option (List Entries)
  | [] => none
  | [t] => (change ⟨.explicit, t⟩).map fun t => [t.entries]
  | t :: rest => (changeLast change rest).map (t :: ·)

/-- Changes the table at the end of a path. `viaDots` says that the path is part of a dotted key
and not of a header. -/
def descend (viaDots : Bool) : List String → (Table → Option Table) → Table → Option Table
  | [], change, t => change t
  | key :: path, change, t =>
    match t.entries.lookup key with
    | none =>
      let made := empty (if viaDots then .dotted else .implicit)
      (descend viaDots path change made).map fun inner =>
        ⟨t.kind, replace key (.table inner.kind inner.entries) t.entries⟩
    | some (.table kind entries) =>
      if kind = .inline ∨ (viaDots ∧ kind = .explicit) then none
      else
        (descend viaDots path change ⟨kind, entries⟩).map fun inner =>
          ⟨t.kind, replace key (.table inner.kind inner.entries) t.entries⟩
    | some (.tables ts) =>
      (changeLast (descend viaDots path change) ts).map fun ts =>
        ⟨t.kind, replace key (.tables ts) t.entries⟩
    | some _ => none

def assign (key : String) (v : Value) (t : Table) : Option Table :=
  if (t.entries.lookup key).isSome then none else some ⟨t.kind, t.entries ++ [(key, v)]⟩

/-- Gives a dotted key a value: the tables on its way have to be dotted ones. -/
def assignPath (path : List String) (key : String) (v : Value) (t : Table) : Option Table :=
  descend true path
    (fun t => if (t.kind = .dotted) ↔ path = [] then none else t.assign key v) t

def define (key : String) (t : Table) : Option Table :=
  match t.entries.lookup key with
  | none => some ⟨t.kind, t.entries ++ [(key, .table .explicit [])]⟩
  | some (.table .implicit entries) =>
    some ⟨t.kind, (t.entries.filter (·.1 ≠ key)) ++ [(key, .table .explicit entries)]⟩
  | some _ => none

/-- Starts another table of a repeated header. -/
def repeatHeader (key : String) (t : Table) : Option Table :=
  match t.entries.lookup key with
  | none => some ⟨t.kind, t.entries ++ [(key, .tables [[]])]⟩
  | some (.tables ts) => some ⟨t.kind, replace key (.tables (ts ++ [[]])) t.entries⟩
  | some _ => none

end Table

inductive Statement where
  /-- Gives a key a value; `path` is what stands before the last dot. -/
  | assign (path : List String) (key : String) (v : Value)
  /-- The header of a table. -/
  | header (path : List String) (key : String)
  /-- The header of one table among several. -/
  | repeatedHeader (path : List String) (key : String)

/-- A TOML text read up to some line: all entries, and the table that the next line adds to. -/
structure Progress where
  root : Table
  current : List String

namespace Progress

def start : Progress := ⟨.empty .explicit, []⟩

def step (p : Progress) : Statement → Option Progress
  | .assign path key v =>
    (p.root.descend false p.current (Table.assignPath path key v)).map fun root =>
      ⟨root, p.current⟩
  | .header path key =>
    (p.root.descend false path (Table.define key)).map fun root => ⟨root, path ++ [key]⟩
  | .repeatedHeader path key =>
    (p.root.descend false path (Table.repeatHeader key)).map fun root => ⟨root, path ++ [key]⟩

end Progress

end ApiGraph.Toml

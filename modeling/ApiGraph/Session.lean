import ApiGraph.Identifier.Registry
import ApiGraph.Identifier.Spelling

/-!
# Sessions

A session is what the stages of one run share: the registry of truncated names and
the events reported so far. `Naming α` is a step that reads and extends a session
and can fail in one way only, by running out of counters; a failed step keeps the
session it had reached.

`truncate` joins a name to a suffix, `trySanitize` makes an identifier for a role or
answers `none` when nothing legal is left, and `sanitize` then answers the
placeholder of the role. Identifiers that coincide are told apart by numbers, of which
there are `renameLimit`.
-/

namespace ApiGraph

open Identifier

/-- What the stages of one run share. -/
structure Session where
  registry : Registry
  /-- The events reported so far, in order. -/
  log : Array Event

namespace Session

def start : Session := ⟨∅, #[]⟩

instance : Inhabited Session := ⟨start⟩

end Session

/-- A step of a run. -/
abbrev Naming := EStateM Exhausted Session

namespace Naming

/-- The numbers that tell identifiers apart have 32 bits. -/
def renameLimit : Nat := 4294967296

def report (e : Event) : Naming Unit :=
  modify fun s => { s with log := s.log.push e }

def reportAll (es : List Event) : Naming Unit :=
  modify fun s => { s with log := s.log ++ es }

/-- Joins a name to a suffix; a result that is too long gets a counter, which is reported once. -/
def truncate (name suffix : String) : Naming String := fun s =>
  match s.registry.truncate ⟨name, suffix⟩ with
  | .error e => .error e s
  | .ok (text, registry) =>
    .ok text
      { registry
        log :=
          if s.registry.isNew ⟨name, suffix⟩ then s.log.push (.truncated name suffix text)
          else s.log }

/-- An identifier for a role, or `none` when nothing legal is left of the name. -/
def trySanitize (raw : String) (role : Role) : Naming (Option String) := do
  reportAll (spellEvents raw role)
  match spell raw role with
  | none => return none
  | some name => return some (← truncate name "")

def sanitize (raw : String) (role : Role) : Naming String := do
  match ← trySanitize raw role with
  | some name => return name
  | none =>
    report (.emptyName raw role)
    return role.placeholder

end Naming

end ApiGraph

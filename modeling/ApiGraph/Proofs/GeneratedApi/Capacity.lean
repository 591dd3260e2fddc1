import ApiGraph.Proofs.GeneratedApi.Numbers
import ApiGraph.Proofs.Registry.Counters

/-!
# Room for names

Main statement: a registry gives a new long request its stem under the least counter that is left,
puts that one request on record and keeps the others, and while it holds fewer than `counterLimit`
requests it never fails. So no history of calls fails that puts no more long requests than there
are counters, and a run over a document that fails has as many on record. Only a document with at
least `2 ^ 31` properties or operations could make a search for a free name give up before, on a
number beyond 32 bits, which is no failure of the registry.
-/

namespace ApiGraph

open Identifier Naming

namespace GeneratedApi

/-- How a run over a document may end as far as names are concerned. -/
inductive EndsWithin (d : Document) : EStateM.Result Exhausted Session GeneratedApi → Prop
  | ok {api : GeneratedApi} {s : Session} : EndsWithin d (.ok api s)
  /-- There are as many long requests on record as a stem has counters, and the request that failed
  is a further one. -/
  | full {e : Exhausted} {s : Session} (full : s.registry.IsFull e.request)
      (size : counterLimit ≤ s.registry.size) : EndsWithin d (.error e s)
  /-- The request that failed is for a number beyond 32 bits, and the document declares enough names
  for a search to come to it. -/
  | pastNumbers {e : Exhausted} {s : Session} (past : PastNumbers e.request)
      (many : d.Outnumbers) : EndsWithin d (.error e s)

theorem generate_endsWithin (config : Config) (d : Document) :
    EndsWithin d (generate config d) := by
  cases h : generate config d with
  | ok api s => exact .ok
  | error e s =>
    obtain hfull | hpast := failsWith_pastNumbers config d _ _ _ h
    · exact .full hfull hfull.counterLimit_le_size
    obtain hfull | hmany := failsWith_outnumbers config d _ _ _ h
    · exact .full hfull hfull.counterLimit_le_size
    · exact .pastNumbers hpast hmany

end GeneratedApi

/-- New long requests get the next counter of their stem, and naming does not fail before there are
as many of them as there are counters. -/
theorem naming_withinCounters :
    (∀ (r : Registry) (q : Request), r.isNew q = true → r.AnswersNew q (r.truncate q)) ∧
    (∀ (r : Registry) (q : Request), r.size < counterLimit →
      ∃ answer, r.truncate q = .ok answer) ∧
    (∀ calls : List Call, (longCalls calls).length ≤ counterLimit →
      ∀ t ∈ (history .start calls).1, ∃ answer, t.result = .ok answer) ∧
    ∀ (config : Config) (d : Document),
      GeneratedApi.EndsWithin d (GeneratedApi.generate config d) :=
  ⟨fun _ _ => Registry.answersNew, fun _ q h => Registry.exists_truncate_of_size_lt h q,
    fun _ => history_ok, GeneratedApi.generate_endsWithin⟩

/-- Requests that differ in what is cut off have one stem. -/
def oneStem (tail : String) : Request := ⟨String.ofList (List.replicate 66 'a') ++ tail, "Enum"⟩

def oneStemRegistry : Registry := (history .start [.truncate (oneStem "1234")]).2.registry

theorem naming_withinCounters_oneStem :
    (oneStemRegistry.isNew (oneStem "5678") = true ∧
      oneStemRegistry.AnswersNew (oneStem "5678") (oneStemRegistry.truncate (oneStem "5678"))) ∧
    (oneStemRegistry.size < counterLimit ∧
      ∃ answer, oneStemRegistry.truncate (oneStem "5678") = .ok answer) ∧
    ((longCalls [.truncate (oneStem "1234"), .truncate (oneStem "5678")]).length ≤ counterLimit ∧
      ∀ t ∈ (history .start [.truncate (oneStem "1234"), .truncate (oneStem "5678")]).1,
        ∃ answer, t.result = .ok answer) := by
  obtain ⟨hnew, hroom, hhistory, -⟩ := naming_withinCounters
  have hisNew : oneStemRegistry.isNew (oneStem "5678") = true := by decide +kernel
  have hsize : oneStemRegistry.size < counterLimit := by decide +kernel
  have hcalls : (longCalls [.truncate (oneStem "1234"), .truncate (oneStem "5678")]).length ≤
      counterLimit := by decide +kernel
  exact ⟨⟨hisNew, hnew _ _ hisNew⟩, ⟨hsize, hroom _ _ hsize⟩, hcalls, hhistory _ hcalls⟩

end ApiGraph

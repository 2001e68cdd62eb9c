import FailoverFabric.Service
import FailoverFabric.Library.Upsert

/-! # Request records

`request.hpp` and `request.cpp`: the disposition of dispatched work, and how a
late result is classified.
-/
namespace FailoverFabric

structure RequestRecord where
  request : RequestId := .null
  execution : ExecutionId := .null
  executionGeneration : ExecutionGeneration := {}
  slot : ServiceSlotKey := {}
  disposition : RequestDisposition := .notDispatched
  idempotent : Bool := false
  authority : IdempotencyAuthority := .none
  externallyEffectful : Bool := false
  dispatchedAuth : Option WorkerAuthorization := none
  clientNote : Text := []
  outcome : Text := []
  deriving DecidableEq

inductive LateOutcome
  | accepted | rejectedStale | classifiedAmbiguous
  deriving DecidableEq

structure RequestTracker where
  records : List RequestRecord := []
  ambiguous : Nat := 0
  rejectedLate : Nat := 0
  deriving DecidableEq

namespace RequestTracker

def find (t : RequestTracker) (id : RequestId) : Option RequestRecord :=
  t.records.find? fun r => r.request == id

def record (t : RequestTracker) (r : RequestRecord) : RequestTracker :=
  { t with records := t.records.upsert (fun e => e.request == r.request) r fun _ => r }

/-- A withheld response: the outcome is unknown, and counted once. -/
def setOutcomeUnknown (t : RequestTracker) (id : RequestId) : RequestTracker :=
  match t.find id with
  | none => { t with ambiguous := t.ambiguous + 1 }
  | some r =>
    if r.disposition = .outcomeUnknown then t
    else
      { t with
        records := t.records.updateFirst (fun e => e.request == id)
          fun e => { e with disposition := .outcomeUnknown }
        ambiguous := t.ambiguous + 1 }

def classifyLateResult (t : RequestTracker) (id : RequestId) (_auth : WorkerAuthorization) :
    RequestTracker × LateOutcome :=
  match t.find id with
  | none => ({ t with ambiguous := t.ambiguous + 1 }, .classifiedAmbiguous)
  | some r =>
    if r.dispatchedAuth.isNone then ({ t with ambiguous := t.ambiguous + 1 }, .classifiedAmbiguous)
    else if r.disposition = .responseCommitted then
      ({ t with rejectedLate := t.rejectedLate + 1 }, .rejectedStale)
    else ({ t with ambiguous := t.ambiguous + 1 }, .classifiedAmbiguous)

/-- A lookup after a record was written. -/
theorem find_record (t : RequestTracker) (r : RequestRecord) (id : RequestId) :
    (t.record r).find id = if id = r.request then some r else t.find id := by
  by_cases hid : id = r.request
  · subst hid
    rw [if_pos rfl]
    show (List.upsert _ _ _ _).find? _ = _
    rw [List.find?_upsert (by simp) fun _ _ => by simp]
    cases List.find? (fun e : RequestRecord => e.request == r.request) t.records <;> rfl
  · rw [if_neg hid]
    refine List.find?_upsert_of_ne (by simpa using Ne.symm hid) fun e he => ?_
    have heq : e.request = r.request := eq_of_beq he
    exact ⟨by simpa [heq] using Ne.symm hid, by simpa using Ne.symm hid⟩

/-- A lookup after an outcome became unknown. -/
theorem find_setOutcomeUnknown (t : RequestTracker) (id id' : RequestId) :
    (t.setOutcomeUnknown id).find id' =
      if id' = id then (t.find id).map fun e => { e with disposition := .outcomeUnknown }
      else t.find id' := by
  unfold setOutcomeUnknown
  cases hfind : t.find id with
  | none =>
    show t.find id' = _
    by_cases hid : id' = id
    · rw [if_pos hid, hid, hfind]
      rfl
    · rw [if_neg hid]
  | some r =>
    simp only
    split
    · rename_i hu
      by_cases hid : id' = id
      · rw [if_pos hid, hid, hfind, Option.map_some, ← hu]
      · rw [if_neg hid]
    · by_cases hid : id' = id
      · subst hid
        rw [if_pos rfl, ← hfind]
        exact List.find?_updateFirst fun _ h => h
      · rw [if_neg hid]
        refine List.find?_updateFirst_of_ne fun e he => ?_
        have heq : e.request = id := eq_of_beq he
        exact ⟨by simpa [heq] using Ne.symm hid, by simpa [heq] using Ne.symm hid⟩

end RequestTracker

end FailoverFabric

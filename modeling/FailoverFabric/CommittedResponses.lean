import FailoverFabric.RequestLedger

/-! # Committed responses

A request whose response was committed is settled: `classify_late_result` rejects what
comes later as stale, and the gate refuses every further result.  But a withheld report
overwrites the disposition, whatever it was, and with it the request is open again.
Nothing else that may happen in the process touches the record, short of recording the
request anew (`committed_stays_iff`).
-/
namespace FailoverFabric
open Fabric

/-- The response of the request was committed, and the gate refuses further results. -/
structure Committed (id : RequestId) (s : Fabric) : Prop where
  record : ∃ r, s.requests.find id = some r ∧ r.disposition = .responseCommitted
  refused : ∀ auth : WorkerAuthorization, auth.request = id → (s.authorizeResult auth).allowed = false

/-- A step that leaves the record of the request alone: its outcome is not declared
unknown, and the process does not end. -/
def KeepsCommitted (env : Env) (id : RequestId) (σ : SystemState) : Label → Prop
  | .op (.markOutcomeUnknown request) => request ≠ id
  | .restart cfg => ∀ s, Fabric.restart env.ord cfg σ.fabric ≠ .ok s
  | _ => True

/-- The gate refuses a result for a request whose response was committed. -/
theorem committed_iff {id : RequestId} {s : Fabric} :
    Committed id s ↔ ∃ r, s.requests.find id = some r ∧ r.disposition = .responseCommitted := by
  refine ⟨Committed.record, fun h => ⟨h, fun auth hid => ?_⟩⟩
  obtain ⟨r, hr, hcommitted⟩ := h
  rw [authorizeResult, hid, hr]
  by_cases hgate : (s.dispatchAllowed auth).allowed = false
  · rw [if_pos hgate]
    exact hgate
  · rw [if_neg hgate]
    simp [hcommitted]

theorem Committed.congr {id : RequestId} {s s' : Fabric} (h : Committed id s)
    (hfind : s'.requests.find id = s.requests.find id) : Committed id s' := by
  rw [committed_iff, hfind, ← committed_iff]
  exact h

/-- Classifying a late result counts it, and changes no record. -/
theorem find_classifyLateResult (t : RequestTracker) (id : RequestId) (auth : WorkerAuthorization)
    (id' : RequestId) : (t.classifyLateResult id auth).1.find id' = t.find id' := by
  unfold RequestTracker.classifyLateResult
  split
  · rfl
  · split_ifs <;> rfl

/-- **An operation and the record of a request**: only two kinds write it. -/
theorem apply_find_request (env : Env) (s : Fabric) {id : RequestId} {o : Op}
    (hrecord : ∀ r, o = .recordRequest r → r.request ≠ id) (hmark : o ≠ .markOutcomeUnknown id) :
    (s.apply env o).requests.find id = s.requests.find id := by
  cases ho : onRequests (.op o) with
  | false => rw [apply_requests ho]
  | true =>
    cases o with
    | recordRequest r =>
      show (s.requests.record r).find id = _
      rw [RequestTracker.find_record, if_neg (hrecord r rfl).symm]
    | classifyLateResult request auth => exact find_classifyLateResult s.requests request auth id
    | markOutcomeUnknown request =>
      have hne : id ≠ request := fun heq => hmark (by rw [heq])
      show (s.requests.setOutcomeUnknown request).find id = _
      rw [RequestTracker.find_setOutcomeUnknown, if_neg hne]
    | recordDispatch => rfl
    | _ => cases ho

/-- After a withheld report nothing is committed. -/
theorem not_committed_markOutcomeUnknown (id : RequestId) (s : Fabric) :
    ¬ Committed id (s.markOutcomeUnknown id) := by
  intro h
  obtain ⟨r, hr, hcommitted⟩ := h.record
  have hfind : (s.markOutcomeUnknown id).requests.find id =
      (s.requests.find id).map fun e => { e with disposition := .outcomeUnknown } := by
    show (s.requests.setOutcomeUnknown id).find id = _
    rw [RequestTracker.find_setOutcomeUnknown, if_pos rfl]
  rw [hfind] at hr
  obtain ⟨e, -, rfl⟩ := Option.map_eq_some_iff.mp hr
  cases hcommitted

/-- A new process has no records. -/
theorem not_committed_restart {env : Env} {cfg : RuntimeConfig} {id : RequestId} {s s' : Fabric}
    (h : Fabric.restart env.ord cfg s = .ok s') : ¬ Committed id s' := by
  obtain ⟨blob, snap, -, -, rfl⟩ := restart_eq_ok.mp h
  intro hc
  obtain ⟨r, hr, -⟩ := hc.record
  cases hr

/-- **A step keeps the response committed exactly if it leaves the record alone.** -/
theorem committed_step {env : Env} {id : RequestId} {σ : SystemState} {l : Label}
    (h : Committed id σ.fabric) (hrecord : ∀ r, l = .op (.recordRequest r) → r.request ≠ id) :
    Committed id (σ.step env l).fabric ↔ KeepsCommitted env id σ l := by
  cases l with
  | op o =>
    show Committed id (σ.fabric.apply env o) ↔ _
    by_cases hmark : o = .markOutcomeUnknown id
    · subst hmark
      exact iff_of_false (not_committed_markOutcomeUnknown id σ.fabric) fun hne => hne rfl
    · refine iff_of_true (h.congr (apply_find_request env σ.fabric ?_ hmark)) ?_
      · exact fun r ho => hrecord r (by rw [ho])
      · cases o with
        | markOutcomeUnknown request => exact fun heq => hmark (by rw [heq])
        | _ => trivial
  | beginPlan plan ops => exact iff_of_true h trivial
  | beginFailback slot ops => exact iff_of_true h trivial
  | advance i rd =>
    refine iff_of_true (h.congr ?_) trivial
    rw [(advance_confined env σ i rd).requests]
  | restart cfg =>
    cases hr : Fabric.restart env.ord cfg σ.fabric with
    | error e =>
      rw [step_restart_error hr]
      exact iff_of_true h fun s hs => by cases hr.symm.trans hs
    | ok s =>
      rw [step_restart_ok hr]
      exact iff_of_false (not_committed_restart hr) fun hne => hne s hr

/-- **When a committed response stays committed**: whatever the process does after it
without recording the request anew, the record stays committed and the gate shut, if and
only if the outcome of the request is not declared unknown, and no new process takes
over. -/
theorem committed_stays_iff (env : Env) (σ : SystemState) (id : RequestId) (rec : RequestRecord)
    (hrec : σ.fabric.requests.find id = some rec) (hcommitted : rec.disposition = .responseCommitted)
    (ls : List Label) (hrecord : ∀ r, .op (.recordRequest r) ∈ ls → r.request ≠ id) :
    (∀ past, past <+: ls →
      (∃ r, ((machine env).run σ past).fabric.requests.find id = some r ∧
        r.disposition = .responseCommitted) ∧
      ∀ auth : WorkerAuthorization, auth.request = id →
        (((machine env).run σ past).fabric.authorizeResult auth).allowed = false) ↔
      ∀ past l, past ++ [l] <+: ls → KeepsCommitted env id ((machine env).run σ past) l := by
  have hstep : ∀ past l, (∀ r, l = .op (.recordRequest r) → r.request ≠ id) →
      Committed id ((machine env).run σ past).fabric →
      (Committed id ((machine env).run σ (past ++ [l])).fabric ↔
        KeepsCommitted env id ((machine env).run σ past) l) := by
    intro past l hl h
    rw [Transition.System.run_concat]
    exact committed_step h hl
  have hall := Transition.throughout_iff_of
    (I := fun past => Committed id ((machine env).run σ past).fabric)
    (D := fun l => ∀ r, l = .op (.recordRequest r) → r.request ≠ id)
    (committed_iff.mpr ⟨rec, hrec, hcommitted⟩) (fun _ h => h)
    (fun past l hl h => (hstep past l hl h).mpr) (fun past l hl h => (hstep past l hl h).mp) ls
    fun l hl r hlr => hrecord r (hlr ▸ hl)
  rw [← hall]
  refine forall₂_congr fun past _ => ?_
  exact ⟨fun h => ⟨h.1, h.2⟩, fun h => ⟨h.record, h.refused⟩⟩

namespace Reference

/-- The reference deployment with a request whose response was committed. -/
def committedRequest : SystemState :=
  (machine env).run deployed
    [.op (.recordRequest { request := ⟨7⟩, slot := slot, disposition := .responseCommitted })]

/-- What follows a commit is for other requests. -/
theorem committed_stays_reference :
    (∃ r, ((machine env).run committedRequest [.op (.markOutcomeUnknown ⟨8⟩)]).fabric.requests.find
      ⟨7⟩ = some r ∧ r.disposition = .responseCommitted) := by
  have hkept : ∀ past l, past ++ [l] <+: [Label.op (.markOutcomeUnknown ⟨8⟩)] →
      KeepsCommitted env ⟨7⟩ ((machine env).run committedRequest past) l := by
    intro past l hp
    have hl : l ∈ [Label.op (.markOutcomeUnknown ⟨8⟩)] := hp.subset (by simp)
    rw [List.mem_singleton.mp hl]
    show (⟨8⟩ : RequestId) ≠ ⟨7⟩
    decide
  exact ((committed_stays_iff env committedRequest ⟨7⟩ _ rfl rfl [.op (.markOutcomeUnknown ⟨8⟩)]
    (fun r hr => by simp at hr)).mpr hkept _ (List.prefix_refl _)).1

/-- **A withheld report re-opens a committed request**: the gate refuses a second result
before it and accepts one after it. -/
theorem committed_reopened :
    Transition.Reachable (machine env) (fun _ _ => True) committedRequest ∧
    (committedRequest.fabric.requests.find ⟨7⟩).map (·.disposition) = some .responseCommitted ∧
      (committedRequest.fabric.authorizeResult
        { authFor committedRequest.fabric initialAssignment with request := ⟨7⟩ }).allowed = false ∧
      (let s := committedRequest.fabric.apply env (.markOutcomeUnknown ⟨7⟩)
       (s.requests.find ⟨7⟩).map (·.disposition) = some .outcomeUnknown ∧
        (s.authorizeResult
          { authFor s initialAssignment with request := ⟨7⟩ }).allowed = true) := by
  refine ⟨Transition.Reachable.run_all _ (Transition.Reachable.run_all _ (.initial ⟨{}, rfl⟩)), ?_⟩
  decide +kernel

end Reference

end FailoverFabric

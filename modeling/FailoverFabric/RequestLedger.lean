import FailoverFabric.Handlers

/-! # What is dispatched and what comes back

The handlers keep one record for each request id: a grant overwrites it with a
record that is only dispatched, a withheld result makes its outcome unknown, and no
handler ever records that a response was committed.  So the gate accepts the same
result again and again (`result_accepted_twice`), and a second request for work in
flight is granted (`in_flight_granted`).

Two ledgers beside the process count what the records do not say.  With `Counts`: in
every run in which each result that the gate lets through answers a dispatch that is
still awaited, no more results are accepted than were dispatched (`results_bounded`).
With `Flights`: in every run in which requests in flight are not asked for again, nor
those whose outcome became unknown under the policy of a later request, work that is
not idempotent is not dispatched twice (`flights_exclusive`).
-/
namespace FailoverFabric
open Fabric Protocol

/-! ## The records of requests -/

section Records
variable {env : Env}

/-- No other operation writes a record. -/
theorem apply_requests {s : Fabric} {o : Op} (ho : onRequests (.op o) = false) :
    (s.apply env o).requests = s.requests := by
  cases hrep : reports o with
  | false => exact (apply_sameReports env s o hrep).requests
  | true =>
    cases o with
    | registerTarget id transport => rw [apply_registerTarget]
    | publishCandidateFacts now f => rw [apply_publishCandidateFacts]
    | publishCandidateState t st => rw [apply_publishCandidateState]
    | publishCandidateResources t rs => rw [apply_publishCandidateResources]
    | publishFailure ev => rfl
    | authorizeFailback slot => rfl
    | recordRequest r => cases ho
    | classifyLateResult id auth => cases ho
    | markOutcomeUnknown id => cases ho
    | load blob =>
      rcases apply_load_cases env s blob with h | ⟨snap, -, h⟩
      · rw [h]
      · rw [h]
        rfl
    | _ => cases hrep

/-- **Only the two handlers write records.** -/
theorem other_requests (σ : SystemState) (l : Label) :
    (σ.handle env (.other l)).fabric.requests = σ.fabric.requests := by
  simp only [SystemState.handle]
  split
  · rename_i h
    obtain ⟨hmsg, ho⟩ := Bool.and_eq_true_iff.mp h
    rw [Bool.not_eq_true'] at ho
    cases l with
    | op o => exact apply_requests ho
    | beginPlan plan ops => rfl
    | beginFailback slot ops => rfl
    | advance i rd => exact (advance_confined env σ i rd).requests
    | restart cfg => cases hmsg
  · rfl

/-- A grant overwrites the record of its request. -/
theorem find_dispatched (s : Fabric) (q : RequestMessage) (cur : Assignment) (r : RequestId) :
    (s.dispatched q cur).requests.find r =
      if r = q.request then some (dispatchRecord q (s.grant q cur)) else s.requests.find r :=
  RequestTracker.find_record s.requests (dispatchRecord q (s.grant q cur)) r

/-- A result that is not withheld changes nothing. -/
theorem onAuthorizeResult_reported {s : Fabric} {payload : List UInt8}
    (h : ∀ q, readResult payload = .ok q → q.withheld = false) :
    (s.onAuthorizeResult payload).1 = s := by
  unfold onAuthorizeResult
  cases hread : readResult payload with
  | error e => rfl
  | ok q => simp [handleResult, h q hread]

/-- After a withheld result the outcome of its request is unknown; the rest of the
record stays. -/
theorem find_withheld {s : Fabric} {payload : List UInt8} {q : ResultMessage}
    (hread : readResult payload = .ok q) (hw : q.withheld = true) (r : RequestId) :
    (s.onAuthorizeResult payload).1.requests.find r =
      if r = q.auth.request then
        some (((s.requests.find r).map fun e => { e with disposition := .outcomeUnknown }).getD
          (unknownRecord q.auth))
      else s.requests.find r := by
  simp only [onAuthorizeResult, hread, handleResult, hw, if_true]
  cases hfind : s.requests.find q.auth.request with
  | none =>
    show (s.requests.record _).find r = _
    rw [RequestTracker.find_record]
    show (if r = q.auth.request then _ else _) = _
    split
    · rename_i hr
      rw [hr, hfind]
      rfl
    · rfl
  | some st =>
    simp only
    by_cases hu : st.disposition = .outcomeUnknown
    · rw [if_neg (not_not.mpr hu)]
      split
      · rename_i hr
        rw [hr, hfind, ← hu]
        rfl
      · rfl
    · rw [if_pos hu]
      show (s.requests.setOutcomeUnknown _).find r = _
      rw [RequestTracker.find_setOutcomeUnknown]
      split
      · rename_i hr
        rw [hr, hfind]
        rfl
      · rfl

/-- An accepted result has passed the gate, and its request has a record. -/
theorem onAuthorizeResult_accepted {s : Fabric} {payload : List UInt8} {q : ResultMessage}
    (hread : readResult payload = .ok q) (h : (s.onAuthorizeResult payload).2 = .accepted) :
    q.withheld = false ∧ (s.dispatchAllowed q.auth).allowed = true ∧
      (s.requests.find q.auth.request).isSome = true := by
  simp only [onAuthorizeResult, hread, handleResult] at h
  split at h
  · cases h
  rename_i hw
  refine ⟨by simpa using hw, ?_⟩
  unfold authorizeResult at h
  cases hgate : (s.dispatchAllowed q.auth).allowed with
  | false => simp [hgate] at h
  | true =>
    refine ⟨rfl, ?_⟩
    cases hfind : s.requests.find q.auth.request with
    | none => simp [hgate, hfind] at h
    | some rec => rfl

end Records

/-! ## Counting dispatches and results -/

/-- For each request: how often it was dispatched, how often a result was accepted,
and for how many of the dispatches the gate has let no result through. -/
structure Counts where
  granted : RequestId → Nat := fun _ => 0
  accepted : RequestId → Nat := fun _ => 0
  awaited : RequestId → Nat := fun _ => 0

namespace Counts

/-- What a message adds to the ledger.  A withheld result is not one that was
reported, and one that the gate refuses answers no dispatch. -/
def note (σ : SystemState) : Message → Counts → Counts
  | .authorizeRequest payload, c =>
    match (σ.fabric.onAuthorizeRequest payload).2 with
    | .granted auth =>
      { c with
        granted := Function.update c.granted auth.request (c.granted auth.request + 1)
        awaited := Function.update c.awaited auth.request (c.awaited auth.request + 1) }
    | _ => c
  | .authorizeResult payload, c =>
    match readResult payload with
    | .ok q =>
      if q.withheld then c
      else
        { c with
          accepted :=
            if (σ.fabric.onAuthorizeResult payload).2 = .accepted then
              Function.update c.accepted q.auth.request (c.accepted q.auth.request + 1)
            else c.accepted
          awaited :=
            if (σ.fabric.dispatchAllowed q.auth).allowed then
              Function.update c.awaited q.auth.request (c.awaited q.auth.request - 1)
            else c.awaited }
    | .error _ => c
  | .other _, c => c

/-- **Every result was asked for**: it answers a dispatch that is still awaited, or
its request has no record, or the gate refuses its authorization. -/
def solicited (p : SystemState × Counts) : Message → Bool
  | .authorizeResult payload =>
    match readResult payload with
    | .ok q =>
      q.withheld || decide (0 < p.2.awaited q.auth.request) ||
        (p.1.fabric.requests.find q.auth.request).isNone ||
          !(p.1.fabric.dispatchAllowed q.auth).allowed
    | .error _ => true
  | _ => true

/-- What was accepted and what is still awaited was dispatched. -/
def Balanced (c : Counts) : Prop := ∀ r, c.accepted r + c.awaited r ≤ c.granted r

variable {p : SystemState × Counts}

theorem Balanced.request (h : p.2.Balanced) (payload : List UInt8) :
    (note p.1 (.authorizeRequest payload) p.2).Balanced := by
  simp only [note]
  split
  · rename_i auth _
    intro r
    by_cases hr : r = auth.request
    · have := h auth.request
      simp only [hr, Function.update_self]
      omega
    · simp only [Function.update_of_ne hr]
      exact h r
  · exact h

/-- A result that is accepted is one that was awaited. -/
theorem Balanced.answered {c : Counts} (h : c.Balanced) {r : RequestId} (hpos : 0 < c.awaited r) :
    Balanced
      { c with
        accepted := Function.update c.accepted r (c.accepted r + 1)
        awaited := Function.update c.awaited r (c.awaited r - 1) } := by
  intro r'
  by_cases hr : r' = r
  · have := h r
    simp only [hr, Function.update_self]
    omega
  · simp only [Function.update_of_ne hr]
    exact h r'

/-- A result that is let through and not accepted is awaited no more. -/
theorem Balanced.passed {c : Counts} (h : c.Balanced) (r : RequestId) :
    Balanced { c with awaited := Function.update c.awaited r (c.awaited r - 1) } := by
  intro r'
  by_cases hr : r' = r
  · have := h r
    simp only [hr, Function.update_self]
    omega
  · simp only [Function.update_of_ne hr]
    exact h r'

/-- A result is accepted only if it is awaited. -/
theorem Balanced.result (h : p.2.Balanced) {payload : List UInt8}
    (hok : solicited p (.authorizeResult payload) = true) :
    (note p.1 (.authorizeResult payload) p.2).Balanced := by
  simp only [note]
  cases hread : readResult payload with
  | error e => exact h
  | ok q =>
    simp only
    split
    · exact h
    by_cases hacc : (p.1.fabric.onAuthorizeResult payload).2 = .accepted
    · obtain ⟨hreported, hgate, hrec⟩ := onAuthorizeResult_accepted hread hacc
      simp only [solicited, hread, hreported, hgate, Option.isNone_eq_false_iff.mpr hrec] at hok
      rw [if_pos hacc, if_pos hgate]
      exact h.answered (by simpa using hok)
    · rw [if_neg hacc]
      split
      · exact h.passed q.auth.request
      · exact h

end Counts

/-- **At most one accepted result for each dispatch**, in every run in which every
result that the gate lets through was asked for. -/
theorem results_bounded (env : Env) {p : SystemState × Counts}
    (h : Transition.Reachable ((server env).withHistory {} Counts.note)
      (fun p m => Counts.solicited p m = true) p) (r : RequestId) :
    p.2.accepted r ≤ p.2.granted r := by
  have hbal : p.2.Balanced := by
    refine h.invariant (P := fun p => p.2.Balanced) ?_ fun p m _ hp hok => ?_
    · rintro p ⟨-, hp⟩ r
      rw [hp]
      exact Nat.le_refl _
    · cases m with
      | authorizeRequest payload => exact hp.request payload
      | authorizeResult payload => exact hp.result hok
      | other l => exact hp
  have := hbal r
  omega

namespace Reference

/-- `AUTHORIZE_RESULT` for a request of service 1, under its first assignment. -/
def reportOf (request : UInt64) (withheld : Bool) : List UInt8 :=
  payloadOf [putU64 Fid.service 1, putU64 Fid.slot 1, putU64 Fid.epoch 1, putU64 Fid.epochId 1,
    putU64 Fid.epochBoot 1, putU64 Fid.assignmentId 1, putU64 Fid.assignmentGen 1,
    putU64 Fid.routeGen 1, putU64 Fid.boot 11, putU64 Fid.incarnation 0,
    putU64 Fid.requestId request, putU64 Fid.executionId request, putBool Fid.withheld withheld]

/-- The messages that register the service. -/
def registering : List Message := registration.map fun o => .other (.op o)

/-- A request, its result, and a result that nobody dispatched. -/
def servedOnce : List Message :=
  registering ++ [.authorizeRequest (askFor 1 false), .authorizeResult (reportOf 1 false),
    .authorizeResult (reportOf 2 false)]

/-- A request and its result, twice. -/
def reportedTwice : List Message :=
  registering ++ [.authorizeRequest (askFor 1 false), .authorizeResult (reportOf 1 false),
    .authorizeResult (reportOf 1 false)]

/-- The first process, and a ledger with nothing in it. -/
def freshCounts : SystemState × Counts := (freshProcess, {})

end Reference

open Reference in
/-- One result is accepted, for one dispatch. -/
theorem results_bounded_reference :
    let p := ((server env).withHistory {} Counts.note).run freshCounts servedOnce
    p.2.accepted ⟨1⟩ = 1 ∧ p.2.accepted ⟨1⟩ ≤ p.2.granted ⟨1⟩ := by
  intro p
  have hstart : Transition.Reachable ((server env).withHistory {} Counts.note)
      (fun p m => Counts.solicited p m = true) freshCounts := .initial ⟨freshProcess_started, rfl⟩
  exact ⟨by decide +kernel, results_bounded env (p := p)
    (.run servedOnce hstart (by decide +kernel)) ⟨1⟩⟩

open Reference in
/-- **The same result is accepted twice**: nothing records that it was accepted. -/
theorem result_accepted_twice :
    ¬ ∀ p, Transition.Reachable ((server env).withHistory {} Counts.note) (fun _ _ => True) p →
      ∀ r, p.2.accepted r ≤ p.2.granted r := by
  intro h
  have hstart : Transition.Reachable ((server env).withHistory {} Counts.note) (fun _ _ => True)
      freshCounts := .initial ⟨freshProcess_started, rfl⟩
  exact absurd (h _ (.run_all reportedTwice hstart) ⟨1⟩) (by decide +kernel)

/-! ## Work in flight -/

/-- For each request: whether it was dispatched as not idempotent, whether no result
has been handled since, and whether its outcome has become unknown after. -/
structure Flights where
  nonIdempotent : RequestId → Bool := fun _ => false
  inFlight : RequestId → Bool := fun _ => false
  unknown : RequestId → Bool := fun _ => false

namespace Flights

def note (σ : SystemState) : Message → Flights → Flights
  | .authorizeRequest payload, c =>
    match readRequest payload, (σ.fabric.onAuthorizeRequest payload).2 with
    | .ok q, .granted _ =>
      if q.idempotent then c
      else
        { c with
          nonIdempotent := Function.update c.nonIdempotent q.request true
          inFlight := Function.update c.inFlight q.request true }
    | _, _ => c
  | .authorizeResult payload, c =>
    match readResult payload with
    | .ok q =>
      { c with
        inFlight := Function.update c.inFlight q.auth.request false
        unknown := Function.update c.unknown q.auth.request
          (c.unknown q.auth.request || q.withheld && c.nonIdempotent q.auth.request) }
    | .error _ => c
  | .other _, c => c

/-- The record says that the request may be replayed, as the last request for it said. -/
def saysIdempotent (s : Fabric) (r : RequestId) : Bool := (s.requests.find r).any (·.idempotent)

/-- **Nobody asks twice**: what would pass the handler's test is not in flight, nor
has its outcome become unknown while the record carries the policy of a later request
that called itself idempotent. -/
def askedOnce (p : SystemState × Flights) : Message → Bool
  | .authorizeRequest payload =>
    match readRequest payload with
    | .ok q =>
      !((p.1.fabric.currentAssignment q.slot).any fun cur => cur.state == .active) ||
        p.1.fabric.replayRefused q.request ||
          !p.2.inFlight q.request &&
            !(p.2.unknown q.request && saysIdempotent p.1.fabric q.request)
    | .error _ => true
  | _ => true

/-- What the guard says of a request that passes the handler's test. -/
theorem askedOnce_dispatchable {p : SystemState × Flights} {payload : List UInt8}
    {q : RequestMessage} {cur : Assignment} (hok : askedOnce p (.authorizeRequest payload) = true)
    (hread : readRequest payload = .ok q) (hd : Dispatchable p.1.fabric q cur) :
    p.2.inFlight q.request = false ∧
      (p.2.unknown q.request = true → saysIdempotent p.1.fabric q.request = false) := by
  simp only [askedOnce, hread, hd.current, hd.replay, Option.any_some, hd.active, beq_self_eq_true,
    Bool.not_true, Bool.false_or, Bool.and_eq_true, Bool.not_eq_true', Bool.and_eq_false_iff] at hok
  refine ⟨hok.1, fun hu => hok.2.resolve_left ?_⟩
  rw [hu]
  decide

/-- **The record of work that is not idempotent**: it says that its outcome is unknown
once it is, and permits a replay only if it says idempotent. -/
structure Kept (p : SystemState × Flights) : Prop where
  recorded : ∀ r, p.2.nonIdempotent r = true → ∃ rec, p.1.fabric.requests.find r = some rec ∧
    (rec.idempotent = false → rec.authority = .none) ∧
      (p.2.unknown r = true → rec.disposition = .outcomeUnknown)
  unknown : ∀ r, p.2.unknown r = true → p.2.nonIdempotent r = true

variable {p : SystemState × Flights}

/-- Once the outcome is unknown, the handler refuses, unless the policy was
overwritten. -/
theorem Kept.replayRefused (h : Kept p) {r : RequestId} (hu : p.2.unknown r = true)
    (hpolicy : saysIdempotent p.1.fabric r = false) : p.1.fabric.replayRefused r = true := by
  obtain ⟨rec, hfind, hauth, hdisp⟩ := h.recorded r (h.unknown r hu)
  have hidem : rec.idempotent = false := by simpa [saysIdempotent, hfind] using hpolicy
  simp [Fabric.replayRefused, retryAllowed, hfind, hidem, hauth hidem, hdisp hu]

theorem Kept.not_unknown (h : Kept p) {payload : List UInt8} {q : RequestMessage}
    {cur : Assignment} (hok : askedOnce p (.authorizeRequest payload) = true)
    (hread : readRequest payload = .ok q) (hd : Dispatchable p.1.fabric q cur) :
    p.2.unknown q.request = false := by
  rw [← Bool.not_eq_true]
  intro hu
  have hpolicy := (askedOnce_dispatchable hok hread hd).2 hu
  exact Bool.false_ne_true (hd.replay.symm.trans (h.replayRefused hu hpolicy))

/-- What a grant adds to the ledger. -/
theorem note_granted {payload : List UInt8} {q : RequestMessage} {cur : Assignment}
    (hread : readRequest payload = .ok q) (hd : Dispatchable p.1.fabric q cur) :
    note p.1 (.authorizeRequest payload) p.2 =
      if q.idempotent then p.2
      else
        { p.2 with
          nonIdempotent := Function.update p.2.nonIdempotent q.request true
          inFlight := Function.update p.2.inFlight q.request true } := by
  simp only [note, hread, onAuthorizeRequest_dispatchable hread hd]

/-- A grant overwrites the record of its request, whose outcome is not unknown. -/
theorem Kept.granted (h : Kept p) {q : RequestMessage} {cur : Assignment}
    (hknown : p.2.unknown q.request = false) {σ' : SystemState}
    (hσ : σ'.fabric = p.1.fabric.dispatched q cur) {c' : Flights} (hu : c'.unknown = p.2.unknown)
    (hn : ∀ r, c'.nonIdempotent r = true → p.2.nonIdempotent r = true ∨ r = q.request)
    (hk : ∀ r, p.2.nonIdempotent r = true → c'.nonIdempotent r = true) : Kept (σ', c') := by
  refine ⟨fun r hr => ?_, fun r hr => hk r (h.unknown r (hu ▸ hr))⟩
  show ∃ rec, σ'.fabric.requests.find r = some rec ∧ _
  rw [hσ, find_dispatched]
  by_cases heq : r = q.request
  · rw [if_pos heq]
    refine ⟨_, rfl, fun hidem => ?_, fun hunk => ?_⟩
    · change q.idempotent = false at hidem
      simp [dispatchRecord, hidem]
    · change c'.unknown r = true at hunk
      rw [hu, heq, hknown] at hunk
      cases hunk
  · rw [if_neg heq]
    obtain ⟨rec, hfind, hauth, hdisp⟩ := h.recorded r ((hn r hr).resolve_right heq)
    exact ⟨rec, hfind, hauth, fun hunk => hdisp (hu ▸ hunk)⟩

theorem Kept.request {env : Env} (h : Kept p) {payload : List UInt8}
    (hok : askedOnce p (.authorizeRequest payload) = true) :
    Kept (p.1.handle env (.authorizeRequest payload), note p.1 (.authorizeRequest payload) p.2) := by
  rcases onAuthorizeRequest_cases p.1.fabric payload with ⟨q, cur, hread, hd⟩ | ⟨hsame, hno⟩
  · refine h.granted (h.not_unknown hok hread hd)
      (congrArg Prod.fst (onAuthorizeRequest_dispatchable hread hd)) ?_ ?_ ?_
    · rw [note_granted hread hd]
      split <;> rfl
    · intro r hr
      rw [note_granted hread hd] at hr
      split at hr
      · exact Or.inl hr
      · by_cases heq : r = q.request
        · exact Or.inr heq
        · exact Or.inl (by simpa [Function.update_of_ne heq] using hr)
    · intro r hr
      rw [note_granted hread hd]
      split
      · exact hr
      · by_cases heq : r = q.request
        · simp [heq]
        · simpa [Function.update_of_ne heq] using hr
  · have hnote : note p.1 (.authorizeRequest payload) p.2 = p.2 := by
      simp only [note]
      split
      · rename_i auth _ hauth
        exact absurd hauth (hno _)
      · rfl
    rw [hnote]
    refine ⟨?_, h.unknown⟩
    show ∀ r, _ → ∃ rec, (p.1.fabric.onAuthorizeRequest payload).1.requests.find r = some rec ∧ _
    rw [hsame]
    exact h.recorded

/-! What a result adds to the ledger. -/

theorem nonIdempotent_result (payload : List UInt8) :
    (note p.1 (.authorizeResult payload) p.2).nonIdempotent = p.2.nonIdempotent := by
  simp only [note]
  split <;> rfl

theorem unknown_result {payload : List UInt8} {r : RequestId} :
    (note p.1 (.authorizeResult payload) p.2).unknown r = true ↔
      p.2.unknown r = true ∨ ∃ q, readResult payload = .ok q ∧ q.withheld = true ∧
        r = q.auth.request ∧ p.2.nonIdempotent r = true := by
  simp only [note]
  cases readResult payload with
  | error e => simp
  | ok q =>
    by_cases heq : r = q.auth.request
    · simp [heq]
    · simp [heq]

/-- A result leaves the policy in the record, and a withheld one makes the outcome
unknown. -/
theorem Kept.result {env : Env} (h : Kept p) (payload : List UInt8) :
    Kept (p.1.handle env (.authorizeResult payload), note p.1 (.authorizeResult payload) p.2) := by
  refine ⟨fun r hr => ?_, fun r hr => ?_⟩
  · rw [nonIdempotent_result] at hr
    obtain ⟨rec, hfind, hauth, hdisp⟩ := h.recorded r hr
    show ∃ rec, (p.1.fabric.onAuthorizeResult payload).1.requests.find r = some rec ∧ _
    by_cases hw : ∀ q, readResult payload = .ok q → q.withheld = false
    · rw [onAuthorizeResult_reported hw]
      refine ⟨rec, hfind, hauth, fun hunk => ?_⟩
      rcases unknown_result.mp hunk with hold | ⟨q, hread, hq, -⟩
      · exact hdisp hold
      · rw [hw q hread] at hq
        cases hq
    · push Not at hw
      obtain ⟨q, hread, hq⟩ := hw
      rw [find_withheld hread (by simpa using hq)]
      by_cases heq : r = q.auth.request
      · rw [if_pos heq, hfind]
        exact ⟨_, rfl, hauth, fun _ => rfl⟩
      · rw [if_neg heq]
        refine ⟨rec, hfind, hauth, fun hunk => ?_⟩
        rcases unknown_result.mp hunk with hold | ⟨q', hread', -, hr', -⟩
        · exact hdisp hold
        · rw [hread] at hread'
          cases hread'
          exact absurd hr' heq
  · show (note p.1 (.authorizeResult payload) p.2).nonIdempotent r = true
    rw [nonIdempotent_result]
    rcases unknown_result.mp hr with hold | ⟨-, -, -, -, hn⟩
    · exact h.unknown r hold
    · exact hn

theorem Kept.step {env : Env} (h : Kept p) {m : Message} (hok : askedOnce p m = true) :
    Kept (p.1.handle env m, note p.1 m p.2) := by
  cases m with
  | authorizeRequest payload => exact h.request hok
  | authorizeResult payload => exact h.result payload
  | other l =>
    refine ⟨?_, h.unknown⟩
    show ∀ r, _ → ∃ rec, (p.1.handle env (.other l)).fabric.requests.find r = some rec ∧ _
    rw [other_requests]
    exact h.recorded

end Flights

/-- **Work that is not idempotent is not dispatched twice**, in every run in which
nobody asks twice: a request that is granted is not in flight, and its outcome has
not become unknown. -/
theorem flights_exclusive (env : Env) {p : SystemState × Flights}
    (h : Transition.Reachable ((server env).withHistory {} Flights.note)
      (fun p m => Flights.askedOnce p m = true) p) {payload : List UInt8}
    (hok : Flights.askedOnce p (.authorizeRequest payload) = true) {auth : WorkerAuthorization}
    (hgranted : (p.1.fabric.onAuthorizeRequest payload).2 = .granted auth) :
    p.2.inFlight auth.request = false ∧ p.2.unknown auth.request = false := by
  have hkept : Flights.Kept p := by
    refine h.invariant (P := Flights.Kept) ?_ fun p m _ hp hok => hp.step hok
    rintro p ⟨-, hp⟩
    refine ⟨fun r hr => ?_, fun r hr => ?_⟩ <;> (rw [hp] at hr; cases hr)
  rcases onAuthorizeRequest_cases p.1.fabric payload with ⟨q, cur, hread, hd⟩ | ⟨-, hno⟩
  · rw [onAuthorizeRequest_dispatchable hread hd] at hgranted
    cases hgranted
    exact ⟨(Flights.askedOnce_dispatchable hok hread hd).1, hkept.not_unknown hok hread hd⟩
  · exact absurd hgranted (hno auth)

namespace Reference

/-- The first process, and nothing in flight. -/
def freshFlights : SystemState × Flights := (freshProcess, {})

/-- A request that is not idempotent and its result, then both as an idempotent retry. -/
def flown : List Message :=
  registering ++ [.authorizeRequest (askFor 1 false), .authorizeResult (reportOf 1 false),
    .authorizeRequest (askFor 1 true), .authorizeResult (reportOf 1 false)]

/-- A request that is not idempotent, in flight. -/
def flying : List Message := registering ++ [.authorizeRequest (askFor 1 false)]

/-- Some grant is handed out for the payload. -/
def grants (s : Fabric) (payload : List UInt8) : Bool :=
  match (s.onAuthorizeRequest payload).2 with
  | .granted _ => true
  | _ => false

theorem granted_of_grants {s : Fabric} {payload : List UInt8} (h : grants s payload = true) :
    ∃ auth, (s.onAuthorizeRequest payload).2 = .granted auth := by
  unfold grants at h
  split at h
  · rename_i auth hauth
    exact ⟨auth, hauth⟩
  · cases h

end Reference

open Reference in
/-- Once its result is in, the request is granted again. -/
theorem flights_exclusive_reference :
    let p := ((server env).withHistory {} Flights.note).run freshFlights flown
    ∃ auth, (p.1.fabric.onAuthorizeRequest (askFor 1 false)).2 = .granted auth ∧
      p.2.inFlight auth.request = false ∧ p.2.unknown auth.request = false := by
  intro p
  have hstart : Transition.Reachable ((server env).withHistory {} Flights.note)
      (fun p m => Flights.askedOnce p m = true) freshFlights := .initial ⟨freshProcess_started, rfl⟩
  have hreach : Transition.Reachable ((server env).withHistory {} Flights.note)
      (fun p m => Flights.askedOnce p m = true) p := .run flown hstart (by decide +kernel)
  obtain ⟨auth, hauth⟩ : ∃ auth, (p.1.fabric.onAuthorizeRequest (askFor 1 false)).2 = .granted auth :=
    granted_of_grants (by decide +kernel)
  exact ⟨auth, hauth, flights_exclusive env hreach (by decide +kernel) hauth⟩

open Reference in
/-- **Work in flight is dispatched again**: the record says that it is dispatched, and
the handler refuses only what is recorded as unknown. -/
theorem in_flight_granted :
    ¬ ∀ p, Transition.Reachable ((server env).withHistory {} Flights.note) (fun _ _ => True) p →
      ∀ payload auth, (p.1.fabric.onAuthorizeRequest payload).2 = .granted auth →
        p.2.inFlight auth.request = false ∧ p.2.unknown auth.request = false := by
  intro h
  have hstart : Transition.Reachable ((server env).withHistory {} Flights.note) (fun _ _ => True)
      freshFlights := .initial ⟨freshProcess_started, rfl⟩
  have hgranted : (match ((((server env).withHistory {} Flights.note).run freshFlights
        flying).1.fabric.onAuthorizeRequest (askFor 1 false)).2 with
      | .granted auth =>
        (((server env).withHistory {} Flights.note).run freshFlights flying).2.inFlight auth.request
      | _ => false) = true := by decide +kernel
  split at hgranted
  · rename_i auth hauth
    rw [(h _ (.run_all flying hstart) _ auth hauth).1] at hgranted
    cases hgranted
  · cases hgranted

end FailoverFabric

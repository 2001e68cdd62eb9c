import Mathlib.Data.Finset.Card
import FailoverFabric.CoordinatorService
import FailoverFabric.WithheldResults

/-! # What the exchanges say of a request

A peer that sees the frames about requests, and the answers to them, can tell what the
coordinator has on record: whether a request was dispatched, whether its outcome is unknown,
and whether it may be replayed (`classified_by_history`).  No other frame has a part in it, and
neither has a cutover.

`dispatches_conserved` is about all requests together: each dispatch is at most one of those
that are still on record as dispatched, and of those that have become ambiguous.

Both are about the states between two frames of a process that handles them one after another.
Within the handler of a grant the record is there before the dispatch is counted.
-/
namespace FailoverFabric
open Fabric Protocol

/-! ## What is told of requests -/

/-- What an exchange tells: a request was granted, with its policy, or its result was reported
to be withheld. -/
inductive Told
  | granted (r : RequestId) (idempotent : Bool)
  | withheld (r : RequestId)
  deriving DecidableEq

namespace Told

/-- The disposition of a request, and whether it may be replayed, by what was told of it, the
last first. -/
def standing (r : RequestId) : List Told → Option (RequestDisposition × Bool)
  | [] => none
  | .granted r' idempotent :: past =>
    if r' = r then some (.dispatched, idempotent) else standing r past
  | .withheld r' :: past =>
    if r' = r then some (.outcomeUnknown, ((standing r past).map (·.2)).getD false)
    else standing r past

/-- Nothing else is told. -/
theorem standing_disposition {r : RequestId} {told : List Told} {x : RequestDisposition × Bool}
    (h : standing r told = some x) : x.1 = .dispatched ∨ x.1 = .outcomeUnknown := by
  induction told with
  | nil => cases h
  | cons t past ih =>
    cases t with
    | granted r' idempotent =>
      rw [standing] at h
      split at h
      · cases h
        exact .inl rfl
      · exact ih h
    | withheld r' =>
      rw [standing] at h
      split at h
      · cases h
        exact .inr rfl
      · exact ih h

/-- How many requests were dispatched. -/
def dispatches : List Told → Nat
  | [] => 0
  | .granted _ _ :: past => dispatches past + 1
  | .withheld _ :: past => dispatches past

/-- How many dispatches have become ambiguous: a report counts if the request was on record as
dispatched. -/
def ambiguous : List Told → Nat
  | [] => 0
  | .granted _ _ :: past => ambiguous past
  | .withheld r :: past =>
    if (standing r past).map (·.1) = some .dispatched then ambiguous past + 1 else ambiguous past

/-- The request is on record as dispatched. -/
def Open (told : List Told) (r : RequestId) : Prop :=
  (standing r told).map (·.1) = some .dispatched

/-- **Each dispatch counts once.** -/
theorem conserved (told : List Told) (open_ : Finset RequestId) (h : ∀ r ∈ open_, Open told r) :
    open_.card + ambiguous told ≤ dispatches told := by
  induction told generalizing open_ with
  | nil =>
    have hempty : open_ = ∅ := Finset.eq_empty_of_forall_notMem fun r hr => by cases h r hr
    rw [hempty]
    exact Nat.le_refl _
  | cons t past ih =>
    cases t with
    | granted r0 idempotent =>
      have hrest : ∀ r ∈ open_.erase r0, Open past r := by
        intro r hr
        obtain ⟨hne, hmem⟩ := Finset.mem_erase.mp hr
        have hopen := h r hmem
        rwa [Open, standing, if_neg (Ne.symm hne)] at hopen
      have hbound := ih _ hrest
      have hcard := Finset.pred_card_le_card_erase (s := open_) (a := r0)
      simp only [ambiguous, dispatches]
      omega
    | withheld r0 =>
      have hout : r0 ∉ open_ := by
        intro hmem
        have hopen := h r0 hmem
        rw [Open, standing, if_pos rfl] at hopen
        cases hopen
      have hrest : ∀ r ∈ open_, Open past r := by
        intro r hr
        have hopen := h r hr
        have hne : r0 ≠ r := by
          rintro rfl
          exact hout hr
        rwa [Open, standing, if_neg hne] at hopen
      simp only [ambiguous, dispatches]
      split
      · rename_i hopen
        -- the request that has become ambiguous was open before
        have hbound := ih (insert r0 open_) fun r hr => by
          rcases Finset.mem_insert.mp hr with heq | hr
          · exact heq ▸ hopen
          · exact hrest r hr
        rw [Finset.card_insert_of_notMem hout] at hbound
        omega
      · exact ih _ hrest

end Told

/-! ## The exchanges of a process -/

/-- A frame that was handled, and what was answered. -/
abbrev Answered := Frame × Option Frame

/-- What an exchange tells of a request.  A grant is what a gateway takes for one. -/
def Answered.told (x : Answered) : Option Told :=
  match x.1.type with
  | .authorizeRequest =>
    match Gateway.readGrant x.2, readRequest x.1.payload with
    | .ok (some _), .ok q => some (.granted q.request q.idempotent)
    | _, _ => none
  | .authorizeResult =>
    match readResult x.1.payload with
    | .ok q => if q.withheld then some (.withheld q.auth.request) else none
    | .error _ => none
  | _ => none

namespace CoordinatorProcess

/-- The frame that is handled at an event, with the answer. -/
def answered (env : Env) (c : CoordinatorProcess) : ProcessEvent → Option Answered
  | .frame i f w => if (c.peers[i]?).any (·.alive) then some (f, (c.handle env w i f).reply) else none
  | _ => none

/-- The ledger of what was handled, the last first. -/
def noteAnswered (env : Env) (c : CoordinatorProcess) (e : ProcessEvent) (past : List Answered) :
    List Answered := (c.answered env e).toList ++ past

end CoordinatorProcess

/-! ## What the other frames leave alone -/

section Others
variable {env : Env} {s s' : Fabric}

/-- The records of requests and the count of dispatches are the same. -/
structure SameRequests (s s' : Fabric) : Prop where
  requests : s'.requests = s.requests
  dispatchCount : s'.dispatchCount = s.dispatchCount

theorem planFailover_dispatchCount (slot : ServiceSlotKey) :
    (s.planFailover env.rank slot).1.dispatchCount = s.dispatchCount := by
  rw [planFailover, planFailoverPref_fst]

theorem apply_dispatchCount {o : Op} (hmsg : fromMessage (.op o) = true)
    (ho : onRequests (.op o) = false) : (s.apply env o).dispatchCount = s.dispatchCount := by
  cases o with
  | createService d =>
    show (s.orSelf (s.createService d)).dispatchCount = _
    cases hs : s.createService d with
    | error e => rfl
    | ok s' =>
      rw [(createService_eq hs).1]
      rfl
  | setInitialAssignment now a =>
    show (s.orSelf (s.setInitialAssignment now a)).dispatchCount = _
    cases hs : s.setInitialAssignment now a with
    | error e => rfl
    | ok s' =>
      rw [(setInitialAssignment_eq_ok hs).fabric]
      rfl
  | registerTarget id transport => rw [apply_registerTarget]
  | publishCandidateFacts now f => rw [apply_publishCandidateFacts]
  | publishCandidateState t st => rw [apply_publishCandidateState]
  | publishCandidateResources t rs => rw [apply_publishCandidateResources]
  | snapshot slot => rw [apply_snapshot]
  | select slot => rw [apply_select]
  | planFailover slot => exact planFailover_dispatchCount slot
  | installRoute entry boot =>
    show (s.installRoute entry boot).1.dispatchCount = _
    rw [installRoute_eq]
  | setCoordinatorIdentity id epoch => cases hmsg
  | setCheckpointPath path => cases hmsg
  | load blob => cases hmsg
  | recordDispatch => cases ho
  | _ => rfl

/-- A message about something else. -/
theorem SameRequests.other (env : Env) (σ : SystemState) (l : Label) :
    SameRequests σ.fabric (σ.handle env (.other l)).fabric := by
  refine ⟨other_requests σ l, ?_⟩
  simp only [SystemState.handle]
  split
  · rename_i h
    obtain ⟨hmsg, ho⟩ := Bool.and_eq_true_iff.mp h
    rw [Bool.not_eq_true'] at ho
    cases l with
    | op o => exact apply_dispatchCount hmsg ho
    | beginPlan plan ops => rfl
    | beginFailback slot ops => rfl
    | advance i rd => rw [advance_confined env σ i rd]
    | restart cfg => cases hmsg
  · rfl

/-- A fabric that a server comes to by messages about something else. -/
theorem ServedTo.sameRequests {ok : Message → Prop} (h : ServedTo env ok s s')
    (hok : ∀ m, ok m → ∃ l, m = .other l) : SameRequests s s' := by
  obtain ⟨calls, hl⟩ := h.later []
  refine hl.stable (P := fun σ => SameRequests s σ.fabric) (fun σ m hσ hm => ?_) ⟨rfl, rfl⟩
  obtain ⟨l, rfl⟩ := hok m hm
  have hstep := SameRequests.other env σ l
  exact ⟨hstep.requests.trans hσ.requests, hstep.dispatchCount.trans hσ.dispatchCount⟩

/-- The frames about something else. -/
theorem Causes.other {c : CoordinatorProcess} {i : Nat} {f : Frame} {m : Message}
    (h : Causes c i f m) (hrequest : f.type ≠ .authorizeRequest)
    (hresult : f.type ≠ .authorizeResult) : ∃ l, m = .other l := by
  cases h with
  | request h => exact absurd h hrequest
  | result h => exact absurd h hresult
  | _ => exact ⟨_, rfl⟩

end Others

/-! ## The records -/

/-- What is on record of a request: its disposition, and whether it may be replayed. -/
def Fabric.standing (s : Fabric) (r : RequestId) : Option (RequestDisposition × Bool) :=
  (s.requests.find r).map fun rec => (rec.disposition, rec.retryable)

/-- What is on record is what was told. -/
structure OnRecord (s : Fabric) (told : List Told) : Prop where
  standing : ∀ r, s.standing r = Told.standing r told
  dispatched : s.dispatchCount = Told.dispatches told
  ambiguous : s.requests.ambiguous = Told.ambiguous told

namespace OnRecord
variable {s s' : Fabric} {told : List Told}

theorem same (h : OnRecord s told) (hs : SameRequests s s') : OnRecord s' told where
  standing r := by
    unfold Fabric.standing
    rw [hs.requests]
    exact h.standing r
  dispatched := hs.dispatchCount.trans h.dispatched
  ambiguous := by rw [hs.requests, h.ambiguous]

/-- A grant. -/
theorem granted (h : OnRecord s told) (q : RequestMessage) (cur : Assignment) :
    OnRecord (s.dispatched q cur) (.granted q.request q.idempotent :: told) where
  standing r := by
    unfold Fabric.standing
    rw [find_dispatched, Told.standing]
    by_cases hr : q.request = r
    · rw [if_pos hr.symm, if_pos hr, Option.map_some]
      cases hidem : q.idempotent <;>
        simp [dispatchRecord, RequestRecord.retryable, hidem]
    · rw [if_neg (Ne.symm hr), if_neg hr]
      exact h.standing r
  dispatched := congrArg (· + 1) h.dispatched
  ambiguous := h.ambiguous

/-- What the report of a withheld result counts for. -/
theorem withheld_counts {payload : List UInt8} {q : ResultMessage}
    (hread : readResult payload = .ok q) (hw : q.withheld = true) :
    (s.onAuthorizeResult payload).1.dispatchCount = s.dispatchCount ∧
      (s.onAuthorizeResult payload).1.requests.ambiguous =
        s.requests.ambiguous +
          ((s.standing q.auth.request).any fun x => x.1 != .outcomeUnknown).toNat := by
  simp only [onAuthorizeResult, hread, handleResult, hw, if_true, Fabric.standing]
  cases hfind : s.requests.find q.auth.request with
  | none => exact ⟨rfl, rfl⟩
  | some st =>
    by_cases hu : st.disposition = .outcomeUnknown
    · simp [hu]
    · have hne : (st.disposition != .outcomeUnknown) = true := bne_iff_ne.mpr hu
      simp only [ne_eq, hu, not_false_eq_true, if_true, Option.map_some, Option.any_some, hne]
      refine ⟨rfl, ?_⟩
      simp only [markOutcomeUnknown, RequestTracker.setOutcomeUnknown, hfind, if_neg hu]
      rfl

/-- The report of a withheld result. -/
theorem withheld (h : OnRecord s told) {payload : List UInt8} {q : ResultMessage}
    (hread : readResult payload = .ok q) (hw : q.withheld = true) :
    OnRecord (s.onAuthorizeResult payload).1 (.withheld q.auth.request :: told) where
  standing r := by
    have hst := h.standing r
    unfold Fabric.standing at hst ⊢
    rw [find_withheld hread hw, Told.standing]
    by_cases hr : q.auth.request = r
    · subst hr
      rw [if_pos rfl, if_pos rfl, ← hst]
      cases s.requests.find q.auth.request with
      | none => rfl
      | some rec => rfl
    · rw [if_neg (Ne.symm hr), if_neg hr]
      exact hst
  dispatched := (withheld_counts hread hw).1.trans h.dispatched
  ambiguous := by
    rw [(withheld_counts hread hw).2, Told.ambiguous, ← h.ambiguous, ← h.standing]
    cases hst : s.standing q.auth.request with
    | none => rfl
    | some x =>
      rcases Told.standing_disposition ((h.standing _).symm.trans hst) with hx | hx <;> simp [hx]

end OnRecord

/-! ## The ledger and the records -/

section Process
variable {env : Env} {c : CoordinatorProcess} {i : Nat} {f : Frame} {w : World} {told : List Told}

theorem told_refused {a : Answer} (h : a.isNo = true) (hf : f.type = .authorizeRequest) :
    Answered.told (f, some (a.frame f)) = none := by
  simp only [Answered.told, hf, readGrant_no h]

/-- The frames that ask for a grant. -/
theorem OnRecord.request (h : OnRecord c.fabric told) (hf : f.type = .authorizeRequest) :
    OnRecord (c.handle env w i f).process.fabric
      ((Answered.told (f, (c.handle env w i f).reply)).toList ++ told) := by
  have hhandle : c.handle env w i f =
      c.served (c.fabric.onAuthorizeRequest f.payload).1
        (some ((c.fabric.onAuthorizeRequest f.payload).2.frame f)) := by
    simp only [CoordinatorProcess.handle, hf]
  rw [hhandle]
  simp only [CoordinatorProcess.served]
  cases hread : readRequest f.payload with
  | error e =>
    have hsame : c.fabric.onAuthorizeRequest f.payload = (c.fabric, .errorMsg e) := by
      rw [onAuthorizeRequest, hread]
    rw [hsame, told_refused rfl hf]
    exact h
  | ok q =>
    rcases handleRequest_cases c.fabric q with ⟨cur, hd⟩ | ⟨detail, hno⟩
    · rw [onAuthorizeRequest_dispatchable hread hd]
      simp only [Answered.told, hf, readGrant_granted hf, hread]
      exact h.granted q cur
    · have hrefuse : c.fabric.onAuthorizeRequest f.payload = (c.fabric, .refused detail) := by
        rw [onAuthorizeRequest, hread]
        exact hno
      rw [hrefuse, told_refused rfl hf]
      exact h

/-- The frames that report a result. -/
theorem OnRecord.result (h : OnRecord c.fabric told) (hf : f.type = .authorizeResult) :
    OnRecord (c.handle env w i f).process.fabric
      ((Answered.told (f, (c.handle env w i f).reply)).toList ++ told) := by
  have hfabric : (c.handle env w i f).process.fabric = (c.fabric.onAuthorizeResult f.payload).1 := by
    simp only [CoordinatorProcess.handle, hf]
    rfl
  rw [hfabric]
  simp only [Answered.told, hf]
  by_cases hw : ∃ q, readResult f.payload = .ok q ∧ q.withheld = true
  · obtain ⟨q, hread, hq⟩ := hw
    simp only [hread, hq, if_true]
    exact h.withheld hread hq
  · have hreported : ∀ q, readResult f.payload = .ok q → q.withheld = false := by
      intro q hread
      rw [← Bool.not_eq_true]
      exact fun hq => hw ⟨q, hread, hq⟩
    rw [onAuthorizeResult_reported hreported]
    cases hread : readResult f.payload with
    | error e => exact h
    | ok q =>
      simp only [hreported q hread]
      exact h

theorem told_other {reply : Option Frame} (hrequest : f.type ≠ .authorizeRequest)
    (hresult : f.type ≠ .authorizeResult) : Answered.told (f, reply) = none := by
  unfold Answered.told
  split
  · exact absurd ‹_› hrequest
  · exact absurd ‹_› hresult
  · rfl

/-- **An event, and what it tells.** -/
theorem OnRecord.step (h : OnRecord c.fabric told) (e : ProcessEvent) :
    OnRecord (c.step env e).fabric (((c.answered env e).bind Answered.told).toList ++ told) := by
  cases e with
  | accepted => exact h
  | lost i => exact h
  | frame i f w =>
    simp only [CoordinatorProcess.step, CoordinatorProcess.answered]
    split
    · simp only [Option.bind_some]
      by_cases hrequest : f.type = .authorizeRequest
      · exact h.request hrequest
      by_cases hresult : f.type = .authorizeResult
      · exact h.result hresult
      rw [told_other hrequest hresult]
      exact h.same ((ServedTo.handle w c i f).sameRequests fun m hm => hm.other hrequest hresult)
    · exact h

/-- A process starts with no requests on record, whatever it loads. -/
theorem OnRecord.started {σ : SystemState} (h : SystemState.Started env σ) :
    OnRecord σ.fabric [] := by
  obtain ⟨checkpoint, loaded, s, hs, rfl⟩ := h
  rcases start_cases hs with rfl | ⟨snap, rfl⟩ <;> exact ⟨fun r => rfl, rfl, rfl⟩

end Process

/-- **The records go by the exchanges**, in every run of a process. -/
theorem OnRecord.reachable {env : Env} {p : CoordinatorProcess × List Answered}
    (h : Transition.Reachable ((process env).withHistory [] (CoordinatorProcess.noteAnswered env))
      (fun _ _ => True) p) : OnRecord p.1.fabric (p.2.filterMap Answered.told) := by
  refine h.invariant (P := fun p => OnRecord p.1.fabric (p.2.filterMap Answered.told)) ?_
    fun p e _ hp _ => ?_
  · rintro ⟨c, past⟩ ⟨⟨σ, hstarted, rfl⟩, rfl⟩
    exact .started hstarted
  · have htold : (CoordinatorProcess.noteAnswered env p.1 e p.2).filterMap Answered.told =
        ((p.1.answered env e).bind Answered.told).toList ++ p.2.filterMap Answered.told := by
      rw [CoordinatorProcess.noteAnswered, List.filterMap_append]
      cases p.1.answered env e with
      | none => rfl
      | some x =>
        rw [Option.toList_some, List.filterMap_cons, Option.bind_some]
        cases x.told <;> rfl
    show OnRecord (p.1.step env e).fabric
      ((CoordinatorProcess.noteAnswered env p.1 e p.2).filterMap Answered.told)
    rw [htold]
    exact hp.step e

/-! ## What a peer can tell -/

/-- The answer to `CLASSIFY_REQUEST`, by what was told. -/
def Told.classification (told : List Told) (r : RequestId) : List Field :=
  putU64 Fid.dispatchCount (UInt64.ofNat (dispatches told)) ::
    match standing r told with
    | some x => [putBool Fid.ok true, putU8 Fid.state (dispositionByte x.1),
        putStr Fid.detail (text (dispositionName x.1))]
    | none => [putBool Fid.ok false, putStr Fid.detail (text "unknown request")]

/-- **What is on record can be told from the exchanges.**  In every run of a process that
handles one frame after another, whatever its peers send and whatever becomes of its cutovers:
how a request is classified follows from the requests and results that were handled and how
they were answered; and a request is granted exactly if there is an active assignment, and the
last thing told of it is not a withheld result, unless it was dispatched as idempotent. -/
theorem classified_by_history {env : Env} {p : CoordinatorProcess × List Answered}
    (h : Transition.Reachable ((process env).withHistory [] (CoordinatorProcess.noteAnswered env))
      (fun _ _ => True) p) :
    (∀ r, p.1.fabric.classifyFields r = Told.classification (p.2.filterMap Answered.told) r) ∧
      ∀ payload q, readRequest payload = .ok q →
        ((∃ auth, (p.1.fabric.onAuthorizeRequest payload).2 = .granted auth) ↔
          (∃ cur, p.1.fabric.currentAssignment q.slot = some cur ∧ cur.state = .active) ∧
            Told.standing q.request (p.2.filterMap Answered.told) ≠ some (.outcomeUnknown, false)) := by
  have hrec := OnRecord.reachable h
  refine ⟨fun r => ?_, fun payload q hread => ?_⟩
  · unfold Fabric.classifyFields Told.classification
    rw [hrec.dispatched, ← hrec.standing, Fabric.standing]
    cases p.1.fabric.requests.find r <;> rfl
  · have hreplay : p.1.fabric.replayRefused q.request = true ↔
        Told.standing q.request (p.2.filterMap Answered.told) = some (.outcomeUnknown, false) := by
      rw [← hrec.standing, Fabric.standing, replayRefused_iff]
      simp only [Option.map_eq_some_iff, Prod.mk.injEq]
    constructor
    · rintro ⟨auth, hgranted⟩
      rcases onAuthorizeRequest_cases p.1.fabric payload with ⟨q', cur, hread', hd⟩ | ⟨-, hno⟩
      · cases hread.symm.trans hread'
        refine ⟨⟨cur, hd.current, hd.active⟩, fun hst => ?_⟩
        exact Bool.false_ne_true (hd.replay.symm.trans (hreplay.mpr hst))
      · exact absurd hgranted (hno auth)
    · rintro ⟨⟨cur, hcur, hactive⟩, hst⟩
      have hd : Dispatchable p.1.fabric q cur :=
        ⟨hcur, hactive, Bool.eq_false_iff.mpr fun hr => hst (hreplay.mp hr)⟩
      exact ⟨_, congrArg Prod.snd (onAuthorizeRequest_dispatchable hread hd)⟩

/-- **Each dispatch counts once.**  In every run of a process that handles one frame after
another, between two frames: the requests that are on record as dispatched, and the count of
those that have become ambiguous, are together no more than the dispatches. -/
theorem dispatches_conserved {env : Env} {c : CoordinatorProcess}
    (h : Transition.Reachable (process env) (fun _ _ => True) c) (open_ : Finset RequestId)
    (hopen : ∀ r ∈ open_, ∃ rec, c.fabric.requests.find r = some rec ∧
      rec.disposition = .dispatched) :
    open_.card + c.fabric.requests.ambiguous ≤ c.fabric.dispatchCount := by
  obtain ⟨past, hpast⟩ := h.withHistory [] (CoordinatorProcess.noteAnswered env)
  have hrec := OnRecord.reachable hpast
  rw [hrec.ambiguous, hrec.dispatched]
  refine Told.conserved _ open_ fun r hr => ?_
  obtain ⟨rec, hfind, hdisp⟩ := hopen r hr
  rw [Told.Open, ← hrec.standing, Fabric.standing, hfind, Option.map_some, Option.map_some, hdisp]

namespace Reference

/-- A service is registered; a request is granted, its result is withheld, and another one is
granted. -/
def requestsHandled : List ProcessEvent :=
  serviceRegistered ++ [.frame 1 ⟨.authorizeRequest, 1, 1, askFor 1 false⟩ quietWorld,
    .frame 1 ⟨.authorizeResult, 1, 1, reportOf 1 true⟩ quietWorld,
    .frame 1 ⟨.authorizeRequest, 2, 1, askFor 2 true⟩ quietWorld]

/-- The process, and a ledger with nothing in it. -/
def freshLedger : CoordinatorProcess × List Answered := (freshCoordinator, [])

theorem freshLedger_started :
    ((process env).withHistory [] (CoordinatorProcess.noteAnswered env)).initial freshLedger :=
  ⟨freshCoordinator_started, rfl⟩

end Reference

open Reference in
/-- The withheld request may not be asked for again. -/
theorem classified_by_history_reference :
    let p := ((process Reference.env).withHistory []
      (CoordinatorProcess.noteAnswered Reference.env)).run freshLedger requestsHandled
    p.2.filterMap Answered.told = [.granted ⟨2⟩ true, .withheld ⟨1⟩, .granted ⟨1⟩ false] ∧
      (∀ r, p.1.fabric.classifyFields r = Told.classification (p.2.filterMap Answered.told) r) ∧
      ∀ payload q, readRequest payload = .ok q →
        ((∃ auth, (p.1.fabric.onAuthorizeRequest payload).2 = .granted auth) ↔
          (∃ cur, p.1.fabric.currentAssignment q.slot = some cur ∧ cur.state = .active) ∧
            Told.standing q.request (p.2.filterMap Answered.told) ≠ some (.outcomeUnknown, false)) :=
  ⟨by decide +kernel,
    classified_by_history (.run_all requestsHandled (.initial freshLedger_started))⟩

open Reference in
/-- One request is on record as dispatched, and one has become ambiguous. -/
theorem dispatches_conserved_reference :
    let c := (process Reference.env).run freshCoordinator requestsHandled
    ({⟨2⟩} : Finset RequestId).card + c.fabric.requests.ambiguous ≤ c.fabric.dispatchCount := by
  intro c
  have hopen : (c.fabric.requests.find ⟨2⟩).map (·.disposition) = some .dispatched := by
    decide +kernel +revert
  have hreach : Transition.Reachable (process Reference.env) (fun _ _ => True) c :=
    .run_all requestsHandled (.initial freshCoordinator_started)
  refine dispatches_conserved hreach {⟨2⟩} fun r hr => ?_
  obtain ⟨rec, hfind, hdisp⟩ := Option.map_eq_some_iff.mp hopen
  exact ⟨rec, Finset.mem_singleton.mp hr ▸ hfind, hdisp⟩

end FailoverFabric

import FailoverFabric.RequestAnswers

/-! # Withheld results

A worker that closes its connection without a result may have done the work.  The gateway
reports the result as withheld, and the coordinator records that the outcome is unknown.  If
the record permits no replay, the request is not granted any more (`withheld_final`), whoever
asks for it, with whatever policy: the policy that counts is that of the record.

What was granted before is not taken back.  A second client of the same request may still be
told ok.  Nor does it hold of a grant that is still being handled: all of this is about
coordinators that handle one message after another.
-/
namespace FailoverFabric
open Fabric Protocol Codec

variable {env : Env}

/-! ## Refused replays -/

/-- The record permits an automatic replay. -/
def RequestRecord.retryable (rec : RequestRecord) : Bool :=
  if rec.authority = .safeToRetry ∨ rec.authority = .deterministicReference then true
  else if rec.externallyEffectful then false
  else rec.idempotent

theorem replayRefused_iff {s : Fabric} {r : RequestId} :
    s.replayRefused r = true ↔ ∃ rec, s.requests.find r = some rec ∧
      rec.disposition = .outcomeUnknown ∧ rec.retryable = false := by
  unfold Fabric.replayRefused retryAllowed
  cases hrec : s.requests.find r with
  | none => simp
  | some rec =>
    simp only [RequestRecord.retryable, Bool.and_eq_true, beq_iff_eq, Bool.not_eq_true',
      Option.some.injEq, exists_eq_left']

theorem replayRefused_congr {s s' : Fabric} (h : s'.requests = s.requests) (r : RequestId) :
    s'.replayRefused r = s.replayRefused r := by
  unfold Fabric.replayRefused retryAllowed
  rw [h]

/-- **A replay that is refused stays refused**, whatever the coordinator handles. -/
theorem replayRefused_handle {σ : SystemState} {r : RequestId} (h : σ.fabric.replayRefused r = true)
    (m : Message) : (σ.handle env m).fabric.replayRefused r = true := by
  obtain ⟨rec, hrec, hunknown, hretry⟩ := replayRefused_iff.mp h
  cases m with
  | other l =>
    rw [replayRefused_congr (other_requests σ l) r]
    exact h
  | authorizeRequest payload =>
    show (σ.fabric.onAuthorizeRequest payload).1.replayRefused r = true
    rcases onAuthorizeRequest_cases σ.fabric payload with ⟨q, cur, hread, hd⟩ | ⟨hsame, -⟩
    · have hne : r ≠ q.request := by
        rintro rfl
        exact Bool.false_ne_true (hd.replay.symm.trans h)
      rw [onAuthorizeRequest_dispatchable hread hd, replayRefused_iff]
      refine ⟨rec, ?_, hunknown, hretry⟩
      rw [find_dispatched, if_neg hne]
      exact hrec
    · rw [hsame]
      exact h
  | authorizeResult payload =>
    show (σ.fabric.onAuthorizeResult payload).1.replayRefused r = true
    by_cases hw : ∀ q, readResult payload = .ok q → q.withheld = false
    · rw [onAuthorizeResult_reported hw]
      exact h
    · push Not at hw
      obtain ⟨q, hread, hq⟩ := hw
      rw [replayRefused_iff, find_withheld hread (by simpa using hq)]
      by_cases hr : r = q.auth.request
      · rw [if_pos hr, hrec]
        exact ⟨_, rfl, rfl, hretry⟩
      · rw [if_neg hr]
        exact ⟨rec, hrec, hunknown, hretry⟩

/-- A withheld result settles that there is no replay, unless the record permits one. -/
theorem replayRefused_withheld {s : Fabric} {payload : List UInt8} {q : ResultMessage}
    (hread : readResult payload = .ok q) (hw : q.withheld = true)
    (hretry : s.retryAllowed q.auth.request = false) :
    (s.onAuthorizeResult payload).1.replayRefused q.auth.request = true := by
  have hfind := find_withheld (s := s) hread hw q.auth.request
  rw [if_pos rfl] at hfind
  refine replayRefused_iff.mpr ⟨_, hfind, ?_⟩
  unfold retryAllowed at hretry
  cases hrec : s.requests.find q.auth.request with
  | none => exact ⟨rfl, rfl⟩
  | some rec =>
    rw [hrec] at hretry
    exact ⟨rfl, hretry⟩

theorem Deployment.step_coordinator {d : Deployment} {e : RequestEvent} {m : Message}
    (hm : d.message e = some m) : (d.step env e).coordinator = d.coordinator.handle env m := by
  show (((d.message e).map fun m => d.coordinator.handle env m).getD d.coordinator) = _
  rw [hm, Option.map_some, Option.getD_some]

/-- The report of a withheld result, once it is handled. -/
theorem replayRefused_report {d : Deployment} {i : Nat} {x : Exchange} {t : Thread}
    {grant : Gateway.Grant} {r : Gateway.Computed} (ht : d.computedAt i = some (t, grant, r))
    (hw : r.withheld = true) (hx : x.handled = true)
    (hretry : d.coordinator.fabric.retryAllowed t.client.requestId = false) :
    (d.step env (.report i x)).coordinator.fabric.replayRefused t.client.requestId = true := by
  have hread := Deployment.readResult_reporting t.client t.gateway grant r.withheld
  have hm := Deployment.message_report (x := x) ht
  rw [if_pos hx] at hm
  rw [Deployment.step_coordinator hm]
  generalize (t.client.reporting t.gateway grant r.withheld).payload = payload at hread
  exact replayRefused_withheld hread hw hretry

/-! ## Clients that are barred -/

/-- The client has not been granted anything, and was refused if it has asked. -/
def ClientStage.barred : ClientStage → Prop
  | .arrived => True
  | .dropped => True
  | .answered fields => fields = Gateway.refusal "dispatch not authorized"
  | _ => False

theorem barred_drop {k : Nat} {a : Client} (h : a.stage.barred) : (a.drop k).stage.barred := by
  rcases a.stage_drop k with hstage | hstage
  · rwa [hstage]
  · rw [hstage]
    trivial

/-- The clients of a request: those that had not asked by then are not granted anything. -/
def Barred (past : List Client) (r : RequestId) (d : Deployment) : Prop :=
  ∀ (j : Nat) (c : Client), d.clients[j]? = some c → c.requestId = r →
    (∀ a : Client, past[j]? = some a → a.stage = .arrived) → c.stage.barred

theorem Barred.drop {past : List Client} {r : RequestId} {d : Deployment} (h : Barred past r d)
    (k : Nat) : Barred past r (d.drop k) := by
  intro j c hc hid hfresh
  obtain ⟨a, ha, rfl⟩ := getElem?_drop hc
  rw [Client.requestId_drop] at hid
  exact barred_drop (h j a ha hid hfresh)

/-- A client that is past the coordinator is not one of those. -/
theorem Barred.setStage {past : List Client} {r : RequestId} {d : Deployment} (h : Barred past r d)
    {i : Nat} {a : Client} {stage : ClientStage} (ha : d.clients[i]? = some a)
    (hnew : a.requestId = r → a.stage.barred → stage.barred) : Barred past r (d.setStage i a stage) := by
  intro j c hc hid hfresh
  rcases getElem?_setStage hc with hold | ⟨rfl, rfl⟩
  · exact h j c hold hid hfresh
  · exact hnew hid (h j a ha hid hfresh)

/-- While the coordinator refuses the request to those who ask, the clients stay barred. -/
theorem Barred.effect {past : List Client} {r : RequestId} {d d' : Deployment} {e : RequestEvent}
    (h : Barred past r d)
    (hrefused : ∀ i x, e = .ask i x → d.coordinator.fabric.replayRefused r = true)
    (heff : Deployment.Effect d e d') : Barred past r d' := by
  cases heff with
  | unmoved _ => exact h
  | dropped _ => exact h.drop _
  | arrived _ =>
    intro j c hc hid hfresh
    rw [List.getElem?_append] at hc
    split_ifs at hc
    · exact h j c hc hid hfresh
    · rw [List.mem_singleton.mp (List.mem_of_getElem? hc)]
      trivial
  | asked ht hg =>
    have hthread := (Deployment.arrivedAt_eq_some.mp ht).1
    refine h.setStage (Deployment.thread_eq_some.mp hthread).1 fun hid _ => ?_
    rcases hg with rfl | ⟨-, cur, hd, rfl⟩
    · exact rfl
    · -- the coordinator would have to dispatch what it refuses
      subst hid
      exact absurd (hd.replay.symm.trans (hrefused _ _ rfl)) Bool.false_ne_true
  | computed ht _ =>
    obtain ⟨hthread, hstage⟩ := Deployment.grantedAt_eq_some.mp ht
    refine h.setStage (Deployment.thread_eq_some.mp hthread).1 fun _ hbarred => ?_
    rw [hstage] at hbarred
    exact hbarred.elim
  | judged ht _ =>
    obtain ⟨hthread, route, hstage⟩ := Deployment.computedAt_eq_some.mp ht
    refine h.setStage (Deployment.thread_eq_some.mp hthread).1 fun _ hbarred => ?_
    rw [hstage] at hbarred
    exact hbarred.elim
  | unjudged _ => exact h.drop _

theorem Barred.step {past : List Client} {r : RequestId} {d : Deployment} (h : Barred past r d)
    {e : RequestEvent}
    (hrefused : ∀ i x, e = .ask i x → d.coordinator.fabric.replayRefused r = true) :
    Barred past r (d.step env e) := by
  have hfront : Barred past r (d.front e) := h.effect hrefused (d.front_effect e)
  exact hfront

/-- **A withheld result is final**, where the coordinator handles one message after another.
Once it has handled the report of a withheld result, of a request whose record permits no
replay, that request is not granted any more: in every state from then on the coordinator
refuses it, and of the clients that ask for it those that had not asked before are told that
dispatch is not authorized, if they are told anything; no worker is asked for them. -/
theorem withheld_final {d : Deployment} {i : Nat} {x : Exchange} {t : Thread}
    {grant : Gateway.Grant} {c : Gateway.Computed} (ht : d.computedAt i = some (t, grant, c))
    (hw : c.withheld = true) (hx : x.handled = true)
    (hretry : d.coordinator.fabric.retryAllowed t.client.requestId = false) {d' : Deployment}
    (hl : Transition.Later (deployment env) (fun _ _ => True) (d.step env (.report i x)) d') :
    d'.coordinator.fabric.replayRefused t.client.requestId = true ∧
      Barred d.clients t.client.requestId d' := by
  have hpast : Barred d.clients t.client.requestId d := by
    intro j a ha _ hfresh
    rw [hfresh a ha]
    trivial
  have hbarred : Barred d.clients t.client.requestId (d.step env (.report i x)) :=
    hpast.step fun _ _ he => by cases he
  refine hl.stable (P := fun d' => d'.coordinator.fabric.replayRefused t.client.requestId = true ∧
    Barred d.clients t.client.requestId d') (fun d' e h _ => ⟨?_, h.2.step fun _ _ _ => h.1⟩)
    ⟨replayRefused_report ht hw hx hretry, hbarred⟩
  refine (d'.step_later e).stable (P := fun σ => σ.fabric.replayRefused t.client.requestId = true)
    (fun σ m hσ _ => replayRefused_handle hσ m) h.1

open Reference in
/-- The second client of the request asks after the first one's result was withheld. -/
theorem withheld_final_reference :
    let d := (deployment Reference.env).run freshDeployment unansweredFor
    let d' := (deployment Reference.env).run (d.step Reference.env (.report 0 .answered))
      [.ask 1 .answered]
    d'.coordinator.fabric.replayRefused ⟨1⟩ = true ∧ Barred d.clients ⟨1⟩ d' ∧
      (d'.clients[1]?).map (·.stage) =
        some (.answered (Gateway.refusal "dispatch not authorized")) := by
  intro d d'
  have hthread : ((d.computedAt 0).any fun tgc => tgc.2.2.withheld &&
      tgc.1.client.requestId == ⟨1⟩) = true := by decide +kernel
  cases ht : d.computedAt 0 with
  | none =>
    rw [ht] at hthread
    cases hthread
  | some tgc =>
    obtain ⟨t, grant, c⟩ := tgc
    rw [ht, Option.any_some, Bool.and_eq_true] at hthread
    have hid : t.client.requestId = ⟨1⟩ := eq_of_beq hthread.2
    have hretry : d.coordinator.fabric.retryAllowed ⟨1⟩ = false := by decide +kernel
    have hlater : Transition.Later (deployment Reference.env) (fun _ _ => True)
        (d.step Reference.env (.report 0 .answered)) d' := .single trivial
    have hfinal := withheld_final ht hthread.1 rfl (hid ▸ hretry) hlater
    rw [hid] at hfinal
    exact ⟨hfinal.1, hfinal.2, by decide +kernel⟩

end FailoverFabric

import FailoverFabric.RequestPath
import FailoverFabric.SocketOps

/-! # What clients are told

In a deployment every report answers a grant.  The guard under which `results_bounded` holds
is therefore met by every run, and the clients that are told ok are no more than the grants
(`answers_bounded`).

`ok_authorized` says what stands behind a single ok.
-/
namespace FailoverFabric
open Fabric Protocol Codec

/-! ## Counting clients -/

namespace ClientStage

/-- The client has a grant, and nothing has been reported for it. -/
def awaits : ClientStage → Bool
  | .granted _ _ => true
  | .computed _ _ _ => true
  | _ => false

/-- The client was answered with ok. -/
def toldOk : ClientStage → Bool
  | .answered fields => (PayloadReader.flag fields Fid.ok).toOption == some true
  | _ => false

end ClientStage

namespace Client

/-- The request that the client is for: the gateway takes the id of its frame. -/
def requestId (c : Client) : RequestId := ⟨c.frame.msgId.toUInt64⟩

/-- The client is for this request, at such a stage. -/
def isAt (q : ClientStage → Bool) (r : RequestId) (c : Client) : Bool := c.requestId == r && q c.stage

theorem requestId_drop (k : Nat) (c : Client) : (c.drop k).requestId = c.requestId := by
  unfold drop
  split
  · split <;> rfl
  · rfl

/-- A client is dropped where it is not answered yet. -/
theorem stage_drop (k : Nat) (c : Client) : (c.drop k).stage = c.stage ∨ (c.drop k).stage = .dropped := by
  unfold drop
  split
  · split
    · exact .inl rfl
    · exact .inr rfl
  · exact .inl rfl

/-- A stage that is not that of dropped clients. -/
theorem isAt_drop {q : ClientStage → Bool} (hq : q .dropped = false) {r : RequestId} {k : Nat}
    {c : Client} (h : (c.drop k).isAt q r = true) : c.isAt q r = true := by
  rw [isAt, requestId_drop] at h
  rcases stage_drop k c with hstage | hstage
  · rwa [hstage] at h
  · rw [hstage, hq, Bool.and_false] at h
    cases h

end Client

/-- What a client is told when its result has been judged. -/
theorem Gateway.flag_judged (q : Gateway.ClientRequest) (c : Gateway.Computed) (resOk : Bool)
    (resDetail : Text) : PayloadReader.flag (Gateway.judged q c resOk resDetail) Fid.ok =
      .ok (resOk && Gateway.parity c q.a q.b && !c.withheld) := flag_putBool rfl

theorem Gateway.flag_refusal (detail : String) :
    PayloadReader.flag (Gateway.refusal detail) Fid.ok = .ok false := flag_putBool rfl

theorem ClientStage.toldOk_judged (q : Gateway.ClientRequest) (c : Gateway.Computed) (resOk : Bool)
    (resDetail : Text) : (ClientStage.answered (Gateway.judged q c resOk resDetail)).toldOk =
      (resOk && Gateway.parity c q.a q.b && !c.withheld) := by
  rw [toldOk, Gateway.flag_judged]
  cases resOk && Gateway.parity c q.a q.b && !c.withheld <;> rfl

theorem ClientStage.toldOk_refusal (detail : String) :
    (ClientStage.answered (Gateway.refusal detail)).toldOk = false := by
  rw [toldOk, Gateway.flag_refusal]
  rfl

namespace Deployment
variable {d : Deployment}

/-- One client goes to another stage. -/
theorem countP_setStage {i : Nat} {c : Client} (hc : d.clients[i]? = some c) (stage : ClientStage)
    (q : ClientStage → Bool) (r : RequestId) :
    (d.setStage i c stage).clients.countP (Client.isAt q r) + (c.requestId == r && q c.stage).toNat =
      d.clients.countP (Client.isAt q r) + (c.requestId == r && q stage).toNat := by
  obtain ⟨hlt, hget⟩ := List.getElem?_eq_some_iff.mp hc
  have hle : (c.isAt q r).toNat ≤ d.clients.countP (Client.isAt q r) := by
    cases hp : c.isAt q r with
    | true => exact List.countP_pos_iff.mpr ⟨c, List.mem_of_getElem? hc, hp⟩
    | false => exact Nat.zero_le _
  have hite : ∀ b : Bool, (if b = true then 1 else 0) = b.toNat := by decide
  show (d.clients.set i { c with stage := stage }).countP _ + (c.isAt q r).toNat =
    _ + (({ c with stage := stage } : Client).isAt q r).toNat
  rw [List.countP_set hlt, hget, hite, hite]
  omega

/-- The clients of a gateway that ends. -/
theorem countP_drop_le {q : ClientStage → Bool} (hq : q .dropped = false) (d : Deployment) (k : Nat)
    (r : RequestId) :
    (d.drop k).clients.countP (Client.isAt q r) ≤ d.clients.countP (Client.isAt q r) := by
  show (d.clients.map (Client.drop k)).countP _ ≤ _
  rw [List.countP_map]
  exact List.countP_mono_left fun c _ => Client.isAt_drop hq

/-- A client of the gateway that ends is dropped first. -/
theorem drop_setStage {i : Nat} {c : Client} (hc : d.clients[i]? = some c)
    (hstage : ∀ fields, c.stage ≠ .answered fields) :
    ((d.setStage i c .dropped).drop c.gateway).clients = (d.drop c.gateway).clients := by
  obtain ⟨hlt, hget⟩ := List.getElem?_eq_some_iff.mp hc
  have hdrop : Client.drop c.gateway { c with stage := .dropped } = Client.drop c.gateway c := by
    unfold Client.drop
    rw [if_pos rfl, if_pos rfl]
    cases h : c.stage with
    | answered fields => exact absurd h (hstage fields)
    | _ => rfl
  show (d.clients.set i { c with stage := .dropped }).map _ = d.clients.map _
  rw [List.map_set, hdrop, ← hget]
  apply List.ext_getElem? fun j => ?_
  rw [List.getElem?_set]
  split
  · rename_i hij
    subst hij
    rw [if_pos (by simpa using hlt), List.getElem?_map, List.getElem?_eq_getElem hlt, Option.map_some]
  · rfl

end Deployment

/-! ## Grants and what is reported -/

/-- The clients, against what the ledger says. -/
structure Tallied (d : Deployment) (c : Counts) : Prop where
  awaited : ∀ r, d.clients.countP (Client.isAt ClientStage.awaits r) ≤ c.awaited r
  told : ∀ r, d.clients.countP (Client.isAt ClientStage.toldOk r) ≤ c.accepted r

/-- A message that reports nothing takes nothing off the ledger. -/
theorem Counts.note_unreported (σ : SystemState) {m : Message}
    (hm : ∀ payload, m ≠ .authorizeResult payload) (c : Counts) :
    (∀ r, c.awaited r ≤ (Counts.note σ m c).awaited r) ∧ (Counts.note σ m c).accepted = c.accepted := by
  cases m with
  | authorizeRequest payload =>
    simp only [Counts.note]
    split
    · rename_i auth _
      refine ⟨fun r => ?_, rfl⟩
      by_cases hr : r = auth.request
      · simp only [hr, Function.update_self]
        omega
      · simp only [Function.update_of_ne hr]
        exact Nat.le_refl _
    · exact ⟨fun r => Nat.le_refl _, rfl⟩
  | authorizeResult payload => exact absurd rfl (hm payload)
  | other l => exact ⟨fun r => Nat.le_refl _, rfl⟩

/-- A result is reported: whether the gate lets it through, and whether it is accepted. -/
def Counts.reported (c : Counts) (r : RequestId) (passed accepted : Bool) : Counts :=
  { c with
    accepted := if accepted then Function.update c.accepted r (c.accepted r + 1) else c.accepted
    awaited := if passed then Function.update c.awaited r (c.awaited r - 1) else c.awaited }

theorem Counts.accepted_le_reported (c : Counts) (r : RequestId) (passed accepted : Bool)
    (id : RequestId) : c.accepted id ≤ (c.reported r passed accepted).accepted id := by
  cases accepted with
  | false => exact Nat.le_refl _
  | true =>
    show _ ≤ Function.update c.accepted r (c.accepted r + 1) id
    by_cases hid : id = r
    · rw [hid, Function.update_self]
      omega
    · rw [Function.update_of_ne hid]

theorem Counts.awaited_le_reported (c : Counts) (r : RequestId) (passed accepted : Bool)
    (id : RequestId) : c.awaited id ≤ (c.reported r passed accepted).awaited id + (r == id).toNat := by
  cases passed with
  | false => exact Nat.le_add_right ..
  | true =>
    show _ ≤ Function.update c.awaited r (c.awaited r - 1) id + _
    by_cases hid : r = id
    · rw [hid, Function.update_self, beq_self_eq_true, Bool.toNat_true]
      omega
    · rw [Function.update_of_ne (Ne.symm hid)]
      exact Nat.le_add_right ..

theorem Counts.note_result (σ : SystemState) {payload : List UInt8} {q : ResultMessage}
    (hread : readResult payload = .ok q) (c : Counts) :
    Counts.note σ (.authorizeResult payload) c =
      if q.withheld then c
      else c.reported q.auth.request (σ.fabric.dispatchAllowed q.auth).allowed
        (decide ((σ.fabric.onAuthorizeResult payload).2 = .accepted)) := by
  simp only [Counts.note, hread, Counts.reported, decide_eq_true_eq]

namespace Deployment
variable {d : Deployment} {c : Counts}

theorem noted_unreported {e : RequestEvent} (h : Unreported d e) :
    (∀ r, c.awaited r ≤ (noted Counts.note d e c).awaited r) ∧
      (noted Counts.note d e c).accepted = c.accepted := by
  unfold noted
  cases hm : d.message e with
  | none => exact ⟨fun r => Nat.le_refl _, rfl⟩
  | some m => exact Counts.note_unreported _ (fun payload he => h payload (he ▸ hm)) c

/-- A grant is awaited. -/
theorem noted_granted {i : Nat} {t : Thread} {cur : Assignment} (ht : d.arrivedAt i = some t)
    (hd : Dispatchable d.coordinator.fabric (t.client.request.message t.client.frame.msgId) cur) :
    (noted Counts.note d (.ask i .answered) c).awaited t.client.requestId =
      c.awaited t.client.requestId + 1 := by
  have hm : d.message (.ask i .answered) =
      some (.authorizeRequest (t.client.asking t.gateway).payload) := by
    rw [message, ht]
    rfl
  have hread : readRequest (t.client.asking t.gateway).payload =
      .ok (t.client.request.message t.client.frame.msgId) := readRequest_authorizeRequest ..
  rw [noted, hm, Option.map_some, Option.getD_some, Counts.note,
    onAuthorizeRequest_dispatchable hread hd]
  exact Function.update_self ..

theorem readResult_reporting (a : Client) (g : Gateway) (grant : Gateway.Grant) (withheld : Bool) :
    readResult (a.reporting g grant withheld).payload =
      .ok ⟨grant.reported a.request.service a.frame.msgId, withheld⟩ := by
  simp only [Client.reporting]
  exact readResult_authorizeResult ..

/-- What the coordinator handles at a report. -/
theorem message_report {i : Nat} {x : Exchange} {t : Thread} {grant : Gateway.Grant}
    {r : Gateway.Computed} (ht : d.computedAt i = some (t, grant, r)) :
    d.message (.report i x) = if x.handled then
      some (.authorizeResult (t.client.reporting t.gateway grant r.withheld).payload) else none := by
  rw [message, ht]
  rfl

/-- What a report takes off the ledger: nothing if it is lost, the result was withheld or the
gate refuses it, and else one that is awaited. -/
theorem noted_report {i : Nat} {x : Exchange} {t : Thread} {grant : Gateway.Grant}
    {r : Gateway.Computed} (ht : d.computedAt i = some (t, grant, r)) :
    noted Counts.note d (.report i x) c =
      if x.handled = true ∧ r.withheld = false then
        c.reported t.client.requestId
          (d.coordinator.fabric.dispatchAllowed
            (grant.reported t.client.request.service t.client.frame.msgId)).allowed
          (decide ((d.coordinator.fabric.onAuthorizeResult
            (t.client.reporting t.gateway grant r.withheld).payload).2 = .accepted))
      else c := by
  have hread := readResult_reporting t.client t.gateway grant r.withheld
  rw [noted, message_report ht]
  generalize (t.client.reporting t.gateway grant r.withheld).payload = payload at hread
  by_cases hx : x.handled = true
  · rw [if_pos hx, Option.map_some, Option.getD_some, Counts.note_result _ hread]
    by_cases hw : r.withheld = true
    · rw [if_pos hw, if_neg fun h => Bool.false_ne_true (h.2.symm.trans hw)]
    · rw [if_neg hw, if_pos ⟨hx, by simpa using hw⟩]
      rfl
  · rw [if_neg hx, if_neg fun h => hx h.1]
    rfl

end Deployment

section Steps
variable {d : Deployment} {c : Counts}

/-- The clients go on while nothing is reported. -/
theorem Tallied.unreported {d' : Deployment} {e : RequestEvent} (h : Tallied d c)
    (hun : Deployment.Unreported d e)
    (hawaits : ∀ r, d'.clients.countP (Client.isAt ClientStage.awaits r) ≤
      d.clients.countP (Client.isAt ClientStage.awaits r))
    (htold : ∀ r, d'.clients.countP (Client.isAt ClientStage.toldOk r) ≤
      d.clients.countP (Client.isAt ClientStage.toldOk r)) :
    Tallied d' (Deployment.noted Counts.note d e c) := by
  obtain ⟨hle, heq⟩ := Deployment.noted_unreported (c := c) hun
  exact ⟨fun r => ((hawaits r).trans (h.awaited r)).trans (hle r),
    fun r => ((htold r).trans (h.told r)).trans (Nat.le_of_eq (congrFun heq r).symm)⟩

/-- A client that counts for nothing at its stage goes to one where it counts for nothing. -/
theorem countP_setStage_le {i : Nat} {a : Client} (hc : d.clients[i]? = some a) {stage : ClientStage}
    {q : ClientStage → Bool} (hle : (q stage).toNat ≤ (q a.stage).toNat) (r : RequestId) :
    (d.setStage i a stage).clients.countP (Client.isAt q r) ≤ d.clients.countP (Client.isAt q r) := by
  have hcount := Deployment.countP_setStage hc stage q r
  cases hid : a.requestId == r with
  | false =>
    rw [hid, Bool.false_and, Bool.false_and] at hcount
    exact Nat.le_of_eq hcount
  | true =>
    rw [hid, Bool.true_and, Bool.true_and] at hcount
    omega

theorem Tallied.asked {i : Nat} {x : Exchange} {t : Thread} {granted : Option Gateway.Grant}
    (h : Tallied d c) (ht : d.arrivedAt i = some t)
    (hg : Deployment.Obtained d.coordinator.fabric t.client x granted) :
    Tallied (d.setStage i t.client (t.client.afterAsking t.gateway granted))
      (Deployment.noted Counts.note d (.ask i x) c) := by
  obtain ⟨hthread, hstage⟩ := Deployment.arrivedAt_eq_some.mp ht
  have hc := (Deployment.thread_eq_some.mp hthread).1
  have hun := Deployment.unreported_ask d i x
  -- a client that is refused is not told ok
  have hrefused : ∀ detail, Tallied (d.setStage i t.client (.answered (Gateway.refusal detail)))
      (Deployment.noted Counts.note d (.ask i x) c) := fun detail =>
    h.unreported hun (countP_setStage_le hc (Nat.zero_le _))
      (countP_setStage_le hc (by rw [ClientStage.toldOk_refusal]; exact Nat.zero_le _))
  rcases hg with rfl | ⟨rfl, cur, hd, rfl⟩
  · exact hrefused _
  rw [Client.afterAsking]
  split
  · exact hrefused _
  · rename_i route _
    refine ⟨fun r => ?_, fun r => ?_⟩
    · have hcount := Deployment.countP_setStage hc
        (.granted (.ofAuth (d.coordinator.fabric.grant
          (t.client.request.message t.client.frame.msgId) cur)) route) ClientStage.awaits r
      have hno : ClientStage.arrived.awaits = false := rfl
      rw [hstage, hno, ClientStage.awaits, Bool.and_false, Bool.and_true, Bool.toNat_false,
        Nat.add_zero] at hcount
      rw [hcount]
      have hold := h.awaited r
      by_cases hr : t.client.requestId = r
      · subst hr
        rw [Deployment.noted_granted ht hd, beq_self_eq_true, Bool.toNat_true]
        omega
      · rw [beq_eq_false_iff_ne.mpr hr, Bool.toNat_false, Nat.add_zero]
        exact hold.trans ((Deployment.noted_unreported hun).1 r)
    · rw [(Deployment.noted_unreported hun).2]
      exact (countP_setStage_le hc (Nat.zero_le _) r).trans (h.told r)

theorem Tallied.computed {i : Nat} {sent : WorkerReply} {t : Thread} {grant : Gateway.Grant}
    {route : WireRoute} {r : Gateway.Computed} (h : Tallied d c)
    (ht : d.grantedAt i = some (t, grant, route)) :
    Tallied (d.setStage i t.client (.computed grant route r))
      (Deployment.noted Counts.note d (.compute i sent) c) := by
  obtain ⟨hthread, hstage⟩ := Deployment.grantedAt_eq_some.mp ht
  have hc := (Deployment.thread_eq_some.mp hthread).1
  refine h.unreported (fun payload he => by cases he) ?_ (countP_setStage_le hc (Nat.zero_le _))
  exact countP_setStage_le hc (by rw [hstage]; exact Nat.le_refl _)

/-- What the ledger still awaits when one client has reported. -/
theorem Tallied.reported_awaits {i : Nat} {x : Exchange} {t : Thread} {grant : Gateway.Grant}
    {r : Gateway.Computed} {d' : Deployment} (h : Tallied d c)
    (ht : d.computedAt i = some (t, grant, r))
    (hcount : ∀ id, d'.clients.countP (Client.isAt ClientStage.awaits id) + (t.client.requestId == id).toNat ≤
      d.clients.countP (Client.isAt ClientStage.awaits id)) (id : RequestId) :
    d'.clients.countP (Client.isAt ClientStage.awaits id) ≤
      (Deployment.noted Counts.note d (.report i x) c).awaited id := by
  have hsum := (hcount id).trans (h.awaited id)
  rw [Deployment.noted_report ht]
  split
  · -- the one that has reported is the one that is taken off
    exact Nat.le_of_add_le_add_right
      (hsum.trans (c.awaited_le_reported t.client.requestId _ _ id))
  · exact (Nat.le_add_right ..).trans hsum

/-- What has been accepted stays so. -/
theorem accepted_le_noted {i : Nat} {x : Exchange} {t : Thread} {grant : Gateway.Grant}
    {r : Gateway.Computed} (ht : d.computedAt i = some (t, grant, r)) (id : RequestId) :
    c.accepted id ≤ (Deployment.noted Counts.note d (.report i x) c).accepted id := by
  rw [Deployment.noted_report ht]
  split
  · exact c.accepted_le_reported ..
  · exact Nat.le_refl _

/-- A thread that has reported awaits no more. -/
theorem countP_awaits_reported {i : Nat} {t : Thread} {grant : Gateway.Grant} {r : Gateway.Computed}
    (ht : d.computedAt i = some (t, grant, r)) {s : ClientStage} (hs : s.awaits = false)
    (id : RequestId) :
    (d.setStage i t.client s).clients.countP (Client.isAt ClientStage.awaits id) +
      (t.client.requestId == id).toNat = d.clients.countP (Client.isAt ClientStage.awaits id) := by
  obtain ⟨hthread, route, hcomputed⟩ := Deployment.computedAt_eq_some.mp ht
  have hcount := Deployment.countP_setStage (Deployment.thread_eq_some.mp hthread).1 s ClientStage.awaits id
  rwa [hcomputed, hs, ClientStage.awaits, Bool.and_true, Bool.and_false, Bool.toNat_false,
    Nat.add_zero] at hcount

theorem Tallied.judged {i : Nat} {x : Exchange} {t : Thread} {grant : Gateway.Grant}
    {r : Gateway.Computed} {resOk : Bool} {resDetail : Text} (h : Tallied d c)
    (ht : d.computedAt i = some (t, grant, r))
    (hj : resOk = true ↔ x = .answered ∧ (d.coordinator.fabric.onAuthorizeResult
      (t.client.reporting t.gateway grant r.withheld).payload).2 = .accepted) :
    Tallied (d.setStage i t.client (.answered (Gateway.judged t.client.request r resOk resDetail)))
      (Deployment.noted Counts.note d (.report i x) c) := by
  obtain ⟨hthread, route, hcomputed⟩ := Deployment.computedAt_eq_some.mp ht
  refine ⟨h.reported_awaits ht fun id => Nat.le_of_eq (countP_awaits_reported ht rfl id), fun id => ?_⟩
  have hcount := Deployment.countP_setStage (Deployment.thread_eq_some.mp hthread).1
    (.answered (Gateway.judged t.client.request r resOk resDetail)) ClientStage.toldOk id
  have huntold : (ClientStage.computed grant route r).toldOk = false := rfl
  rw [hcomputed, ClientStage.toldOk_judged, huntold, Bool.and_false, Bool.toNat_false,
    Nat.add_zero] at hcount
  have hold := h.told id
  cases htells : t.client.requestId == id && (resOk &&
      Gateway.parity r t.client.request.a t.client.request.b && !r.withheld) with
  | false =>
    rw [htells, Bool.toNat_false, Nat.add_zero] at hcount
    rw [hcount]
    exact hold.trans (accepted_le_noted ht id)
  | true =>
    -- it is told ok, so its result was accepted
    rw [htells, Bool.toNat_true] at hcount
    simp only [Bool.and_eq_true, beq_iff_eq, Bool.not_eq_true'] at htells
    obtain ⟨hid, ⟨hok, -⟩, hw⟩ := htells
    obtain ⟨rfl, haccepted⟩ := hj.mp hok
    subst hid
    rw [Deployment.noted_report ht, if_pos ⟨rfl, hw⟩, decide_eq_true haccepted]
    show _ ≤ Function.update c.accepted t.client.requestId _ _
    rw [Function.update_self]
    omega

theorem Tallied.unjudged {i : Nat} {x : Exchange} {t : Thread} {grant : Gateway.Grant}
    {r : Gateway.Computed} (h : Tallied d c) (ht : d.computedAt i = some (t, grant, r)) :
    Tallied (d.drop t.client.gateway) (Deployment.noted Counts.note d (.report i x) c) := by
  obtain ⟨hthread, route, hcomputed⟩ := Deployment.computedAt_eq_some.mp ht
  refine ⟨h.reported_awaits ht fun id => ?_, fun id => ?_⟩
  · have hdrop := Deployment.drop_setStage (Deployment.thread_eq_some.mp hthread).1
      (by rw [hcomputed]; exact fun _ => ClientStage.noConfusion)
    have hle := Deployment.countP_drop_le (q := ClientStage.awaits) rfl (d.setStage i t.client .dropped)
      t.client.gateway id
    rw [hdrop] at hle
    have hset := countP_awaits_reported ht (s := .dropped) rfl id
    omega
  · exact ((Deployment.countP_drop_le rfl d _ id).trans (h.told id)).trans (accepted_le_noted ht id)

/-- **What an event does to the clients and the ledger.** -/
theorem Tallied.effect {d' : Deployment} {e : RequestEvent} (h : Tallied d c)
    (heff : Deployment.Effect d e d') : Tallied d' (Deployment.noted Counts.note d e c) := by
  cases heff with
  | unmoved hun => exact h.unreported hun (fun r => Nat.le_refl _) fun r => Nat.le_refl _
  | dropped hun =>
    exact h.unreported hun (Deployment.countP_drop_le rfl d _) (Deployment.countP_drop_le rfl d _)
  | @arrived k f q _ =>
    have hnew : ∀ p : ClientStage → Bool, p .arrived = false → ∀ r,
        (d.clients ++ [({ gateway := k, frame := f, request := q } : Client)]).countP (Client.isAt p r) ≤
          d.clients.countP (Client.isAt p r) := by
      intro p hp r
      rw [List.countP_append, List.countP_singleton, Client.isAt, hp, Bool.and_false]
      exact Nat.le_refl _
    exact h.unreported (fun payload he => by cases he) (hnew _ rfl) (hnew _ rfl)
  | asked ht hg => exact h.asked ht hg
  | computed ht _ => exact h.computed ht
  | judged ht hj => exact h.judged ht hj
  | unjudged ht => exact h.unjudged ht

theorem Tallied.step {env : Env} (h : Tallied d c) (e : RequestEvent) :
    Tallied (d.step env e) (Deployment.noted Counts.note d e c) :=
  ⟨(h.effect (d.front_effect e)).awaited, (h.effect (d.front_effect e)).told⟩

end Steps

/-! ## Runs -/

/-- A deployment with its ledger. -/
def countedDeployment (env : Env) : Transition.System (Deployment × Counts) RequestEvent :=
  (deployment env).withHistory {} (Deployment.noted Counts.note)

variable {env : Env}

theorem tallied {p : Deployment × Counts}
    (hr : Transition.Reachable (countedDeployment env) (fun _ _ => True) p) : Tallied p.1 p.2 := by
  refine hr.invariant (P := fun p => Tallied p.1 p.2) ?_ fun p e _ h _ => h.step e
  rintro ⟨d, c⟩ ⟨⟨-, -, hclients⟩, rfl⟩
  refine ⟨fun r => ?_, fun r => ?_⟩ <;> (show d.clients.countP _ ≤ 0; rw [hclients]; exact Nat.le_refl _)

/-- **Gateways report what was granted to them**, so that what `results_bounded` asks of a run
is true of every run of a deployment. -/
theorem deployment_solicited (p : Deployment × Counts) (e : RequestEvent) (m : Message)
    (hr : Transition.Reachable (countedDeployment env) (fun _ _ => True) p)
    (hm : p.1.message e = some m) : Counts.solicited (p.1.coordinator, p.2) m = true := by
  cases m with
  | authorizeRequest payload => rfl
  | other l => rfl
  | authorizeResult payload =>
    cases e with
    | report i x =>
      obtain ⟨⟨t, grant, r⟩, ht, hm⟩ := Option.bind_eq_some_iff.mp hm
      obtain ⟨-, hpayload⟩ := Option.ite_none_right_eq_some.mp hm
      obtain rfl : (t.client.reporting t.gateway grant r.withheld).payload = payload :=
        Message.authorizeResult.inj (Option.some.inj hpayload)
      have hread := Deployment.readResult_reporting t.client t.gateway grant r.withheld
      have hcount := countP_awaits_reported ht (s := .dropped) rfl t.client.requestId
      have htallied := (tallied hr).awaited t.client.requestId
      rw [beq_self_eq_true, Bool.toNat_true] at hcount
      have hpos : 0 < p.2.awaited (grant.reported t.client.request.service
          t.client.frame.msgId).request := by
        show 0 < p.2.awaited t.client.requestId
        omega
      simp only [Counts.solicited, hread, decide_eq_true hpos, Bool.or_true, Bool.true_or]
    | ask i x => exact absurd hm (Deployment.unreported_ask p.1 i x payload)
    | _ => cases hm

/-- **No more clients are told ok than were granted.**  In every run of a coordinator with any
number of gateways, whatever is lost, ends or comes from a worker: for each request id, the
clients that are told ok are no more than the results that the coordinator has accepted, and
these no more than the dispatches that it has granted. -/
theorem answers_bounded {p : Deployment × Counts}
    (hr : Transition.Reachable (countedDeployment env) (fun _ _ => True) p) (r : RequestId) :
    p.1.clients.countP (Client.isAt ClientStage.toldOk r) ≤ p.2.accepted r ∧
      p.2.accepted r ≤ p.2.granted r :=
  ⟨(tallied hr).told r,
    results_bounded env ((deployment_refines fun p e m hr hm =>
      deployment_solicited p e m hr hm).reachable hr) r⟩

open Reference in
/-- One client is told ok, for one dispatch. -/
theorem answers_bounded_reference :
    let p := (countedDeployment Reference.env).run (freshDeployment, {})
      (workedFor ++ [.report 0 .answered])
    p.1.clients.countP (Client.isAt ClientStage.toldOk ⟨1⟩) = 1 ∧ p.2.granted ⟨1⟩ = 1 ∧
      p.2.accepted ⟨1⟩ ≤ p.2.granted ⟨1⟩ := by
  intro p
  have hr : Transition.Reachable (countedDeployment Reference.env) (fun _ _ => True) p :=
    .run_all _ (.initial ⟨freshDeployment_initial, rfl⟩)
  exact ⟨by decide +kernel, by decide +kernel, (answers_bounded hr ⟨1⟩).2⟩

/-! ## What stands behind an ok -/

/-- The grant was given by this coordinator, to this client, at some point of the run. -/
def Earned (env : Env) (σ : SystemState) (c : Client) (grant : Gateway.Grant) : Prop :=
  ∃ u cur, Transition.Later (server env) (fun _ _ => True) u σ ∧
    Dispatchable u.fabric (c.request.message c.frame.msgId) cur ∧
    grant = .ofAuth (u.fabric.grant (c.request.message c.frame.msgId) cur)

/-- A gateway has each route under its slot id. -/
def Gateway.Keyed (g : Gateway) : Prop :=
  ∀ k route, g.routes.find k = some route → route.slot.slot.value.toNat = k

theorem Gateway.Keyed.control {workers : Workers} {g : Gateway} (h : g.Keyed) {f : Frame}
    {done : Gateway.Handled} (hdone : g.control workers f = .ok done) : done.gateway.Keyed := by
  intro k route hroute
  rcases Gateway.control_eq_ok hdone with ⟨re, ack, -, hroutes, -⟩ | ⟨-, hroutes⟩
  · rw [hroutes, OrderedMap.find_insert] at hroute
    split_ifs at hroute with hk
    · cases hroute
      exact hk.symm
    · exact h k route hroute
  · rw [hroutes] at hroute
    exact h k route hroute

namespace Deployment

def Keyed (d : Deployment) : Prop := ∀ k g, d.gateway k = some g → g.Keyed

theorem gateway_set {d : Deployment} {gs : List (Option Gateway)} {j k : Nat} {g : Gateway}
    {new : Option Gateway} (hgs : gs = d.gateways.set j new) (h : (gs[k]?).join = some g) :
    d.gateway k = some g ∨ new = some g := by
  rw [hgs, List.getElem?_set] at h
  split_ifs at h
  · exact .inr h
  · cases h
  · exact .inl h

theorem Keyed.drop {d : Deployment} (h : d.Keyed) (j : Nat) : (d.drop j).Keyed := by
  intro k g hg
  rcases gateway_set rfl hg with hold | hnew
  · exact h k g hold
  · cases hnew

theorem Keyed.front {d : Deployment} (h : d.Keyed) (e : RequestEvent) : (d.front e).Keyed := by
  cases e with
  | opened =>
    intro k g hg
    change ((d.gateways ++ [some ({} : Gateway)])[k]?).join = some g at hg
    rw [List.getElem?_append] at hg
    split_ifs at hg
    · exact h k g hg
    · have hnew := List.mem_singleton.mp (List.mem_of_getElem? (Option.join_eq_some_iff.mp hg))
      cases hnew
      intro k route hroute
      rw [OrderedMap.find_empty] at hroute
      cases hroute
  | ended k => exact h.drop k
  | control k f sent =>
    show (d.control k f sent).Keyed
    unfold control
    cases hg : d.gateway k with
    | none => exact h
    | some g =>
      simp only
      cases hdone : g.control (fun _ _ => sent) f with
      | error e => exact h.drop k
      | ok done =>
        intro j g' hg'
        rcases gateway_set rfl hg' with hold | hnew
        · exact h j g' hold
        · cases hnew
          exact (h k g hg).control hdone
  | client k f =>
    show (d.client k f).Keyed
    unfold client
    split
    · exact h
    · split
      · exact h.drop k
      · exact h
  | ask i x =>
    show (d.ask i x).Keyed
    unfold ask
    split
    · exact h
    · simp only
      split
      · exact h.drop _
      · exact h
  | compute i sent =>
    show (d.compute i sent).Keyed
    unfold compute
    split
    · exact h
    · split
      · exact h.drop _
      · exact h
  | report i x =>
    show (d.report i x).Keyed
    unfold report
    split
    · exact h
    · simp only
      split
      · exact h.drop _
      · split
        · exact h.drop _
        · exact h
  | _ => exact h

end Deployment

/-- What a worker said ok to was sent along the route, with the boot of the route. -/
def AskedAlong (route : WireRoute) (r : Gateway.Computed) : Prop :=
  r.ok = true → ∃ request, r.asked = some ⟨route.transport, request⟩ ∧
    (parse request.payload).bind (·.u64 Fid.boot) = .ok route.permittedBoot.value

/-- What the stage of a client rests on. -/
def Grounded (env : Env) (σ : SystemState) (c : Client) : Prop :=
  match c.stage with
  | .granted grant route => Earned env σ c grant ∧ route.slot.slot.value = c.request.slot
  | .computed grant route r =>
    Earned env σ c grant ∧ route.slot.slot.value = c.request.slot ∧ AskedAlong route r
  | _ => True

theorem Earned.later {σ σ' : SystemState} {c : Client} {grant : Gateway.Grant}
    (h : Earned env σ c grant) (hl : Transition.Later (server env) (fun _ _ => True) σ σ') :
    Earned env σ' c grant := by
  obtain ⟨u, cur, hu, hd, hgrant⟩ := h
  exact ⟨u, cur, hu.trans hl, hd, hgrant⟩

theorem Grounded.later {σ σ' : SystemState} {c : Client} (h : Grounded env σ c)
    (hl : Transition.Later (server env) (fun _ _ => True) σ σ') : Grounded env σ' c := by
  unfold Grounded at h ⊢
  split
  · rename_i hstage
    rw [hstage] at h
    exact ⟨Earned.later h.1 hl, h.2⟩
  · rename_i hstage
    rw [hstage] at h
    exact ⟨Earned.later h.1 hl, h.2⟩
  · trivial

/-- The coordinator goes on. -/
theorem Deployment.step_later (d : Deployment) (e : RequestEvent) :
    Transition.Later (server env) (fun _ _ => True) d.coordinator (d.step env e).coordinator := by
  show Transition.Later _ _ _ (((d.message e).map _).getD _)
  cases d.message e with
  | none => exact .refl _
  | some m => exact .single (T := server env) trivial

/-- A stage that a client is set to rests on what it must. -/
theorem grounded_setStage {d : Deployment} {σ : SystemState} {i : Nat} {a : Client} {stage : ClientStage}
    (h : ∀ c ∈ d.clients, Grounded env σ c) (hnew : Grounded env σ { a with stage := stage }) :
    ∀ c ∈ (d.setStage i a stage).clients, Grounded env σ c := by
  intro c hc
  rcases List.mem_or_eq_of_mem_set hc with hold | rfl
  · exact h c hold
  · exact hnew

theorem grounded_drop {d : Deployment} {σ : SystemState} (k : Nat)
    (h : ∀ c ∈ d.clients, Grounded env σ c) : ∀ c ∈ (d.drop k).clients, Grounded env σ c := by
  intro c hc
  obtain ⟨a, ha, rfl⟩ := List.mem_map.mp hc
  have hold := h a ha
  unfold Client.drop
  split
  · split
    · exact hold
    · trivial
  · exact hold

theorem grounded_effect {d d' : Deployment} {e : RequestEvent} (heff : Deployment.Effect d e d')
    (hkeyed : d.Keyed) (h : ∀ c ∈ d.clients, Grounded env d.coordinator c) :
    ∀ c ∈ d'.clients, Grounded env d.coordinator c := by
  cases heff with
  | unmoved _ => exact h
  | dropped _ => exact grounded_drop _ h
  | arrived _ =>
    intro c hc
    rcases List.mem_append.mp hc with hold | hnew
    · exact h c hold
    · rw [List.mem_singleton.mp hnew]
      trivial
  | asked ht hg =>
    refine grounded_setStage h ?_
    rcases hg with rfl | ⟨-, cur, hd, rfl⟩
    · trivial
    · rw [Client.afterAsking]
      split
      · trivial
      · rename_i route hroute
        have hgateway := (Deployment.thread_eq_some.mp (Deployment.arrivedAt_eq_some.mp ht).1).2
        have hslot := hkeyed _ _ hgateway _ _ hroute
        exact ⟨⟨_, cur, .refl _, hd, rfl⟩, UInt64.toNat_inj.mp hslot⟩
  | @computed i sent t grant route r ht hc =>
    obtain ⟨hthread, hstage⟩ := Deployment.grantedAt_eq_some.mp ht
    have hold := h _ (List.mem_of_getElem? (Deployment.thread_eq_some.mp hthread).1)
    rw [Grounded, hstage] at hold
    exact grounded_setStage h ⟨hold.1, hold.2, Gateway.computeOnWorker_ok hc⟩
  | judged _ _ => exact grounded_setStage h trivial
  | unjudged _ => exact grounded_drop _ h

theorem allKeyed {d : Deployment}
    (hr : Transition.Reachable (deployment env) (fun _ _ => True) d) : d.Keyed := by
  refine hr.invariant ?_ fun d e _ h _ => h.front e
  rintro d ⟨-, hgateways, -⟩ k g hg
  rw [Deployment.gateway, hgateways] at hg
  cases hg

theorem grounded {d : Deployment}
    (hr : Transition.Reachable (deployment env) (fun _ _ => True) d) :
    ∀ c ∈ d.clients, Grounded env d.coordinator c := by
  refine hr.invariant (P := fun d => ∀ c ∈ d.clients, Grounded env d.coordinator c) ?_
    fun d e hr h _ c hc => ?_
  · rintro d ⟨-, -, hclients⟩ c hc
    rw [hclients] at hc
    cases hc
  · exact (grounded_effect (d.front_effect e) (allKeyed hr) h c hc).later (d.step_later e)

/-- An accepted result is of a request on record that no response was committed for. -/
theorem onAuthorizeResult_open {s : Fabric} {payload : List UInt8} {q : ResultMessage}
    (hread : readResult payload = .ok q) (h : (s.onAuthorizeResult payload).2 = .accepted) :
    ∃ rec, s.requests.find q.auth.request = some rec ∧ rec.disposition ≠ .responseCommitted := by
  obtain ⟨hw, hgate, hrecorded⟩ := onAuthorizeResult_accepted hread h
  obtain ⟨rec, hrec⟩ := Option.isSome_iff_exists.mp hrecorded
  refine ⟨rec, hrec, fun hcommitted => ?_⟩
  simp only [onAuthorizeResult, hread, handleResult, hw, Fabric.authorizeResult, hgate, hrec,
    hcommitted] at h
  cases h

/-- The judgement that a client is told ok by. -/
structure Judged (d : Deployment) (i : Nat) (e : RequestEvent) (c : Client) (t : Thread)
    (grant : Gateway.Grant) (r : Gateway.Computed) : Prop where
  event : e = .report i .answered
  thread : d.computedAt i = some (t, grant, r)
  accepted : (d.coordinator.fabric.onAuthorizeResult
    (t.client.reporting t.gateway grant r.withheld).payload).2 = .accepted
  parity : Gateway.parity r t.client.request.a t.client.request.b = true
  withheld : r.withheld = false
  client : ∃ resDetail,
    c = { t.client with stage := .answered (Gateway.judged t.client.request r true resDetail) }

/-- A client at another stage, or one that was not set. -/
theorem getElem?_setStage {d : Deployment} {i j : Nat} {a c : Client} {stage : ClientStage}
    (h : (d.setStage i a stage).clients[j]? = some c) :
    d.clients[j]? = some c ∨ j = i ∧ c = { a with stage := stage } := by
  change (d.clients.set i { a with stage := stage })[j]? = some c at h
  rw [List.getElem?_set] at h
  split_ifs at h with hij hlt
  · cases h
    exact .inr ⟨hij.symm, rfl⟩
  · exact .inl h

theorem getElem?_drop {d : Deployment} {k j : Nat} {c : Client}
    (h : (d.drop k).clients[j]? = some c) : ∃ a, d.clients[j]? = some a ∧ c = a.drop k := by
  change (d.clients.map (Client.drop k))[j]? = some c at h
  rw [List.getElem?_map] at h
  obtain ⟨a, ha, rfl⟩ := Option.map_eq_some_iff.mp h
  exact ⟨a, ha, rfl⟩

/-- **Nothing but a judgement tells a client ok.** -/
theorem toldOk_effect {d d' : Deployment} {e : RequestEvent} (heff : Deployment.Effect d e d')
    {i : Nat} {c : Client} (hc : d'.clients[i]? = some c) (hok : c.stage.toldOk = true) :
    (∃ a, d.clients[i]? = some a ∧ a.stage.toldOk = true) ∨
      ∃ t grant r, Judged d i e c t grant r := by
  have hdrop : ∀ {k}, (d.drop k).clients[i]? = some c →
      ∃ a, d.clients[i]? = some a ∧ a.stage.toldOk = true := by
    intro k hc
    obtain ⟨a, ha, rfl⟩ := getElem?_drop hc
    rcases a.stage_drop k with hstage | hstage
    · exact ⟨a, ha, hstage ▸ hok⟩
    · rw [hstage] at hok
      cases hok
  cases heff with
  | unmoved _ => exact .inl ⟨c, hc, hok⟩
  | dropped _ => exact .inl (hdrop hc)
  | arrived _ =>
    rw [List.getElem?_append] at hc
    split_ifs at hc
    · exact .inl ⟨c, hc, hok⟩
    · rw [List.mem_singleton.mp (List.mem_of_getElem? hc)] at hok
      cases hok
  | asked ht hg =>
    rcases getElem?_setStage hc with hold | ⟨-, rfl⟩
    · exact .inl ⟨c, hold, hok⟩
    · rcases hg with rfl | ⟨-, cur, -, rfl⟩
      · rw [Client.afterAsking, ClientStage.toldOk_refusal] at hok
        cases hok
      · rw [Client.afterAsking] at hok
        split at hok
        · rw [ClientStage.toldOk_refusal] at hok
          cases hok
        · cases hok
  | computed _ _ =>
    rcases getElem?_setStage hc with hold | ⟨-, rfl⟩
    · exact .inl ⟨c, hold, hok⟩
    · cases hok
  | judged ht hj =>
    rcases getElem?_setStage hc with hold | ⟨rfl, rfl⟩
    · exact .inl ⟨c, hold, hok⟩
    · rw [ClientStage.toldOk_judged, Bool.and_eq_true, Bool.and_eq_true, Bool.not_eq_true'] at hok
      obtain ⟨⟨hres, hparity⟩, hwithheld⟩ := hok
      obtain ⟨rfl, haccepted⟩ := hj.mp hres
      subst hres
      exact .inr ⟨_, _, _, rfl, ht, haccepted, hparity, hwithheld, _, rfl⟩
  | unjudged _ => exact .inl (hdrop hc)

/-- What vouches for an ok, when a client is told it. -/
structure Vouched (env : Env) (d : Deployment) (c : Client) (u : SystemState)
    (granted cur : Assignment) (route : WireRoute) (r : Gateway.Computed) : Prop where
  /-- The coordinator granted the request earlier in the run. -/
  earlier : Transition.Later (server env) (fun _ _ => True) u d.coordinator
  dispatchable : Dispatchable u.fabric (c.request.message c.frame.msgId) granted
  /-- The assignment that it was granted under serves the slot now. -/
  serves : d.coordinator.fabric.Serves (firstSlot ⟨c.request.service⟩) cur
  epoch : d.coordinator.fabric.epoch = u.fabric.epoch
  id : cur.id = granted.id
  generation : cur.generation = granted.generation
  routeGeneration : cur.routeGeneration = granted.routeGeneration
  workerBoot : cur.workerBoot = granted.workerBoot
  /-- The request is on record, and no response was committed. -/
  recorded : ∃ rec, d.coordinator.fabric.requests.find c.requestId = some rec ∧
    rec.disposition ≠ .responseCommitted
  /-- A worker did the reference work, along the route for the slot that the client named. -/
  slot : route.slot.slot.value = c.request.slot
  worked : r.ok = true
  result : r.result = referenceText c.request.a c.request.b
  asked : AskedAlong route r
  told : ∃ resDetail, c.stage = .answered (Gateway.judged c.request r true resDetail)

/-- **What stands behind an ok.**  In every run, when a client is told ok: the coordinator
granted its request earlier in the run, for the assignment that still serves the service's
slot, in the same epoch, when the result is judged; a worker returned the reference result,
and was asked for it along a route for the slot id that the client named, with the boot of
that route.  That this is the boot of the grant is nowhere looked at. -/
theorem ok_authorized {d : Deployment}
    (hr : Transition.Reachable (deployment env) (fun _ _ => True) d) {e : RequestEvent} {i : Nat}
    {c : Client} (hc : (d.step env e).clients[i]? = some c) (hok : c.stage.toldOk = true)
    (hnew : ∀ a, d.clients[i]? = some a → a.stage.toldOk = false) :
    ∃ u granted cur route r, Vouched env d c u granted cur route r := by
  rcases toldOk_effect (d.front_effect e) hc hok with ⟨a, ha, hold⟩ | ⟨t, grant, r, hj⟩
  · rw [hnew a ha] at hold
    cases hold
  obtain ⟨resDetail, rfl⟩ := hj.client
  obtain ⟨hthread, route, hstage⟩ := Deployment.computedAt_eq_some.mp hj.thread
  have hgrounded := grounded hr _ (List.mem_of_getElem? (Deployment.thread_eq_some.mp hthread).1)
  rw [Grounded, hstage] at hgrounded
  obtain ⟨⟨u, granted, hearlier, hd, hgrant⟩, hslot, hasked⟩ := hgrounded
  have hread := Deployment.readResult_reporting t.client t.gateway grant r.withheld
  obtain ⟨-, hallowed, -⟩ := onAuthorizeResult_accepted hread hj.accepted
  obtain ⟨cur, hserves, hnames⟩ := dispatchAllowed_iff.mp hallowed
  obtain ⟨hworked, hresult⟩ := Bool.and_eq_true_iff.mp hj.parity
  subst hgrant
  exact ⟨u, granted, cur, route, r, {
    earlier := hearlier
    dispatchable := hd
    serves := hserves
    epoch := hnames.epoch.symm
    id := hnames.assignment.symm
    generation := hnames.assignmentGeneration.symm
    routeGeneration := hnames.routeGeneration.symm
    workerBoot := hnames.workerBoot.symm
    recorded := onAuthorizeResult_open hread hj.accepted
    slot := hslot
    worked := hworked
    result := eq_of_beq hresult
    asked := hasked
    told := ⟨resDetail, rfl⟩ }⟩

open Reference in
theorem ok_authorized_reference :
    ∃ c u granted cur route r, c.stage.toldOk = true ∧
      Vouched Reference.env ((deployment Reference.env).run freshDeployment workedFor) c u granted cur
        route r := by
  let d := (deployment Reference.env).run freshDeployment workedFor
  have hr : Transition.Reachable (deployment Reference.env) (fun _ _ => True) d :=
    .run_all _ (.initial freshDeployment_initial)
  have htold : ((d.step Reference.env (.report 0 .answered)).clients[0]?).any
      (fun c => c.stage.toldOk) = true := by decide +kernel
  obtain ⟨c, hc, hok⟩ := (Option.any_eq_true ..).mp htold
  have hfresh : (d.clients[0]?).all (fun c => !c.stage.toldOk) = true := by decide +kernel
  obtain ⟨u, granted, cur, route, r, hv⟩ := ok_authorized hr hc hok fun a ha => by
    rw [ha, Option.all_some, Bool.not_eq_true'] at hfresh
    exact hfresh
  exact ⟨c, u, granted, cur, route, r, hok, hv⟩

end FailoverFabric

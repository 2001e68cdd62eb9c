import FailoverFabric.Gateway
import FailoverFabric.Fabric.Cutover

/-! # The cutover effects over sockets

`SocketOps` of `coordinator_main.cpp`.  A route is installed on the gateway of the
given boot.  Verification looks at neither of its arguments: it asks the registered
gateway with the least boot, which in turn takes the route with the least slot id.
`verification_exact_iff` says when that is the route that is being cut over.

An exchange with a gateway is one step.
-/
namespace FailoverFabric
open Protocol Codec

/-- The gateway at the other end of a connection. -/
structure GatewayPeer where
  alive : Bool := true
  gateway : Gateway := {}

/-- The peers that have said hello: `g_workers`, the request ports by target, and
`g_gateways`, by boot. -/
structure Registry where
  workers : OrderedMap Nat UInt16 := {}
  gateways : OrderedMap Nat GatewayPeer := {}

/-- A request that a worker was sent, and the gateway that sent it. -/
structure Execution where
  boot : Nat
  call : Gateway.WorkerCall
  deriving DecidableEq

namespace Registry

def workerReqPort (reg : Registry) (target : TargetId) : UInt16 :=
  (reg.workers.find target.value.toNat).getD 0

/-- Where the worker of a target listens. -/
def targetTransport (reg : Registry) (target : TargetId) : Text :=
  localTransport (reg.workerReqPort target)

/-- A request to a gateway, and its response.  A gateway that ends closes the
connection. -/
def exchange (workers : Workers) (reg : Registry) (boot : Nat) (p : GatewayPeer) (f : Frame) :
    Registry × Option Frame × Option Gateway.WorkerCall :=
  match p.gateway.control workers f with
  | .ok done =>
    ({ reg with gateways := reg.gateways.insert boot { p with gateway := done.gateway } },
      done.reply, done.asked)
  | .error _ => ({ reg with gateways := reg.gateways.insert boot { p with alive := false } }, none, none)

/-- What a response to `INSTALL_ROUTE` says. -/
def readAck : Option Frame → Except Error Bool
  | none => return false
  | some resp =>
    if resp.type = .routeAck then do (← parse resp.payload).flag Fid.ok else return false

/-- A route as it is sent: the transport is looked up. -/
def routed (reg : Registry) (e : RouteEntry) : RouteEntry :=
  { e with transport := reg.targetTransport e.target }

/-- The installation of a route, through a gateway. -/
def installThrough (workers : Workers) (epoch : UInt64) (reg : Registry) (e : RouteEntry)
    (boot : Nat) (p : GatewayPeer) : Except Error (Registry × RouteOutcome) := do
  let payload ← finish (encodeRouteEntry (reg.routed e))
  let r := reg.exchange workers boot p ⟨.installRoute, 9103, epoch, payload⟩
  let acknowledged ← readAck r.2.1
  return (r.1, {
    acknowledged := acknowledged
    detail := if acknowledged then [] else text "no route acknowledgment" })

/-- `SocketOps::install_route`. -/
def installRoute (workers : Workers) (epoch : UInt64) (reg : Registry) (e : RouteEntry)
    (boot : GatewayBootId) : Except Error (Registry × RouteOutcome) :=
  match reg.gateways.find boot.value.toNat with
  | none => .ok (reg, { detail := text "gateway not reachable" })
  | some p =>
    if p.alive then reg.installThrough workers epoch e boot.value.toNat p
    else .ok (reg, { detail := text "gateway not reachable" })

/-- What a response to `VERIFY_SERVICE` says, and the result in it. -/
def readVerified : Option Frame → Except Error (Bool × Text)
  | none => return (false, [])
  | some resp =>
    if resp.type = .verifyService then do
      let rr ← parse resp.payload
      let verified ← rr.flag Fid.ok
      let result ← resultIn rr verified
      return (verified, result)
    else return (false, [])

/-- A verification: its outcome, and what was executed for it. -/
structure Verification where
  registry : Registry
  outcome : VerifyOutcome
  executed : Option Execution := none

/-- The reference request, through a gateway. -/
def verifyThrough (workers : Workers) (epoch : UInt64) (reg : Registry) (boot : Nat)
    (p : GatewayPeer) : Except Error Verification := do
  let payload ← finish [putU64 Fid.inputA 7, putU64 Fid.inputB 11,
    putStr Fid.operation (text "verify")]
  let r := reg.exchange workers boot p ⟨.verifyService, 9104, epoch, payload⟩
  let v ← readVerified r.2.1
  return {
    registry := r.1
    outcome := {
      verified := v.1
      result := v.2
      detail := if v.1 then [] else text "verification rejected" }
    executed := r.2.2.map fun call => ⟨boot, call⟩ }

/-- `SocketOps::verify`.  The route and the authorization are not looked at. -/
def verify (workers : Workers) (epoch : UInt64) (reg : Registry) (_entry : RouteEntry)
    (_auth : WorkerAuthorization) : Except Error Verification :=
  match reg.gateways.first with
  | none => .ok ⟨reg, { detail := text "gateway not reachable" }, none⟩
  | some (boot, p) =>
    if p.alive then reg.verifyThrough workers epoch boot p
    else .ok ⟨reg, { detail := text "gateway not reachable" }, none⟩

end Registry

/-! ## What an installation installs -/

namespace Registry
variable {workers : Workers} {epoch : UInt64} {reg : Registry}

/-- The gateway reads the route that the coordinator sent. -/
theorem readInstall_route {e : RouteEntry} {bs : List UInt8} {msgId : UInt32}
    (h : finish (encodeRouteEntry e) = .ok bs) :
    Gateway.readInstall ⟨.installRoute, msgId, epoch, bs⟩ = some (epoch, wire e) := by
  simp [Gateway.readInstall, decode_encode_route_entry h, Except.toOption]

/-- **What is acknowledged is held**: the gateway has the route, as it was sent, under
its slot id. -/
theorem installRoute_holds {reg' : Registry} {e : RouteEntry} {boot : GatewayBootId}
    {ro : RouteOutcome} (h : reg.installRoute workers epoch e boot = .ok (reg', ro))
    (hack : ro.acknowledged = true) :
    ∃ p, reg'.gateways.find boot.value.toNat = some p ∧
      p.gateway.routes.find e.slot.slot.value.toNat = some (wire (reg.routed e)) := by
  unfold installRoute at h
  split at h
  · cases h
    cases hack
  split at h
  · unfold installThrough at h
    obtain ⟨payload, hp, h⟩ := bind_ok_iff.mp h
    obtain ⟨said, hsaid, h⟩ := bind_ok_iff.mp h
    cases h
    change said = true at hack
    subst hack
    unfold exchange at hsaid ⊢
    split at hsaid
    · rename_i done hdone
      rcases Gateway.control_eq_ok hdone with ⟨re, -, hread, hroutes, -⟩ | ⟨hnone, -⟩
      · rw [readInstall_route hp] at hread
        cases hread
        refine ⟨_, (OrderedMap.find_insert ..).trans (if_pos rfl), ?_⟩
        show done.gateway.routes.find _ = _
        rw [hroutes]
        exact (OrderedMap.find_insert ..).trans (if_pos rfl)
      · rw [readInstall_route hp] at hnone
        cases hnone
    · cases hsaid
  · cases h
    cases hack

end Registry

/-! ## What a verification executes -/

/-- A worker that did the work was sent the request, with the boot of the route. -/
theorem Gateway.computeOnWorker_ok {workers : Workers} {epoch : UInt64} {route : WireRoute}
    {a b : UInt64} {c : Gateway.Computed}
    (h : Gateway.computeOnWorker workers epoch route a b = .ok c) (hok : c.ok = true) :
    ∃ request, c.asked = some ⟨route.transport, request⟩ ∧
      (parse request.payload).bind (·.u64 Fid.boot) = .ok route.permittedBoot.value := by
  unfold Gateway.computeOnWorker at h
  obtain ⟨payload, hp, h⟩ := bind_ok_iff.mp h
  have hboot : (parse payload).bind (·.u64 Fid.boot) = .ok route.permittedBoot.value := by
    rw [parse_finish ?_ hp, Except.bind]
    · exact u64_putU64 rfl
    · simp only [Gateway.workerRequest, List.forall_mem_cons, List.not_mem_nil, false_implies,
        implies_true]
      exact ⟨wellFormed_putU64 .., wellFormed_putU64 .., wellFormed_putU64 .., wellFormed_putStr ..,
        trivial⟩
  simp only at h
  split at h
  · cases h
    cases hok
  · cases h
    cases hok
  · split at h
    · obtain ⟨r, -, h⟩ := bind_ok_iff.mp h
      obtain ⟨ok, -, h⟩ := bind_ok_iff.mp h
      obtain ⟨result, -, h⟩ := bind_ok_iff.mp h
      cases h
      exact ⟨_, rfl, hboot⟩
    · cases h
      cases hok

namespace Registry
variable {workers : Workers} {epoch : UInt64} {reg : Registry}

/-- A response that says ok came from a gateway whose worker did the work. -/
theorem readVerified_verifyService {g : Gateway} {f : Frame} {done : Gateway.Handled} {result : Text}
    (h : g.verifyService workers f = .ok done) (hv : readVerified done.reply = .ok (true, result)) :
    ∃ a b c, g.computeOnFirst workers a b = .ok c ∧ c.ok = true ∧ done.asked = c.asked := by
  obtain ⟨r, a, b, c, bs, -, -, -, hc, hbs, rfl⟩ := Gateway.verifyService_eq_ok h
  refine ⟨a, b, c, hc, ?_, rfl⟩
  have hw : ∀ f ∈ putBool Fid.ok (Gateway.parity c a b) ::
      (if c.result.isEmpty then [] else [putBytes Fid.payload c.result]), f.WellFormed := by
    refine List.forall_mem_cons.mpr ⟨wellFormed_putBool .., fun f hf => ?_⟩
    split at hf
    · cases hf
    · rw [List.mem_singleton] at hf
      exact hf ▸ wellFormed_putBytes ..
  simp only [readVerified, if_true] at hv
  rw [parse_finish hw hbs] at hv
  obtain ⟨rr, hrr, hv⟩ := bind_ok_iff.mp hv
  cases hrr
  obtain ⟨ok, hok, hv⟩ := bind_ok_iff.mp hv
  obtain ⟨res, -, hv⟩ := bind_ok_iff.mp hv
  cases hv
  rw [flag_putBool (v := Gateway.parity c a b) rfl] at hok
  have hparity : Gateway.parity c a b = true := Except.ok.inj hok
  exact (Bool.and_eq_true_iff.mp hparity).1

theorem computeOnFirst_ok {g : Gateway} {a b : UInt64} {c : Gateway.Computed}
    (h : g.computeOnFirst workers a b = .ok c) (hok : c.ok = true) :
    ∃ k route request, g.routes.first = some (k, route) ∧
      c.asked = some ⟨route.transport, request⟩ ∧
      (parse request.payload).bind (·.u64 Fid.boot) = .ok route.permittedBoot.value := by
  unfold Gateway.computeOnFirst at h
  split at h
  · cases h
    cases hok
  · rename_i k route hfirst
    obtain ⟨request, hasked, hboot⟩ := Gateway.computeOnWorker_ok h hok
    exact ⟨k, route, request, hfirst, hasked, hboot⟩

/-- **What a verification rests on**: the first route of the first gateway. -/
theorem verify_executed {entry : RouteEntry} {auth : WorkerAuthorization} {v : Verification}
    (h : reg.verify workers epoch entry auth = .ok v) (hv : v.outcome.verified = true) :
    ∃ boot p k route request, reg.gateways.first = some (boot, p) ∧
      p.gateway.routes.first = some (k, route) ∧
      v.executed = some ⟨boot, ⟨route.transport, request⟩⟩ ∧
      (parse request.payload).bind (·.u64 Fid.boot) = .ok route.permittedBoot.value := by
  unfold verify at h
  split at h
  · cases h
    cases hv
  rename_i boot p hfirst
  split at h
  · unfold verifyThrough at h
    obtain ⟨payload, -, h⟩ := bind_ok_iff.mp h
    obtain ⟨said, hsaid, h⟩ := bind_ok_iff.mp h
    cases h
    have hverified : said.1 = true := hv
    unfold exchange at hsaid ⊢
    split at hsaid
    · rename_i done hdone
      have hreply : readVerified done.reply = .ok (true, said.2) := by rw [hsaid, ← hverified]
      obtain ⟨a, b, c, hc, hok, hasked⟩ := readVerified_verifyService hdone hreply
      obtain ⟨k, route, request, hroute, hcall, hboot⟩ := computeOnFirst_ok hc hok
      refine ⟨boot, p, k, route, request, hfirst, hroute, ?_, hboot⟩
      simp only [hasked, hcall, Option.map_some]
    · cases hsaid
      cases hverified
  · cases h
    cases hv

/-- The gateway of the boot sent the request, to where the target of the route
listens and with the boot that the route permits. -/
def ExecutedFor (reg : Registry) (entry : RouteEntry) (boot : GatewayBootId) (x : Execution) : Prop :=
  x.boot = boot.value.toNat ∧ x.call.transport = reg.targetTransport entry.target ∧
    (parse x.call.request.payload).bind (·.u64 Fid.boot) = .ok entry.permittedBoot.value

/-- **When a verification exercises the route being cut over.**  For all gateways,
with any routes, all workers and every route: when `verify` reports verified, the
reference request was executed through the gateway of the given boot and by the
worker that the route names, exactly if that gateway is the first one and its first
route leads there, with that boot. -/
theorem verification_exact_iff {entry : RouteEntry} {auth : WorkerAuthorization} {v : Verification}
    (h : reg.verify workers epoch entry auth = .ok v) (hv : v.outcome.verified = true)
    (boot : GatewayBootId) :
    (∃ x, v.executed = some x ∧ reg.ExecutedFor entry boot x) ↔
      ∃ p k route, reg.gateways.first = some (boot.value.toNat, p) ∧
        p.gateway.routes.first = some (k, route) ∧
        route.transport = reg.targetTransport entry.target ∧
        route.permittedBoot = entry.permittedBoot := by
  obtain ⟨first, p, k, route, request, hfirst, hroute, hexecuted, hboot⟩ := verify_executed h hv
  constructor
  · rintro ⟨x, hx, hgateway, htransport, hpermitted⟩
    rw [hexecuted] at hx
    cases hx
    change first = boot.value.toNat at hgateway
    refine ⟨p, k, route, hgateway ▸ hfirst, hroute, htransport, ?_⟩
    have hvalue : route.permittedBoot.value = entry.permittedBoot.value :=
      Except.ok.inj (hboot.symm.trans hpermitted)
    exact congrArg Id.mk hvalue
  · rintro ⟨p', k', route', hfirst', hroute', htransport, hpermitted⟩
    rw [hfirst] at hfirst'
    cases hfirst'
    rw [hroute] at hroute'
    cases hroute'
    exact ⟨_, hexecuted, rfl, htransport, hpermitted ▸ hboot⟩

/-- **An undisturbed verification is exact** if the gateway that acknowledged the route
is the first one, and the slot id the first one that it has a route for. -/
theorem undisturbed_verification {reg' : Registry} {e : RouteEntry} {boot : GatewayBootId}
    {ro : RouteOutcome} (hi : reg.installRoute workers epoch e boot = .ok (reg', ro))
    (hack : ro.acknowledged = true) {p : GatewayPeer}
    (hfirst : reg'.gateways.first = some (boot.value.toNat, p)) {route : WireRoute}
    (hroute : p.gateway.routes.first = some (e.slot.slot.value.toNat, route))
    {auth : WorkerAuthorization} {v : Verification}
    (h : reg'.verify workers epoch e auth = .ok v) (hv : v.outcome.verified = true) :
    ∃ x, v.executed = some x ∧ reg.ExecutedFor e boot x := by
  obtain ⟨p', hp', hheld⟩ := installRoute_holds hi hack
  rw [OrderedMap.find_first hfirst] at hp'
  cases hp'
  rw [OrderedMap.find_first hroute] at hheld
  cases hheld
  obtain ⟨first, p', k, route, request, hfirst', hroute', hexecuted, hboot⟩ := verify_executed h hv
  rw [hfirst] at hfirst'
  cases hfirst'
  rw [hroute] at hroute'
  cases hroute'
  exact ⟨_, hexecuted, rfl, rfl, hboot⟩

/-- The first route of the first gateway, with the boot and the slot id. -/
def firstPath (reg : Registry) : Option (Nat × Nat × WireRoute) :=
  reg.gateways.first.bind fun q => q.2.gateway.routes.first.map fun r => (q.1, r.1, r.2)

theorem firstPath_eq_some {boot k : Nat} {route : WireRoute}
    (h : reg.firstPath = some (boot, k, route)) :
    ∃ p, reg.gateways.first = some (boot, p) ∧ p.gateway.routes.first = some (k, route) := by
  obtain ⟨⟨boot', p⟩, hfirst, h⟩ := Option.bind_eq_some_iff.mp h
  obtain ⟨⟨k', route'⟩, hroute, h⟩ := Option.map_eq_some_iff.mp h
  cases h
  exact ⟨p, hfirst, hroute⟩

end Registry

namespace Reference

/-- An active worker with its boot, at an input that has no other meaning. -/
def activeWorker (boot : UInt64) (f : Frame) : WorkerReply :=
  let read := (parse f.payload).bind fun r => do
    return (← r.u64 Fid.inputA, ← r.u64 Fid.inputB, ← r.u64 Fid.boot)
  match read with
  | .error _ => .closed
  | .ok (a, b, asked) =>
    .frame ⟨.executionResult, f.msgId, f.epoch, payloadOf
      (if asked = boot then [putBool Fid.ok true, putBytes Fid.payload (referenceText a b)]
      else [putBool Fid.ok false, putStr Fid.detail (text "not active or stale boot")])⟩

/-- The replacements of two services: targets 2 and 4, with boots 22 and 44. -/
def replacements : Workers := fun transport f =>
  if transport = localTransport 9002 then activeWorker 22 f
  else if transport = localTransport 9004 then activeWorker 44 f
  else .unreachable

/-- One gateway, and the workers of two services. -/
def oneGateway : Registry where
  workers := (((({} : OrderedMap Nat UInt16).insert 1 9001).insert 2 9002).insert 3 9003).insert 4 9004
  gateways := ({} : OrderedMap Nat GatewayPeer).insert 1 {}

/-- The routes that the cutovers of the two services install. -/
def firstCutover : RouteEntry := routeTo 1 2 22 9002 2

def secondCutover : RouteEntry := routeTo 2 4 44 9004 2

/-- The registry once the first route is installed. -/
def firstInstalled : Registry :=
  ((oneGateway.installRoute replacements 1 firstCutover ⟨1⟩).toOption.map (·.1)).getD oneGateway

/-- The second cutover installs its route before the first one is verified: what the
first one is told, and whether its worker was asked. -/
def interleaved : Except Error (Bool × Bool × Bool) := do
  let a ← oneGateway.installRoute replacements 1 firstCutover ⟨1⟩
  let b ← a.1.installRoute replacements 1 secondCutover ⟨1⟩
  let v ← b.1.verify replacements 1 firstCutover {}
  return (a.2.acknowledged, v.outcome.verified,
    v.executed.any fun x => x.call.transport == b.1.targetTransport firstCutover.target)

end Reference

open Reference in
/-- With one gateway and one cutover, the verification is that of its route. -/
theorem verification_exact_reference :
    ∃ v, firstInstalled.verify replacements 1 firstCutover {} = .ok v ∧ v.outcome.verified = true ∧
      ∃ x, v.executed = some x ∧ firstInstalled.ExecutedFor firstCutover ⟨1⟩ x := by
  have hverified : (firstInstalled.verify replacements 1 firstCutover {}).toOption.any
      (·.outcome.verified) = true := by decide +kernel
  cases hv : firstInstalled.verify replacements 1 firstCutover {} with
  | error e =>
    rw [hv] at hverified
    cases hverified
  | ok v =>
    rw [hv] at hverified
    have hpath : firstInstalled.firstPath = some (1, 1, wire firstCutover) := by decide +kernel
    obtain ⟨p, hfirst, hroute⟩ := Registry.firstPath_eq_some hpath
    exact ⟨v, rfl, hverified, (Registry.verification_exact_iff hv hverified ⟨1⟩).mpr
      ⟨p, 1, wire firstCutover, hfirst, hroute, by decide +kernel, rfl⟩⟩

open Reference in
/-- **A verification can rest on another route.**  Between the installation of a route
and its verification, the cutover of another service installs its own, under the same
slot id; the worker of that one does the reference work. -/
theorem verification_inexact :
    ¬ ∀ (workers : Workers) epoch (reg0 reg1 reg2 : Registry) entry other boot ro ro' auth v,
      reg0.installRoute workers epoch entry boot = .ok (reg1, ro) → ro.acknowledged = true →
        reg1.installRoute workers epoch other boot = .ok (reg2, ro') →
          reg2.verify workers epoch entry auth = .ok v → v.outcome.verified = true →
            ∃ x, v.executed = some x ∧ reg2.ExecutedFor entry boot x := by
  intro h
  have hrun : interleaved = .ok (true, true, false) := by decide +kernel
  obtain ⟨⟨reg1, ro⟩, h1, hrun⟩ := bind_ok_iff.mp hrun
  obtain ⟨⟨reg2, ro'⟩, h2, hrun⟩ := bind_ok_iff.mp hrun
  obtain ⟨v, h3, hrun⟩ := bind_ok_iff.mp hrun
  simp only [pure, Except.pure, Except.ok.injEq, Prod.mk.injEq] at hrun
  obtain ⟨hack, hverified, hno⟩ := hrun
  obtain ⟨x, hx, -, htransport, -⟩ :=
    h replacements 1 oneGateway reg1 reg2 firstCutover secondCutover ⟨1⟩ ro ro' {} v h1 hack h2 h3 hverified
  rw [hx, Option.any_some, htransport] at hno
  simp at hno

end FailoverFabric

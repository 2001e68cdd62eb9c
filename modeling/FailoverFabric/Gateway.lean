import FailoverFabric.Protocol.Common
import FailoverFabric.Library.OrderedMap

/-! # The gateway

`gateway_main.cpp`.  A gateway takes routes from the coordinator over its control
connection, and dispatches the requests of its clients along them.  It keeps one
route for each slot id, without the service, and takes every route it is sent,
without a look at the one it has.

`services_apart_iff` says which requests go along a route of their own service, and
`updates_rise_iff` after which sequences of messages no route has been replaced by an
older one.
-/
namespace FailoverFabric
open Protocol Codec

/-- What comes back from a worker: nothing can be sent to it, it closes the
connection, or it answers. -/
inductive WorkerReply
  | unreachable
  | closed
  | frame (f : Frame)

/-- The workers, by their transports. -/
abbrev Workers := Text → Frame → WorkerReply

/-- The coordinator's end of the gateway's own connection. -/
abbrev Rpc := Frame → Option Frame

/-- The state of a gateway process: `g_routes`, by slot id, and `g_epoch`. -/
structure Gateway where
  routes : OrderedMap Nat WireRoute := {}
  epoch : UInt64 := 0

namespace Gateway

/-- A request that a worker was sent, and where to. -/
structure WorkerCall where
  transport : Text
  request : Frame
  deriving DecidableEq

/-- What `compute_on_worker` found out.  `asked` is what it rests on, which the code
does not keep. -/
structure Computed where
  ok : Bool := false
  withheld : Bool := false
  result : Text := []
  asked : Option WorkerCall := none
  deriving DecidableEq

/-- The request to the worker of a route. -/
def workerRequest (route : WireRoute) (a b : UInt64) : List Field :=
  [putU64 Fid.inputA a, putU64 Fid.inputB b, putU64 Fid.boot route.permittedBoot.value,
    putStr Fid.operation (text "serve")]

/-- Send a request along a route, and read the worker's result.  A connection that
is closed without one leaves the outcome unknown. -/
def computeOnWorker (workers : Workers) (epoch : UInt64) (route : WireRoute) (a b : UInt64) :
    Except Error Computed := do
  let payload ← finish (workerRequest route a b)
  let call : WorkerCall := ⟨route.transport, ⟨.verifyService, 1001, epoch, payload⟩⟩
  match workers call.transport call.request with
  | .unreachable => return {}
  | .closed => return { withheld := true, asked := some call }
  | .frame f =>
    if f.type = .executionResult then
      let r ← parse f.payload
      let ok ← r.flag Fid.ok
      let result ← resultIn r ok
      return { ok := ok, result := result, asked := some call }
    else return { asked := some call }

/-- The worker did the reference work. -/
def parity (c : Computed) (a b : UInt64) : Bool := c.ok && c.result == referenceText a b

/-! ## The control connection -/

/-- What a message of the control connection leads to. -/
structure Handled where
  gateway : Gateway
  reply : Option Frame := none
  asked : Option WorkerCall := none

/-- `INSTALL_ROUTE`: the route replaces the one of its slot id, and is
acknowledged. -/
def installRoute (g : Gateway) (f : Frame) : Except Error Handled := do
  let r ← parse f.payload
  let re ← decodeRouteEntry r
  let ack ← finish [putBool Fid.ok true]
  return {
    gateway := { g with routes := g.routes.insert re.slot.slot.value.toNat re }
    reply := some ⟨.routeAck, f.msgId, f.epoch, ack⟩ }

/-- The work is done along the first route there is. -/
def computeOnFirst (workers : Workers) (g : Gateway) (a b : UInt64) : Except Error Computed :=
  match g.routes.first with
  | none => .ok {}
  | some (_, route) => computeOnWorker workers g.epoch route a b

/-- `VERIFY_SERVICE`: the reference work, for the coordinator. -/
def verifyService (workers : Workers) (g : Gateway) (f : Frame) : Except Error Handled := do
  let r ← parse f.payload
  let a ← r.u64 Fid.inputA
  let b ← r.u64 Fid.inputB
  let c ← g.computeOnFirst workers a b
  let reply ← finish
    (putBool Fid.ok (parity c a b) :: if c.result.isEmpty then [] else [putBytes Fid.payload c.result])
  return { gateway := g, reply := some ⟨.verifyService, f.msgId, f.epoch, reply⟩, asked := c.asked }

/-- One message of the control connection, and the reply.  An exception ends the
process: nothing catches it. -/
def control (workers : Workers) (g : Gateway) (f : Frame) : Except Error Handled :=
  let g := { g with epoch := f.epoch }
  match f.type with
  | .installRoute => g.installRoute f
  | .verifyService => g.verifyService workers f
  | _ => return { gateway := g }

/-- The messages of the control connection, one after another. -/
def serve (workers : Workers) (g : Gateway) (fs : List Frame) : Except Error Gateway :=
  fs.foldlM (fun g f => (g.control workers f).map (·.gateway)) g

/-! ## The clients -/

/-- A client's request. -/
structure ClientRequest where
  a : UInt64
  b : UInt64
  slot : UInt64
  service : UInt64
  idempotent : Bool
  externallyEffectful : Bool
  deriving DecidableEq

/-- The slot that the client names. -/
def ClientRequest.slotKey (q : ClientRequest) : ServiceSlotKey := ⟨⟨q.service⟩, ⟨q.slot⟩⟩

/-- A word that may be missing. -/
def optional (r : PayloadReader) (field : UInt8) (absent : UInt64) : Except Error UInt64 :=
  if r.has field then r.u64 field else return absent

def readClient (payload : List UInt8) : Except Error ClientRequest := do
  let r ← parse payload
  let a ← optional r Fid.inputA 0
  let b ← optional r Fid.inputB 0
  let slot ← optional r Fid.slot 1
  let service ← optional r Fid.service 1
  let idempotent ← r.flag Fid.idempotent
  let externallyEffectful ← r.flag Fid.externallyEffectful
  return ⟨a, b, slot, service, idempotent, externallyEffectful⟩

/-- What the gateway asks the coordinator. -/
def authorizeRequest (q : ClientRequest) (msgId : UInt32) : List Field :=
  [putU64 Fid.service q.service, putU64 Fid.slot q.slot, putU64 Fid.requestId msgId.toUInt64,
    putBool Fid.idempotent q.idempotent, putBool Fid.externallyEffectful q.externallyEffectful]

/-- What the gateway keeps of a grant. -/
structure Grant where
  epoch : UInt64
  epochId : UInt64
  epochBoot : UInt64
  assignment : UInt64
  assignmentGen : UInt64
  routeGen : UInt64
  boot : UInt64
  incarnation : UInt64
  deriving DecidableEq

/-- The coordinator's answer, if there is one and it is a grant. -/
def readGrant : Option Frame → Except Error (Option Grant)
  | none => return none
  | some f => do
    if f.type ≠ .authorizeRequest then return none
    let q ← parse f.payload
    let ok ← q.flag Fid.ok
    if !ok then return none
    return some {
      epoch := ← q.u64 Fid.epoch
      epochId := ← q.u64 Fid.epochId
      epochBoot := ← q.u64 Fid.epochBoot
      assignment := ← q.u64 Fid.assignmentId
      assignmentGen := ← q.u64 Fid.assignmentGen
      routeGen := ← q.u64 Fid.routeGen
      boot := ← q.u64 Fid.boot
      incarnation := ← q.u64 Fid.incarnation }

/-- The coordinator is asked for a grant. -/
def askCoordinator (rpc : Rpc) (g : Gateway) (f : Frame) (q : ClientRequest) :
    Except Error (Option Grant) := do
  let payload ← finish (authorizeRequest q f.msgId)
  readGrant (rpc ⟨.authorizeRequest, f.msgId, g.epoch, payload⟩)

/-- What becomes of a request. -/
inductive Admission
  | notAuthorized
  | noRoute
  | dispatched (grant : Grant) (route : WireRoute)

/-- The first half of `handle_client`: with the coordinator's grant, the request goes
to the worker of the route for its slot id. -/
def admitClient (rpc : Rpc) (g : Gateway) (f : Frame) :
    Except Error (ClientRequest × Admission) := do
  let q ← readClient f.payload
  match ← askCoordinator rpc g f q with
  | none => return (q, .notAuthorized)
  | some grant =>
    match g.routes.find q.slot.toNat with
    | none => return (q, .noRoute)
    | some route => return (q, .dispatched grant route)

/-- What the gateway reports to the coordinator once the worker has been asked. -/
def authorizeResult (q : ClientRequest) (msgId : UInt32) (grant : Grant) (withheld : Bool) :
    List Field :=
  [putU64 Fid.service q.service, putU64 Fid.slot q.slot, putU64 Fid.epoch grant.epoch,
    putU64 Fid.epochId grant.epochId, putU64 Fid.epochBoot grant.epochBoot,
    putU64 Fid.assignmentId grant.assignment, putU64 Fid.assignmentGen grant.assignmentGen,
    putU64 Fid.routeGen grant.routeGen, putU64 Fid.boot grant.boot,
    putU64 Fid.incarnation grant.incarnation, putU64 Fid.requestId msgId.toUInt64,
    putU64 Fid.executionId msgId.toUInt64, putBool Fid.withheld withheld]

/-- The coordinator's judgement of the result, and its detail. -/
def readJudgement : Option Frame → Except Error (Bool × Text)
  | none => return (false, [])
  | some f => do
    if f.type ≠ .authorizeResult then return (false, [])
    let q ← parse f.payload
    let ok ← q.flag Fid.ok
    let detail ← if q.has Fid.detail then q.str Fid.detail else pure []
    return (ok, detail)

/-- The route that a message installs, with the epoch of its frame. -/
def readInstall (f : Frame) : Option (UInt64 × WireRoute) :=
  if f.type = .installRoute then
    (((parse f.payload).bind decodeRouteEntry).toOption).map fun re => (f.epoch, re)
  else none

/-- The routes that were installed, in their order. -/
def installs (fs : List Frame) : List (UInt64 × WireRoute) := fs.filterMap readInstall

/-- The last route that was installed for a slot id, whatever its service. -/
def lastFor (fs : List Frame) (slot : UInt64) : Option (UInt64 × WireRoute) :=
  (installs fs).reverse.find? fun u => u.2.slot.slot.value == slot

theorem installRoute_eq_ok {g : Gateway} {f : Frame} {done : Handled}
    (h : g.installRoute f = .ok done) :
    ∃ r re ack, parse f.payload = .ok r ∧ decodeRouteEntry r = .ok re ∧
      finish [putBool Fid.ok true] = .ok ack ∧
      done.gateway = { g with routes := g.routes.insert re.slot.slot.value.toNat re } ∧
      done.reply = some ⟨.routeAck, f.msgId, f.epoch, ack⟩ := by
  unfold installRoute at h
  obtain ⟨r, hr, h⟩ := bind_ok_iff.mp h
  obtain ⟨re, hre, h⟩ := bind_ok_iff.mp h
  obtain ⟨ack, hack, h⟩ := bind_ok_iff.mp h
  cases h
  exact ⟨r, re, ack, hr, hre, hack, rfl, rfl⟩

theorem verifyService_eq_ok {workers : Workers} {g : Gateway} {f : Frame} {done : Handled}
    (h : g.verifyService workers f = .ok done) :
    ∃ r a b c bs, parse f.payload = .ok r ∧ r.u64 Fid.inputA = .ok a ∧ r.u64 Fid.inputB = .ok b ∧
      g.computeOnFirst workers a b = .ok c ∧
      finish (putBool Fid.ok (parity c a b) ::
        if c.result.isEmpty then [] else [putBytes Fid.payload c.result]) = .ok bs ∧
      done = ⟨g, some ⟨.verifyService, f.msgId, f.epoch, bs⟩, c.asked⟩ := by
  unfold verifyService at h
  obtain ⟨r, hr, h⟩ := bind_ok_iff.mp h
  obtain ⟨a, ha, h⟩ := bind_ok_iff.mp h
  obtain ⟨b, hb, h⟩ := bind_ok_iff.mp h
  obtain ⟨c, hc, h⟩ := bind_ok_iff.mp h
  obtain ⟨bs, hbs, h⟩ := bind_ok_iff.mp h
  cases h
  exact ⟨r, a, b, c, bs, hr, ha, hb, hc, hbs, rfl⟩

/-- **A message of the control connection, inverted**: it installs its route, whatever
the gateway has, and says so; or it leaves the routes alone. -/
theorem control_eq_ok {workers : Workers} {g : Gateway} {f : Frame} {done : Handled}
    (h : g.control workers f = .ok done) :
    (∃ re ack, readInstall f = some (f.epoch, re) ∧
      done.gateway.routes = g.routes.insert re.slot.slot.value.toNat re ∧
      finish [putBool Fid.ok true] = .ok ack ∧
      done.reply = some ⟨.routeAck, f.msgId, f.epoch, ack⟩) ∨
      readInstall f = none ∧ done.gateway.routes = g.routes := by
  unfold control at h
  simp only at h
  split at h
  · rename_i htype
    obtain ⟨r, re, ack, hr, hre, hack, hg, hreply⟩ := installRoute_eq_ok h
    refine Or.inl ⟨re, ack, ?_, by rw [hg], hack, hreply⟩
    simp [readInstall, htype, hr, Except.bind, hre, Except.toOption]
  · rename_i htype
    obtain ⟨r, a, b, c, bs, -, -, -, -, -, rfl⟩ := verifyService_eq_ok h
    exact Or.inr ⟨by simp [readInstall, htype], rfl⟩
  · rename_i hinstall _
    cases h
    exact Or.inr ⟨if_neg hinstall, rfl⟩

theorem lastFor_cons (f : Frame) (fs : List Frame) (slot : UInt64) :
    lastFor (f :: fs) slot =
      (lastFor fs slot).or ((readInstall f).filter fun u => u.2.slot.slot.value == slot) := by
  unfold lastFor installs
  cases hread : readInstall f with
  | none => simp [hread]
  | some u =>
    rw [List.filterMap_cons_some hread, List.reverse_cons, List.find?_append, List.find?_singleton,
      Option.filter_some]

/-- **What a gateway holds**: for each slot id, the last route it was sent. -/
theorem serve_find {workers : Workers} {fs : List Frame} {g g' : Gateway}
    (h : g.serve workers fs = .ok g') (slot : UInt64) :
    g'.routes.find slot.toNat = ((lastFor fs slot).map (·.2)).or (g.routes.find slot.toNat) := by
  induction fs generalizing g with
  | nil =>
    cases h
    rfl
  | cons f fs ih =>
    unfold serve at h
    rw [List.foldlM_cons] at h
    obtain ⟨g1, h1, h⟩ := bind_ok_iff.mp h
    cases hc : g.control workers f with
    | error e =>
      rw [hc] at h1
      cases h1
    | ok r =>
      rw [hc] at h1
      cases h1
      rw [ih h, lastFor_cons]
      rcases control_eq_ok hc with ⟨re, -, hread, hroutes, -⟩ | ⟨hread, hroutes⟩
      · rw [hread, hroutes, OrderedMap.find_insert]
        by_cases heq : re.slot.slot.value = slot
        · cases lastFor fs slot <;> simp [heq, Option.filter_some]
        · have hne : slot.toNat ≠ re.slot.slot.value.toNat := fun hk => heq (UInt64.toNat.inj hk).symm
          cases lastFor fs slot <;> simp [heq, hne, Option.filter_some]
      · rw [hread, hroutes]
        simp

theorem serve_empty_find {workers : Workers} {fs : List Frame} {g : Gateway}
    (h : ({} : Gateway).serve workers fs = .ok g) (slot : UInt64) :
    g.routes.find slot.toNat = (lastFor fs slot).map (·.2) := by
  rw [serve_find h, OrderedMap.find_empty, Option.or_none]

/-! ## Services -/

/-- A request is dispatched along the route that the gateway holds for its slot id. -/
theorem admitClient_dispatched {rpc : Rpc} {g : Gateway} {f : Frame} {q : ClientRequest}
    {grant : Grant} {route : WireRoute} :
    g.admitClient rpc f = .ok (q, .dispatched grant route) ↔
      readClient f.payload = .ok q ∧ askCoordinator rpc g f q = .ok (some grant) ∧
        g.routes.find q.slot.toNat = some route := by
  unfold admitClient
  rw [bind_ok_iff]
  constructor
  · rintro ⟨q', hread, h⟩
    obtain ⟨granted, hask, h⟩ := bind_ok_iff.mp h
    cases granted with
    | none => cases h
    | some grant' =>
      cases hroute : g.routes.find q'.slot.toNat with
      | none => simp only [hroute] at h; cases h
      | some route' =>
        simp only [hroute] at h
        cases h
        exact ⟨hread, hask, hroute⟩
  · rintro ⟨hread, hask, hroute⟩
    refine ⟨q, hread, bind_ok_iff.mpr ⟨some grant, hask, ?_⟩⟩
    simp only [hroute]
    rfl

/-- Some route that was installed for the slot has this transport and this boot. -/
def InstalledFor (fs : List Frame) (slot : ServiceSlotKey) (route : WireRoute) : Prop :=
  ∃ u ∈ installs fs, u.2.slot = slot ∧ u.2.transport = route.transport ∧
    u.2.permittedBoot = route.permittedBoot

instance (fs : List Frame) (slot : ServiceSlotKey) (route : WireRoute) :
    Decidable (InstalledFor fs slot route) :=
  inferInstanceAs (Decidable (∃ u ∈ installs fs, _))

/-- **When services do not share routes.**  After every sequence of messages, for
every client request and every coordinator: what is dispatched goes to the transport,
and with the boot, of a route that was installed for the very slot that the client
names, exactly if the last route for the slot id is of the client's service, or
repeats such a route. -/
theorem services_apart_iff {workers : Workers} {fs : List Frame} {g : Gateway}
    (h : ({} : Gateway).serve workers fs = .ok g) (rpc : Rpc) (f : Frame) :
    (∀ q grant route, g.admitClient rpc f = .ok (q, .dispatched grant route) →
        InstalledFor fs q.slotKey route) ↔
      ∀ q grant u, readClient f.payload = .ok q → askCoordinator rpc g f q = .ok (some grant) →
        lastFor fs q.slot = some u → u.2.slot.service = ⟨q.service⟩ ∨ InstalledFor fs q.slotKey u.2 := by
  constructor
  · intro hd q grant u hread hask hlast
    have hroute : g.routes.find q.slot.toNat = some u.2 := by
      rw [serve_empty_find h, hlast, Option.map_some]
    exact Or.inr (hd q grant u.2 (admitClient_dispatched.mpr ⟨hread, hask, hroute⟩))
  · intro hc q grant route hd
    obtain ⟨hread, hask, hroute⟩ := admitClient_dispatched.mp hd
    rw [serve_empty_find h] at hroute
    obtain ⟨u, hlast, rfl⟩ := Option.map_eq_some_iff.mp hroute
    rcases hc q grant u hread hask hlast with hservice | hrepeat
    · have hslot : u.2.slot.slot.value = q.slot := by simpa using List.find?_some hlast
      refine ⟨u, List.mem_reverse.mp (List.mem_of_find?_eq_some hlast), ?_, rfl, rfl⟩
      show u.2.slot = ⟨⟨q.service⟩, ⟨q.slot⟩⟩
      rw [← hservice, ← hslot]
    · exact hrepeat

/-! ## Updates -/

/-- The update is not of a newer generation than the route that is held, or is of an
earlier epoch. -/
def stale (held new : UInt64 × WireRoute) : Bool :=
  decide (new.2.generation.value ≤ held.2.generation.value) || decide (new.1 < held.1)

/-- The reply acknowledges a route with `ok`. -/
def acknowledges : Option Frame → Bool
  | none => false
  | some f =>
    f.type == .routeAck && ((parse f.payload).bind fun r => r.flag Fid.ok).toOption == some true

/-- **Stale updates are rejected**: at each message of the sequence that is a stale
update, the gateway keeps the route it holds, and does not acknowledge. -/
def RejectsStale (workers : Workers) (fs : List Frame) : Prop :=
  ∀ before f after g h new held, fs = before ++ f :: after →
    ({} : Gateway).serve workers before = .ok g → g.control workers f = .ok h →
      readInstall f = some new → lastFor before new.2.slot.slot.value = some held →
        stale held new = true →
          h.gateway.routes.find new.2.slot.slot.value.toNat = some held.2 ∧
            acknowledges h.reply = false

/-- **The updates rise**: each one is of a newer generation than the last one for its
slot id, and not of an earlier epoch. -/
def UpdatesRise (fs : List Frame) : Prop :=
  ∀ before f after new held, fs = before ++ f :: after → readInstall f = some new →
    lastFor before new.2.slot.slot.value = some held → stale held new = false

theorem serve_append {workers : Workers} {before after : List Frame} {f : Frame} {g g' : Gateway}
    (h : g.serve workers (before ++ f :: after) = .ok g') :
    ∃ g1 h1, g.serve workers before = .ok g1 ∧ g1.control workers f = .ok h1 := by
  unfold serve at h
  rw [List.foldlM_append] at h
  obtain ⟨g1, hg1, h⟩ := bind_ok_iff.mp h
  rw [List.foldlM_cons] at h
  obtain ⟨g2, hg2, -⟩ := bind_ok_iff.mp h
  cases hc : g1.control workers f with
  | error e =>
    rw [hc] at hg2
    cases hg2
  | ok h1 => exact ⟨g1, h1, hg1, hc⟩

/-- Every update is acknowledged. -/
theorem control_acknowledges {workers : Workers} {g : Gateway} {f : Frame} {done : Handled}
    {new : UInt64 × WireRoute} (h : g.control workers f = .ok done)
    (hread : readInstall f = some new) : acknowledges done.reply = true := by
  rcases control_eq_ok h with ⟨re, ack, -, -, hack, hreply⟩ | ⟨hnone, -⟩
  · have hbytes : finish [putBool Fid.ok true] = .ok (payloadOf [putBool Fid.ok true]) := by
      decide +kernel
    rw [hbytes] at hack
    cases hack
    have hok : ((parse (payloadOf [putBool Fid.ok true])).bind fun r => r.flag Fid.ok).toOption =
        some true := by decide +kernel
    simp [acknowledges, hreply, hok]
  · rw [hread] at hnone
    cases hnone

/-- **When stale updates are rejected.**  For every sequence of messages that the
gateway handles: exactly if there are none.  It never rejects one. -/
theorem updates_rise_iff {workers : Workers} {fs : List Frame} {g : Gateway}
    (h : ({} : Gateway).serve workers fs = .ok g) : RejectsStale workers fs ↔ UpdatesRise fs := by
  constructor
  · intro hr before f after new held hsplit hread hlast
    by_contra hstale
    rw [Bool.not_eq_false] at hstale
    subst hsplit
    obtain ⟨g1, h1, hg1, hh1⟩ := serve_append h
    have hno := (hr before f after g1 h1 new held rfl hg1 hh1 hread hlast hstale).2
    rw [control_acknowledges hh1 hread] at hno
    cases hno
  · intro hrise before f after g1 h1 new held hsplit _ _ hread hlast hstale
    rw [hrise before f after new held hsplit hread hlast] at hstale
    cases hstale

end Gateway

namespace Reference

/-- A route to a worker of this host. -/
def routeTo (service target boot : UInt64) (port : UInt16) (generation : UInt64) : RouteEntry where
  route := ⟨1⟩
  generation := ⟨generation⟩
  slot := ⟨⟨service⟩, ⟨1⟩⟩
  target := ⟨target⟩
  permittedBoot := ⟨boot⟩
  assignment := ⟨1⟩
  epoch := ⟨1, ⟨1⟩, ⟨1⟩⟩
  state := .acknowledged
  transport := localTransport port

/-- The coordinator's message for a route. -/
def sendRoute (epoch : UInt64) (e : RouteEntry) : Frame :=
  ⟨.installRoute, 9103, epoch, payloadOf (encodeRouteEntry e)⟩

/-- A client's request to slot 1 of a service. -/
def clientOf (service : UInt64) : Frame :=
  ⟨.verifyService, 1, 0, payloadOf [putU64 Fid.service service, putU64 Fid.slot 1]⟩

/-- The coordinator's grant. -/
def grantReply : Frame :=
  ⟨.authorizeRequest, 1, 1, payloadOf [putBool Fid.ok true, putU64 Fid.epoch 1,
    putU64 Fid.epochId 1, putU64 Fid.epochBoot 1, putU64 Fid.slot 1, putU64 Fid.assignmentId 1,
    putU64 Fid.assignmentGen 1, putU64 Fid.routeGen 1, putU64 Fid.boot 11, putU64 Fid.incarnation 0,
    putU64 Fid.requestId 1, putU64 Fid.executionId 1, putStr Fid.operation (text "serve")]⟩

/-- A coordinator that grants every request. -/
def granting : Rpc := fun _ => some grantReply

/-- No worker answers. -/
def noWorkers : Workers := fun _ _ => .unreachable

/-- Messages that a gateway lives through. -/
theorem served (fs : List Frame) (h : (({} : Gateway).serve noWorkers fs).isOk = true) :
    ∃ g, ({} : Gateway).serve noWorkers fs = .ok g := by
  cases hs : ({} : Gateway).serve noWorkers fs with
  | error e =>
    rw [hs] at h
    cases h
  | ok g => exact ⟨g, rfl⟩

/-- A request of service 1 is granted. -/
theorem asked_granted (g : Gateway) :
    ∃ grant, Gateway.askCoordinator granting g (clientOf 1) ⟨0, 0, 1, 1, false, false⟩ =
      .ok (some grant) := by
  refine ⟨⟨1, 1, 1, 1, 1, 1, 11, 0⟩, ?_⟩
  have hread : Gateway.readGrant (some grantReply) = .ok (some ⟨1, 1, 1, 1, 1, 1, 11, 0⟩) := by
    decide +kernel
  exact bind_ok_iff.mpr ⟨payloadOf (Gateway.authorizeRequest ⟨0, 0, 1, 1, false, false⟩ 1),
    by decide +kernel, hread⟩

/-- Routes of two services, and of the first one again. -/
def sharedThenOwn : List Frame :=
  [sendRoute 1 (routeTo 1 1 11 9001 1), sendRoute 1 (routeTo 2 2 22 9002 1),
    sendRoute 1 (routeTo 1 3 33 9003 2)]

/-- Routes of two services. -/
def shared : List Frame :=
  [sendRoute 1 (routeTo 1 1 11 9001 1), sendRoute 1 (routeTo 2 2 22 9002 1)]

end Reference

open Reference in
/-- With the route of the client's own service last, the request goes along it. -/
theorem services_apart_reference :
    ∃ g, ({} : Gateway).serve noWorkers sharedThenOwn = .ok g ∧
      ∀ q grant route, g.admitClient granting (clientOf 1) = .ok (q, .dispatched grant route) →
        Gateway.InstalledFor sharedThenOwn q.slotKey route := by
  obtain ⟨g, hg⟩ := served sharedThenOwn (by decide +kernel)
  refine ⟨g, hg, (Gateway.services_apart_iff hg granting (clientOf 1)).mpr ?_⟩
  intro q grant u hread _ hlast
  have hq : Gateway.readClient (clientOf 1).payload = .ok ⟨0, 0, 1, 1, false, false⟩ := by
    decide +kernel
  rw [hq] at hread
  cases hread
  have hu : Gateway.lastFor sharedThenOwn 1 = some (1, wire (routeTo 1 3 33 9003 2)) := by
    decide +kernel
  rw [hu] at hlast
  cases hlast
  exact Or.inl rfl

open Reference in
/-- **Services share routes.**  A second service installs its route under the same
slot id; the requests of the first one go there. -/
theorem services_shared :
    ¬ ∀ (workers : Workers) fs g rpc f, ({} : Gateway).serve workers fs = .ok g →
      ∀ q grant route, g.admitClient rpc f = .ok (q, .dispatched grant route) →
        Gateway.InstalledFor fs q.slotKey route := by
  intro h
  obtain ⟨g, hg⟩ := served shared (by decide +kernel)
  obtain ⟨grant, hask⟩ := asked_granted g
  have hroute : g.routes.find (1 : UInt64).toNat = some (wire (routeTo 2 2 22 9002 1)) := by
    rw [Gateway.serve_empty_find hg]
    decide +kernel
  have hinstalled := h noWorkers shared g granting (clientOf 1) hg _ grant _
    (Gateway.admitClient_dispatched.mpr ⟨by decide +kernel, hask, hroute⟩)
  exact absurd hinstalled (by decide +kernel)

namespace Reference

def firstRoute : RouteEntry := routeTo 1 1 11 9001 1

def secondRoute : RouteEntry := routeTo 1 2 22 9002 2

theorem read_sendRoute : Gateway.readInstall (sendRoute 1 secondRoute) = some (1, wire secondRoute) ∧
    Gateway.readInstall (sendRoute 1 firstRoute) = some (1, wire firstRoute) := by
  constructor <;> decide +kernel

end Reference

open Reference in
/-- A route, and then a newer one. -/
theorem updates_rise_reference :
    ∃ g, ({} : Gateway).serve noWorkers [sendRoute 1 firstRoute, sendRoute 1 secondRoute] = .ok g ∧
      Gateway.RejectsStale noWorkers [sendRoute 1 firstRoute, sendRoute 1 secondRoute] := by
  obtain ⟨g, hg⟩ := served [sendRoute 1 firstRoute, sendRoute 1 secondRoute] (by decide +kernel)
  refine ⟨g, hg, (Gateway.updates_rise_iff hg).mpr fun before f after new held hsplit hread hlast => ?_⟩
  rcases before with _ | ⟨x, _ | ⟨y, rest⟩⟩
  · cases hlast
  · obtain ⟨rfl, hrest⟩ := List.cons_eq_cons.mp hsplit
    obtain ⟨rfl, -⟩ := List.cons_eq_cons.mp hrest
    rw [read_sendRoute.1] at hread
    cases hread
    have hheld : Gateway.lastFor [sendRoute 1 firstRoute] 1 = some (1, wire firstRoute) := by
      decide +kernel
    change Gateway.lastFor _ 1 = _ at hlast
    rw [hheld] at hlast
    cases hlast
    decide +kernel
  · have hlen := congrArg List.length hsplit
    simp at hlen

open Reference in
/-- **A stale update is taken.**  A delayed message brings the older generation; the
gateway acknowledges it, and holds it from then on. -/
theorem stale_update_taken :
    ¬ ∀ (workers : Workers) fs g, ({} : Gateway).serve workers fs = .ok g →
      Gateway.RejectsStale workers fs := by
  intro h
  obtain ⟨g, hg⟩ := served ([sendRoute 1 secondRoute] ++ [sendRoute 1 firstRoute])
    (by decide +kernel)
  have hr := h noWorkers _ g hg
  obtain ⟨g1, h1, hg1, hh1⟩ := Gateway.serve_append hg
  have hno := (hr [sendRoute 1 secondRoute] (sendRoute 1 firstRoute) [] g1 h1
    (1, wire firstRoute) (1, wire secondRoute) rfl hg1 hh1 read_sendRoute.2 (by decide +kernel)
    (by decide +kernel)).2
  rw [Gateway.control_acknowledges hh1 read_sendRoute.2] at hno
  cases hno

end FailoverFabric

import FailoverFabric.Handlers
import FailoverFabric.EvidenceFlow

/-! # Publications of readiness

The `PUBLISH_READINESS` handler of `coordinator_main.cpp` applies one message with
four calls of the fabric: it registers the target, and publishes its facts, its state
and its resources.  Each call takes the lock by itself, and the fields of the state are
read between the second and the third.  Handlers run on the threads of their
connections, beside each other and beside everything else that the coordinator does.

`Origins` remembers which message each part of a target's record came from.  In every
run in which no two messages of one target are applied at once, none of them breaks off
between its parts, and no snapshot is taken while a target of the slot is half
published, every candidate of every snapshot is of one message (`coherent_snapshots`).
-/
namespace FailoverFabric
open Fabric Protocol

/-! ## The message -/

namespace Protocol.PayloadReader

/-- `r.has(f) ? r.str(f) : standard`. -/
def strOr (r : PayloadReader) (field : UInt8) (standard : String) : Except Error Text :=
  if r.has field then r.str field else return text standard

/-- `r.has(f) ? r.f64(f) : standard`. -/
def f64Or (r : PayloadReader) (field : UInt8) (standard : F64) : Except Error F64 :=
  if r.has field then r.f64 field else return standard

/-- `r.u64(f)` if `r.has(f)`. -/
def u64? (r : PayloadReader) (field : UInt8) : Except Error (Option UInt64) :=
  if r.has field then (r.u64 field).map some else return none

end Protocol.PayloadReader

/-- What the handler reads before it calls the fabric. -/
structure ReadinessHead where
  target : TargetId
  boot : WorkerBootId
  ready : Bool
  model : Text
  abi : Text
  capacity : F64
  deriving DecidableEq

def readHead (r : PayloadReader) : Except Error ReadinessHead := do
  let target ← r.u64 Fid.target
  let boot ← r.u64 Fid.boot
  let ready ← r.bool_ Fid.ready
  let model ← r.strOr Fid.model "ref-det-sequence-v1"
  let abi ← r.strOr Fid.abi "ff-ref-v1"
  let capacity ← r.f64Or Fid.capacity .one
  return ⟨⟨target⟩, ⟨boot⟩, ready, model, abi, capacity⟩

/-- What the handler reads once the facts are published. -/
def readState (r : PayloadReader) : Except Error CandidateState := do
  let stateAvailable ← r.flag Fid.stateAvail
  let checkpoint ← r.u64? Fid.checkpointGen
  let committed ← r.u64? Fid.committedSeq
  let session ← r.flag Fid.sessionOk
  let tenant ← r.flag Fid.tenantOk
  let model ← r.flag Fid.modelOk
  let format ← r.flag Fid.formatOk
  let integrity ← r.flag Fid.integrityOk
  let replay ← r.flag Fid.replaySafe
  return {
    stateAvailable := stateAvailable
    checkpointGeneration := checkpoint.map Gen.mk
    committedSequence := committed.getD 0
    correctSession := session
    correctTenant := tenant
    correctModelGeneration := model
    stateFormatOk := format
    statusIntegrityOk := integrity
    replaySafe := replay }

/-- The facts of a message.  Its readiness generation, if it has one, is not read. -/
def ReadinessHead.facts (h : ReadinessHead) : CandidateFacts where
  target := h.target
  targetGeneration := .first
  replica := ⟨h.target.value⟩
  engine := ⟨h.target.value⟩
  engineIncarnation := ⟨h.target.value⟩
  worker := ⟨h.target.value⟩
  workerBoot := h.boot
  profile := ⟨1⟩
  modelKey := h.model
  runtimeAbi := h.abi
  ready := h.ready
  activationEligible := h.ready
  evidenceFresh := true

/-- The resources of a message; `cast` is the conversion of a `double` to an integer. -/
def ReadinessHead.resources (cast : F64 → UInt64) (h : ReadinessHead) : List CandidateResource :=
  [{ resourceClass := text "cpu"
     amount := h.capacity
     capacityGeneration := .first
     unit := cast h.capacity }]

/-! ## The handler -/

inductive PublicationStage
  | registering | facts | state | resources | ended
  deriving DecidableEq

/-- A message whose head could be read, and its number among those received. -/
structure Received where
  number : Nat
  reader : PayloadReader
  head : ReadinessHead
  deriving DecidableEq

/-- One call of the handler, for a message of a peer that serves requests on
`port`. -/
structure Publication where
  message : Received
  port : UInt16
  stage : PublicationStage := .registering
  deriving DecidableEq

namespace Publication

/-- The target that is published. -/
def target (h : Publication) : TargetId := h.message.head.target

/-- The call is between its first and its last publication. -/
def midway (h : Publication) : Bool := h.stage == .state || h.stage == .resources

/-- The call goes on to a stage, or ends with what the fabric threw. -/
def proceed (h : Publication) (s : Fabric) (next : PublicationStage) :
    Except Error Fabric → Fabric × Publication
  | .ok s' => (s', { h with stage := next })
  | .error _ => (s, { h with stage := .ended })

/-- One call of the fabric. -/
def step (cast : F64 → UInt64) (now : Time) (s : Fabric) (h : Publication) : Fabric × Publication :=
  match h.stage with
  | .registering => h.proceed s .facts (s.registerTarget h.target (localTransport h.port))
  | .facts => h.proceed s .state (s.publishCandidateFacts now h.message.head.facts)
  | .state =>
    -- the fields are read here, with the facts published
    h.proceed s .resources (readState h.message.reader >>= s.publishCandidateState h.target)
  | .resources =>
    h.proceed s .ended (s.publishCandidateResources h.target (h.message.head.resources cast))
  | .ended => (s, h)

end Publication

/-! ## The process -/

/-- The coordinator and its handlers of readiness. -/
structure Intake where
  base : SystemState
  handlers : List Publication := []

/-- What can happen: a message arrives, its handler makes a call, or anything else that
messages cause. -/
inductive IntakeLabel
  | deliver (payload : List UInt8) (port : UInt16)
  | publish (i : Nat) (now : Time)
  | other (l : Label)

/-- The operations that are the handler's. -/
def publishes : Label → Bool
  | .op (.registerTarget _ _) => true
  | .op (.publishCandidateFacts _ _) => true
  | .op (.publishCandidateState _ _) => true
  | .op (.publishCandidateResources _ _) => true
  | _ => false

namespace Intake

/-- A message that cannot be parsed, or whose head cannot be read, is answered with an
error. -/
def receive (number : Nat) (payload : List UInt8) (port : UInt16) : Except Error Publication := do
  let r ← parse payload
  let head ← readHead r
  return { message := ⟨number, r, head⟩, port := port }

def step (env : Env) (cast : F64 → UInt64) (p : Intake) : IntakeLabel → Intake
  | .deliver payload port =>
    { p with
      handlers := p.handlers ++ (receive p.handlers.length payload port).toOption.toList }
  | .publish i now =>
    match p.handlers[i]? with
    | none => p
    | some h =>
      let r := h.step cast now p.base.fabric
      { base := { p.base with fabric := r.1 }, handlers := p.handlers.set i r.2 }
  | .other l =>
    if fromMessage l && !publishes l then { p with base := p.base.step env l } else p

def Initial (env : Env) (p : Intake) : Prop :=
  ∃ σ, SystemState.Started env σ ∧ p = { base := σ }

end Intake

/-- The system of all runs of one coordinator process with its handlers. -/
def intake (env : Env) (cast : F64 → UInt64) : Transition.System Intake IntakeLabel where
  initial := Intake.Initial env
  step := Intake.step env cast

/-! ## Where the parts of a record come from -/

/-- The messages that a target's facts, state and resources are from. -/
structure Origins where
  facts : TargetId → Option Received := fun _ => none
  state : TargetId → Option Received := fun _ => none
  resources : TargetId → Option Received := fun _ => none

/-- What a handler's call adds, if the fabric takes it. -/
def Origins.note (s : Fabric) (h : Publication) (o : Origins) : Origins :=
  match h.stage with
  | .facts =>
    if s.acceptsFacts h.message.head.facts then
      { o with facts := Function.update o.facts h.target (some h.message) }
    else o
  | .state =>
    if (readState h.message.reader).isOk && (s.targets.find h.target).isSome then
      { o with state := Function.update o.state h.target (some h.message) }
    else o
  | .resources =>
    if (s.targets.find h.target).isSome then
      { o with resources := Function.update o.resources h.target (some h.message) }
    else o
  | _ => o

def noteOrigins (p : Intake) : IntakeLabel → Origins → Origins
  | .publish i _, o => (p.handlers[i]?).elim o fun h => o.note p.base.fabric h
  | _, o => o

/-- The slot whose snapshot a step takes. -/
def snapshotSlot (σ : SystemState) : Label → Option ServiceSlotKey
  | .op (.snapshot slot) => some slot
  | .op (.select slot) => some slot
  | .op (.planFailover slot) => some slot
  | .advance i _ => (σ.calls[i]?).bind fun
    | .plan a => if a.stage = .validating then some a.slot else none
    | .failback f =>
      match f.stage with
      | .planning _ => some f.slot
      | .cutting a => if a.stage = .validating then some a.slot else none
      | _ => none
  | _ => none

/-- What a run must keep to: a message's facts are published while no other message of
its target is half published; a message whose state cannot be read is of a target that
has never been published as a whole; and no snapshot is taken of a slot with a candidate
that has been, and that is half published again. -/
def inTurn (p : Intake × Origins) : IntakeLabel → Bool
  | .publish i _ => (p.1.handlers[i]?).all fun h =>
    match h.stage with
    | .facts => p.1.handlers.all fun k => !(k.midway && k.target == h.target)
    | .state => (readState h.message.reader).isOk || (p.2.resources h.target).isNone
    | _ => true
  | .other l => (snapshotSlot p.1.base l).all fun slot => p.1.handlers.all fun k =>
    !(k.midway && (p.2.resources k.target).isSome &&
      (p.1.base.fabric.candidatesFor slot).any fun c => c.facts.target == k.target)
  | .deliver _ _ => true

/-- The candidate is of one message: its facts, its state and its resources. -/
def Coherent (cast : F64 → UInt64) (o : Origins) (c : Candidate) : Prop :=
  ∃ m, o.facts c.facts.target = some m ∧ o.state c.facts.target = some m ∧
    o.resources c.facts.target = some m ∧ c.facts = m.head.facts ∧
    readState m.reader = .ok c.state ∧ c.resources = m.head.resources cast

/-! ## The records -/

/-- What the origins say of the records. -/
structure Recorded (cast : F64 → UInt64) (targets : IndexedVec TargetId TargetRecord)
    (o : Origins) : Prop where
  indexed : targets.Indexed (·.id)
  unregistered : ∀ t, targets.find t = none → o.facts t = none ∧ o.state t = none ∧
    o.resources t = none
  owner : ∀ t m, o.facts t = some m → m.head.target = t
  facts : ∀ t r, targets.find t = some r → r.facts = (o.facts t).map fun m => m.head.facts
  state : ∀ t r m, targets.find t = some r → o.state t = some m → readState m.reader = .ok r.state
  resources : ∀ t r m, targets.find t = some r → o.resources t = some m →
    r.resources = m.head.resources cast

namespace Recorded
variable {cast : F64 → UInt64} {targets : IndexedVec TargetId TargetRecord} {o o' : Origins}

theorem empty : Recorded cast {} {} :=
  ⟨IndexedVec.indexed_empty, fun _ _ => ⟨rfl, rfl, rfl⟩, fun _ _ h => (by cases h),
    fun _ _ h => (by cases h), fun _ _ _ h => (by cases h), fun _ _ _ h => (by cases h)⟩

/-- A target that is registered has published nothing. -/
theorem register (h : Recorded cast targets o) {t : TargetId} (transport : Text)
    (hnew : targets.find t = none) :
    Recorded cast (targets.push t { id := t, transport := transport }) o := by
  obtain ⟨hfacts, hstate, hresources⟩ := h.unregistered t hnew
  have hfind : ∀ k, (targets.push t { id := t, transport := transport }).find k =
      if k = t then some { id := t, transport := transport } else targets.find k :=
    fun k => IndexedVec.find_push _ _ _ h.indexed.sound
  refine ⟨h.indexed.push hnew rfl, fun k hk => ?_, h.owner, fun k r hk => ?_, fun k r m hk hm => ?_,
    fun k r m hk hm => ?_⟩ <;> rw [hfind] at hk <;> split at hk
  · cases hk
  · exact h.unregistered k hk
  · rename_i heq
    cases hk
    rw [heq, hfacts]
    rfl
  · exact h.facts k r hk
  · rename_i heq
    rw [heq, hstate] at hm
    cases hm
  · exact h.state k r m hk hm
  · rename_i heq
    rw [heq, hresources] at hm
    cases hm
  · exact h.resources k r m hk hm

/-- A publication changes the record of its target, and its origin. -/
theorem modify (h : Recorded cast targets o) {t : TargetId} {r : TargetRecord}
    {g : TargetRecord → TargetRecord} (hfind : targets.find t = some r)
    (hid : ∀ x, (g x).id = x.id)
    (hother : ∀ k, k ≠ t → o'.facts k = o.facts k ∧ o'.state k = o.state k ∧
      o'.resources k = o.resources k)
    (howner : ∀ m, o'.facts t = some m → m.head.target = t)
    (hfacts : (g r).facts = (o'.facts t).map fun m => m.head.facts)
    (hstate : ∀ m, o'.state t = some m → readState m.reader = .ok (g r).state)
    (hresources : ∀ m, o'.resources t = some m → (g r).resources = m.head.resources cast) :
    Recorded cast (targets.modify t g) o' := by
  have hmod : ∀ k, (targets.modify t g).find k = if k = t then some (g r) else targets.find k := by
    intro k
    rw [IndexedVec.find_modify h.indexed.sound, hfind]
    rfl
  refine ⟨h.indexed.modify t hid, fun k hk => ?_, fun k m hm => ?_, fun k x hk => ?_,
    fun k x m hk hm => ?_, fun k x m hk hm => ?_⟩
  · rw [hmod] at hk
    split at hk
    · cases hk
    · rename_i hne
      rw [(hother k hne).1, (hother k hne).2.1, (hother k hne).2.2]
      exact h.unregistered k hk
  · by_cases hkt : k = t
    · subst hkt
      exact howner m hm
    · exact h.owner k m ((hother k hkt).1 ▸ hm)
  · rw [hmod] at hk
    split at hk
    · rename_i heq
      cases hk
      rw [heq, hfacts]
    · rename_i hne
      rw [(hother k hne).1]
      exact h.facts k x hk
  · rw [hmod] at hk
    split at hk
    · rename_i heq
      cases hk
      exact hstate m (heq ▸ hm)
    · rename_i hne
      exact h.state k x m hk ((hother k hne).2.1 ▸ hm)
  · rw [hmod] at hk
    split at hk
    · rename_i heq
      cases hk
      exact hresources m (heq ▸ hm)
    · rename_i hne
      exact h.resources k x m hk ((hother k hne).2.2 ▸ hm)

end Recorded

/-! ## The handlers -/

/-- What the origins say of the handlers. -/
structure InOrder (handlers : List Publication) (o : Origins) : Prop where
  single : ∀ (i j : Nat) h k, handlers[i]? = some h → handlers[j]? = some k →
    h.midway = true → k.midway = true → h.target = k.target → i = j
  ahead : ∀ h ∈ handlers, h.midway = true → o.facts h.target = some h.message ∧
    (h.stage = .resources → o.state h.target = some h.message)
  settled : ∀ t, (∀ h ∈ handlers, h.target = t → h.midway = false) → (o.resources t).isSome →
    o.facts t = o.state t ∧ o.state t = o.resources t

namespace InOrder
variable {handlers : List Publication} {o : Origins} {i : Nat} {h h' : Publication}

theorem empty : InOrder [] {} :=
  ⟨fun _ _ _ _ h => (by cases h), fun _ h => (by cases h), fun _ _ _ => ⟨rfl, rfl⟩⟩

/-- A message that arrives is not half published. -/
theorem deliver (hord : InOrder handlers o) {new : List Publication}
    (hnew : ∀ k ∈ new, k.midway = false) : InOrder (handlers ++ new) o := by
  have hold : ∀ (j : Nat) k, (handlers ++ new)[j]? = some k → k.midway = true →
      handlers[j]? = some k := by
    intro j k hk hmid
    rcases Nat.lt_or_ge j handlers.length with hlt | hge
    · rwa [List.getElem?_append_left hlt] at hk
    · rw [List.getElem?_append_right hge] at hk
      rw [hnew k (List.mem_of_getElem? hk)] at hmid
      cases hmid
  refine ⟨fun i j h k hh hk hmid hmid' => hord.single i j h k (hold i h hh hmid) (hold j k hk hmid')
    hmid hmid', fun k hk hmid => ?_, fun t ht => hord.settled t fun k hk => ht k
      (List.mem_append_left _ hk)⟩
  obtain ⟨j, hj⟩ := List.mem_iff_getElem?.mp hk
  exact hord.ahead k (List.mem_of_getElem? (hold j k hj hmid)) hmid

/-- Where one handler has moved on, what the others say of the rest still holds. -/
theorem others (hord : InOrder handlers o) (o' : Origins) (hi : handlers[i]? = some h)
    (ho : ∀ k, k ≠ h.target → o'.facts k = o.facts k ∧ o'.state k = o.state k ∧
      o'.resources k = o.resources k) {t : TargetId} (ht : t ≠ h.target)
    (hset : ∀ k ∈ handlers.set i h', k.target = t → k.midway = false)
    (hdone : (o'.resources t).isSome) : o'.facts t = o'.state t ∧ o'.state t = o'.resources t := by
  rw [(ho t ht).2.2] at hdone
  rw [(ho t ht).1, (ho t ht).2.1, (ho t ht).2.2]
  refine hord.settled t (fun k hk hkt => ?_) hdone
  obtain ⟨j, hj⟩ := List.mem_iff_getElem?.mp hk
  refine hset k (List.mem_of_getElem? (i := j) ?_) hkt
  rw [List.getElem?_set_ne, hj]
  rintro rfl
  rw [hi] at hj
  cases hj
  exact ht hkt.symm

/-- A handler that is not half through after its step, and was not before, unless its
target has never been published as a whole. -/
theorem quiet (hord : InOrder handlers o) (hi : handlers[i]? = some h)
    (hmid : h.midway = false ∨ (o.resources h.target).isNone) (hmid' : h'.midway = false) :
    InOrder (handlers.set i h') o := by
  have hold : ∀ (j : Nat) k, (handlers.set i h')[j]? = some k → k.midway = true →
      handlers[j]? = some k := by
    intro j k hk hkmid
    rcases getElem?_set_cases hk with ⟨-, rfl⟩ | ⟨-, hk⟩
    · rw [hmid'] at hkmid
      cases hkmid
    · exact hk
  refine ⟨fun a b k l hk hl hkm hlm => hord.single a b k l (hold a k hk hkm) (hold b l hl hlm) hkm hlm,
    fun k hk hkm => ?_, fun t ht hdone => hord.settled t (fun k hk hkt => ?_) hdone⟩
  · obtain ⟨j, hj⟩ := List.mem_iff_getElem?.mp hk
    exact hord.ahead k (List.mem_of_getElem? (hold j k hj hkm)) hkm
  · obtain ⟨j, hj⟩ := List.mem_iff_getElem?.mp hk
    by_cases hij : j = i
    · subst hij
      rw [hi] at hj
      cases hj
      refine hmid.resolve_right fun hnone => ?_
      rw [hkt, Option.isNone_iff_eq_none] at hnone
      rw [hnone] at hdone
      cases hdone
    · refine ht k (List.mem_of_getElem? (i := j) ?_) hkt
      rw [List.getElem?_set_ne (Ne.symm hij), hj]

/-- The handler is the one of its target that is half through. -/
theorem only (hord : InOrder handlers o) (hi : handlers[i]? = some h) (hmid : h.midway = true)
    {j : Nat} {k : Publication} (hj : handlers[j]? = some k) (hne : j ≠ i)
    (ht : k.target = h.target) : k.midway = false := by
  rw [Bool.eq_false_iff]
  exact fun hkm => hne (hord.single j i k h hj hi hkm hmid ht)

/-- A handler publishes the facts of its message. -/
theorem publishFacts (hord : InOrder handlers o) (hi : handlers[i]? = some h)
    (hnone : ∀ k ∈ handlers, k.midway = true → k.target ≠ h.target) :
    InOrder (handlers.set i { h with stage := .state })
      { o with facts := Function.update o.facts h.target (some h.message) } := by
  refine ⟨fun a b k l hk hl hkm hlm ht => ?_, fun k hk hkm => ?_, fun t ht hdone => ?_⟩
  · rcases getElem?_set_cases hk with ⟨rfl, rfl⟩ | ⟨-, hk'⟩ <;>
      rcases getElem?_set_cases hl with ⟨rfl, rfl⟩ | ⟨-, hl'⟩
    · rfl
    · exact absurd ht.symm (hnone l (List.mem_of_getElem? hl') hlm)
    · exact absurd ht (hnone k (List.mem_of_getElem? hk') hkm)
    · exact hord.single a b k l hk' hl' hkm hlm ht
  · obtain ⟨j, hj⟩ := List.mem_iff_getElem?.mp hk
    rcases getElem?_set_cases hj with ⟨rfl, rfl⟩ | ⟨-, hj⟩
    · exact ⟨Function.update_self .., fun hst => by cases hst⟩
    · have hmem := List.mem_of_getElem? hj
      show Function.update o.facts h.target _ k.target = _ ∧ _
      rw [Function.update_of_ne (hnone k hmem hkm)]
      exact hord.ahead k hmem hkm
  · by_cases htt : t = h.target
    · have hself := ht { h with stage := .state } (List.mem_of_getElem? (i := i)
        (List.getElem?_set_self (List.getElem?_eq_some_iff.mp hi).1)) htt.symm
      cases hself
    · exact hord.others { o with facts := Function.update o.facts h.target (some h.message) } hi
        (fun k hk => ⟨Function.update_of_ne hk .., rfl, rfl⟩) htt ht hdone

/-- A handler publishes the state of its message. -/
theorem publishState (hord : InOrder handlers o) (hi : handlers[i]? = some h)
    (hst : h.stage = .state) :
    InOrder (handlers.set i { h with stage := .resources })
      { o with state := Function.update o.state h.target (some h.message) } := by
  have hmid : h.midway = true := by rw [Publication.midway, hst]; rfl
  refine ⟨fun a b k l hk hl hkm hlm ht => ?_, fun k hk hkm => ?_, fun t ht hdone => ?_⟩
  · rcases getElem?_set_cases hk with ⟨rfl, rfl⟩ | ⟨hak, hk'⟩ <;>
      rcases getElem?_set_cases hl with ⟨rfl, rfl⟩ | ⟨hbl, hl'⟩
    · rfl
    · rw [hord.only hi hmid hl' hbl ht.symm] at hlm
      cases hlm
    · rw [hord.only hi hmid hk' hak ht] at hkm
      cases hkm
    · exact hord.single a b k l hk' hl' hkm hlm ht
  · obtain ⟨j, hj⟩ := List.mem_iff_getElem?.mp hk
    rcases getElem?_set_cases hj with ⟨rfl, rfl⟩ | ⟨hji, hj⟩
    · exact ⟨(hord.ahead h (List.mem_of_getElem? hi) hmid).1, fun _ => Function.update_self ..⟩
    · have hne : k.target ≠ h.target := by
        intro ht
        rw [hord.only hi hmid hj hji ht] at hkm
        cases hkm
      show _ ∧ (_ → Function.update o.state h.target _ k.target = _)
      rw [Function.update_of_ne hne]
      exact hord.ahead k (List.mem_of_getElem? hj) hkm
  · by_cases htt : t = h.target
    · have hself := ht { h with stage := .resources } (List.mem_of_getElem? (i := i)
        (List.getElem?_set_self (List.getElem?_eq_some_iff.mp hi).1)) htt.symm
      cases hself
    · exact hord.others { o with state := Function.update o.state h.target (some h.message) } hi
        (fun k hk => ⟨rfl, Function.update_of_ne hk .., rfl⟩) htt ht hdone

/-- A handler publishes the resources of its message, and is through. -/
theorem publishResources (hord : InOrder handlers o) (hi : handlers[i]? = some h)
    (hst : h.stage = .resources) :
    InOrder (handlers.set i { h with stage := .ended })
      { o with resources := Function.update o.resources h.target (some h.message) } := by
  have hmid : h.midway = true := by rw [Publication.midway, hst]; rfl
  have hold : ∀ (j : Nat) k, (handlers.set i { h with stage := .ended })[j]? = some k →
      k.midway = true → handlers[j]? = some k := by
    intro j k hk hkm
    rcases getElem?_set_cases hk with ⟨-, rfl⟩ | ⟨-, hk⟩
    · cases hkm
    · exact hk
  refine ⟨fun a b k l hk hl hkm hlm => hord.single a b k l (hold a k hk hkm) (hold b l hl hlm) hkm hlm,
    fun k hk hkm => ?_, fun t ht hdone => ?_⟩
  · obtain ⟨j, hj⟩ := List.mem_iff_getElem?.mp hk
    exact hord.ahead k (List.mem_of_getElem? (hold j k hj hkm)) hkm
  · by_cases htt : t = h.target
    · obtain ⟨hfacts, hstate⟩ := hord.ahead h (List.mem_of_getElem? hi) hmid
      subst htt
      show o.facts h.target = o.state h.target ∧
        o.state h.target = Function.update o.resources h.target (some h.message) h.target
      rw [hfacts, hstate hst, Function.update_self]
      exact ⟨rfl, rfl⟩
    · exact hord.others { o with resources := Function.update o.resources h.target (some h.message) } hi
        (fun k hk => ⟨rfl, rfl, Function.update_of_ne hk ..⟩) htt ht hdone

end InOrder

/-! ## Runs -/

/-- A process starts without targets. -/
theorem started_targets {env : Env} {σ : SystemState} (h : SystemState.Started env σ) :
    σ.fabric.targets = {} := by
  obtain ⟨checkpoint, loaded, s, hs, rfl⟩ := h
  rcases loaded with _ | _ | blob
  · cases hs
    rfl
  · cases hs
  · have hs : ((({} : Fabric).setCheckpointPath checkpoint).load env.ord blob).map
        (fun s => s.setCoordinatorIdentity ⟨1⟩ (s.epoch.value + 1)) = .ok s := hs
    cases hload : (({} : Fabric).setCheckpointPath checkpoint).load env.ord blob with
    | error e =>
      rw [hload] at hs
      cases hs
    | ok s' =>
      rw [hload] at hs
      cases hs
      obtain ⟨snap, -, rfl⟩ := load_eq_ok.mp hload
      rfl

/-- The other messages leave the records of the targets alone. -/
theorem other_targets (env : Env) {σ : SystemState} {l : Label} (hmsg : fromMessage l = true)
    (hpub : publishes l = false) : (σ.step env l).fabric.targets = σ.fabric.targets := by
  cases l with
  | op o =>
    show (σ.fabric.apply env o).targets = _
    cases hrep : reports o with
    | false => exact (apply_sameReports env σ.fabric o hrep).targets
    | true =>
      cases o with
      | registerTarget id transport => cases hpub
      | publishCandidateFacts now f => cases hpub
      | publishCandidateState t st => cases hpub
      | publishCandidateResources t rs => cases hpub
      | load blob => cases hmsg
      | _ => first | rfl | cases hrep
  | beginPlan plan ops => rfl
  | beginFailback slot ops => rfl
  | advance i rd => exact (advance_confined env σ i rd).targets
  | restart cfg => cases hmsg

/-- What holds in every run. -/
structure Tracked (cast : F64 → UInt64) (p : Intake × Origins) : Prop where
  recorded : Recorded cast p.1.base.fabric.targets p.2
  inOrder : InOrder p.1.handlers p.2

namespace Tracked
variable {env : Env} {cast : F64 → UInt64} {p : Intake × Origins} {i : Nat} {h : Publication}
  {now : Time}

/-- The state after a step of one handler. -/
theorem publish_eq (env : Env) (hi : p.1.handlers[i]? = some h) :
    ((intake env cast).withHistory {} noteOrigins).step p (.publish i now) =
      ({ base := { p.1.base with fabric := (h.step cast now p.1.base.fabric).1 }
         handlers := p.1.handlers.set i (h.step cast now p.1.base.fabric).2 },
        p.2.note p.1.base.fabric h) := by
  show (Intake.step env cast p.1 (.publish i now), noteOrigins p.1 (.publish i now) p.2) = _
  simp only [Intake.step, noteOrigins, hi, Option.elim_some]

/-- The facts of a message are never older than those of its target: the handler gives
all of them the readiness generation 0. -/
theorem accepts (ht : Tracked cast p) (m : Received) :
    p.1.base.fabric.acceptsFacts m.head.facts =
      (p.1.base.fabric.targets.find m.head.target).isSome := by
  unfold acceptsFacts
  show (p.1.base.fabric.targets.find m.head.target).any _ = _
  cases hfind : p.1.base.fabric.targets.find m.head.target with
  | none => rfl
  | some r =>
    rw [Option.any_some, ht.recorded.facts _ r hfind]
    cases p.2.facts m.head.target <;> rfl

/-- A target that is half published is registered. -/
theorem registered (ht : Tracked cast p) (hi : p.1.handlers[i]? = some h) (hmid : h.midway = true) :
    ∃ r, p.1.base.fabric.targets.find h.target = some r := by
  refine Option.ne_none_iff_exists'.mp fun hnone => ?_
  have hfacts := (ht.inOrder.ahead h (List.mem_of_getElem? hi) hmid).1
  rw [(ht.recorded.unregistered _ hnone).1] at hfacts
  cases hfacts

theorem registering (ht : Tracked cast p) (hi : p.1.handlers[i]? = some h)
    (hst : h.stage = .registering) :
    Tracked cast (((intake env cast).withHistory {} noteOrigins).step p (.publish i now)) := by
  have hmid : h.midway = false := by rw [Publication.midway, hst]; rfl
  rw [publish_eq env hi]
  simp only [Publication.step, Origins.note, hst, registerTarget]
  split_ifs with hmax hknown
  · exact ⟨ht.recorded, ht.inOrder.quiet hi (.inl hmid) rfl⟩
  · exact ⟨ht.recorded, ht.inOrder.quiet hi (.inl hmid) rfl⟩
  · rw [Bool.not_eq_true, Option.isSome_eq_false_iff, Option.isNone_iff_eq_none] at hknown
    exact ⟨ht.recorded.register _ hknown, ht.inOrder.quiet hi (.inl hmid) rfl⟩

theorem facts (ht : Tracked cast p) (hi : p.1.handlers[i]? = some h) (hst : h.stage = .facts)
    (hok : inTurn p (.publish i now) = true) :
    Tracked cast (((intake env cast).withHistory {} noteOrigins).step p (.publish i now)) := by
  have hmid : h.midway = false := by rw [Publication.midway, hst]; rfl
  have hnone : ∀ k ∈ p.1.handlers, k.midway = true → k.target ≠ h.target := by
    intro k hk hkm heq
    simp only [inTurn, hi, Option.all_some, hst, List.all_eq_true] at hok
    have hkok := hok k hk
    rw [hkm, heq, beq_self_eq_true] at hkok
    cases hkok
  have hacc := ht.accepts h.message
  rw [publish_eq env hi]
  cases hfind : p.1.base.fabric.targets.find h.message.head.facts.target with
  | none =>
    have hrefused : p.1.base.fabric.acceptsFacts h.message.head.facts = false := by
      rw [hacc, show p.1.base.fabric.targets.find h.message.head.target = none from hfind]
      rfl
    simp only [Publication.step, Origins.note, hst, hrefused, publishCandidateFacts, hfind]
    exact ⟨ht.recorded, ht.inOrder.quiet hi (.inl hmid) rfl⟩
  | some r =>
    have htaken : p.1.base.fabric.acceptsFacts h.message.head.facts = true := by
      rw [hacc, show p.1.base.fabric.targets.find h.message.head.target = some r from hfind]
      rfl
    have hnewer : (r.facts.all fun old => decide (old.readinessGeneration.value ≤
        h.message.head.facts.readinessGeneration.value)) = true := by
      rw [acceptsFacts, hfind] at htaken
      exact htaken
    simp only [Publication.step, Origins.note, hst, htaken, publishCandidateFacts, hfind, hnewer,
      if_true]
    refine ⟨ht.recorded.modify hfind (fun _ => rfl) ?_ ?_ ?_ ?_ ?_, ht.inOrder.publishFacts hi hnone⟩
    · exact fun k hk => ⟨Function.update_of_ne hk .., rfl, rfl⟩
    · intro m hm
      cases (Function.update_self ..).symm.trans hm
      rfl
    · show _ = Option.map _ (Function.update p.2.facts h.target (some h.message) h.target)
      rw [Function.update_self]
      rfl
    · exact fun m hm => ht.recorded.state _ r m hfind hm
    · exact fun m hm => ht.recorded.resources _ r m hfind hm

theorem state (ht : Tracked cast p) (hi : p.1.handlers[i]? = some h) (hst : h.stage = .state)
    (hok : inTurn p (.publish i now) = true) :
    Tracked cast (((intake env cast).withHistory {} noteOrigins).step p (.publish i now)) := by
  have hmid : h.midway = true := by rw [Publication.midway, hst]; rfl
  obtain ⟨r, hfind⟩ := ht.registered hi hmid
  rw [publish_eq env hi]
  cases hread : readState h.message.reader with
  | error e =>
    simp only [inTurn, hi, Option.all_some, hst, hread] at hok
    simp only [Publication.step, Origins.note, hst, hread]
    exact ⟨ht.recorded, ht.inOrder.quiet hi (.inr hok) rfl⟩
  | ok st =>
    simp only [Publication.step, Origins.note, hst, hread, hfind, bind, Except.bind,
      publishCandidateState]
    refine ⟨ht.recorded.modify hfind (fun _ => rfl) ?_ ?_ ?_ ?_ ?_, ht.inOrder.publishState hi hst⟩
    · exact fun k hk => ⟨rfl, Function.update_of_ne hk .., rfl⟩
    · exact fun m hm => ht.recorded.owner _ m hm
    · exact ht.recorded.facts _ r hfind
    · intro m hm
      cases (Function.update_self ..).symm.trans hm
      exact hread
    · exact fun m hm => ht.recorded.resources _ r m hfind hm

theorem resources (ht : Tracked cast p) (hi : p.1.handlers[i]? = some h)
    (hst : h.stage = .resources) :
    Tracked cast (((intake env cast).withHistory {} noteOrigins).step p (.publish i now)) := by
  have hmid : h.midway = true := by rw [Publication.midway, hst]; rfl
  obtain ⟨r, hfind⟩ := ht.registered hi hmid
  rw [publish_eq env hi]
  simp only [Publication.step, Origins.note, hst, publishCandidateResources, hfind]
  refine ⟨ht.recorded.modify hfind (fun _ => rfl) ?_ ?_ ?_ ?_ ?_, ht.inOrder.publishResources hi hst⟩
  · exact fun k hk => ⟨rfl, rfl, Function.update_of_ne hk ..⟩
  · exact fun m hm => ht.recorded.owner _ m hm
  · exact ht.recorded.facts _ r hfind
  · exact fun m hm => ht.recorded.state _ r m hfind hm
  · intro m hm
    cases (Function.update_self ..).symm.trans hm
    rfl

/-- A handler begins with the registration of its target. -/
theorem receive_midway {number : Nat} {payload : List UInt8} {port : UInt16} {h : Publication}
    (hr : Intake.receive number payload port = .ok h) : h.midway = false := by
  obtain ⟨r, -, hr⟩ := Codec.bind_ok_iff.mp hr
  obtain ⟨head, -, hr⟩ := Codec.bind_ok_iff.mp hr
  cases hr
  rfl

theorem step (ht : Tracked cast p) {l : IntakeLabel} (hok : inTurn p l = true) :
    Tracked cast (((intake env cast).withHistory {} noteOrigins).step p l) := by
  cases l with
  | deliver payload port =>
    refine ⟨ht.recorded, ht.inOrder.deliver fun k hk => ?_⟩
    rw [Option.mem_toList] at hk
    cases hr : Intake.receive p.1.handlers.length payload port with
    | error e =>
      rw [hr] at hk
      cases hk
    | ok k' =>
      rw [hr] at hk
      cases hk
      exact receive_midway hr
  | publish i now =>
    cases hi : p.1.handlers[i]? with
    | none =>
      show Tracked cast (Intake.step env cast p.1 (.publish i now), noteOrigins p.1 (.publish i now) p.2)
      simp only [Intake.step, noteOrigins, hi, Option.elim_none]
      exact ht
    | some h =>
      cases hst : h.stage with
      | registering => exact ht.registering hi hst
      | facts => exact ht.facts hi hst hok
      | state => exact ht.state hi hst hok
      | resources => exact ht.resources hi hst
      | ended =>
        have hmid : h.midway = false := by rw [Publication.midway, hst]; rfl
        rw [publish_eq env hi]
        simp only [Publication.step, Origins.note, hst]
        exact ⟨ht.recorded, ht.inOrder.quiet hi (.inl hmid) hmid⟩
  | other l =>
    show Tracked cast (Intake.step env cast p.1 (.other l), p.2)
    simp only [Intake.step]
    split
    · rename_i hl
      obtain ⟨hmsg, hpub⟩ := Bool.and_eq_true_iff.mp hl
      rw [Bool.not_eq_true'] at hpub
      exact ⟨(other_targets env hmsg hpub).symm ▸ ht.recorded, ht.inOrder⟩
    · exact ht

end Tracked

/-- **Snapshots are coherent where messages take turns.**  In every run in which no message's facts
are published while another message of its target is half published, no message of a
target published before breaks off, and no snapshot is taken of a slot with a candidate
that is half published again, every candidate of every snapshot whose target has been
published as a whole has the facts, the state and the resources of one message. -/
theorem coherent_snapshots (env : Env) (cast : F64 → UInt64) {p : Intake × Origins}
    (hreach : Transition.Reachable ((intake env cast).withHistory {} noteOrigins)
      (fun p l => inTurn p l = true) p) {l : Label} {slot : ServiceSlotKey}
    (hok : inTurn p (.other l) = true) (hslot : snapshotSlot p.1.base l = some slot)
    {c : Candidate} (hc : c ∈ p.1.base.fabric.candidatesFor slot)
    (hdone : (p.2.resources c.facts.target).isSome) : Coherent cast p.2 c := by
  have ht : Tracked cast p := by
    refine hreach.invariant ?_ fun p l _ hp hok => hp.step hok
    rintro ⟨q, o⟩ ⟨⟨σ, hstarted, rfl⟩, rfl⟩
    exact ⟨(started_targets hstarted).symm ▸ Recorded.empty, InOrder.empty⟩
  obtain ⟨t, hmem, f, hf, rfl⟩ := candidatesFor_made hc
  have hfind : p.1.base.fabric.targets.find t.id = some t :=
    ht.recorded.indexed.find_eq_some_iff.mpr ⟨hmem, rfl⟩
  have hfacts := ht.recorded.facts t.id t hfind
  rw [hf] at hfacts
  obtain ⟨m, hm, rfl⟩ := Option.map_eq_some_iff.mp hfacts.symm
  have htarget : m.head.target = t.id := ht.recorded.owner t.id m hm
  have hquiet : ∀ k ∈ p.1.handlers, k.target = t.id → k.midway = false := by
    intro k hk hkt
    simp only [inTurn, hslot, Option.all_some, List.all_eq_true] at hok
    have hkok := hok k hk
    rw [Bool.eq_false_iff]
    intro hkm
    have hdone' : (p.2.resources k.target).isSome := by
      rw [hkt, ← htarget]
      exact hdone
    have hany : ((p.1.base.fabric.candidatesFor slot).any fun c => c.facts.target == k.target) =
        true := by
      rw [List.any_eq_true]
      refine ⟨_, hc, beq_iff_eq.mpr ?_⟩
      rw [hkt, ← htarget]
      rfl
    rw [hkm, hdone', hany] at hkok
    cases hkok
  have hdone' : (p.2.resources t.id).isSome := htarget ▸ hdone
  obtain ⟨hfs, hsr⟩ := ht.inOrder.settled t.id hquiet hdone'
  show ∃ m', p.2.facts m.head.target = some m' ∧ p.2.state m.head.target = some m' ∧
    p.2.resources m.head.target = some m' ∧ m.head.facts = m'.head.facts ∧
    readState m'.reader = .ok t.state ∧ t.resources = m'.head.resources cast
  rw [htarget, ← hsr, ← hfs]
  rw [hm] at hfs
  exact ⟨m, hm, hm, hm, rfl, ht.recorded.state _ t m hfind hfs.symm,
    ht.recorded.resources _ t m hfind (hsr ▸ hfs.symm)⟩

namespace Reference

/-- The conversion of the capacity 1.0, which is the only one below. -/
def castOne (_ : F64) : UInt64 := 1

/-- A `PUBLISH_READINESS` of target 2. -/
def readiness (boot checkpoint : UInt64) : List UInt8 :=
  payloadOf [putU64 Fid.target 2, putU64 Fid.boot boot, putBool Fid.ready true,
    putBool Fid.stateAvail true, putU64 Fid.checkpointGen checkpoint]

/-- The coordinator with the messages' origins, after some steps. -/
def published (ls : List IntakeLabel) : Intake × Origins :=
  ((intake env castOne).withHistory {} noteOrigins).run ({ base := freshProcess }, {})
    (.other (.op (.createService registeredService)) :: ls)

theorem published_initial :
    ((intake env castOne).withHistory {} noteOrigins).initial ({ base := freshProcess }, {}) :=
  ⟨⟨freshProcess, ⟨[], none, _, rfl, rfl⟩, rfl⟩, rfl⟩

/-- The worker restarts with boot 23 and checkpoint 7, and publishes again. -/
def republication : List IntakeLabel :=
  .deliver (readiness 22 5) 9002 :: List.replicate 4 (.publish 0 0) ++
    .deliver (readiness 23 7) 9002 :: List.replicate 2 (.publish 1 0)

end Reference

open Reference in
/-- Once the second message is applied as a whole, the snapshot is of it. -/
theorem coherent_snapshots_reference :
    let p := published (republication ++ List.replicate 2 (.publish 1 0))
    ∃ c ∈ p.1.base.fabric.candidatesFor slot, Coherent castOne p.2 c := by
  intro p
  have hreach : Transition.Reachable ((intake env castOne).withHistory {} noteOrigins)
      (fun p l => inTurn p l = true) p :=
    .run _ (.initial published_initial) (by decide +kernel)
  obtain ⟨c, hc⟩ := List.exists_mem_of_ne_nil (p.1.base.fabric.candidatesFor slot)
    (by decide +kernel)
  have hall : (p.1.base.fabric.candidatesFor slot).all
      (fun c => (p.2.resources c.facts.target).isSome) = true := by decide +kernel
  exact ⟨c, hc, coherent_snapshots env castOne hreach (l := .op (.planFailover slot))
    (by decide +kernel) rfl hc (List.all_eq_true.mp hall c hc)⟩

open Reference in
/-- **A snapshot mixes two messages.**  The failover is planned with the facts of the
second message published: boot 23 stands beside the checkpoint of boot 22. -/
theorem snapshot_incoherent :
    ¬ ∀ p, Transition.Reachable ((intake env castOne).withHistory {} noteOrigins)
        (fun _ _ => True) p →
      ∀ l slot, snapshotSlot p.1.base l = some slot →
      ∀ c ∈ p.1.base.fabric.candidatesFor slot, (p.2.resources c.facts.target).isSome →
      Coherent castOne p.2 c := by
  intro h
  let p := published republication
  have hreach : Transition.Reachable ((intake env castOne).withHistory {} noteOrigins)
      (fun _ _ => True) p := .run_all _ (.initial published_initial)
  obtain ⟨c, hc⟩ := List.exists_mem_of_ne_nil (p.1.base.fabric.candidatesFor slot)
    (by decide +kernel)
  have hall : (p.1.base.fabric.candidatesFor slot).all
      (fun c => decide (c.facts.target = ⟨2⟩)) = true := by decide +kernel
  have htarget : c.facts.target = ⟨2⟩ := of_decide_eq_true (List.all_eq_true.mp hall c hc)
  have hdone : (p.2.resources c.facts.target).isSome := by
    rw [htarget]
    decide +kernel
  obtain ⟨m, hfacts, -, hresources, -⟩ :=
    h p hreach (.op (.planFailover slot)) slot rfl c hc hdone
  rw [htarget] at hfacts hresources
  have hdiffer : p.2.facts ⟨2⟩ ≠ p.2.resources ⟨2⟩ := by decide +kernel
  exact hdiffer (hfacts.trans hresources.symm)

end FailoverFabric

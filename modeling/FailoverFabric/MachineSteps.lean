import FailoverFabric.Machine
import FailoverFabric.Fabric.Progress

/-! # What a step of the system can do

The inversion lemmas of the single operations and of the calls, lifted to the
system: each step leaves the slots and the fenced boots alone, or is one of a
few that do not (`step_authority`).
-/
namespace FailoverFabric

namespace Fabric

/-- `s'` differs from `s` in none of the slots, fences, authority generation,
assignment counters and the cutover record. -/
def Apart (s s' : Fabric) : Prop :=
  s' = { s with
    services := s'.services
    targets := s'.targets
    targetsByService := s'.targetsByService
    evidence := s'.evidence
    domains := s'.domains
    routes := s'.routes
    requests := s'.requests
    epoch := s'.epoch
    snapshotCounter := s'.snapshotCounter
    gatewayBoot := s'.gatewayBoot
    coordinatorId := s'.coordinatorId
    confirmedFailedTargets := s'.confirmedFailedTargets
    receiptSeq := s'.receiptSeq
    manualFailbackAuthorized := s'.manualFailbackAuthorized
    readySince := s'.readySince
    dispatchCount := s'.dispatchCount
    checkpointPath := s'.checkpointPath
    barrierMilestone := s'.barrierMilestone }

namespace Apart
variable {s s' : Fabric}

theorem slots (h : Apart s s') : s'.slots = s.slots := by rw [h]

theorem fencedBoots (h : Apart s s') : s'.fencedBoots = s.fencedBoots := by rw [h]

theorem lastAuthorityGen (h : Apart s s') : s'.lastAuthorityGen = s.lastAuthorityGen := by rw [h]

theorem assignmentCounter (h : Apart s s') : s'.assignmentCounter = s.assignmentCounter := by rw [h]

theorem assignmentGenCounter (h : Apart s s') :
    s'.assignmentGenCounter = s.assignmentGenCounter := by rw [h]

end Apart

/-- `s'` differs from `s` only in what is not saved. -/
def Transient (s s' : Fabric) : Prop :=
  s' = { s with
    targets := s'.targets
    targetsByService := s'.targetsByService
    requests := s'.requests
    snapshotCounter := s'.snapshotCounter
    gatewayBoot := s'.gatewayBoot
    confirmedFailedTargets := s'.confirmedFailedTargets
    manualFailbackAuthorized := s'.manualFailbackAuthorized
    readySince := s'.readySince
    dispatchCount := s'.dispatchCount
    checkpointPath := s'.checkpointPath
    barrierMilestone := s'.barrierMilestone }

theorem Transient.apart {s s' : Fabric} (h : Transient s s') : Apart s s' := by
  rw [h]
  rfl

/-- What an operation does to the saved part of the state. -/
inductive OpEffect (env : Env) (s : Fabric) : Op → Fabric → Prop
  | transient {o : Op} {s' : Fabric} (h : Transient s s') : OpEffect env s o s'
  | identity (id : CoordinatorId) (epoch : UInt64) :
      OpEffect env s (.setCoordinatorIdentity id epoch) (s.setCoordinatorIdentity id epoch)
  | created {d : ServiceDefinition} {s' : Fabric} (h : s.createService d = .ok s') :
      OpEffect env s (.createService d) s'
  | assigned {now : Time} {a : Assignment} {s' : Fabric} (h : s.setInitialAssignment now a = .ok s') :
      OpEffect env s (.setInitialAssignment now a) s'
  | declared (d : DomainDecl) : OpEffect env s (.declareDomain d) (s.declareDomain d)
  | member (m : DomainMembership) : OpEffect env s (.setMembership m) (s.setMembership m)
  | published (ev : FailureEvent) : OpEffect env s (.publishFailure ev) (s.publishFailure ev)
  | cleared (id : FailureEventId) : OpEffect env s (.clearFailure id) (s.clearFailure id)
  | installed (entry : RouteEntry) (boot : GatewayBootId) :
      OpEffect env s (.installRoute entry boot) (s.installRoute entry boot).1
  | bound (slot : ServiceSlotKey) (boot : GatewayBootId) :
      OpEffect env s (.bindRouteGateway slot boot) (s.bindRouteGateway slot boot).1
  | revalidated : OpEffect env s .markRoutesRevalidation s.markRoutesRevalidation
  | loaded {blob : List UInt8} {snap : PersistenceSnapshot}
      (h : Persistence.decode env.ord blob = .ok snap) : OpEffect env s (.load blob) (s.restore snap)

/-! ### The operations that may throw -/

/-- **A registration, inverted**: it changes nothing, or it adds the record of an id
that is not found. -/
theorem apply_registerTarget_cases (env : Env) (s : Fabric) (id : TargetId) (transport : Text) :
    s.apply env (.registerTarget id transport) = s ∨
      s.targets.items.length < s.cfg.maxTargets ∧ s.targets.find id = none ∧
        s.apply env (.registerTarget id transport) =
          { s with targets := s.targets.push id { id := id, transport := transport } } := by
  show s.orSelf (s.registerTarget id transport) = s ∨ _ ∧ _ ∧
    s.orSelf (s.registerTarget id transport) = _
  unfold registerTarget
  split_ifs with hfull hknown
  · exact Or.inl rfl
  · exact Or.inl rfl
  · exact Or.inr ⟨Nat.lt_of_not_le hfull, by simpa using hknown, rfl⟩

theorem apply_registerTarget (env : Env) (s : Fabric) (id : TargetId) (transport : Text) :
    s.apply env (.registerTarget id transport) =
      { s with targets := (s.apply env (.registerTarget id transport)).targets } := by
  rcases apply_registerTarget_cases env s id transport with h | ⟨-, -, h⟩
  · rw [h]
  · rw [h]

/-- The state after a publication of facts that is accepted. -/
def withFacts (s : Fabric) (now : Time) (t : TargetRecord) (f : CandidateFacts) : Fabric :=
  { s with
    targetsByService := s.bindToService t f
    confirmedFailedTargets :=
      if f.ready then Function.update s.confirmedFailedTargets f.target false
      else s.confirmedFailedTargets
    readySince := if f.ready then Function.update s.readySince f.target (some now) else s.readySince
    targets := s.targets.modify f.target fun t =>
      { t with facts := some { f with evidenceFresh := true } } }

/-- **A publication of facts, inverted**: it changes nothing, or it is accepted for
the target's record. -/
theorem apply_publishCandidateFacts_cases (env : Env) (s : Fabric) (now : Time)
    (f : CandidateFacts) :
    s.apply env (.publishCandidateFacts now f) = s ∨ ∃ t, s.targets.find f.target = some t ∧
      (t.facts.all fun old =>
        decide (old.readinessGeneration.value ≤ f.readinessGeneration.value)) = true ∧
      s.apply env (.publishCandidateFacts now f) = s.withFacts now t f := by
  show s.orSelf (s.publishCandidateFacts now f) = s ∨ ∃ t, _ ∧ _ ∧
    s.orSelf (s.publishCandidateFacts now f) = _
  unfold publishCandidateFacts
  cases s.targets.find f.target with
  | none => exact Or.inl rfl
  | some t =>
    simp only
    split
    · rename_i hnewer
      exact Or.inr ⟨t, rfl, hnewer, rfl⟩
    · exact Or.inl rfl

theorem apply_publishCandidateFacts (env : Env) (s : Fabric) (now : Time) (f : CandidateFacts) :
    s.apply env (.publishCandidateFacts now f) =
      { s with
        targetsByService := (s.apply env (.publishCandidateFacts now f)).targetsByService
        confirmedFailedTargets := (s.apply env (.publishCandidateFacts now f)).confirmedFailedTargets
        readySince := (s.apply env (.publishCandidateFacts now f)).readySince
        targets := (s.apply env (.publishCandidateFacts now f)).targets } := by
  rcases apply_publishCandidateFacts_cases env s now f with h | ⟨t, -, -, h⟩
  · rw [h]
  · rw [h]
    rfl

theorem apply_publishCandidateState (env : Env) (s : Fabric) (t : TargetId) (st : CandidateState) :
    s.apply env (.publishCandidateState t st) =
      { s with targets := (s.apply env (.publishCandidateState t st)).targets } := by
  show s.orSelf (s.publishCandidateState t st) =
    { s with targets := (s.orSelf (s.publishCandidateState t st)).targets }
  unfold publishCandidateState
  split <;> rfl

theorem apply_publishCandidateResources (env : Env) (s : Fabric) (t : TargetId)
    (rs : List CandidateResource) :
    s.apply env (.publishCandidateResources t rs) =
      { s with targets := (s.apply env (.publishCandidateResources t rs)).targets } := by
  show s.orSelf (s.publishCandidateResources t rs) =
    { s with targets := (s.orSelf (s.publishCandidateResources t rs)).targets }
  unfold publishCandidateResources
  split <;> rfl

theorem apply_snapshot (env : Env) (s : Fabric) (slot : ServiceSlotKey) :
    s.apply env (.snapshot slot) =
      { s with snapshotCounter := (s.apply env (.snapshot slot)).snapshotCounter } := by
  show s.orSelf ((s.snapshotLocked slot).map (·.1)) =
    { s with snapshotCounter := (s.orSelf ((s.snapshotLocked slot).map (·.1))).snapshotCounter }
  unfold snapshotLocked
  split <;> rfl

theorem apply_select (env : Env) (s : Fabric) (slot : ServiceSlotKey) :
    s.apply env (.select slot) =
      { s with snapshotCounter := (s.apply env (.select slot)).snapshotCounter } :=
  select_fst env.rank s slot

theorem apply_load {env : Env} {blob : List UInt8} {snap : PersistenceSnapshot}
    (hd : Persistence.decode env.ord blob = .ok snap) (s : Fabric) :
    s.apply env (.load blob) = s.restore snap := by
  show s.orSelf (s.load env.ord blob) = _
  rw [load_eq_ok.mpr ⟨snap, hd, rfl⟩]
  rfl

/-- **A load, inverted**: the file is refused and nothing changes, or the state is
restored from it. -/
theorem apply_load_cases (env : Env) (s : Fabric) (blob : List UInt8) :
    s.apply env (.load blob) = s ∨ ∃ snap, Persistence.decode env.ord blob = .ok snap ∧
      s.apply env (.load blob) = s.restore snap := by
  show s.orSelf (s.load env.ord blob) = s ∨ ∃ snap, _ ∧ s.orSelf (s.load env.ord blob) = _
  cases h : s.load env.ord blob with
  | error e => exact Or.inl rfl
  | ok s' =>
    obtain ⟨snap, hd, rfl⟩ := load_eq_ok.mp h
    exact Or.inr ⟨snap, hd, rfl⟩

theorem apply_load_refused {env : Env} {blob : List UInt8}
    (hd : ∀ snap, Persistence.decode env.ord blob ≠ .ok snap) (s : Fabric) :
    s.apply env (.load blob) = s := by
  rcases apply_load_cases env s blob with h | ⟨snap, hd', -⟩
  · exact h
  · exact absurd hd' (hd snap)

theorem createService_eq {s s' : Fabric} {d : ServiceDefinition} (h : s.createService d = .ok s') :
    s' = { s with services := s.services.push d.service d } ∧
      ∀ x ∈ s.services.items, x.service ≠ d.service := by
  unfold createService at h
  split_ifs at h with hmax hany
  cases h
  exact ⟨rfl, by simpa using hany⟩

theorem installRoute_eq (s : Fabric) (entry : RouteEntry) (boot : GatewayBootId) :
    (s.installRoute entry boot).1 = { s with routes := (s.installRoute entry boot).1.routes } := by
  unfold installRoute
  split <;> rfl

/-- **An operation, inverted**, as far as the saved part of the state is
concerned. -/
theorem apply_effect (env : Env) (s : Fabric) (o : Op) : OpEffect env s o (s.apply env o) := by
  cases o with
  | setCoordinatorIdentity id epoch => exact .identity id epoch
  | createService d =>
    show OpEffect env s _ (s.orSelf (s.createService d))
    cases h : s.createService d with
    | error e => exact .transient rfl
    | ok s' => exact .created h
  | setInitialAssignment now a =>
    show OpEffect env s _ (s.orSelf (s.setInitialAssignment now a))
    cases h : s.setInitialAssignment now a with
    | error e => exact .transient rfl
    | ok s' => exact .assigned h
  | load blob =>
    rcases apply_load_cases env s blob with h | ⟨snap, hd, h⟩
    · rw [h]
      exact .transient rfl
    · rw [h]
      exact .loaded hd
  | declareDomain d => exact .declared d
  | setMembership m => exact .member m
  | publishFailure ev => exact .published ev
  | clearFailure id => exact .cleared id
  | installRoute entry boot => exact .installed entry boot
  | bindRouteGateway slot boot => exact .bound slot boot
  | markRoutesRevalidation => exact .revalidated
  | registerTarget id transport => exact .transient (apply_registerTarget env s id transport ▸ rfl)
  | publishCandidateFacts now f => exact .transient (apply_publishCandidateFacts env s now f ▸ rfl)
  | publishCandidateState t st => exact .transient (apply_publishCandidateState env s t st ▸ rfl)
  | publishCandidateResources t rs =>
    exact .transient (apply_publishCandidateResources env s t rs ▸ rfl)
  | snapshot slot => exact .transient (apply_snapshot env s slot ▸ rfl)
  | select slot => exact .transient (apply_select env s slot ▸ rfl)
  | planFailover slot =>
    refine .transient ?_
    show Transient s (s.planFailoverPref env.rank slot none).1
    rw [planFailoverPref_fst]
    rfl
  | _ => exact .transient rfl

/-- `s'` has the records of targets, failures, authorizations and requests that `s`
has. -/
structure SameReports (s s' : Fabric) : Prop where
  targets : s'.targets = s.targets
  confirmedFailedTargets : s'.confirmedFailedTargets = s.confirmedFailedTargets
  manualFailbackAuthorized : s'.manualFailbackAuthorized = s.manualFailbackAuthorized
  requests : s'.requests = s.requests

/-- The operations that write the records of targets, failures, authorizations and
requests. -/
def reports : Op → Bool
  | .registerTarget _ _ => true
  | .publishCandidateFacts _ _ => true
  | .publishCandidateState _ _ => true
  | .publishCandidateResources _ _ => true
  | .publishFailure _ => true
  | .authorizeFailback _ => true
  | .recordRequest _ => true
  | .classifyLateResult _ _ => true
  | .markOutcomeUnknown _ => true
  | .load _ => true
  | _ => false

theorem sameReports_orSelf {s : Fabric} {r : Except Error Fabric}
    (h : ∀ s', r = .ok s' → SameReports s s') : SameReports s (s.orSelf r) := by
  cases r with
  | error e => exact ⟨rfl, rfl, rfl, rfl⟩
  | ok s' => exact h s' rfl

theorem apply_sameReports (env : Env) (s : Fabric) (o : Op) (h : reports o = false) :
    SameReports s (s.apply env o) := by
  cases o with
  | createService d =>
    refine sameReports_orSelf fun s' hs => ?_
    rw [(createService_eq hs).1]
    exact ⟨rfl, rfl, rfl, rfl⟩
  | setInitialAssignment now a =>
    refine sameReports_orSelf fun s' hs => ?_
    rw [(setInitialAssignment_eq_ok hs).fabric]
    exact ⟨rfl, rfl, rfl, rfl⟩
  | snapshot slot =>
    rw [apply_snapshot]
    exact ⟨rfl, rfl, rfl, rfl⟩
  | select slot =>
    rw [apply_select]
    exact ⟨rfl, rfl, rfl, rfl⟩
  | planFailover slot =>
    show SameReports s (s.planFailoverPref env.rank slot none).1
    rw [planFailoverPref_fst]
    exact ⟨rfl, rfl, rfl, rfl⟩
  | installRoute entry boot =>
    show SameReports s (s.installRoute entry boot).1
    rw [installRoute_eq]
    exact ⟨rfl, rfl, rfl, rfl⟩
  | registerTarget id transport => cases h
  | publishCandidateFacts now f => cases h
  | publishCandidateState t st => cases h
  | publishCandidateResources t rs => cases h
  | publishFailure ev => cases h
  | authorizeFailback slot => cases h
  | recordRequest r => cases h
  | classifyLateResult id auth => cases h
  | markOutcomeUnknown id => cases h
  | load blob => cases h
  | _ => exact ⟨rfl, rfl, rfl, rfl⟩

/-- Every operation but an initial assignment and a load keeps apart from the
authority state. -/
theorem apply_apart (env : Env) (s : Fabric) (o : Op)
    (hassign : ∀ now a, o ≠ .setInitialAssignment now a) (hload : ∀ blob, o ≠ .load blob) :
    Apart s (s.apply env o) := by
  have heff := apply_effect env s o
  generalize s.apply env o = s' at heff
  cases heff with
  | transient h => exact h.apart
  | created h =>
    rw [(createService_eq h).1]
    rfl
  | assigned h => exact absurd rfl (hassign _ _)
  | installed entry boot =>
    rw [installRoute_eq]
    rfl
  | loaded h => exact absurd rfl (hload _)
  | _ => exact rfl

/-- Contracts are created and loaded, and otherwise left alone. -/
theorem apply_services (env : Env) (s : Fabric) (o : Op) (hcreate : ∀ d, o ≠ .createService d)
    (hload : ∀ blob, o ≠ .load blob) : (s.apply env o).services = s.services := by
  have heff := apply_effect env s o
  generalize s.apply env o = s' at heff
  cases heff with
  | transient h => rw [h]
  | created h => exact absurd rfl (hcreate _)
  | assigned h => rw [(setInitialAssignment_eq_ok h).fabric]
  | installed entry boot => rw [installRoute_eq]
  | loaded h => exact absurd rfl (hload _)
  | _ => rfl

/-- A new contract replaces none. -/
theorem createService_find {s s' : Fabric} {d svc : ServiceDefinition} {id : ServiceId}
    (hs : s.services.Sound (·.service)) (h : s.createService d = .ok s')
    (hfind : s.findService id = some svc) : s'.findService id = some svc := by
  obtain ⟨rfl, hnew⟩ := createService_eq h
  have hne : id ≠ d.service := by
    intro heq
    refine hnew svc (IndexedVec.mem_of_find hfind) ?_
    rw [hs.key_of_find hfind, heq]
  rw [findService, IndexedVec.find_push _ _ _ hs, if_neg hne]
  exact hfind

/-- The current route of a slot after an operation: the same up to its gateway,
marked for revalidation, or an accepted one. -/
inductive RouteEffect (s : Fabric) (key : ServiceSlotKey) : Op → Fabric → Prop
  | bound {o : Op} {s' : Fabric} (g : RouteEntry → GatewayBootId)
      (h : s'.routes.current key = (s.routes.current key).map fun e => { e with gatewayBoot := g e }) :
      RouteEffect s key o s'
  | revalidated {o : Op} {s' : Fabric}
      (h : s'.routes.current key = (s.routes.current key).map RouteTable.revalidated) :
      RouteEffect s key o s'
  | installed {entry : RouteEntry} {boot : GatewayBootId} {s' : Fabric}
      (accepted : (s.installRoute entry boot).2 = true) (slot : entry.slot = key)
      (h : s'.routes.current key = some { entry with state := .acknowledged, gatewayBoot := boot }) :
      RouteEffect s key (.installRoute entry boot) s'

theorem RouteEffect.kept {s s' : Fabric} {key : ServiceSlotKey} {o : Op}
    (h : s'.routes = s.routes) : RouteEffect s key o s' :=
  .bound (·.gatewayBoot) (by rw [h]; simp)

theorem installRoute_route (s : Fabric) (entry : RouteEntry) (boot : GatewayBootId)
    (key : ServiceSlotKey) :
    RouteEffect s key (.installRoute entry boot) (s.installRoute entry boot).1 := by
  by_cases he : entry.epoch = s.epoch
  · have hinst : s.installRoute entry boot =
        ({ s with routes := (s.routes.install { entry with
          state := .acknowledged, gatewayBoot := boot }).1 },
          (s.routes.install { entry with state := .acknowledged, gatewayBoot := boot }).2) := by
      simp [installRoute, he]
    by_cases hk : (s.installRoute entry boot).2 = true ∧ entry.slot = key
    · refine .installed hk.1 hk.2 ?_
      rw [hinst] at hk ⊢
      show RouteTable.current (RouteTable.install _ _).1 key = _
      rw [RouteTable.current_install hk.1 nofun, if_pos hk.2.symm]
    · refine .bound (·.gatewayBoot) ?_
      rw [hinst] at hk ⊢
      have hne := RouteTable.current_install_of_ne (t := s.routes)
        (e := { entry with state := .acknowledged, gatewayBoot := boot }) nofun
        fun hacc (hs : _ = key) => hk ⟨hacc, hs⟩
      simp [hne]
  · exact .kept (by simp [installRoute, he])

/-- **An operation, inverted**, as far as the current route of a slot is
concerned. -/
theorem apply_route (env : Env) (s : Fabric) (o : Op) (key : ServiceSlotKey)
    (hload : ∀ blob, o ≠ .load blob) : RouteEffect s key o (s.apply env o) := by
  have heff := apply_effect env s o
  generalize s.apply env o = s' at heff
  cases heff with
  | transient h => exact .kept (by rw [h])
  | created h => exact .kept (by rw [(createService_eq h).1])
  | assigned h => exact .kept (by rw [(setInitialAssignment_eq_ok h).fabric])
  | installed entry boot => exact installRoute_route s entry boot key
  | bound slot boot =>
    obtain ⟨g, hg⟩ := RouteTable.current_bindGateway s.routes slot boot key
    exact .bound g hg
  | revalidated => exact .revalidated (RouteTable.current_markRevalidationRequired s.routes key)
  | loaded h => exact absurd rfl (hload _)
  | _ => exact .kept rfl

/-! ## Calls -/

/-- `s'` differs from `s` only as a failback's own steps make it differ. -/
def Settled (s s' : Fabric) : Prop :=
  s' = { s with
    snapshotCounter := s'.snapshotCounter
    lastTransition := s'.lastTransition
    failbackAttempts := s'.failbackAttempts }

/-- What a step of a call does: nothing to its attempt, open one, or advance
it. -/
inductive CallEffect (rd : Readings) (s : Fabric) (c : Call) (r : Fabric × Call) : Prop
  | idle (fabric : Settled s r.1) (same : r.2.attempt = c.attempt)
  | opened (fabric : Settled s r.1) (before : c.attempt = none) (plan : FailoverPlan)
      (ops : CutoverOps) (now : r.2.attempt = some { plan := plan, ops := ops })
  | stepped (a : Attempt) (before : c.attempt = some a) (fabric : r.1 = (s.attemptStep rd a).1)
      (now : r.2.attempt = some (s.attemptStep rd a).2)

theorem afterAttempt_attempt (a : Attempt) : (afterAttempt a).attempt = some a := by
  unfold afterAttempt
  split <;> rfl

theorem planFailback_effect (env : Env) (rd : Readings) (s : Fabric) (f : Failback)
    (pref : TargetId) (h : f.stage.attempt = none) :
    CallEffect rd s (.failback f)
      ((s.planFailback env f pref).1, .failback (s.planFailback env f pref).2) := by
  have hfst := planFailoverPref_fst env.rank s f.slot (some pref)
  unfold planFailback
  split
  · rename_i s' e he
    rw [he] at hfst
    exact .idle (hfst ▸ rfl) h.symm
  · rename_i s' he
    rw [he] at hfst
    exact .idle (hfst ▸ rfl) h.symm
  · rename_i s' plan he
    rw [he] at hfst
    exact .opened (hfst ▸ rfl) h plan f.ops rfl

theorem settleFailback_settled (s : Fabric) (now : Time) (slot : ServiceSlotKey)
    (state : AttemptState) : Settled s (s.settleFailback now slot state) := by
  unfold settleFailback
  split <;> rfl

/-- **A step of a call, inverted.** -/
theorem callStep_effect (env : Env) (rd : Readings) (s : Fabric) (c : Call) :
    CallEffect rd s c (s.callStep env rd c) := by
  cases c with
  | plan a => exact .stepped a rfl rfl rfl
  | failback f =>
    show CallEffect rd s (.failback f)
      ((s.failbackStep env rd f).1, .failback (s.failbackStep env rd f).2)
    unfold failbackStep
    cases hst : f.stage with
    | evaluating =>
      simp only
      split
      · exact .idle rfl (by simp [Call.attempt, hst, FailbackStage.attempt])
      · exact .idle rfl (by simp [Call.attempt, hst, FailbackStage.attempt, Failback.refuse])
    | reading =>
      simp only
      split
      · exact .idle rfl (by simp [Call.attempt, hst, FailbackStage.attempt])
      · exact .idle rfl (by simp [Call.attempt, hst, FailbackStage.attempt, Failback.refuse])
    | planning pref =>
      exact planFailback_effect env rd s f pref (by rw [hst]; rfl)
    | cutting a =>
      exact .stepped a (by simp [Call.attempt, hst, FailbackStage.attempt]) rfl
        (afterAttempt_attempt _)
    -- the attempt has ended; only the failback's own books are kept
    | settling a =>
      exact .idle (settleFailback_settled s rd.now f.slot a.result.state)
        (by simp [Call.attempt, hst, FailbackStage.attempt])
    | returned a r => exact .idle rfl rfl
    | threw a e => exact .idle rfl rfl

/-- No step of a call reaches further. -/
theorem callStep_confined (env : Env) (rd : Readings) (s : Fabric) (c : Call) :
    Confined s (s.callStep env rd c).1 := by
  rcases callStep_effect env rd s c with ⟨hf, -⟩ | ⟨hf, -⟩ | ⟨a, -, hf, -⟩
  · rw [hf]
    rfl
  · rw [hf]
    rfl
  · rw [hf]
    exact attemptStep_confined rd s a

end Fabric

open Fabric

/-! ## The attempts of the calls -/

/-- The attempt of a call. -/
def SystemState.attemptAt (σ : SystemState) (i : Nat) : Option Attempt :=
  (σ.calls[i]?).bind Call.attempt

theorem attemptAt_append (σ : SystemState) (c : Call) (i : Nat)
    (hc : c.attempt = none ∨ ∃ plan ops, c.attempt = some { plan := plan, ops := ops }) :
    let σ' : SystemState := { σ with calls := σ.calls ++ [c] }
    σ'.attemptAt i = σ.attemptAt i ∨
      σ.attemptAt i = none ∧ ∃ plan ops, σ'.attemptAt i = some { plan := plan, ops := ops } := by
  intro σ'
  unfold SystemState.attemptAt
  rcases Nat.lt_trichotomy i σ.calls.length with hlt | heq | hgt
  · left
    rw [List.getElem?_append_left hlt]
  · subst heq
    rw [List.getElem?_concat_length, Option.bind_some, List.getElem?_eq_none (Nat.le_refl _)]
    rcases hc with hc | hc
    · exact Or.inl hc
    · exact Or.inr ⟨rfl, hc⟩
  · left
    rw [List.getElem?_eq_none (Nat.le_of_lt hgt), List.getElem?_eq_none]
    rw [List.length_append, List.length_singleton]
    omega

/-- Setting call `i` changes the attempt of call `i` only. -/
theorem attemptAt_set {calls : List Call} {s : Fabric} {i : Nat} {c0 : Call}
    (h : calls[i]? = some c0) (c : Call) (j : Nat) :
    SystemState.attemptAt { fabric := s, calls := calls.set i c } j =
      if j = i then c.attempt else (calls[j]?).bind Call.attempt := by
  unfold SystemState.attemptAt
  split
  · rename_i heq
    subst heq
    rw [List.getElem?_set_self (List.getElem?_eq_some_iff.mp h).1, Option.bind_some]
  · rename_i hne
    rw [List.getElem?_set_ne (Ne.symm hne)]

/-- No attempt is lost, and the new ones are about to validate. -/
def OpensOnly (σ σ' : SystemState) : Prop :=
  ∀ i, σ'.attemptAt i = σ.attemptAt i ∨
    σ.attemptAt i = none ∧ ∃ plan ops, σ'.attemptAt i = some { plan := plan, ops := ops }

/-- What a step of the system does to the fabric and to the attempts. -/
inductive StepEffect (env : Env) (σ : SystemState) : Label → SystemState → Prop
  | applied (o : Op) : StepEffect env σ (.op o) { σ with fabric := σ.fabric.apply env o }
  | settled {l : Label} {σ' : SystemState} (fabric : Settled σ.fabric σ'.fabric)
      (attempts : OpensOnly σ σ') : StepEffect env σ l σ'
  | stepped {i : Nat} {rd : Readings} {σ' : SystemState} (a : Attempt)
      (before : σ.attemptAt i = some a) (fabric : σ'.fabric = (σ.fabric.attemptStep rd a).1)
      (after : σ'.attemptAt i = some (σ.fabric.attemptStep rd a).2)
      (others : ∀ j, j ≠ i → σ'.attemptAt j = σ.attemptAt j) :
      StepEffect env σ (.advance i rd) σ'
  | restarted {cfg : RuntimeConfig} {blob : List UInt8} {snap : PersistenceSnapshot}
      (saved : σ.fabric.save = .ok blob) (h : Persistence.decode env.ord blob = .ok snap) :
      StepEffect env σ (.restart cfg) { fabric := restore { cfg := cfg } snap }

/-- The attempts after a step of one of them. -/
theorem attempts_stepped {σ σ' : SystemState} {i : Nat} {a' : Attempt} {P : Nat → Attempt → Prop}
    (hafter : σ'.attemptAt i = some a') (hothers : ∀ j, j ≠ i → σ'.attemptAt j = σ.attemptAt j)
    (hstep : P i a') (hrest : ∀ j a, σ.attemptAt j = some a → P j a) :
    ∀ j a, σ'.attemptAt j = some a → P j a := by
  intro j a ha
  by_cases hij : j = i
  · subst hij
    rw [hafter] at ha
    cases ha
    exact hstep
  · exact hrest j a (hothers j hij ▸ ha)

/-- The attempts after a step that only begins calls. -/
theorem OpensOnly.attempts {σ σ' : SystemState} {P : Nat → Attempt → Prop} (h : OpensOnly σ σ')
    (hnew : ∀ i plan ops, P i { plan := plan, ops := ops })
    (hrest : ∀ i a, σ.attemptAt i = some a → P i a) : ∀ i a, σ'.attemptAt i = some a → P i a := by
  intro i a ha
  rcases h i with heq | ⟨-, plan, ops, hfresh⟩
  · exact hrest i a (heq ▸ ha)
  · rw [ha] at hfresh
    cases hfresh
    exact hnew i plan ops

theorem step_advance_some {env : Env} {σ : SystemState} {i : Nat} {c : Call}
    (h : σ.calls[i]? = some c) (rd : Readings) :
    σ.step env (.advance i rd) = { fabric := (σ.fabric.callStep env rd c).1
                                   calls := σ.calls.set i (σ.fabric.callStep env rd c).2 } := by
  simp only [SystemState.step, h]

theorem step_advance_none {env : Env} {σ : SystemState} {i : Nat} (h : σ.calls[i]? = none)
    (rd : Readings) : σ.step env (.advance i rd) = σ := by
  simp only [SystemState.step, h]

theorem step_restart_ok {env : Env} {σ : SystemState} {cfg : RuntimeConfig} {s : Fabric}
    (h : Fabric.restart env.ord cfg σ.fabric = .ok s) :
    σ.step env (.restart cfg) = { fabric := s } := by
  simp only [SystemState.step, h]

theorem step_restart_error {env : Env} {σ : SystemState} {cfg : RuntimeConfig} {e : Error}
    (h : Fabric.restart env.ord cfg σ.fabric = .error e) : σ.step env (.restart cfg) = σ := by
  simp only [SystemState.step, h]

/-- **A step of a call, inverted**: there is no such call, or it and the fabric
move on. -/
theorem step_advance_cases (env : Env) (σ : SystemState) (i : Nat) (rd : Readings) :
    σ.step env (.advance i rd) = σ ∨ ∃ c, σ.calls[i]? = some c ∧
      σ.step env (.advance i rd) = { fabric := (σ.fabric.callStep env rd c).1
                                     calls := σ.calls.set i (σ.fabric.callStep env rd c).2 } := by
  cases hc : σ.calls[i]? with
  | none => exact Or.inl (step_advance_none hc rd)
  | some c => exact Or.inr ⟨c, rfl, step_advance_some hc rd⟩

/-- **A restart, inverted**: it is refused and nothing changes, or a new process
starts from what the state saves. -/
theorem step_restart_cases (env : Env) (σ : SystemState) (cfg : RuntimeConfig) :
    σ.step env (.restart cfg) = σ ∨ ∃ blob snap, σ.fabric.save = .ok blob ∧
      Persistence.decode env.ord blob = .ok snap ∧
      σ.step env (.restart cfg) = { fabric := restore { cfg := cfg } snap } := by
  cases h : Fabric.restart env.ord cfg σ.fabric with
  | error e => exact Or.inl (step_restart_error h)
  | ok s' =>
    have hstep := step_restart_ok h
    obtain ⟨blob, snap, hsave, hd, rfl⟩ := restart_eq_ok.mp h
    exact Or.inr ⟨blob, snap, hsave, hd, hstep⟩

theorem advance_effect (env : Env) (σ : SystemState) (i : Nat) (rd : Readings) :
    StepEffect env σ (.advance i rd) (σ.step env (.advance i rd)) := by
  rcases step_advance_cases env σ i rd with hstep | ⟨c, hc, hstep⟩
  · rw [hstep]
    exact .settled rfl fun _ => Or.inl rfl
  rw [hstep]
  have hat := attemptAt_set (s := (σ.fabric.callStep env rd c).1) hc (σ.fabric.callStep env rd c).2
  have hbefore : σ.attemptAt i = c.attempt := by rw [SystemState.attemptAt, hc, Option.bind_some]
  rcases callStep_effect env rd σ.fabric c with ⟨hf, hsame⟩ | ⟨hf, hnone, plan, ops, hnow⟩ |
    ⟨a, ha, hf, hnow⟩
  · refine .settled hf fun j => Or.inl ?_
    rw [hat]
    split
    · rename_i heq
      rw [hsame, heq, hbefore]
    · rfl
  · refine .settled hf fun j => ?_
    rw [hat]
    split
    · rename_i heq
      rw [heq, hbefore]
      exact Or.inr ⟨hnone, plan, ops, hnow⟩
    · exact Or.inl rfl
  · refine .stepped a (hbefore.trans ha) hf ?_ fun j hj => ?_
    · rw [hat, if_pos rfl, hnow]
    · rw [hat, if_neg hj]
      rfl

/-- **A step of the system, inverted**, as far as the fabric and the attempts are
concerned. -/
theorem step_effect (env : Env) (σ : SystemState) (l : Label) :
    StepEffect env σ l (σ.step env l) := by
  cases l with
  | op o => exact .applied o
  | beginPlan plan ops => exact .settled rfl fun i => attemptAt_append σ _ i (Or.inr ⟨plan, ops, rfl⟩)
  | beginFailback slot ops => exact .settled rfl fun i => attemptAt_append σ _ i (Or.inl rfl)
  | advance i rd => exact advance_effect env σ i rd
  | restart cfg =>
    rcases step_restart_cases env σ cfg with hstep | ⟨blob, snap, hsave, hd, hstep⟩
    · rw [hstep]
      exact .settled rfl fun _ => Or.inl rfl
    · rw [hstep]
      exact .restarted hsave hd

/-! ## The authority state -/

/-- What a step of the system does to the slots and the fenced boots. -/
inductive AuthorityEffect (env : Env) (σ : SystemState) : Label → Fabric → Prop
  | kept {l : Label} {s' : Fabric} (slots : s'.slots = σ.fabric.slots)
      (fencedBoots : s'.fencedBoots = σ.fabric.fencedBoots) : AuthorityEffect env σ l s'
  | assigned {now : Time} {a : Assignment} {s' : Fabric}
      (h : σ.fabric.setInitialAssignment now a = .ok s') :
      AuthorityEffect env σ (.op (.setInitialAssignment now a)) s'
  | loaded {blob : List UInt8} {snap : PersistenceSnapshot}
      (h : Persistence.decode env.ord blob = .ok snap) :
      AuthorityEffect env σ (.op (.load blob)) (σ.fabric.restore snap)
  | fenced {i : Nat} {rd : Readings} {a : Attempt} {old : Assignment} (h : FenceProven a old) :
      AuthorityEffect env σ (.advance i rd) (σ.fabric.addFencedBoot old.workerBoot)
  | committed {i : Nat} {rd : Readings} {c : Call} {a : Attempt} (call : σ.calls[i]? = some c)
      (attempt : c.attempt = some a)
      (commit : CommitStep rd.now σ.fabric a (σ.fabric.attemptStep rd a)) :
      AuthorityEffect env σ (.advance i rd) (σ.fabric.commit rd.now a)
  | restarted {cfg : RuntimeConfig} {blob : List UInt8} {snap : PersistenceSnapshot}
      (saved : σ.fabric.save = .ok blob) (h : Persistence.decode env.ord blob = .ok snap) :
      AuthorityEffect env σ (.restart cfg) (restore { cfg := cfg } snap)

theorem op_authority (env : Env) (σ : SystemState) (o : Op) :
    AuthorityEffect env σ (.op o) (σ.fabric.apply env o) := by
  by_cases hassign : ∃ now a, o = .setInitialAssignment now a
  · obtain ⟨now, a, rfl⟩ := hassign
    show AuthorityEffect env σ _ (σ.fabric.orSelf (σ.fabric.setInitialAssignment now a))
    cases h : σ.fabric.setInitialAssignment now a with
    | error e => exact .kept rfl rfl
    | ok s' => exact .assigned h
  by_cases hload : ∃ blob, o = .load blob
  · obtain ⟨blob, rfl⟩ := hload
    show AuthorityEffect env σ _ (σ.fabric.apply env (.load blob))
    rcases apply_load_cases env σ.fabric blob with h | ⟨snap, hd, h⟩
    · rw [h]
      exact .kept rfl rfl
    · rw [h]
      exact .loaded hd
  · have h := apply_apart env σ.fabric o (fun now a he => hassign ⟨now, a, he⟩)
      fun blob he => hload ⟨blob, he⟩
    exact .kept h.slots h.fencedBoots

/-- Operations other than a load fence nothing. -/
theorem apply_fences {env : Env} {s : Fabric} {o : Op} (hload : ∀ blob, o ≠ .load blob) :
    (s.apply env o).fencedBoots = s.fencedBoots := by
  have heff := op_authority env { fabric := s } o
  change AuthorityEffect env _ _ (s.apply env o) at heff
  generalize s.apply env o = s' at heff
  cases heff with
  | kept _ hf => exact hf
  | assigned hs => rw [(setInitialAssignment_eq_ok hs).fabric]
  | loaded _ => exact absurd rfl (hload _)

/-- A step of a call either commits its attempt or leaves the slots alone. -/
theorem advance_authority (env : Env) (σ : SystemState) (i : Nat) (rd : Readings) :
    AuthorityEffect env σ (.advance i rd) (σ.step env (.advance i rd)).fabric := by
  have heff := advance_effect env σ i rd
  generalize σ.step env (.advance i rd) = σ' at heff
  cases heff with
  | settled hf _ => exact .kept (by rw [hf]) (by rw [hf])
  | stepped a hb hf _ _ =>
    rw [hf]
    by_cases hst : a.stage = .validating
    · have hq := validateAttempt_quiet σ.fabric a
      rw [attemptStep_validating hst]
      exact .kept hq.slots hq.fencedBoots
    · obtain ⟨c, hc, ha⟩ := Option.bind_eq_some_iff.mp hb
      rcases attemptStep_cases rd σ.fabric a hst with hq | hfence | hcommit
      · exact .kept hq.fabric.slots hq.fabric.fencedBoots
      · obtain ⟨old, hold, hfab⟩ := hfence.fence
        rw [hfab]
        exact .fenced hold
      · have hfab := hcommit.fabric
        rw [hfab]
        exact .committed hc ha hcommit

/-- **A step of the system, inverted**, as far as the slots and the fenced boots
are concerned. -/
theorem step_authority (env : Env) (σ : SystemState) (l : Label) :
    AuthorityEffect env σ l (σ.step env l).fabric := by
  cases l with
  | op o => exact op_authority env σ o
  | beginPlan plan ops => exact .kept rfl rfl
  | beginFailback slot ops => exact .kept rfl rfl
  | advance i rd => exact advance_authority env σ i rd
  | restart cfg =>
    rcases step_restart_cases env σ cfg with hstep | ⟨blob, snap, hsave, hd, hstep⟩
    · rw [hstep]
      exact .kept rfl rfl
    · rw [hstep]
      exact .restarted hsave hd

/-- A step of a call is confined. -/
theorem advance_confined (env : Env) (σ : SystemState) (i : Nat) (rd : Readings) :
    Confined σ.fabric (σ.step env (.advance i rd)).fabric := by
  rcases step_advance_cases env σ i rd with hstep | ⟨c, -, hstep⟩
  · rw [hstep]
    exact rfl
  · rw [hstep]
    exact callStep_confined env rd σ.fabric c

theorem services_sound_step {env : Env} {σ : SystemState} (l : Label)
    (h : σ.fabric.services.Sound (·.service)) :
    (σ.step env l).fabric.services.Sound (·.service) := by
  cases l with
  | op o =>
    by_cases hcreate : ∃ d, o = .createService d
    · obtain ⟨d, rfl⟩ := hcreate
      show (σ.fabric.orSelf (σ.fabric.createService d)).services.Sound (·.service)
      cases hc : σ.fabric.createService d with
      | error e => exact h
      | ok s' =>
        rw [orSelf, (createService_eq hc).1]
        exact h.push rfl
    by_cases hload : ∃ blob, o = .load blob
    · obtain ⟨blob, rfl⟩ := hload
      show (σ.fabric.apply env (.load blob)).services.Sound (·.service)
      rcases apply_load_cases env σ.fabric blob with hl | ⟨snap, -, hl⟩
      · rw [hl]
        exact h
      · rw [hl]
        exact IndexedVec.sound_ofItems snap.services
    · show (σ.fabric.apply env o).services.Sound (·.service)
      rwa [apply_services env σ.fabric o (fun d he => hcreate ⟨d, he⟩) fun b he => hload ⟨b, he⟩]
  | beginPlan plan ops => exact h
  | beginFailback slot ops => exact h
  | advance i rd =>
    rw [(advance_confined env σ i rd).services]
    exact h
  | restart cfg =>
    rcases step_restart_cases env σ cfg with hstep | ⟨_, snap, -, -, hstep⟩
    · rw [hstep]
      exact h
    · rw [hstep]
      exact IndexedVec.sound_ofItems snap.services

/-- The contracts of every run are filed under their ids. -/
theorem services_sound {env : Env} {ok : SystemState → Label → Prop} {σ : SystemState}
    (h : Transition.Reachable (machine env) ok σ) : σ.fabric.services.Sound (·.service) := by
  refine h.invariant (P := fun σ => σ.fabric.services.Sound (·.service)) ?_
    fun σ l _ hσ _ => services_sound_step l hσ
  rintro σ ⟨cfg, rfl⟩
  exact IndexedVec.indexed_empty.sound

/-! ## Completion -/

/-- With this step, call `i` has just returned `COMPLETED`, as attempt `a`. -/
def JustCompleted (env : Env) (σ : SystemState) (l : Label) (i : Nat) (a : Attempt) : Prop :=
  (∃ c, (σ.step env l).calls[i]? = some c ∧ c.attempt = some a ∧ a.Completed) ∧
    ∀ c a', σ.calls[i]? = some c → c.attempt = some a' → ¬ a'.Completed

/-- An attempt is completed by the step that commits it, and by no other. -/
theorem attemptStep_completed {rd : Readings} {s : Fabric} {a : Attempt}
    (h : (s.attemptStep rd a).2.Completed) :
    a.Completed ∨ CommitStep rd.now s a (s.attemptStep rd a) := by
  by_cases hst : a.stage = .validating
  · rw [attemptStep_validating hst] at h
    rcases validateAttempt_cases s a with ⟨hacc, -⟩ | ⟨⟨_, _, he⟩, -⟩ | ⟨⟨_, he⟩, -⟩
    · rw [Attempt.Completed, hacc.stage] at h
      cases h.1
    · rw [he] at h
      cases h.2
    · rw [he] at h
      cases h.1
  · rcases attemptStep_cases rd s a hst with hq | hf | hc
    · exact Or.inl (hq.completed h)
    · rw [Attempt.Completed, hf.stage] at h
      cases h.1
    · exact Or.inr hc

theorem getElem?_set_cases {α : Type} {l : List α} {i j : Nat} {x y : α}
    (h : (l.set i x)[j]? = some y) : j = i ∧ y = x ∨ j ≠ i ∧ l[j]? = some y := by
  by_cases hij : j = i
  · subst hij
    have hlt : j < l.length := by
      have := (List.getElem?_eq_some_iff.mp h).1
      rwa [List.length_set] at this
    rw [List.getElem?_set_self hlt] at h
    exact Or.inl ⟨rfl, (Option.some.inj h).symm⟩
  · rw [List.getElem?_set_ne (Ne.symm hij)] at h
    exact Or.inr ⟨hij, h⟩

theorem getElem?_concat_cases {α : Type} {l : List α} {i : Nat} {x y : α}
    (h : (l ++ [x])[i]? = some y) : l[i]? = some y ∨ i = l.length ∧ y = x := by
  rcases Nat.lt_or_ge i l.length with hlt | hge
  · rw [List.getElem?_append_left hlt] at h
    exact Or.inl h
  · have hlen := (List.getElem?_eq_some_iff.mp h).1
    rw [List.length_append, List.length_singleton] at hlen
    have hi : i = l.length := by omega
    subst hi
    rw [List.getElem?_concat_length] at h
    exact Or.inr ⟨rfl, (Option.some.inj h).symm⟩

/-- Where a call comes from that is there after a step. -/
inductive CallSource (env : Env) (σ : SystemState) : Label → Nat → Call → Prop
  | kept {l : Label} {i : Nat} {c : Call} (before : σ.calls[i]? = some c) : CallSource env σ l i c
  | plan (plan : FailoverPlan) (ops : CutoverOps) :
      CallSource env σ (.beginPlan plan ops) σ.calls.length (.plan { plan := plan, ops := ops })
  | failback (slot : ServiceSlotKey) (ops : CutoverOps) :
      CallSource env σ (.beginFailback slot ops) σ.calls.length
        (.failback { slot := slot, ops := ops })
  | advanced (rd : Readings) {i : Nat} {c : Call} (before : σ.calls[i]? = some c) :
      CallSource env σ (.advance i rd) i (σ.fabric.callStep env rd c).2

/-- The calls after a step: all but one are as they were. -/
theorem step_calls {env : Env} {σ : SystemState} {l : Label} {i : Nat} {c : Call}
    (h : (σ.step env l).calls[i]? = some c) : CallSource env σ l i c := by
  cases l with
  | op o => exact .kept h
  | beginPlan plan ops =>
    rcases getElem?_concat_cases h with h | ⟨rfl, rfl⟩
    · exact .kept h
    · exact .plan plan ops
  | beginFailback slot ops =>
    rcases getElem?_concat_cases h with h | ⟨rfl, rfl⟩
    · exact .kept h
    · exact .failback slot ops
  | advance j rd =>
    rcases step_advance_cases env σ j rd with hstep | ⟨c0, hc0, hstep⟩
    · rw [hstep] at h
      exact .kept h
    rw [hstep] at h
    rcases getElem?_set_cases h with ⟨rfl, rfl⟩ | ⟨-, h⟩
    · exact .advanced rd hc0
    · exact .kept h
  | restart cfg =>
    rcases step_restart_cases env σ cfg with hstep | ⟨_, _, -, -, hstep⟩
    · rw [hstep] at h
      exact .kept h
    · rw [hstep] at h
      cases h

/-- A property of attempts that holds of new ones and that a step of an attempt
keeps, a step of the system keeps of every call. -/
theorem step_attempts {P : Attempt → Prop} {env : Env} {σ : SystemState} {l : Label}
    (hnew : ∀ plan ops, P { plan := plan, ops := ops })
    (hstep : ∀ rd a, P a → P (σ.fabric.attemptStep rd a).2)
    (h : ∀ c ∈ σ.calls, ∀ a, c.attempt = some a → P a) :
    ∀ c ∈ (σ.step env l).calls, ∀ a, c.attempt = some a → P a := by
  intro c hc a ha
  obtain ⟨i, hi⟩ := List.mem_iff_getElem?.mp hc
  rcases step_calls hi with hi | ⟨plan, ops⟩ | ⟨_, _⟩ | @⟨rd, _, c0, hc0⟩
  · exact h c (List.mem_of_getElem? hi) a ha
  · cases ha
    exact hnew plan ops
  · cases ha
  · have hP := h c0 (List.mem_of_getElem? hc0)
    rcases callStep_effect env rd σ.fabric c0 with ⟨-, hsame⟩ | ⟨-, -, plan, ops, hnow⟩ |
      ⟨a0, ha0, -, hnow⟩
    · exact hP a (hsame ▸ ha)
    · rw [ha] at hnow
      cases hnow
      exact hnew plan ops
    · rw [ha] at hnow
      cases hnow
      exact hstep rd a0 (hP a0 ha0)

/-- An attempt in progress replaces in its own slot. -/
theorem attempts_owned {env : Env} {σ : SystemState} {l : Label}
    (h : ∀ c ∈ σ.calls, ∀ a, c.attempt = some a →
      a.stage = .validating ∨ Ended a ∨ a.newAssign.slot = a.slot) :
    ∀ c ∈ (σ.step env l).calls, ∀ a, c.attempt = some a →
      a.stage = .validating ∨ Ended a ∨ a.newAssign.slot = a.slot := by
  refine step_attempts (fun _ _ => Or.inl rfl) (fun rd a ha => ?_) h
  refine attemptStep_new (P := fun a => a.newAssign.slot = a.slot) ?_ ?_ ha
  · intro a' _ hacc
    rw [(composeAssignment_eq_ok hacc.issued).slot, Attempt.slot, hacc.plan]
  · intro a' hsame hnew ha
    rw [hnew, ha, hsame.slot]

/-- The attempts of every run are consistent. -/
theorem consistent_reachable {env : Env} {ok : SystemState → Label → Prop} {σ : SystemState}
    (h : Transition.Reachable (machine env) ok σ) {i : Nat} {a : Attempt}
    (ha : σ.attemptAt i = some a) : Consistent a := by
  have hall : ∀ c ∈ σ.calls, ∀ a, c.attempt = some a → Consistent a := by
    refine h.invariant (P := fun σ => ∀ c ∈ σ.calls, ∀ a, c.attempt = some a → Consistent a) ?_ ?_
    · rintro σ ⟨cfg, rfl⟩ c hc
      cases hc
    · exact fun σ l _ hσ _ => step_attempts consistent_new (fun _ _ => Consistent.step) hσ
  obtain ⟨c, hc, hca⟩ := Option.bind_eq_some_iff.mp ha
  exact hall c (List.mem_of_getElem? hc) a hca

/-- **What completes is a commit of that call.** -/
theorem JustCompleted.commit {env : Env} {σ : SystemState} {l : Label} {i : Nat} {a : Attempt}
    (h : JustCompleted env σ l i a) :
    ∃ rd c0 a0, l = .advance i rd ∧ σ.calls[i]? = some c0 ∧ c0.attempt = some a0 ∧
      CommitStep rd.now σ.fabric a0 (σ.fabric.attemptStep rd a0) ∧
      a = (σ.fabric.attemptStep rd a0).2 ∧ (σ.step env l).fabric = σ.fabric.commit rd.now a0 := by
  obtain ⟨⟨c, hc, hca, hcomp⟩, hbefore⟩ := h
  rcases step_calls hc with hc | ⟨_, _⟩ | ⟨_, _⟩ | @⟨rd, _, c0, hc0⟩
  · exact absurd hcomp (hbefore c a hc hca)
  · cases hca
    cases hcomp.1
  · cases hca
  · rcases callStep_effect env rd σ.fabric c0 with ⟨-, hsame⟩ | ⟨-, -, plan, ops, hnow⟩ |
      ⟨a0, ha0, hf, hnow⟩
    · rw [hca] at hsame
      exact absurd hcomp (hbefore c0 a hc0 hsame.symm)
    · rw [hca] at hnow
      cases hnow
      cases hcomp.1
    · rw [hca] at hnow
      cases hnow
      rcases attemptStep_completed hcomp with hdone | hcommit
      · exact absurd hdone (hbefore c0 a0 hc0 ha0)
      · refine ⟨rd, c0, a0, rfl, hc0, ha0, hcommit, rfl, ?_⟩
        rw [step_advance_some hc0]
        exact hf.trans hcommit.fabric

/-- A completion read off a computed state, with a test of what completed. -/
theorem justCompleted_of_decide (env : Env) (σ : SystemState) (l : Label) (i : Nat)
    (t : Attempt → Bool)
    (h : ((σ.calls[i]?).bind Call.attempt).map (fun a => decide a.Completed) = some false ∧
      (((σ.step env l).calls[i]?).bind Call.attempt).map (fun a => decide a.Completed && t a) =
        some true) :
    ∃ a, JustCompleted env σ l i a ∧ t a = true := by
  obtain ⟨hbefore, hafter⟩ := h
  obtain ⟨a, ha, htest⟩ := Option.map_eq_some_iff.mp hafter
  obtain ⟨c, hc, hca⟩ := Option.bind_eq_some_iff.mp ha
  obtain ⟨hcomp, ht⟩ := Bool.and_eq_true_iff.mp htest
  refine ⟨a, ⟨⟨c, hc, hca, of_decide_eq_true hcomp⟩, fun c' a' hc' ha' => ?_⟩, ht⟩
  rw [hc', Option.bind_some, ha', Option.map_some] at hbefore
  exact of_decide_eq_false (Option.some.inj hbefore)

/-- The step that commits an attempt completes its call. -/
theorem justCompleted_of_commit {env : Env} {σ : SystemState} {i : Nat} {rd : Readings}
    {a : Attempt} (hbefore : σ.attemptAt i = some a)
    (hafter : (σ.step env (.advance i rd)).attemptAt i = some (σ.fabric.attemptStep rd a).2)
    (hc : CommitStep rd.now σ.fabric a (σ.fabric.attemptStep rd a)) :
    JustCompleted env σ (.advance i rd) i (σ.fabric.attemptStep rd a).2 := by
  obtain ⟨c, hcall, hat⟩ := Option.bind_eq_some_iff.mp hafter
  refine ⟨⟨c, hcall, hat, hc.stage, hc.state⟩, fun c0 a0 hc0 ha0 hcomp => ?_⟩
  rw [SystemState.attemptAt, hc0, Option.bind_some, ha0] at hbefore
  cases hbefore
  rw [Attempt.Completed, hc.before] at hcomp
  cases hcomp.1

end FailoverFabric

import FailoverFabric.Fabric.State

/-! # Saving and loading

`FailoverFabric::save` and `load`.  `save` copies the durable part of the state
into a snapshot and encodes it.  `load` decodes a snapshot into a validated
temporary first; what it then replaces is rebuilt through the same operations
that built it, and an interrupted cutover is reconciled.
-/
namespace FailoverFabric

namespace Fabric
open Persistence

/-- The snapshot that `save` encodes. -/
def saveSnapshot (s : Fabric) : PersistenceSnapshot where
  epoch := s.epoch
  policyGeneration := s.policyGen
  lastAuthorityGen := s.lastAuthorityGen
  services := s.services.items
  assignments := s.slots.items.flatMap SlotState.assignments
  domains := s.domains.domains
  memberships := s.domains.memberships
  evidence := s.evidence.all
  routes := s.routes.allRoutes
  fencedBoots := s.fencedBoots
  hasTxn := s.hasTxn
  txnMilestone := s.txnMilestone
  pendingAssignment := s.pendingAssignment
  sourceAssignment := s.sourceAssignment
  pendingRoute := s.pendingRoute

def save (s : Fabric) : Except Error (List UInt8) := encode s.saveSnapshot

/-- File an assignment of a snapshot under its slot: as the current one when it
is active, in the history otherwise. -/
def place (slots : IndexedVec ServiceSlotKey SlotState) (a : Assignment) :
    IndexedVec ServiceSlotKey SlotState :=
  let slots := match slots.find a.slot with
    | some _ => slots
    | none => slots.push a.slot { slot := a.slot }
  slots.modify a.slot fun st =>
    if a.state = .active then { st with current := some a }
    else { st with history := st.history ++ [a] }

/-- A registered target after a load: known, but neither ready nor fresh. -/
def demoteTarget (t : TargetRecord) : TargetRecord :=
  { t with facts := t.facts.map fun f => { f with ready := false, evidenceFresh := false } }

/-- The cutover record of a snapshot is incomplete. -/
def interrupted (snap : PersistenceSnapshot) : Bool :=
  snap.hasTxn && snap.txnMilestone != .verificationComplete

/-- Reconciliation of a current assignment with an interrupted cutover: an active
one awaits revalidation if its boot is fenced or a replacement is pending. -/
def reconcileAssignment (snap : PersistenceSnapshot) (a : Assignment) : Assignment :=
  if a.state = .active ∧ (snap.fencedBoots.contains a.workerBoot || snap.pendingAssignment.isSome)
  then { a with state := .revalidationRequired } else a

def reconcile (snap : PersistenceSnapshot) (st : SlotState) : SlotState :=
  { st with current := st.current.map (reconcileAssignment snap) }

def rebuildSlots (snap : PersistenceSnapshot) : IndexedVec ServiceSlotKey SlotState :=
  let placed := snap.assignments.foldl place {}
  if interrupted snap then { placed with items := placed.items.map (reconcile snap) } else placed

/-- Replace the state by a decoded snapshot. -/
def restore (s : Fabric) (snap : PersistenceSnapshot) : Fabric :=
  { s with
    services := IndexedVec.ofItems (·.service) snap.services
    epoch := snap.epoch
    policyGen := snap.policyGeneration
    lastAuthorityGen := snap.lastAuthorityGen
    fencedBoots := snap.fencedBoots
    slots := rebuildSlots snap
    -- the target index is cleared, but the targets stay
    targets := { items := s.targets.items.map demoteTarget }
    targetsByService := fun _ => []
    domains := snap.memberships.foldl DomainRegistry.setMembership
      (snap.domains.foldl DomainRegistry.declare {})
    evidence := snap.evidence.foldl (fun t e => (EvidenceStore.publish t e).1) {}
    routes := (snap.routes.foldl (fun t e => (RouteTable.install t e).1) {}).markRevalidationRequired
    hasTxn := snap.hasTxn
    txnMilestone := snap.txnMilestone
    pendingAssignment := snap.pendingAssignment
    sourceAssignment := snap.sourceAssignment
    pendingRoute := snap.pendingRoute }

/-- Load a file's bytes; the state is untouched when they are refused. -/
def load (ord : CallOrders) (s : Fabric) (blob : List UInt8) : Except Error Fabric :=
  (decode ord blob).map s.restore

/-- An orderly restart: save, and load exactly that file into a fresh fabric. -/
def restart (ord : CallOrders) (cfg : RuntimeConfig) (s : Fabric) : Except Error Fabric := do
  let blob ← s.save
  load ord { cfg := cfg } blob

theorem load_eq_ok {ord : CallOrders} {s s' : Fabric} {blob : List UInt8} :
    load ord s blob = .ok s' ↔ ∃ snap, decode ord blob = .ok snap ∧ s' = s.restore snap := by
  unfold load
  cases decode ord blob with
  | error e => simp [Except.map]
  | ok snap => simp [Except.map, eq_comm]

theorem restart_eq_ok {ord : CallOrders} {cfg : RuntimeConfig} {s s' : Fabric} :
    restart ord cfg s = .ok s' ↔
      ∃ blob snap, s.save = .ok blob ∧ decode ord blob = .ok snap ∧
        s' = restore { cfg := cfg } snap := by
  unfold restart
  cases s.save with
  | error e => simp [bind, Except.bind]
  | ok blob => simp [bind, Except.bind, load_eq_ok]

end Fabric

end FailoverFabric

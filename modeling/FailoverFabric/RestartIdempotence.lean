import FailoverFabric.Stores
import FailoverFabric.ExclusiveAssignment
import FailoverFabric.Fabric.Records
import FailoverFabric.Persistence.Storable

/-! # Restarting again

A load rewrites what it rebuilds: reconciliation demotes current assignments, and
only active assignments are filed as current.  A demoted current assignment is
still current after the load that demoted it, but the next load finds it inactive
and files it in the history (`demoted_forgotten`).  Without a demotion the second
restart reproduces the first (`restart_idempotent`); it never fails
(`restart_again`).
-/
namespace FailoverFabric
open Fabric Persistence

/-! ## What a restarted fabric saves -/

section
variable {ord : CallOrders} {s fresh : Fabric}

/-- The file of a restarted fabric: that of the fabric before, with the rebuilt
assignments, and with live routes awaiting revalidation. -/
theorem saveSnapshot_restore (h : StoresWellFormed s) :
    (restore fresh (reread ord s.saveSnapshot)).saveSnapshot =
      { reread ord s.saveSnapshot with
        assignments := listed (rebuildSlots (reread ord s.saveSnapshot))
        routes := (s.routes.allRoutes.map (rereadRoute ord.decRoute)).map RouteTable.revalidated } := by
  have hdomains := h.domains.rebuild
  have hevidence := h.evidence.rebuild
  have hroutes : ((s.routes.allRoutes.map (rereadRoute ord.decRoute)).foldl
      (fun t e => (RouteTable.install t e).1) {}).markRevalidationRequired.allRoutes =
      (s.routes.allRoutes.map (rereadRoute ord.decRoute)).map RouteTable.revalidated := by
    refine RouteTable.allRoutes_replay (fun e he => ?_) ?_ fun e he => ?_
    · obtain ⟨e, hmem, rfl⟩ := List.mem_map.mp he
      exact h.routes.allRoutes_service (e := e) hmem
    · rw [List.map_map]
      exact h.routes.allRoutes_nodup
    · obtain ⟨e, hmem, rfl⟩ := List.mem_map.mp he
      exact RouteTable.allRoutes_state (e := e) hmem
  unfold saveSnapshot restore reread
  simp only [IndexedVec.ofItems_items, hdomains, hevidence, hroutes]
  rfl

theorem bytes_revalidated (e : RouteEntry) : (RouteTable.revalidated e).bytes = e.bytes := by
  unfold RouteTable.revalidated
  split <;> rfl

/-- What is read back is of the same size. -/
theorem bytes_reread (ord : CallOrders) (snap : PersistenceSnapshot) :
    (reread ord snap).bytes = snap.bytes := by
  have hroutes : (reread ord snap).routes.map (·.bytes) = snap.routes.map (·.bytes) := by
    simp only [reread, List.map_map]
    exact List.map_congr_left fun _ _ => rfl
  have htxn : (reread ord snap).txnBytes = snap.txnBytes := by
    unfold PersistenceSnapshot.txnBytes reread rereadTxn
    cases snap.hasTxn with
    | false => rfl
    | true => cases snap.pendingRoute <;> rfl
  rw [PersistenceSnapshot.bytes, listBytes, listBytes, listBytes, listBytes, listBytes, listBytes,
    hroutes, htxn]
  rfl

theorem bytes_replace {snap : PersistenceSnapshot} {as : List Assignment} {es : List RouteEntry}
    (has : (as.map (·.bytes)).sum ≤ (snap.assignments.map (·.bytes)).sum)
    (hes : (es.map (·.bytes)).sum = (snap.routes.map (·.bytes)).sum) :
    { snap with assignments := as, routes := es }.bytes ≤ snap.bytes := by
  simp only [PersistenceSnapshot.bytes, PersistenceSnapshot.txnBytes, listBytes, List.sum_cons, hes]
  omega

/-- Every rebuilt assignment is one of the snapshot, in another state possibly,
kept under its slot. -/
theorem rebuilt_from (snap : PersistenceSnapshot) :
    EveryRecord (fun key a => a.slot = key ∧ ∃ b ∈ snap.assignments, a = { b with state := a.state })
      (rebuildSlots snap) := by
  refine EveryRecord.rebuildSlots (fun a ha => ⟨rfl, a, ha, rfl⟩) ?_
  rintro key a st ⟨hslot, b, hb, hab⟩
  refine ⟨hslot, b, hb, ?_⟩
  rw [hab]

theorem rebuilt_owned (snap : PersistenceSnapshot) : Owned (rebuildSlots snap) :=
  fun st hst a ha => (rebuilt_from snap st hst a ha).1

theorem mem_rebuilt {snap : PersistenceSnapshot} {a : Assignment}
    (ha : a ∈ listed (rebuildSlots snap)) :
    ∃ b ∈ snap.assignments, a = { b with state := a.state } := by
  obtain ⟨_, -, h⟩ := (rebuilt_from snap).of_listed ha
  exact h

/-- The rebuilt assignments are no more, and no larger, than the snapshot's. -/
theorem sum_rebuilt {w : Assignment → Nat} (hw : ∀ a st, w { a with state := st } = w a)
    (snap : PersistenceSnapshot) :
    ((listed (rebuildSlots snap)).map w).sum ≤ (snap.assignments.map w).sum := by
  rw [sum_listed]
  exact weight_rebuildSlots hw snap

theorem length_rebuilt (snap : PersistenceSnapshot) :
    (listed (rebuildSlots snap)).length ≤ snap.assignments.length := by
  have := sum_rebuilt (w := fun _ => 1) (fun _ _ => rfl) snap
  simpa using this

theorem storable_again (ord : CallOrders) (fresh : Fabric) (h : StoresWellFormed s)
    (hs : s.saveSnapshot.Storable) :
    (restore fresh (reread ord s.saveSnapshot)).saveSnapshot.Storable := by
  rw [saveSnapshot_restore h]
  refine ⟨hs.version, hs.services, fun a ha => ?_, hs.domains, hs.evidence, fun e he => ?_,
    fun htxn a ha => ?_, fun htxn a ha => ?_, fun htxn e he => ?_⟩
  · obtain ⟨b, hb, hab⟩ := mem_rebuilt ha
    rw [hab]
    exact ⟨(hs.assignments b hb).resourceClaims, (hs.assignments b hb).continuityState⟩
  · rw [List.map_map] at he
    obtain ⟨e, hmem, rfl⟩ := List.mem_map.mp he
    have he : e.Storable := hs.routes e hmem
    simp only [Function.comp, RouteTable.revalidated]
    split <;> exact he
  · refine hs.pending htxn a ?_
    rw [← ha]
    simp [reread, rereadTxn, show s.saveSnapshot.hasTxn = true from htxn]
  · refine hs.source htxn a ?_
    rw [← ha]
    simp [reread, rereadTxn, show s.saveSnapshot.hasTxn = true from htxn]
  · have he : s.saveSnapshot.pendingRoute.map (rereadRoute ord.decRoute) = some e := by
      rw [← he]
      simp [reread, rereadTxn, show s.saveSnapshot.hasTxn = true from htxn]
    obtain ⟨e, hmem, rfl⟩ := Option.map_eq_some_iff.mp he
    exact hs.route htxn e hmem

theorem valid_again (ord : CallOrders) (fresh : Fabric) (h : StoresWellFormed s)
    (hv : Valid s.saveSnapshot) : Valid (restore fresh (reread ord s.saveSnapshot)).saveSnapshot := by
  have hwf := SlotsWellFormed.rebuildSlots (reread ord s.saveSnapshot)
  rw [saveSnapshot_restore h]
  refine ⟨hv.services, hv.slots, fun a ha => ?_, fun a ha => ?_, ?_⟩
  · obtain ⟨b, hb, hab⟩ := mem_rebuilt ha
    rw [hab]
    exact hv.known b hb
  · obtain ⟨b, hb, hab⟩ := mem_rebuilt ha
    rw [hab]
    exact hv.authority b hb
  · exact (active_sublist hwf.history (rebuilt_owned _)).nodup hwf.indexed.nodup

theorem within_again (ord : CallOrders) (fresh : Fabric) (h : StoresWellFormed s)
    (hw : s.saveSnapshot.Within) :
    (restore fresh (reread ord s.saveSnapshot)).saveSnapshot.Within := by
  rw [saveSnapshot_restore h]
  refine ⟨hw.services, ?_, hw.domains, hw.memberships, hw.evidence, ?_, hw.fencedBoots, ?_⟩
  · exact Nat.le_trans (length_rebuilt _) hw.assignments
  · have := hw.routes
    simpa [CountFits, saveSnapshot] using this
  · have hbytes : (reread ord s.saveSnapshot).bytes ≤ kMaxBlob := by
      rw [bytes_reread]
      exact hw.bytes
    refine Nat.le_trans (bytes_replace ?_ ?_) hbytes
    · exact sum_rebuilt (w := Assignment.bytes) (fun _ _ => rfl) _
    · rw [List.map_map]
      exact congrArg List.sum (List.map_congr_left fun e _ => bytes_revalidated e)

/-- **A restarted fabric can be restarted.**  What a load accepts and rebuilds
can be saved and loaded again. -/
theorem restartable_again (ord : CallOrders) (fresh : Fabric) (h : StoresWellFormed s)
    (hs : s.saveSnapshot.Storable) (hv : Valid s.saveSnapshot) (hw : s.saveSnapshot.Within) :
    let snap := (restore fresh (reread ord s.saveSnapshot)).saveSnapshot
    snap.Storable ∧ Valid snap ∧ snap.Within :=
  ⟨storable_again ord fresh h hs, valid_again ord fresh h hv, within_again ord fresh h hw⟩

end

/-! ## What the second restart finds -/

/-- Reconciliation demotes an assignment: the cutover record is incomplete, and
the active assignment has a fenced boot, or a replacement is pending. -/
def demotes (snap : PersistenceSnapshot) (a : Assignment) : Bool :=
  interrupted snap && a.state == .active &&
    (snap.fencedBoots.contains a.workerBoot || snap.pendingAssignment.isSome)

theorem reconciled_eq_ite (snap : PersistenceSnapshot) (a : Assignment) :
    reconciled snap a = if demotes snap a then { a with state := .revalidationRequired } else a := by
  unfold reconciled reconcileAssignment demotes
  cases interrupted snap <;> simp

theorem demotes_reread (ord : CallOrders) (snap : PersistenceSnapshot) (a : Assignment) :
    demotes (reread ord snap) a = demotes snap a := by
  unfold demotes interrupted reread rereadTxn
  cases snap.hasTxn <;> simp

section
variable {ord : CallOrders} {fresh again : Fabric} {snap : PersistenceSnapshot}
variable {slots : IndexedVec ServiceSlotKey SlotState}

/-- What one load left active, the next leaves alone. -/
theorem reconciled_again {a : Assignment} (ha : (reconciled snap a).state = .active) :
    reconciled (reread ord (restore fresh snap).saveSnapshot) (reconciled snap a) =
      reconciled snap a := by
  rw [reconciled_eq_ite snap a] at ha ⊢
  cases hd : demotes snap a with
  | true =>
    rw [hd] at ha
    cases ha
  | false =>
    rw [if_neg Bool.false_ne_true, reconciled_eq_ite, demotes_reread,
      show demotes (restore fresh snap).saveSnapshot a = demotes snap a from rfl, hd,
      if_neg Bool.false_ne_true]

theorem current_of_active (hwf : SlotsWellFormed slots) (ho : Owned slots) {a : Assignment}
    (ha : a ∈ listed slots) (hactive : a.state = .active) : currentOf slots a.slot = some a := by
  obtain ⟨st, hst, ha⟩ := List.mem_flatMap.mp ha
  rw [ho st hst a ha, currentOf, hwf.indexed.find_eq_some_iff.mpr ⟨hst, rfl⟩]
  rcases mem_assignments.mp ha with ha | ha
  · exact ha
  · exact absurd hactive (hwf.history st hst a ha)

theorem listed_of_current {key : ServiceSlotKey} {a : Assignment}
    (h : currentOf slots key = some a) : a ∈ listed slots := by
  obtain ⟨st, hst, ha⟩ := Option.bind_eq_some_iff.mp h
  exact List.mem_flatMap.mpr ⟨st, IndexedVec.mem_of_find hst, mem_assignments.mpr (Or.inl ha)⟩

theorem historyOf_inactive (hwf : SlotsWellFormed slots) {key : ServiceSlotKey} {a : Assignment}
    (ha : a ∈ historyOf slots key) : a.state ≠ .active := by
  unfold historyOf at ha
  cases hf : slots.find key with
  | none =>
    rw [hf] at ha
    cases ha
  | some st =>
    rw [hf] at ha
    exact hwf.history st (IndexedVec.mem_of_find hf) a ha

/-- **The current assignment after a second restart** is the one after the first,
if that is active. -/
theorem current_again (hv : Valid (restore fresh snap).saveSnapshot) (key : ServiceSlotKey) :
    (restore again (reread ord (restore fresh snap).saveSnapshot)).currentAssignment key =
      ((restore fresh snap).currentAssignment key).filter fun a => a.state == .active := by
  have hwf := SlotsWellFormed.rebuildSlots snap
  have ho := rebuilt_owned snap
  show currentOf (rebuildSlots _) key = (currentOf (rebuildSlots snap) key).filter _
  rw [currentOf_rebuildSlots]
  show (currentOf ((listed (rebuildSlots snap)).foldl place {}) key).map _ = _
  -- an active current assignment is filed as current again, any other in the history
  by_cases hcur : ∃ a, currentOf (rebuildSlots snap) key = some a ∧ a.state = .active
  · obtain ⟨a, hcur, hactive⟩ := hcur
    obtain ⟨st, hst, ha⟩ := Option.bind_eq_some_iff.mp hcur
    have hkey : a.slot = key := by
      rw [ho st (IndexedVec.mem_of_find hst) a (mem_assignments.mpr (Or.inl ha))]
      exact hwf.indexed.sound.key_of_find hst
    have hplaced : currentOf ((listed (rebuildSlots snap)).foldl place {}) key = some a :=
      hkey ▸ currentOf_foldl hv.active (listed_of_current hcur) hactive IndexedVec.indexed_empty
    rw [hcur, hplaced, Option.filter_some_pos (by simpa using hactive), Option.map_some]
    congr 1
    rw [currentOf_rebuildSlots] at hcur
    obtain ⟨b, -, rfl⟩ := Option.map_eq_some_iff.mp hcur
    exact reconciled_again hactive
  · have hnone : currentOf ((listed (rebuildSlots snap)).foldl place {}) key = none :=
      currentOf_foldl_of_forall IndexedVec.indexed_empty _ fun a ha hactive hkey =>
        hcur ⟨a, hkey ▸ current_of_active hwf ho ha hactive, hactive⟩
    rw [hnone]
    cases hc : currentOf (rebuildSlots snap) key with
    | none => rfl
    | some a =>
      have hinactive : a.state ≠ .active := fun hactive => hcur ⟨a, hc, hactive⟩
      rw [Option.filter_some_neg (by simpa using hinactive)]
      rfl

/-- **The history after a second restart** is the one after the first, behind the
current assignment if that is not active. -/
theorem history_again (key : ServiceSlotKey) :
    historyOf (restore again (reread ord (restore fresh snap).saveSnapshot)).slots key =
      (((restore fresh snap).currentAssignment key).toList.filter fun a => a.state != .active) ++
        historyOf (restore fresh snap).slots key := by
  have hwf := SlotsWellFormed.rebuildSlots snap
  show historyOf (rebuildSlots _) key = (currentOf (rebuildSlots snap) key).toList.filter _ ++
    historyOf (rebuildSlots snap) key
  rw [historyOf_rebuildSlots]
  show (listed (rebuildSlots snap)).filter _ = _
  rw [filter_listed hwf.indexed (rebuilt_owned snap)]
  -- the history holds no active assignment, so all of it is filed in the history again
  congr 1
  refine List.filter_eq_self.mpr fun a ha => ?_
  simpa using historyOf_inactive hwf ha

end

/-! ## The property -/

/-- What a restart has to keep of a current assignment. -/
def restarted (a : Assignment) :
    AssignmentId × AssignmentGeneration × TargetId × WorkerBootId × AssignmentState :=
  (a.id, a.generation, a.target, a.workerBoot, a.state)

/-- Two fabrics have the same current assignments and the same histories. -/
def SameAssignments (s1 s2 : Fabric) : Prop :=
  ∀ key, (s2.currentAssignment key).map restarted = (s1.currentAssignment key).map restarted ∧
    ∀ max, s2.assignmentHistory key max = s1.assignmentHistory key max

/-- **A restart of the fabric demotes an assignment**: its cutover record is
incomplete, and an active assignment of some record has a fenced boot, or the
cutover has a pending replacement. -/
def Demotes (s : Fabric) : Prop :=
  s.hasIncompleteCutover = true ∧ ∃ st ∈ s.slots.items, ∃ a ∈ st.assignments,
    a.state = .active ∧ (a.workerBoot ∈ s.fencedBoots ∨ s.pendingAssignment.isSome = true)

theorem assignmentHistory_eq (s : Fabric) (key : ServiceSlotKey) (max : Nat) :
    s.assignmentHistory key max = (historyOf s.slots key).take max := by
  unfold assignmentHistory historyOf findSlot
  cases s.slots.find key <;> simp

section
variable {ord : CallOrders} {s fresh again : Fabric}

theorem demotes_iff : Demotes s ↔ ∃ a ∈ s.saveSnapshot.assignments, demotes s.saveSnapshot a = true := by
  have hd : ∀ a, demotes s.saveSnapshot a = true ↔ s.hasIncompleteCutover = true ∧
      a.state = .active ∧ (a.workerBoot ∈ s.fencedBoots ∨ s.pendingAssignment.isSome = true) := by
    intro a
    simp only [demotes, Bool.and_eq_true, Bool.or_eq_true, beq_iff_eq, List.contains_iff_mem, and_assoc]
    rfl
  constructor
  · rintro ⟨htxn, st, hst, a, ha, hdem⟩
    exact ⟨a, List.mem_flatMap.mpr ⟨st, hst, ha⟩, (hd a).mpr ⟨htxn, hdem⟩⟩
  · rintro ⟨a, ha, hdem⟩
    obtain ⟨st, hst, ha⟩ := List.mem_flatMap.mp ha
    obtain ⟨htxn, hdem⟩ := (hd a).mp hdem
    exact ⟨htxn, st, hst, a, ha, hdem⟩

/-- Without a demotion, every current assignment is active after the restart. -/
theorem current_active_iff (hv : Valid s.saveSnapshot) :
    (∀ key a, (restore fresh (reread ord s.saveSnapshot)).currentAssignment key = some a →
      a.state = .active) ↔ ¬ Demotes s := by
  rw [demotes_iff]
  constructor
  · rintro h ⟨a, ha, hdem⟩
    have hactive : a.state = .active := by
      simp only [demotes, Bool.and_eq_true, beq_iff_eq] at hdem
      exact hdem.1.2
    have hst := h _ _ (restore_current (valid_reread.mpr hv) ha hactive)
    rw [reconciled_eq_ite, demotes_reread, hdem] at hst
    cases hst
  · intro h key a ha
    obtain ⟨b, hb, hactive, -, rfl⟩ := mem_of_restore_current ha
    rw [reconciled_eq_ite, demotes_reread]
    cases hdem : demotes s.saveSnapshot b with
    | false => exact hactive
    | true => exact absurd ⟨b, hb, hdem⟩ h

/-- The second restart reproduces the first iff that left every current
assignment active. -/
theorem sameAssignments_iff {snap : PersistenceSnapshot}
    (hv : Valid (restore fresh snap).saveSnapshot) :
    SameAssignments (restore fresh snap)
        (restore again (reread ord (restore fresh snap).saveSnapshot)) ↔
      ∀ key a, (restore fresh snap).currentAssignment key = some a → a.state = .active := by
  constructor
  · intro h key a ha
    have hcur := (h key).1
    rw [current_again hv, ha] at hcur
    by_contra hinactive
    rw [Option.filter_some_neg (by simpa using hinactive)] at hcur
    cases hcur
  · intro h key
    have hcur : ((restore fresh snap).currentAssignment key).filter (fun a => a.state == .active) =
        (restore fresh snap).currentAssignment key := by
      cases hc : (restore fresh snap).currentAssignment key with
      | none => rfl
      | some a => exact Option.filter_some_pos (by simpa using h key a hc)
    have hnone : ((restore fresh snap).currentAssignment key).toList.filter
        (fun a => a.state != .active) = [] := by
      refine List.filter_eq_nil_iff.mpr fun a ha => ?_
      simpa using h key a (Option.mem_toList.mp ha)
    refine ⟨by rw [current_again hv, hcur], fun max => ?_⟩
    rw [assignmentHistory_eq, assignmentHistory_eq, history_again, hnone, List.nil_append]

end

/-- **Restart idempotence.**  In every state of every run that can be restarted
from: the restarted fabric can be restarted, and the second restart has the
current assignments and histories of the first exactly when the first demoted
nothing. -/
theorem restart_idempotent (env : Env) {σ : SystemState}
    (h : Transition.Reachable (machine env) (fun _ _ => True) σ) (cfg cfg' : RuntimeConfig)
    {s1 : Fabric} (h1 : restart env.ord cfg σ.fabric = .ok s1) :
    ∃ s2, restart env.ord cfg' s1 = .ok s2 ∧ (SameAssignments s1 s2 ↔ ¬ Demotes σ.fabric) := by
  obtain ⟨blob, snap, hsave, hdecode, rfl⟩ := restart_eq_ok.mp h1
  obtain ⟨hs, hv, hw⟩ := restartable_iff.mp ⟨blob, snap, hsave, hdecode⟩
  obtain ⟨rfl, -⟩ := decode_save hsave hdecode
  obtain ⟨blob', snap', hsave', hdecode'⟩ := restartable_iff.mpr
    (restartable_again env.ord { cfg := cfg } (StoresWellFormed.reachable h) hs hv hw)
  obtain ⟨rfl, hv'⟩ := decode_save hsave' hdecode'
  refine ⟨_, restart_eq_ok.mpr ⟨blob', _, hsave', hdecode', rfl⟩, ?_⟩
  -- both sides say that the first restart left every current assignment active
  rw [sameAssignments_iff hv', current_active_iff hv]

open Reference in
/-- The reference deployment, restarted twice. -/
theorem restart_idempotent_reference :
    ∃ s1 s2, restart env.ord {} deployed.fabric = .ok s1 ∧ restart env.ord {} s1 = .ok s2 ∧
      SameAssignments s1 s2 := by
  have hreach : Transition.Reachable (machine env) (fun _ _ => True) deployed := reachable_run _
  have hok : (restart env.ord {} deployed.fabric).toBool = true := by decide +kernel
  cases h1 : restart env.ord {} deployed.fabric with
  | error e =>
    rw [h1] at hok
    cases hok
  | ok s1 =>
    obtain ⟨s2, h2, hiff⟩ := restart_idempotent env hreach {} {} h1
    refine ⟨s1, s2, rfl, h2, hiff.mpr fun hdem => ?_⟩
    exact absurd hdem.1 (by decide +kernel)

namespace Reference

/-- Restarted twice, the fabric has lost the current assignment that it had when
it was restarted once. -/
def forgets (s : Fabric) : Bool :=
  match restart env.ord {} s with
  | .error _ => false
  | .ok s1 =>
    match restart env.ord {} s1 with
    | .error _ => false
    | .ok s2 => (s1.currentAssignment slot).isSome && (s2.currentAssignment slot).isNone

end Reference

open Reference in
/-- **A demoted assignment is forgotten.**  A cutover of the reference deployment
stops once its intent is recorded: a restart demotes the current assignment, and
a second restart has none. -/
theorem demoted_forgotten :
    ¬ ∀ σ, Transition.Reachable (machine env) (fun _ _ => True) σ → ∀ s1 s2,
      restart env.ord {} σ.fabric = .ok s1 → restart env.ord {} s1 = .ok s2 →
        SameAssignments s1 s2 := by
  intro h
  let labels := setup.map Label.op ++ stoppedAtIntent
  let σ := (machine env).run { fabric := {} } labels
  have hforgets : forgets σ.fabric = true := by decide +kernel
  unfold forgets at hforgets
  split at hforgets
  · cases hforgets
  rename_i s1 h1
  split at hforgets
  · cases hforgets
  rename_i s2 h2
  have hcur := (h σ (reachable_run labels) s1 s2 h1 h2 slot).1
  obtain ⟨hsome, hnone⟩ := Bool.and_eq_true_iff.mp hforgets
  rw [Option.isNone_iff_eq_none.mp hnone, eq_comm, Option.map_none, Option.map_eq_none_iff] at hcur
  rw [hcur] at hsome
  cases hsome

end FailoverFabric

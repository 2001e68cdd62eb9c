import FailoverFabric.RestartIdempotence
import FailoverFabric.SavedAuthority

/-! # What a load keeps

Reconciliation is meant for the interrupted slot.  Its condition compares a
current assignment with the fenced boots and asks whether some replacement is
pending, but not for which slot: one interrupted cutover demotes the active
assignments of every service in the file.  `reconciliation_confined_iff` says for
which files that makes no difference.

A settled state, all of whose current assignments are active and whose cutover
record is not incomplete, is rebuilt by save and load exactly when all of its
records are indexed (`settled_restart_iff`): the record that a commit appended
without indexing it is unknown to lookups before the restart and found after it.
-/
namespace FailoverFabric
open Fabric Persistence

/-! ## The interrupted slot -/

/-- **Reconciliation keeps to the interrupted slot**: an active assignment of the
file whose boot is not fenced is current and active after the load, unless the
pending replacement is for its slot. -/
def ConfinedReconciliation (snap : PersistenceSnapshot) (s' : Fabric) : Prop :=
  ∀ a ∈ snap.assignments, a.state = .active →
    (∀ p, snap.pendingAssignment = some p → p.slot ≠ a.slot) → a.workerBoot ∉ snap.fencedBoots →
      s'.currentAssignment a.slot = some a

/-- In an interrupted file with a pending replacement, every active assignment is
of the replacement's slot or on a fenced boot. -/
def OneSlotInterrupted (snap : PersistenceSnapshot) : Prop :=
  interrupted snap = true → ∀ p, snap.pendingAssignment = some p →
    ∀ a ∈ snap.assignments, a.state = .active → p.slot = a.slot ∨ a.workerBoot ∈ snap.fencedBoots

/-- A demoted assignment is no longer active. -/
theorem reconciled_demoted {snap : PersistenceSnapshot} {a : Assignment} (ha : a.state = .active) :
    reconciled snap a = a ↔ demotes snap a = false := by
  rw [reconciled_eq_ite]
  cases demotes snap a with
  | false => simp
  | true =>
    rw [if_pos rfl]
    refine iff_of_false (fun h => ?_) (by simp)
    have hstate := congrArg Assignment.state h
    rw [ha] at hstate
    cases hstate

theorem confined_restore_iff (s : Fabric) {snap : PersistenceSnapshot} (hv : Valid snap) :
    ConfinedReconciliation snap (s.restore snap) ↔ OneSlotInterrupted snap := by
  have hcur : ∀ a ∈ snap.assignments, a.state = .active →
      ((s.restore snap).currentAssignment a.slot = some a ↔ demotes snap a = false) := by
    intro a ha hactive
    rw [restore_current hv ha hactive, Option.some_inj, reconciled_demoted hactive]
  constructor
  · intro hconf hi p hp a ha hactive
    by_contra hno
    rw [not_or] at hno
    have hkept := hconf a ha hactive (fun q hq hslot => ?_) hno.2
    · rw [hcur a ha hactive] at hkept
      simp [demotes, hi, hactive, hp] at hkept
    · rw [hp, Option.some_inj] at hq
      exact hno.1 (hq ▸ hslot)
  · intro hone a ha hactive hslot hboot
    rw [hcur a ha hactive]
    by_contra hdem
    -- a demoted assignment on a boot that is not fenced is demoted for the replacement
    rw [Bool.not_eq_false] at hdem
    simp only [demotes, Bool.and_eq_true, Bool.or_eq_true, List.contains_iff_mem, hboot,
      false_or] at hdem
    obtain ⟨⟨hi, -⟩, hpending⟩ := hdem
    obtain ⟨p, hp⟩ := Option.isSome_iff_exists.mp hpending
    exact (hone hi p hp a ha hactive).elim (hslot p hp) hboot

/-- **Which files are reconciled in one slot only.**  For every blob that `decode`
accepts, loaded into any fabric. -/
theorem reconciliation_confined_iff (ord : CallOrders) (s : Fabric) {blob : List UInt8}
    {snap : PersistenceSnapshot} (h : decode ord blob = .ok snap) :
    ∃ s', s.load ord blob = .ok s' ∧ (ConfinedReconciliation snap s' ↔ OneSlotInterrupted snap) :=
  ⟨s.restore snap, load_eq_ok.mpr ⟨snap, h, rfl⟩, confined_restore_iff s (decode_valid h)⟩

namespace Reference

/-- A second service, with its own slot and worker. -/
def secondService : List Op :=
  [.createService { service := ⟨2⟩ },
    .setInitialAssignment 0 { id := ⟨2⟩, slot := ⟨⟨2⟩, ⟨1⟩⟩, target := ⟨3⟩, workerBoot := ⟨33⟩ }]

/-- Two services, and a cutover of the first that stops once its intent is
recorded. -/
def interruptedBeside : SystemState :=
  (machine env).run { fabric := {} } ((setup ++ secondService).map Label.op ++ stoppedAtIntent)

end Reference

open Reference in
/-- The same cutover without the second service: its file is reconciled in its own
slot only. -/
theorem reconciliation_confined_reference :
    ∃ blob snap s', decode env.ord blob = .ok snap ∧ interrupted snap = true ∧
      Fabric.load env.ord {} blob = .ok s' ∧ ConfinedReconciliation snap s' := by
  have hfile : (fileOf ((machine env).run deployed stoppedAtIntent).fabric).any (fun f =>
      interrupted f.2 && f.2.pendingAssignment.any (fun p => p.slot == slot) &&
        f.2.assignments.all fun a => a.slot == slot) = true := by decide +kernel
  obtain ⟨⟨blob, snap⟩, hf, ht⟩ := (Option.any_eq_true _ _).mp hfile
  simp only [Bool.and_eq_true, Option.any_eq_true, List.all_eq_true, beq_iff_eq] at ht
  obtain ⟨⟨hi, q, hq, hqslot⟩, hall⟩ := ht
  obtain ⟨s', hload, hiff⟩ := reconciliation_confined_iff env.ord {} (fileOf_eq_some hf)
  refine ⟨blob, snap, s', fileOf_eq_some hf, hi, hload, hiff.mpr fun _ p hp a ha _ => Or.inl ?_⟩
  rw [hp, Option.some_inj] at hq
  rw [hq, hqslot, hall a ha]

open Reference in
/-- **An interrupted cutover demotes the other service too.** -/
theorem interrupted_demotes_others :
    ¬ ∀ (ord : CallOrders) (s s' : Fabric) blob snap, decode ord blob = .ok snap →
      s.load ord blob = .ok s' → ConfinedReconciliation snap s' := by
  intro h
  have hfile : (fileOf interruptedBeside.fabric).any (fun f =>
      interrupted f.2 && f.2.pendingAssignment.any (fun p => p.slot == slot) &&
        f.2.assignments.any fun a =>
          a.slot == ⟨⟨2⟩, ⟨1⟩⟩ && a.state == .active && !f.2.fencedBoots.contains a.workerBoot) =
      true := by decide +kernel
  obtain ⟨⟨blob, snap⟩, hf, ht⟩ := (Option.any_eq_true _ _).mp hfile
  simp only [Bool.and_eq_true, Option.any_eq_true, List.any_eq_true, beq_iff_eq, Bool.not_eq_true',
    List.contains_eq_mem, decide_eq_false_iff_not] at ht
  obtain ⟨⟨hi, q, hq, hqslot⟩, a, ha, ⟨haslot, hactive⟩, hboot⟩ := ht
  have hd := fileOf_eq_some hf
  have hone := (confined_restore_iff {} (decode_valid hd)).mp
    (h env.ord {} _ blob snap hd (load_eq_ok.mpr ⟨snap, hd, rfl⟩))
  rcases hone hi q hq a ha hactive with hslot | hfenced
  · rw [hqslot, haslot] at hslot
    exact absurd hslot (by decide)
  · exact hboot hfenced

/-! ## Records in every run -/

/-- A record as every step leaves it: its assignments are of its slot, and none of
its history is active. -/
structure Filed (st : SlotState) : Prop where
  owned : ∀ a ∈ st.assignments, a.slot = st.slot
  history : ∀ a ∈ st.history, a.state ≠ .active

/-- What holds of the services and the records in every run, also after a commit
that did not index its record. -/
structure RecordsFiled (σ : SystemState) : Prop where
  services : σ.fabric.services = IndexedVec.ofItems (·.service) σ.fabric.services.items
  records : ∀ st ∈ σ.fabric.slots.items, Filed st
  old : ∀ c ∈ σ.calls, ∀ a, c.attempt = some a → ∀ o, a.oldAssign = some o → o.slot = a.slot
  new : ∀ c ∈ σ.calls, ∀ a, c.attempt = some a →
    a.stage = .validating ∨ Ended a ∨ a.newAssign.slot = a.slot

namespace Filed

theorem rebuildSlots (snap : PersistenceSnapshot) : ∀ st ∈ (rebuildSlots snap).items, Filed st :=
  fun st hst => ⟨rebuilt_owned snap st hst, (SlotsWellFormed.rebuildSlots snap).history st hst⟩

theorem setInitialAssignment {s s' : Fabric} {a : Assignment} (hsound : s.slots.Sound (·.slot))
    (h : ∀ st ∈ s.slots.items, Filed st) (hs : InitialStep s s' a) :
    ∀ st ∈ s'.slots.items, Filed st := by
  intro st hst
  rcases hs.slots with ⟨-, -, -, hslots⟩ | ⟨-, hslots⟩
  · rw [hslots] at hst
    rcases IndexedVec.mem_modify hst with hst | ⟨v, hv, rfl⟩
    · exact h st hst
    · have hfiled := h v (IndexedVec.mem_of_find hv)
      refine ⟨fun b hb => ?_, hfiled.history⟩
      rcases mem_assignments.mp hb with hb | hb
      · cases hb
        exact (hsound.key_of_find hv).symm
      · exact hfiled.owned b (mem_assignments.mpr (Or.inr hb))
  · rw [hslots] at hst
    rcases List.mem_append.mp hst with hst | hst
    · exact h st hst
    · rw [List.mem_singleton] at hst
      subst hst
      refine ⟨fun b hb => ?_, fun b hb => absurd hb List.not_mem_nil⟩
      rcases mem_assignments.mp hb with hb | hb
      · cases hb
        rfl
      · cases hb

/-- The record that a commit writes. -/
theorem commitRecord {old : Option Assignment} {new : Assignment} {st : SlotState} (h : Filed st)
    (hold : ∀ o, old = some o → o.slot = st.slot) (hnew : new.slot = st.slot) :
    Filed (commitRecord old new st) := by
  refine ⟨fun b hb => ?_, SlotsWellFormed.commitRecord_history h.history⟩
  rcases mem_assignments.mp hb with hb | hb
  · cases hb
    exact hnew
  rcases List.mem_append.mp hb with hb | hb
  · exact h.owned b (mem_assignments.mpr (Or.inr hb))
  -- the displaced assignment: the record's current one, or the attempt's old one
  rw [Option.mem_toList, Option.map_eq_some_iff] at hb
  obtain ⟨d, hd, rfl⟩ := hb
  cases hcur : st.current with
  | some cur =>
    obtain rfl : cur = d := by simpa [hcur] using hd
    exact h.owned cur (mem_assignments.mpr (Or.inl hcur))
  | none =>
    rw [hcur] at hd
    exact hold d hd

theorem commit {s : Fabric} {now : Time} {a : Attempt} (hsound : s.slots.Sound (·.slot))
    (h : ∀ st ∈ s.slots.items, Filed st) (hold : ∀ o, a.oldAssign = some o → o.slot = a.slot)
    (hnew : a.newAssign.slot = a.slot) : ∀ st ∈ (s.commit now a).slots.items, Filed st := by
  show ∀ st ∈ (s.commitSlots a).items, Filed st
  unfold commitSlots
  split
  · intro st hst
    rcases IndexedVec.mem_modify hst with hst | ⟨v, hv, rfl⟩
    · exact h st hst
    · have hkey : v.slot = a.slot := hsound.key_of_find hv
      refine (h v (IndexedVec.mem_of_find hv)).commitRecord (fun o ho => ?_) (hnew.trans hkey.symm)
      rw [hold o ho, hkey]
  · intro st hst
    rcases List.mem_append.mp hst with hst | hst
    · exact h st hst
    · rw [List.mem_singleton] at hst
      subst hst
      have hempty : Filed { slot := a.slot } :=
        ⟨fun b hb => absurd hb List.not_mem_nil, fun b hb => absurd hb List.not_mem_nil⟩
      exact hempty.commitRecord hold hnew

end Filed

namespace RecordsFiled
variable {env : Env} {σ : SystemState} {l : Label}

/-- A current assignment is of its slot. -/
theorem current_slot (h : ∀ st ∈ σ.fabric.slots.items, Filed st)
    (hsound : σ.fabric.slots.Sound (·.slot)) {key : ServiceSlotKey} {o : Assignment}
    (ho : σ.fabric.currentAssignment key = some o) : o.slot = key := by
  obtain ⟨st, hst, hcur⟩ := Option.bind_eq_some_iff.mp ho
  have hkey : st.slot = key := hsound.key_of_find hst
  rw [← hkey]
  exact (h st (IndexedVec.mem_of_find hst)).owned o (mem_assignments.mpr (Or.inl hcur))

theorem services_step (h : σ.fabric.services = IndexedVec.ofItems (·.service) σ.fabric.services.items) :
    (σ.step env l).fabric.services =
      IndexedVec.ofItems (·.service) (σ.step env l).fabric.services.items := by
  have heff := step_effect env σ l
  generalize σ.step env l = σ' at heff
  cases heff with
  | applied o =>
    have hop := apply_effect env σ.fabric o
    show (σ.fabric.apply env o).services = _
    generalize σ.fabric.apply env o = s' at hop ⊢
    cases hop with
    | transient ht =>
      rw [ht]
      exact h
    | created hs =>
      rw [(createService_eq hs).1]
      show σ.fabric.services.push _ _ = IndexedVec.ofItems _ (σ.fabric.services.items ++ [_])
      rw [IndexedVec.ofItems_append, ← h]
    | assigned hs =>
      rw [(setInitialAssignment_eq_ok hs).fabric]
      exact h
    | installed entry boot =>
      rw [installRoute_eq]
      exact h
    | loaded _ =>
      show IndexedVec.ofItems _ _ = IndexedVec.ofItems _ (IndexedVec.ofItems _ _).items
      rw [IndexedVec.ofItems_items]
    | _ => exact h
  | settled hf _ =>
    rw [hf]
    exact h
  | stepped a _ hf _ _ =>
    rw [hf, attemptStep_confined]
    exact h
  | restarted _ _ =>
    show IndexedVec.ofItems _ _ = IndexedVec.ofItems _ (IndexedVec.ofItems _ _).items
    rw [IndexedVec.ofItems_items]

/-- **One step files what it records.** -/
theorem step (h : RecordsFiled σ) (hsound : σ.fabric.slots.Sound (·.slot)) :
    RecordsFiled (σ.step env l) := by
  refine ⟨services_step h.services, ?_, ?_, attempts_owned h.new⟩
  · have heff := step_authority env σ l
    generalize (σ.step env l).fabric = s' at heff ⊢
    cases heff with
    | kept hslots _ =>
      rw [hslots]
      exact h.records
    | assigned hs => exact Filed.setInitialAssignment hsound h.records (setInitialAssignment_eq_ok hs)
    | loaded _ => exact Filed.rebuildSlots _
    | fenced _ =>
      rw [addFencedBoot_eq]
      exact h.records
    | committed hc ha hcommit =>
      have hmem := List.mem_of_getElem? hc
      exact Filed.commit hsound h.records (h.old _ hmem _ ha)
        (holds_of_acting (h.new _ hmem _ ha) (Or.inl hcommit.before))
    | restarted _ _ => exact Filed.rebuildSlots _
  · refine step_attempts (fun _ _ => nofun) (fun rd a ha => ?_) h.old
    by_cases hst : a.stage = .validating
    · rw [attemptStep_validating hst]
      rcases validateAttempt_cases σ.fabric a with ⟨hacc, -⟩ | ⟨⟨_, _, he⟩, -⟩ | ⟨⟨_, he⟩, -⟩
      · intro o ho
        rw [hacc.old] at ho
        rw [current_slot h.records hsound ho, Attempt.slot, Attempt.slot, hacc.plan]
      · rw [he]
        exact ha
      · rw [he]
        exact ha
    · have hsame := attemptStep_same rd σ.fabric a hst
      rw [hsame.old, hsame.slot]
      exact ha

/-- **Every run files what it records.** -/
theorem reachable {ok : SystemState → Label → Prop}
    (h : Transition.Reachable (machine env) ok σ) : RecordsFiled σ := by
  refine h.invariant (P := RecordsFiled) ?_ fun σ l hr hσ _ => hσ.step (slots_sound hr)
  rintro σ ⟨cfg, rfl⟩
  exact ⟨rfl, fun _ h => absurd h List.not_mem_nil, fun _ h => absurd h List.not_mem_nil,
    fun _ h => absurd h List.not_mem_nil⟩

end RecordsFiled

/-! ## The records of one slot -/

/-- **Every record that holds an assignment is indexed** under its slot. -/
def RecordsIndexed (slots : IndexedVec ServiceSlotKey SlotState) : Prop :=
  ∀ i st, slots.items[i]? = some st → st.assignments ≠ [] → slots.index st.slot = some i

/-- The inactive assignments that a list of records holds of a slot. -/
def inactiveOf (key : ServiceSlotKey) (records : List SlotState) : List Assignment :=
  ((records.filter fun st => st.slot == key).flatMap SlotState.assignments).filter
    fun a => a.state != .active

section
variable {slots : IndexedVec ServiceSlotKey SlotState} {key : ServiceSlotKey}

theorem inactiveOf_append (xs ys : List SlotState) :
    inactiveOf key (xs ++ ys) = inactiveOf key xs ++ inactiveOf key ys := by
  simp [inactiveOf]

/-- A record whose current assignment is active keeps the others in its history. -/
theorem inactiveOf_cons {st : SlotState} (h : Filed st) (hkey : st.slot = key)
    (hcur : ∀ a, st.current = some a → a.state = .active) (records : List SlotState) :
    inactiveOf key (st :: records) = st.history ++ inactiveOf key records := by
  have hhist : st.history.filter (fun a => a.state != .active) = st.history :=
    List.filter_eq_self.mpr fun a ha => by simpa using h.history a ha
  have hnone : st.current.toList.filter (fun a => a.state != .active) = [] :=
    List.filter_eq_nil_iff.mpr fun a ha => by simpa using hcur a (Option.mem_toList.mp ha)
  unfold inactiveOf
  rw [List.filter_cons_of_pos (by simpa using hkey), List.flatMap_cons, List.filter_append,
    SlotState.assignments, List.filter_append, hnone, hhist, List.nil_append]

theorem inactiveOf_eq_nil {records : List SlotState}
    (h : ∀ st ∈ records, st.slot = key → st.assignments = []) : inactiveOf key records = [] := by
  refine List.filter_eq_nil_iff.mpr fun a ha => ?_
  obtain ⟨st, hst, hmem⟩ := List.mem_flatMap.mp ha
  obtain ⟨hst, hk⟩ := List.mem_filter.mp hst
  rw [h st hst (eq_of_beq hk)] at hmem
  cases hmem

/-- An assignment that is not active counts among them. -/
theorem active_of_inactiveOf {records : List SlotState} {st : SlotState} {a : Assignment}
    (h : inactiveOf key records = []) (hst : st ∈ records) (hk : st.slot = key)
    (ha : a ∈ st.assignments) : a.state = .active := by
  by_contra hinactive
  have hmem : a ∈ inactiveOf key records := List.mem_filter.mpr
    ⟨List.mem_flatMap.mpr ⟨st, List.mem_filter.mpr ⟨hst, by simpa using hk⟩, ha⟩,
      by simpa using hinactive⟩
  rw [h] at hmem
  cases hmem

/-- Records other than the indexed one are empty. -/
theorem RecordsIndexed.others {i : Nat} (h : RecordsIndexed slots) (hi : slots.index key = some i) :
    ∀ st ∈ slots.items.take i ++ slots.items.drop (i + 1), st.slot = key → st.assignments = [] := by
  intro st hst hk
  rw [← List.eraseIdx_eq_take_drop_succ, List.mem_eraseIdx_iff_getElem?] at hst
  obtain ⟨j, hji, hj⟩ := hst
  by_contra hne
  have hidx := h j st hj hne
  rw [hk, hi, Option.some_inj] at hidx
  exact hji hidx.symm

/-- The records of a slot without an indexed one are empty. -/
theorem RecordsIndexed.unindexed (h : RecordsIndexed slots) (hi : slots.index key = none) :
    ∀ st ∈ slots.items, st.slot = key → st.assignments = [] := by
  intro st hst hk
  by_contra hne
  obtain ⟨j, hj⟩ := List.mem_iff_getElem?.mp hst
  have hidx := h j st hj hne
  rw [hk, hi] at hidx
  cases hidx

/-- What is listed of a slot is in its indexed record. -/
theorem RecordsIndexed.find_listed (h : RecordsIndexed slots) (hf : ∀ st ∈ slots.items, Filed st)
    {a : Assignment} (ha : a ∈ listed slots) :
    ∃ st, slots.find a.slot = some st ∧ a ∈ st.assignments := by
  obtain ⟨st, hst, ha⟩ := List.mem_flatMap.mp ha
  obtain ⟨i, hget⟩ := List.mem_iff_getElem?.mp hst
  have hidx := h i st hget (List.ne_nil_of_mem ha)
  rw [← (hf st hst).owned a ha] at hidx
  exact ⟨st, (IndexedVec.find_of_index hidx).trans hget, ha⟩

/-- The slots of the active assignments of a list of records. -/
def activeSlots (records : List SlotState) : List ServiceSlotKey :=
  ((records.flatMap SlotState.assignments).filter fun a => a.state == .active).map (·.slot)

theorem mem_activeSlots {records : List SlotState} {st : SlotState} {a : Assignment}
    (hst : st ∈ records) (ha : a ∈ st.assignments) (hactive : a.state = .active) :
    a.slot ∈ activeSlots records :=
  List.mem_map_of_mem (List.mem_filter.mpr
    ⟨List.mem_flatMap.mpr ⟨st, hst, ha⟩, by simpa using hactive⟩)

/-- Two records of one slot cannot both hold an active assignment of it. -/
theorem activeSlots_exclusive {pre post : List SlotState} {st st' : SlotState}
    (hn : (activeSlots (pre ++ st' :: post)).Nodup) (hst : st ∈ pre ++ post) {a b : Assignment}
    (ha : a ∈ st.assignments) (hactive : a.state = .active) (hb : b ∈ st'.assignments)
    (hbactive : b.state = .active) (hslot : b.slot = a.slot) : False := by
  have hsplit : activeSlots (pre ++ st' :: post) =
      activeSlots pre ++ (activeSlots [st'] ++ activeSlots post) := by
    simp [activeSlots]
  have hmem : a.slot ∈ activeSlots [st'] :=
    hslot ▸ mem_activeSlots (List.mem_singleton_self st') hb hbactive
  rw [hsplit, List.nodup_append, List.nodup_append] at hn
  rcases List.mem_append.mp hst with hst | hst
  · exact hn.2.2 _ (mem_activeSlots hst ha hactive) _ (List.mem_append_left _ hmem) rfl
  · exact hn.2.1.2.2 _ hmem _ (mem_activeSlots hst ha hactive) rfl

/-- The two slot vectors hold the same assignments in every slot. -/
def SameRecords (slots slots' : IndexedVec ServiceSlotKey SlotState) : Prop :=
  ∀ key, currentOf slots' key = currentOf slots key ∧ historyOf slots' key = historyOf slots key

/-- The file `snap` of slots at rest. -/
structure SavedAtRest (slots : IndexedVec ServiceSlotKey SlotState) (snap : PersistenceSnapshot) :
    Prop where
  sound : slots.Sound (·.slot)
  filed : ∀ st ∈ slots.items, Filed st
  active : ∀ key a, currentOf slots key = some a → a.state = .active
  assignments : snap.assignments = listed slots
  valid : Valid snap
  complete : interrupted snap = false

namespace SavedAtRest
variable {snap : PersistenceSnapshot}

/-- Without an interrupted cutover, what is current after a load is what the file
holds as active. -/
theorem current_iff (h : SavedAtRest slots snap) {a : Assignment} :
    currentOf (rebuildSlots snap) key = some a ↔
      a ∈ listed slots ∧ a.state = .active ∧ a.slot = key := by
  have hkept : ∀ b, reconciled snap b = b := fun b => by simp [reconciled, h.complete]
  constructor
  · intro hcur
    change (restore {} snap).currentAssignment key = some a at hcur
    obtain ⟨b, hb, hactive, hslot, rfl⟩ := mem_of_restore_current hcur
    rw [hkept]
    exact ⟨h.assignments ▸ hb, hactive, hslot⟩
  · rintro ⟨ha, hactive, rfl⟩
    have hcur := restore_current (s := {}) h.valid (h.assignments ▸ ha) hactive
    rw [hkept] at hcur
    exact hcur

theorem history_eq (h : SavedAtRest slots snap) :
    historyOf (rebuildSlots snap) key = inactiveOf key slots.items := by
  rw [historyOf_rebuildSlots, h.assignments, listed,
    filter_flatMap_owned (fun a => a.state != .active) key fun st hst => (h.filed st hst).owned]
  rfl

/-- Around the indexed record, the history of a slot after a load is that of the
others. -/
theorem history_split (h : SavedAtRest slots snap) {i : Nat} {st : SlotState}
    (hfind : slots.find key = some st)
    (hsplit : slots.items = slots.items.take i ++ st :: slots.items.drop (i + 1)) :
    historyOf (rebuildSlots snap) key =
      inactiveOf key (slots.items.take i) ++ (historyOf slots key ++
        inactiveOf key (slots.items.drop (i + 1))) := by
  have hfiled := h.filed st (IndexedVec.mem_of_find hfind)
  have hactive : ∀ a, st.current = some a → a.state = .active := fun a ha =>
    h.active key a (by rw [currentOf, hfind, Option.bind_some, ha])
  have hitems : inactiveOf key slots.items = inactiveOf key (slots.items.take i) ++
      (st.history ++ inactiveOf key (slots.items.drop (i + 1))) := by
    conv_lhs => rw [hsplit]
    rw [inactiveOf_append, inactiveOf_cons hfiled (h.sound.key_of_find hfind) hactive]
  rw [h.history_eq, hitems, historyOf, hfind]
  rfl

theorem current_of_indexed (h : SavedAtRest slots snap) (hidx : RecordsIndexed slots) :
    currentOf (rebuildSlots snap) key = currentOf slots key := by
  refine Option.ext fun a => h.current_iff.trans ⟨?_, fun ha => ?_⟩
  · rintro ⟨hmem, hactive, rfl⟩
    obtain ⟨st, hfind, ha⟩ := hidx.find_listed h.filed hmem
    have hfiled := h.filed st (IndexedVec.mem_of_find hfind)
    rw [currentOf, hfind, Option.bind_some]
    exact (mem_assignments.mp ha).resolve_right fun hpast => hfiled.history a hpast hactive
  · obtain ⟨st, hfind, hst⟩ := Option.bind_eq_some_iff.mp ha
    have hrecord := IndexedVec.mem_of_find hfind
    have hmem : a ∈ st.assignments := mem_assignments.mpr (Or.inl hst)
    refine ⟨List.mem_flatMap.mpr ⟨st, hrecord, hmem⟩, h.active key a ha, ?_⟩
    exact ((h.filed st hrecord).owned a hmem).trans (h.sound.key_of_find hfind)

theorem history_of_indexed (h : SavedAtRest slots snap) (hidx : RecordsIndexed slots) :
    historyOf (rebuildSlots snap) key = historyOf slots key := by
  cases hi : slots.index key with
  | none =>
    have hnone : slots.find key = none := by simp [IndexedVec.find, hi]
    rw [h.history_eq, inactiveOf_eq_nil (hidx.unindexed hi), historyOf, hnone]
    rfl
  | some i =>
    obtain ⟨st, hfind, -, hsplit⟩ := h.sound.split hi
    have hother := hidx.others hi
    rw [h.history_split hfind hsplit,
      inactiveOf_eq_nil fun r hr => hother r (List.mem_append_left _ hr),
      inactiveOf_eq_nil fun r hr => hother r (List.mem_append_right _ hr),
      List.nil_append, List.append_nil]

/-- What the record of a slot holds is what the rebuilt one holds, if all records
are indexed. -/
theorem sameRecords (h : SavedAtRest slots snap) (hidx : RecordsIndexed slots) :
    SameRecords slots (rebuildSlots snap) :=
  fun _ => ⟨h.current_of_indexed hidx, h.history_of_indexed hidx⟩

/-- If the history is the same, the records around the indexed one hold nothing
inactive. -/
theorem others_active (h : SavedAtRest slots snap) {i : Nat} {st : SlotState}
    (hfind : slots.find key = some st)
    (hsplit : slots.items = slots.items.take i ++ st :: slots.items.drop (i + 1))
    (hhist : historyOf (rebuildSlots snap) key = historyOf slots key) :
    inactiveOf key (slots.items.take i ++ slots.items.drop (i + 1)) = [] := by
  have hlen := congrArg List.length ((h.history_split hfind hsplit).symm.trans hhist)
  rw [inactiveOf_append]
  refine List.eq_nil_of_length_eq_zero ?_
  simp only [List.length_append] at hlen ⊢
  omega

/-- If what is rebuilt is the same, all records are indexed. -/
theorem indexed (h : SavedAtRest slots snap) (hsame : SameRecords slots (rebuildSlots snap)) :
    RecordsIndexed slots := by
  intro j st hget hne
  have hst : st ∈ slots.items := List.mem_of_getElem? hget
  obtain ⟨a, ha⟩ := List.exists_mem_of_ne_nil _ hne
  obtain ⟨hcur, hhist⟩ := hsame st.slot
  have hcurrent : a.state = .active → currentOf slots st.slot = some a := fun hactive =>
    hcur.symm.trans (h.current_iff.mpr
      ⟨List.mem_flatMap.mpr ⟨st, hst, ha⟩, hactive, (h.filed st hst).owned a ha⟩)
  cases hi : slots.index st.slot with
  | none =>
    have hnone : slots.find st.slot = none := by simp [IndexedVec.find, hi]
    rw [h.history_eq, historyOf, hnone] at hhist
    have hnow := hcurrent (active_of_inactiveOf hhist hst rfl ha)
    rw [currentOf, hnone] at hnow
    cases hnow
  | some i =>
    congr 1
    by_contra hij
    obtain ⟨st', hfind, -, hsplit⟩ := h.sound.split hi
    have hother : st ∈ slots.items.take i ++ slots.items.drop (i + 1) := by
      rw [← List.eraseIdx_eq_take_drop_succ, List.mem_eraseIdx_iff_getElem?]
      exact ⟨j, Ne.symm hij, hget⟩
    -- its assignment is active, and so is the one of the indexed record
    have hactive := active_of_inactiveOf (h.others_active hfind hsplit hhist) hother rfl ha
    have hnow := hcurrent hactive
    rw [currentOf, hfind, Option.bind_some] at hnow
    have hn : (activeSlots slots.items).Nodup := by
      rw [activeSlots, ← listed, ← h.assignments]
      exact h.valid.active
    rw [hsplit] at hn
    exact activeSlots_exclusive hn hother ha hactive (mem_assignments.mpr (Or.inl hnow)) hactive rfl

end SavedAtRest

end

/-! ## Settled states -/

/-- No cutover is incomplete, and every current assignment is active. -/
structure AtRest (s : Fabric) : Prop where
  complete : s.hasIncompleteCutover = false
  active : ∀ key a, s.currentAssignment key = some a → a.state = .active

/-- **What a restart has to rebuild.**  Routes are as they were, but live ones
await revalidation. -/
structure Rebuilt (s s' : Fabric) : Prop where
  services : s'.services = s.services
  records : SameRecords s.slots s'.slots
  domains : s'.domains = s.domains
  evidence : s'.evidence.all = s.evidence.all
  fencedBoots : s'.fencedBoots = s.fencedBoots
  epoch : s'.epoch = s.epoch
  policyGen : s'.policyGen = s.policyGen
  lastAuthorityGen : s'.lastAuthorityGen = s.lastAuthorityGen
  routes : ∀ key, s'.routes.current key = (s.routes.current key).map RouteTable.revalidated

/-- Whether a state is at rest, read off its records. -/
theorem atRest_of_records {s : Fabric} (h : (!s.hasIncompleteCutover && s.slots.items.all fun st =>
    st.current.all fun a => a.state == .active) = true) : AtRest s := by
  obtain ⟨hc, hall⟩ := Bool.and_eq_true_iff.mp h
  refine ⟨by simpa using hc, fun key a ha => ?_⟩
  obtain ⟨st, hst, hcur⟩ := Option.bind_eq_some_iff.mp ha
  have := List.all_eq_true.mp hall st (IndexedVec.mem_of_find hst)
  rw [hcur] at this
  exact eq_of_beq this

theorem interrupted_reread (ord : CallOrders) (snap : PersistenceSnapshot) :
    interrupted (reread ord snap) = interrupted snap := by
  unfold interrupted reread rereadTxn
  cases snap.hasTxn <;> simp

/-- The current routes after a restart. -/
theorem restore_routes {ord : CallOrders} {s : Fabric} (fresh : Fabric) (h : StoresWellFormed s)
    (key : ServiceSlotKey) :
    (restore fresh (reread ord s.saveSnapshot)).routes.current key =
      ((s.routes.current key).map (rereadRoute ord.decRoute)).map RouteTable.revalidated := by
  have hlist : (restore fresh (reread ord s.saveSnapshot)).routes.allRoutes =
      (s.routes.allRoutes.map (rereadRoute ord.decRoute)).map RouteTable.revalidated :=
    congrArg PersistenceSnapshot.routes (saveSnapshot_restore h)
  rw [(StoresWellFormed.restore _ _).routes.current_eq_find, hlist, h.routes.current_eq_find,
    List.map_map, List.find?_map, Option.map_map]
  have hslot : (fun e : RouteEntry => e.slot == key) ∘ (RouteTable.revalidated ∘ rereadRoute ord.decRoute) =
      fun e => e.slot == key := by
    funext e
    simp only [Function.comp, RouteTable.revalidated]
    split <;> rfl
  rw [hslot]

/-- **A settled state is rebuilt exactly when its records are indexed.**  For every
reached state that is at rest and whose snapshot decodes, the arguments of an
epoch taken from left to right. -/
theorem settled_restart_iff (env : Env) (hord : env.ord = ⟨.valueIdBoot, .valueIdBoot⟩)
    {σ : SystemState} (h : Transition.Reachable (machine env) (fun _ _ => True) σ)
    (hrest : AtRest σ.fabric) {cfg : RuntimeConfig} {s' : Fabric}
    (hs : restart env.ord cfg σ.fabric = .ok s') :
    Rebuilt σ.fabric s' ↔ RecordsIndexed σ.fabric.slots := by
  have hstores := StoresWellFormed.reachable h
  have hfiled := RecordsFiled.reachable h
  obtain ⟨blob, snap, hsave, hdecode, rfl⟩ := restart_eq_ok.mp hs
  obtain ⟨rfl, hv⟩ := decode_save hsave hdecode
  have hi : interrupted (reread env.ord σ.fabric.saveSnapshot) = false := by
    rw [interrupted_reread]
    exact hrest.complete
  have hv : Valid (reread env.ord σ.fabric.saveSnapshot) := valid_reread.mpr hv
  have hsaved : SavedAtRest σ.fabric.slots (reread env.ord σ.fabric.saveSnapshot) :=
    ⟨slots_sound h, hfiled.records, hrest.active, rfl, hv, hi⟩
  constructor
  · intro hsame
    exact hsaved.indexed hsame.records
  · intro hidx
    refine ⟨hfiled.services.symm, ?_, hstores.domains.rebuild, ?_, rfl, ?_, rfl, rfl, fun key => ?_⟩
    · exact hsaved.sameRecords hidx
    · exact hstores.evidence.rebuild
    · show env.ord.decEpoch.reread σ.fabric.epoch = σ.fabric.epoch
      rw [hord]
      rfl
    -- read from left to right, a route comes back as it was
    · have hltr : rereadRoute .valueIdBoot = id := funext fun _ => rfl
      rw [restore_routes _ hstores, hord, hltr, Option.map_id, id]

open Reference in
/-- The reference deployment after a whole cutover is rebuilt, its route awaiting
revalidation. -/
theorem settled_restart_reference :
    let σ := (machine env).run { fabric := {} }
      (setup.map Label.op ++ callOf 0 (planOf (after setup)))
    ∃ s', restart env.ord {} σ.fabric = .ok s' ∧ Rebuilt σ.fabric s' ∧
      (σ.fabric.routes.current slot).isSome = true := by
  intro σ
  have hreach : Transition.Reachable (machine env) CommitsIndexed σ :=
    Transition.Reachable.run (b := fun σ l => !commitsUnindexed σ l) _ (.initial ⟨{}, rfl⟩)
      (by decide +kernel)
  have hwf := SlotsWellFormed.reachable (fun _ _ h => h) hreach
  have hrest : AtRest σ.fabric := atRest_of_records (by decide +kernel)
  have hok : (restart env.ord {} σ.fabric).toBool = true := by decide +kernel
  cases hs : restart env.ord {} σ.fabric with
  | error e =>
    rw [hs] at hok
    cases hok
  | ok s' =>
    refine ⟨s', rfl, (settled_restart_iff env rfl (reachable_run _) hrest hs).mpr ?_,
      by decide +kernel⟩
    intro i st hget _
    exact (hwf.indexed st.slot i).mpr ⟨st, hget, rfl⟩

open Reference in
/-- **A restart finds what lookups did not.**  The deployment without an initial
assignment, cut over: its slot has no current assignment, and has one after the
restart. -/
theorem settled_restart_finds_more :
    ¬ ∀ σ, Transition.Reachable (machine env) (fun _ _ => True) σ → AtRest σ.fabric → ∀ cfg s',
      restart env.ord cfg σ.fabric = .ok s' → Rebuilt σ.fabric s' := by
  intro h
  let labels := uncommitted ++ [lastStep]
  let σ := (machine env).run { fabric := {} } labels
  have hnone : σ.fabric.currentAssignment slot = none := by decide +kernel
  have hrest : AtRest σ.fabric := atRest_of_records (by decide +kernel)
  have hfound : ((restart env.ord {} σ.fabric).toOption.bind (·.currentAssignment slot)).isSome :=
    by decide +kernel
  cases hs : restart env.ord {} σ.fabric with
  | error e =>
    rw [hs] at hfound
    cases hfound
  | ok s' =>
    rw [hs] at hfound
    have hsame : s'.currentAssignment slot = σ.fabric.currentAssignment slot :=
      ((h σ (reachable_run labels) hrest {} s' hs).records slot).1
    change (s'.currentAssignment slot).isSome = true at hfound
    rw [hsame, hnone] at hfound
    cases hfound

end FailoverFabric

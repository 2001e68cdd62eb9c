import FailoverFabric.Fabric.Restart
import FailoverFabric.Persistence.Validation

/-! # What a load rebuilds

The slots that `load` builds from a snapshot, read slot by slot: the current
assignment is the snapshot's active one, the history its other ones in order.
-/
namespace FailoverFabric

namespace Fabric
open Persistence

/-- The current assignment that lookups find in a slot vector. -/
def currentOf (slots : IndexedVec ServiceSlotKey SlotState) (key : ServiceSlotKey) :
    Option Assignment := (slots.find key).bind (·.current)

/-- The history that lookups find in a slot vector. -/
def historyOf (slots : IndexedVec ServiceSlotKey SlotState) (key : ServiceSlotKey) :
    List Assignment := ((slots.find key).map (·.history)).getD []

/-- The record that an assignment is filed in, with the assignment filed. -/
def filed (a : Assignment) (st : SlotState) : SlotState :=
  if a.state = .active then { st with current := some a } else { st with history := st.history ++ [a] }

theorem filed_slot (a : Assignment) (st : SlotState) : (filed a st).slot = st.slot := by
  unfold filed
  split <;> rfl

variable {slots : IndexedVec ServiceSlotKey SlotState}

theorem place_indexed (h : slots.Indexed (·.slot)) (a : Assignment) :
    (place slots a).Indexed (·.slot) := by
  unfold place
  refine IndexedVec.Indexed.modify ?_ a.slot (filed_slot a)
  split
  · exact h
  · rename_i hnone
    exact h.push hnone rfl

/-- Filing an assignment changes the record of its slot only. -/
theorem find_place (h : slots.Indexed (·.slot)) (a : Assignment) (key : ServiceSlotKey) :
    (place slots a).find key =
      if key = a.slot then some (filed a ((slots.find a.slot).getD { slot := a.slot }))
      else slots.find key := by
  unfold place
  cases hf : slots.find a.slot with
  | some st =>
    show (slots.modify a.slot (filed a)).find key = _
    rw [IndexedVec.find_modify h.sound, hf]
    rfl
  | none =>
    show ((slots.push a.slot _).modify a.slot (filed a)).find key = _
    rw [IndexedVec.find_modify (h.push hf rfl).sound, IndexedVec.find_push _ _ _ h.sound,
      IndexedVec.find_push _ _ _ h.sound]
    by_cases hk : key = a.slot <;> simp [hk]

theorem currentOf_place (h : slots.Indexed (·.slot)) (a : Assignment) (key : ServiceSlotKey) :
    currentOf (place slots a) key =
      if a.state = .active ∧ a.slot = key then some a else currentOf slots key := by
  unfold currentOf
  rw [find_place h]
  by_cases hk : key = a.slot
  · subst hk
    by_cases ha : a.state = .active
    · simp [filed, ha]
    · cases hf : slots.find a.slot <;> simp [filed, ha]
  · have hk' : ¬ a.slot = key := fun he => hk he.symm
    simp [hk, hk']

theorem historyOf_place (h : slots.Indexed (·.slot)) (a : Assignment) (key : ServiceSlotKey) :
    historyOf (place slots a) key =
      historyOf slots key ++ if a.state ≠ .active ∧ a.slot = key then [a] else [] := by
  unfold historyOf
  rw [find_place h]
  by_cases hk : key = a.slot
  · subst hk
    by_cases ha : a.state = .active
    · cases hf : slots.find a.slot <;> simp [filed, ha]
    · cases hf : slots.find a.slot <;> simp [filed, ha]
  · have hk' : ¬ a.slot = key := fun he => hk he.symm
    simp [hk, hk']

/-! ## A whole snapshot -/

theorem currentOf_foldl_of_forall (h : slots.Indexed (·.slot)) (as : List Assignment)
    {key : ServiceSlotKey} (hno : ∀ a ∈ as, a.state = .active → a.slot ≠ key) :
    currentOf (as.foldl place slots) key = currentOf slots key := by
  induction as generalizing slots with
  | nil => rfl
  | cons a as ih =>
    rw [List.foldl_cons, ih (place_indexed h a) fun x hx => hno x (List.mem_cons_of_mem _ hx),
      currentOf_place h, if_neg]
    rintro ⟨ha, hk⟩
    exact hno a (List.mem_cons_self ..) ha hk

/-- Every current assignment of the rebuilt slots is an active one of the
snapshot, filed under its own slot. -/
theorem currentOf_foldl_mem (h : slots.Indexed (·.slot)) (as : List Assignment)
    {key : ServiceSlotKey} {a : Assignment} (hc : currentOf (as.foldl place slots) key = some a) :
    (a ∈ as ∧ a.state = .active ∧ a.slot = key) ∨ currentOf slots key = some a := by
  induction as generalizing slots with
  | nil => exact Or.inr hc
  | cons b as ih =>
    rcases ih (place_indexed h b) hc with ⟨hm, hrest⟩ | hc
    · exact Or.inl ⟨List.mem_cons_of_mem _ hm, hrest⟩
    · rw [currentOf_place h] at hc
      split at hc
      · rename_i hb
        cases hc
        exact Or.inl ⟨List.mem_cons_self .., hb⟩
      · exact Or.inr hc

/-- **The current assignment of a rebuilt slot** is the snapshot's active one. -/
theorem currentOf_foldl {as : List Assignment} {a : Assignment}
    (hn : ((as.filter fun a => a.state == .active).map (·.slot)).Nodup) (ha : a ∈ as)
    (hactive : a.state = .active) (h : slots.Indexed (·.slot)) :
    currentOf (as.foldl place slots) a.slot = some a := by
  induction as generalizing slots with
  | nil => cases ha
  | cons b as ih =>
    rw [List.foldl_cons]
    -- after the active assignment of the slot, no other one is filed as current
    by_cases hb : b.state = .active
    · rw [List.filter_cons_of_pos (by simpa using hb), List.map_cons, List.nodup_cons] at hn
      rcases List.mem_cons.mp ha with rfl | ha
      · rw [currentOf_foldl_of_forall (place_indexed h a), currentOf_place h,
          if_pos ⟨hactive, rfl⟩]
        intro x hx hxa hxs
        exact hn.1 (hxs ▸ List.mem_map_of_mem (List.mem_filter.mpr ⟨hx, by simpa using hxa⟩))
      · exact ih hn.2 ha (place_indexed h b)
    · rw [List.filter_cons_of_neg (by simpa using hb)] at hn
      rcases List.mem_cons.mp ha with rfl | ha
      · exact absurd hactive hb
      · exact ih hn ha (place_indexed h b)

/-- **The history of a rebuilt slot** is the snapshot's other assignments of it,
in order. -/
theorem historyOf_foldl (h : slots.Indexed (·.slot)) (as : List Assignment) (key : ServiceSlotKey) :
    historyOf (as.foldl place slots) key =
      historyOf slots key ++ as.filter fun a => a.state != .active && a.slot == key := by
  induction as generalizing slots with
  | nil => simp
  | cons a as ih =>
    rw [List.foldl_cons, ih (place_indexed h a), historyOf_place h, List.append_assoc]
    congr 1
    by_cases ha : a.state ≠ .active ∧ a.slot = key
    · rw [if_pos ha, List.filter_cons_of_pos (by simpa using ha)]
      rfl
    · rw [if_neg ha, List.filter_cons_of_neg (by simpa using ha)]
      rfl

/-! ## The rebuilt slots of a load -/

/-- What reconciliation does to a current assignment of this snapshot. -/
def reconciled (snap : PersistenceSnapshot) (a : Assignment) : Assignment :=
  if interrupted snap then reconcileAssignment snap a else a

theorem currentOf_rebuildSlots (snap : PersistenceSnapshot) (key : ServiceSlotKey) :
    currentOf (rebuildSlots snap) key =
      (currentOf (snap.assignments.foldl place {}) key).map (reconciled snap) := by
  unfold rebuildSlots reconciled currentOf
  simp only
  split
  · rw [IndexedVec.find_map]
    cases (snap.assignments.foldl place {}).find key with
    | none => rfl
    | some st => simp [reconcile]
  · simp

theorem historyOf_rebuildSlots (snap : PersistenceSnapshot) (key : ServiceSlotKey) :
    historyOf (rebuildSlots snap) key =
      snap.assignments.filter fun a => a.state != .active && a.slot == key := by
  have h : historyOf (snap.assignments.foldl place {}) key = [] ++ _ :=
    historyOf_foldl IndexedVec.indexed_empty snap.assignments key
  rw [List.nil_append] at h
  rw [← h]
  unfold rebuildSlots historyOf
  simp only
  split
  · rw [IndexedVec.find_map]
    cases (snap.assignments.foldl place {}).find key <;> rfl
  · rfl

/-- Reconciliation changes nothing but the state. -/
theorem reconciled_eq (snap : PersistenceSnapshot) (a : Assignment) :
    reconciled snap a = { a with state := (reconciled snap a).state } := by
  unfold reconciled reconcileAssignment
  split
  · split <;> rfl
  · rfl

/-- An active assignment of a valid snapshot is current after the load. -/
theorem restore_current {s : Fabric} {snap : PersistenceSnapshot} (hv : Valid snap)
    {a : Assignment} (ha : a ∈ snap.assignments) (hactive : a.state = .active) :
    (s.restore snap).currentAssignment a.slot = some (reconciled snap a) := by
  show currentOf (rebuildSlots snap) a.slot = _
  rw [currentOf_rebuildSlots, currentOf_foldl hv.active ha hactive IndexedVec.indexed_empty]
  rfl

/-- A current assignment after a load is an active one of the snapshot. -/
theorem mem_of_restore_current {s : Fabric} {snap : PersistenceSnapshot} {key : ServiceSlotKey}
    {a : Assignment} (h : (s.restore snap).currentAssignment key = some a) :
    ∃ b ∈ snap.assignments, b.state = .active ∧ b.slot = key ∧ a = reconciled snap b := by
  change currentOf (rebuildSlots snap) key = some a at h
  rw [currentOf_rebuildSlots] at h
  obtain ⟨b, hb, rfl⟩ := Option.map_eq_some_iff.mp h
  rcases currentOf_foldl_mem IndexedVec.indexed_empty snap.assignments hb with ⟨hm, hst, hk⟩ | hb
  · exact ⟨b, hm, hst, hk, rfl⟩
  · cases hb

/-! ## Saved snapshots -/

/-- What a saved and accepted file holds. -/
theorem decode_save {ord : CallOrders} {s : Fabric} {blob : List UInt8}
    {snap : PersistenceSnapshot} (hs : s.save = .ok blob) (hd : decode ord blob = .ok snap) :
    snap = reread ord s.saveSnapshot ∧ Valid s.saveSnapshot := by
  obtain ⟨-, -, hv, rfl⟩ := (decode_encode hs).mp hd
  exact ⟨rfl, valid_reread.mp (validate_eq_ok.mp hv)⟩

end Fabric

end FailoverFabric

import FailoverFabric.MachineSteps
import Mathlib.Data.List.Range

/-! # The slots of a contract

`FailoverFabric::slots` lists the slots that a service is to have.  The range of a
contract is two 32-bit numbers, which are added in 32 bits, and `create_service` looks
at neither: `slots_enumerated_iff` says for which contracts the list is the range.
-/
namespace FailoverFabric

/-- No slot of the range is null, and none is past the largest 32-bit number. -/
def SlotRange.Fits (r : SlotRange) : Prop :=
  r.count = 0 ∨ (1 ≤ r.first.toNat ∧ r.first.toNat + r.count.toNat ≤ 2 ^ 32)

instance (r : SlotRange) : Decidable r.Fits := by
  unfold SlotRange.Fits
  infer_instance

/-- The keys are those of a range of slots, taken as unbounded integers. -/
structure EnumeratesSlots (service : ServiceId) (r : SlotRange) (keys : List ServiceSlotKey) :
    Prop where
  length : keys.length = r.count.toNat
  nodup : keys.Nodup
  service : ∀ key ∈ keys, key.service = service
  notNull : ∀ key ∈ keys, key.slot.isNull = false
  ids : keys.map (fun key => key.slot.value.toNat) = List.range' r.first.toNat r.count.toNat

namespace Fabric

/-- The key at a position of the range, with its number as the code computes it. -/
def slotAt (service : ServiceId) (r : SlotRange) (i : Nat) : ServiceSlotKey :=
  ⟨service, ⟨(r.first + UInt32.ofNat i).toUInt64⟩⟩

theorem slotAt_id (service : ServiceId) (r : SlotRange) (i : Nat) :
    (slotAt service r i).slot.value.toNat = (r.first.toNat + i) % 2 ^ 32 := by
  rw [slotAt, UInt32.toNat_toUInt64, UInt32.toNat_add, UInt32.toNat_ofNat', Nat.add_mod_mod]

theorem slotsOf_eq {s : Fabric} {service : ServiceId} {d : ServiceDefinition}
    (h : s.findService service = some d) :
    s.slotsOf service = (List.range d.slots.count.toNat).map (slotAt service d.slots) := by
  rw [slotsOf, h]
  rfl

/-- A contract is found as soon as it is accepted. -/
theorem createService_found {s s' : Fabric} {d : ServiceDefinition}
    (h : s.createService d = .ok s') : s'.findService d.service = some d := by
  obtain ⟨rfl, -⟩ := createService_eq h
  exact IndexedVec.find_push_self d.service d

/-- What is listed for a range that fits. -/
theorem enumerates_of_fits {service : ServiceId} {r : SlotRange} (h : r.Fits) :
    EnumeratesSlots service r ((List.range r.count.toNat).map (slotAt service r)) := by
  have hid : ∀ i < r.count.toNat, (slotAt service r i).slot.value.toNat = r.first.toNat + i := by
    intro i hi
    rw [slotAt_id]
    rcases h with hnone | ⟨-, hlast⟩
    · rw [hnone] at hi
      exact absurd hi (Nat.not_lt_zero i)
    · exact Nat.mod_eq_of_lt (by omega)
  have hpositive : ∀ i < r.count.toNat, 1 ≤ r.first.toNat := by
    intro i hi
    rcases h with hnone | ⟨hfirst, -⟩
    · rw [hnone] at hi
      exact absurd hi (Nat.not_lt_zero i)
    · exact hfirst
  refine ⟨by rw [List.length_map, List.length_range], ?_, ?_, ?_, ?_⟩
  · refine List.Nodup.map_on (fun i hi j hj heq => ?_) List.nodup_range
    have hvalues := congrArg (fun key : ServiceSlotKey => key.slot.value.toNat) heq
    simp only [hid i (List.mem_range.1 hi), hid j (List.mem_range.1 hj)] at hvalues
    exact Nat.add_left_cancel hvalues
  · rintro key hkey
    obtain ⟨i, -, rfl⟩ := List.mem_map.1 hkey
    rfl
  · rintro key hkey
    obtain ⟨i, hi, rfl⟩ := List.mem_map.1 hkey
    have hi := List.mem_range.1 hi
    refine beq_eq_false_iff_ne.2 fun hnull => ?_
    have hzero := hid i hi
    rw [hnull] at hzero
    have hone := hpositive i hi
    simp only [UInt64.toNat_zero] at hzero
    omega
  · rw [List.map_map, List.range'_eq_map_range]
    exact List.map_congr_left fun i hi => hid i (List.mem_range.1 hi)

/-- A range of which the list is right begins above zero, and ends in 32 bits. -/
theorem fits_of_enumerates {service : ServiceId} {r : SlotRange}
    (h : EnumeratesSlots service r ((List.range r.count.toNat).map (slotAt service r))) :
    r.Fits := by
  by_cases hcount : r.count = 0
  · exact .inl hcount
  · have hpos : 0 < r.count.toNat :=
      Nat.pos_of_ne_zero fun hzero => hcount (UInt32.toNat_inj.1 hzero)
    have hid : ∀ i < r.count.toNat, (slotAt service r i).slot.value.toNat = r.first.toNat + i := by
      have hids := h.ids
      rw [List.map_map, List.range'_eq_map_range] at hids
      exact fun i hi => List.map_inj_left.1 hids i (List.mem_range.2 hi)
    -- the first key says that the range does not begin at zero, the last one where it ends
    have hfirst := h.notNull _ (List.mem_map.2 ⟨0, List.mem_range.2 hpos, rfl⟩)
    have hlast := hid (r.count.toNat - 1) (by omega)
    have hbound := Nat.mod_lt (r.first.toNat + (r.count.toNat - 1)) (show 0 < 2 ^ 32 by decide)
    rw [← slotAt_id service, hlast] at hbound
    refine .inr ⟨Nat.pos_of_ne_zero fun hzero => ?_, by omega⟩
    have hnull : (slotAt service r 0).slot.value = 0 := by
      refine UInt64.toNat_inj.1 ?_
      rw [hid 0 hpos, hzero]
      rfl
    exact absurd hnull (beq_eq_false_iff_ne.1 hfirst)

/-- **When the slots of a contract are its range.**  For every contract that is accepted,
in every state, the slots that are listed for it are as many as its range has, apart,
none of them null, and numbered from its first number on, if and only if the range is
empty, or begins above zero and ends within 32 bits. -/
theorem slots_enumerated_iff {s s' : Fabric} {d : ServiceDefinition}
    (h : s.createService d = .ok s') :
    EnumeratesSlots d.service d.slots (s'.slotsOf d.service) ↔ d.slots.Fits := by
  rw [slotsOf_eq (createService_found h)]
  exact ⟨fits_of_enumerates, enumerates_of_fits⟩

/-- A contract with these slots. -/
def ranged (first count : UInt32) : ServiceDefinition :=
  { service := ⟨1⟩, slots := ⟨first, count⟩ }

theorem ranged_accepted (first count : UInt32) :
    createService {} (ranged first count) =
      .ok { services := IndexedVec.push {} ⟨1⟩ (ranged first count) } := rfl

/-- The slots of a contract with the two largest numbers. -/
theorem slots_enumerated_last :
    EnumeratesSlots ⟨1⟩ ⟨0xfffffffe, 2⟩
      (slotsOf { services := IndexedVec.push {} ⟨1⟩ (ranged 0xfffffffe 2) } ⟨1⟩) :=
  (slots_enumerated_iff (ranged_accepted 0xfffffffe 2)).mpr (.inr (by decide))

/-- **Contracts whose slots wrap or begin at zero are accepted**: the one has the null
slot behind the last one, the other has it first. -/
theorem slots_wrap :
    slotsOf { services := IndexedVec.push {} ⟨1⟩ (ranged 0xffffffff 2) } ⟨1⟩ =
      [⟨⟨1⟩, ⟨0xffffffff⟩⟩, ⟨⟨1⟩, .null⟩] ∧
    slotsOf { services := IndexedVec.push {} ⟨1⟩ (ranged 0 1) } ⟨1⟩ = [⟨⟨1⟩, .null⟩] ∧
    ¬ ∀ (s s' : Fabric) (d : ServiceDefinition), s.createService d = .ok s' →
      EnumeratesSlots d.service d.slots (s'.slotsOf d.service) := by
  refine ⟨by decide, by decide, fun h => ?_⟩
  have hkeys := h _ _ _ (ranged_accepted 0 1)
  exact absurd (hkeys.notNull ⟨⟨1⟩, .null⟩ (by decide)) (by decide)

end Fabric
end FailoverFabric

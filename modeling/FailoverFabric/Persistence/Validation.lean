import FailoverFabric.Persistence.RoundTrip

/-! # What semantic validation accepts -/
namespace FailoverFabric
namespace Persistence
open Codec

/-- The semantic rules that `decode` enforces. -/
structure Valid (s : PersistenceSnapshot) : Prop where
  services : (s.services.map (·.service)).Nodup
  slots : ∀ d ∈ s.services, d.slots.count ≠ 0
  known : ∀ a ∈ s.assignments, a.slot.service ∈ s.services.map (·.service)
  authority : ∀ a ∈ s.assignments, a.authorityGeneration.isNull = false
  active : ((s.assignments.filter fun a => a.state == .active).map (·.slot)).Nodup

theorem bind_eq_ok {c : Except Error Unit} {k : Unit → Except Error Unit} :
    (c >>= k) = .ok () ↔ c = .ok () ∧ k () = .ok () := by
  cases c <;> simp [bind, Except.bind]

theorem checkIdentities_eq_ok {ids : List ServiceId} : checkIdentities ids = .ok () ↔ ids.Nodup := by
  induction ids with
  | nil => simp [checkIdentities]
  | cons id ids ih =>
    rw [checkIdentities, bind_eq_ok, ih, require_eq_ok, List.nodup_cons]
    simp

theorem checkAssignments_eq_ok {known : List ServiceId} {seen : List ServiceSlotKey}
    {as : List Assignment} :
    checkAssignments known seen as = .ok () ↔
      (∀ a ∈ as, a.slot.service ∈ known) ∧ (∀ a ∈ as, a.authorityGeneration.isNull = false) ∧
        ((as.filter fun a => a.state == .active).map (·.slot)).Nodup ∧
        ∀ k ∈ (as.filter fun a => a.state == .active).map (·.slot), k ∉ seen := by
  induction as generalizing seen with
  | nil => simp [checkAssignments]
  | cons a as ih =>
    rw [checkAssignments, bind_eq_ok, bind_eq_ok, bind_eq_ok, ih]
    simp only [require_eq_ok, List.forall_mem_cons]
    -- `seen` grows by the slot of each active assignment
    by_cases hactive : a.state = .active
    · have hf : ((a :: as).filter fun a => a.state == .active) =
          a :: as.filter fun a => a.state == .active := List.filter_cons_of_pos (by simp [hactive])
      rw [hf, if_pos hactive, List.map_cons, List.nodup_cons, List.forall_mem_cons]
      simp only [hactive, bne_self_eq_false, Bool.false_or, List.contains_eq_mem,
        Bool.not_eq_true', decide_eq_false_iff_not, decide_eq_true_eq, List.mem_cons, not_or]
      constructor
      · rintro ⟨hk, hseen, hauth, hks, hauths, hnd, hdisj⟩
        exact ⟨⟨hk, hks⟩, ⟨hauth, hauths⟩, ⟨fun hm => (hdisj _ hm).1 rfl, hnd⟩, hseen,
          fun k hm => (hdisj k hm).2⟩
      · rintro ⟨⟨hk, hks⟩, ⟨hauth, hauths⟩, ⟨hfresh, hnd⟩, hseen, hdisj⟩
        exact ⟨hk, hseen, hauth, hks, hauths, hnd, fun k hm =>
          ⟨fun he => hfresh (he ▸ hm), hdisj k hm⟩⟩
    · have hf : ((a :: as).filter fun a => a.state == .active) =
          as.filter fun a => a.state == .active := List.filter_cons_of_neg (by simp [hactive])
      have hb : (a.state != .active) = true := by simpa using hactive
      rw [hf, if_neg hactive, hb]
      simp only [Bool.true_or, true_and, List.contains_eq_mem, decide_eq_true_eq,
        Bool.not_eq_eq_eq_not, Bool.not_true]
      constructor
      · rintro ⟨hk, hauth, hks, hauths, hnd, hdisj⟩
        exact ⟨⟨hk, hks⟩, ⟨hauth, hauths⟩, hnd, hdisj⟩
      · rintro ⟨⟨hk, hks⟩, ⟨hauth, hauths⟩, hnd, hdisj⟩
        exact ⟨hk, hauth, hks, hauths, hnd, hdisj⟩

/-- **Validation accepts exactly the snapshots that obey the rules.** -/
theorem validate_eq_ok {s : PersistenceSnapshot} : validate s = .ok () ↔ Valid s := by
  unfold validate
  rw [bind_eq_ok, bind_eq_ok, checkIdentities_eq_ok, checkAll_eq_ok, checkAssignments_eq_ok]
  constructor
  · rintro ⟨hid, hslots, hknown, hauth, hactive, -⟩
    exact ⟨hid, fun d hd => by simpa [require_eq_ok] using hslots d hd, hknown, hauth, hactive⟩
  · rintro ⟨hid, hslots, hknown, hauth, hactive⟩
    exact ⟨hid, fun d hd => by simpa [require_eq_ok] using hslots d hd, hknown, hauth, hactive,
      by simp⟩

/-- **Decoding, inverted**: the payload is read to its end, and validated. -/
theorem decode_eq_ok {ord : CallOrders} {blob : List UInt8} {s : PersistenceSnapshot}
    (h : decode ord blob = .ok s) :
    ∃ payload, payloadOf blob = .ok payload ∧ decPayload ord payload = .ok (s, []) ∧ Valid s := by
  unfold decode at h
  cases hp : payloadOf blob with
  | error e => rw [hp] at h; cases h
  | ok payload =>
    rw [hp] at h
    change (decPayload ord payload >>= _) = _ at h
    cases hd : decPayload ord payload with
    | error e => rw [hd] at h; cases h
    | ok r =>
      rw [hd] at h
      obtain ⟨hrest, h⟩ := require_bind_eq_ok.mp h
      cases hv : validate r.1 with
      | error e => rw [hv] at h; cases h
      | ok u =>
        rw [hv] at h
        cases h
        refine ⟨payload, rfl, ?_, validate_eq_ok.mp hv⟩
        rw [hd, ← List.isEmpty_iff.mp hrest]

/-- Whatever `decode` accepts obeys the rules. -/
theorem decode_valid {ord : CallOrders} {blob : List UInt8} {s : PersistenceSnapshot}
    (h : decode ord blob = .ok s) : Valid s := by
  obtain ⟨-, -, -, hv⟩ := decode_eq_ok h
  exact hv

/-- What is read back obeys the rules iff the original does: rereading leaves
services and assignments alone. -/
theorem valid_reread {ord : CallOrders} {s : PersistenceSnapshot} :
    Valid (reread ord s) ↔ Valid s :=
  ⟨fun h => ⟨h.services, h.slots, h.known, h.authority, h.active⟩,
    fun h => ⟨h.services, h.slots, h.known, h.authority, h.active⟩⟩

end Persistence
end FailoverFabric

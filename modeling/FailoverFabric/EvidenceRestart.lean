import FailoverFabric.EvidenceIndex
import FailoverFabric.Fabric.Rebuild
import FailoverFabric.Stores
import Mathlib.Data.List.Sort

/-! # Failure evidence over a restart

What is saved of the evidence are the events, in the order of their positions, and what is
loaded are the same events published anew.  Two things about an entry are not in its
event: the flag that `clear_failure` sets, and the target that it was filed under when its
id was first published.  So a restart changes the answers to `failures_for` exactly if one
of these differs from what the event says (`failures_survive_iff`).
-/
namespace FailoverFabric
open Fabric Persistence

namespace EvidenceStore

/-! ## The evidence of a run -/

/-- A store that events are published into, one after another. -/
theorem foldl_publish_eq (evs : List FailureEvent) (s : EvidenceStore) :
    evs.foldl (fun t e => (EvidenceStore.publish t e).1) s =
      (evs.map Action.publish).foldl act s := by
  rw [List.foldl_map]
  rfl

/-- The store after a call on one that some calls have made. -/
theorem exists_recorded_act {s : EvidenceStore} (h : ∃ actions, s = recorded actions) (a : Action) :
    ∃ actions, s.act a = recorded actions := by
  obtain ⟨actions, rfl⟩ := h
  exact ⟨actions ++ [a], (recorded_append actions a).symm⟩

theorem exists_recorded_restore (s : Fabric) (snap : PersistenceSnapshot) :
    ∃ actions, (s.restore snap).evidence = recorded actions :=
  ⟨snap.evidence.map .publish, foldl_publish_eq snap.evidence {}⟩

theorem exists_recorded_apply {env : Env} {s : Fabric} (h : ∃ actions, s.evidence = recorded actions)
    (o : Op) : ∃ actions, (s.apply env o).evidence = recorded actions := by
  have heff := apply_effect env s o
  generalize s.apply env o = s' at heff
  cases heff with
  | transient ht =>
    rw [ht]
    exact h
  | created hs =>
    rw [(createService_eq hs).1]
    exact h
  | assigned hs =>
    rw [(setInitialAssignment_eq_ok hs).fabric]
    exact h
  | published ev => exact exists_recorded_act h (.publish (s.sequenced ev))
  | cleared id => exact exists_recorded_act h (.clear id)
  | installed entry boot =>
    rw [installRoute_eq]
    exact h
  | loaded _ => exact exists_recorded_restore s _
  | _ => exact h

/-- **The evidence of a fabric was published and cleared**, since it was constructed or
since its file was loaded. -/
theorem exists_recorded {env : Env} {ok : SystemState → Label → Prop} {σ : SystemState}
    (h : Transition.Reachable (machine env) ok σ) :
    ∃ actions, σ.fabric.evidence = recorded actions := by
  refine h.invariant (P := fun σ => ∃ actions, σ.fabric.evidence = recorded actions) ?_
    fun σ l _ hσ _ => ?_
  · rintro σ ⟨cfg, rfl⟩
    exact ⟨[], rfl⟩
  · have heff := step_effect env σ l
    change ∃ actions, (σ.step env l).fabric.evidence = recorded actions
    generalize σ.step env l = σ' at heff
    cases heff with
    | applied o => exact exists_recorded_apply hσ o
    | settled hf _ =>
      rw [hf]
      exact hσ
    | stepped a _ hf _ _ =>
      rw [hf, attemptStep_confined]
      exact hσ
    | restarted _ _ => exact exists_recorded_restore _ _

/-! ## The positions of the standing events -/

/-- The positions are filed in their order. -/
theorem ascending_recorded (actions : List Action) (t : TargetId) :
    ((recorded actions).targetIndex t).Pairwise (· < ·) := by
  induction actions using List.reverseRecOn with
  | nil => exact List.Pairwise.nil
  | append_singleton past a ih =>
    rw [recorded_append]
    cases a with
    | clear id => exact ih
    | publish ev =>
      show ((recorded past).publish ev).1.targetIndex t |>.Pairwise _
      cases hfind : (recorded past).events.find ev.eventId with
      | none =>
        rw [publish_new hfind, targetIndex_filed]
        split
        · refine List.pairwise_append.mpr ⟨ih, List.pairwise_singleton _ _, fun i hi j hj => ?_⟩
          rw [List.mem_singleton.mp hj]
          exact (filed_recorded past).lt_length hi
        · exact ih
      | some e =>
        rcases publish_known hfind with ⟨-, hp⟩ | ⟨-, hp⟩
        · rw [hp]
          exact ih
        · rw [hp]
          exact ih

/-- The positions of the standing events that are filed under a target. -/
def standingAt (s : EvidenceStore) (t : TargetId) : List Nat :=
  (s.targetIndex t).filter fun i => (s.events.items[i]?).any Entry.standing

theorem mem_standingAt {s : EvidenceStore} {t : TargetId} {i : Nat} :
    i ∈ s.standingAt t ↔
      i ∈ s.targetIndex t ∧ ∃ e, s.events.items[i]? = some e ∧ e.standing = true := by
  rw [standingAt, List.mem_filter, Option.any_eq_true]

/-- The standing events are those at these positions. -/
theorem standingFor_eq (s : EvidenceStore) (t : TargetId) :
    s.standingFor t = (s.standingAt t).filterMap fun i => s.all[i]? := by
  rw [standingAt, List.filterMap_filter, standingFor]
  congr 1
  funext i
  rw [all, List.getElem?_map]
  cases s.events.items[i]? with
  | none => rfl
  | some e => cases he : e.standing <;> simp [he]

/-- The events at ascending positions tell the positions, if no event is there twice. -/
theorem filterMap_getElem?_eq_iff {α : Type} {xs : List α} (hxs : xs.Nodup) {is js : List Nat}
    (hi : is.Pairwise (· < ·)) (hj : js.Pairwise (· < ·)) (hin : ∀ i ∈ is, i < xs.length)
    (hjn : ∀ j ∈ js, j < xs.length) :
    (is.filterMap fun i => xs[i]?) = (js.filterMap fun j => xs[j]?) ↔ ∀ i, i ∈ is ↔ i ∈ js := by
  have hmem : ∀ ks : List Nat, ∀ i, i < xs.length →
      (i ∈ ks ↔ ∃ x ∈ ks.filterMap fun k => xs[k]?, xs[i]? = some x) := by
    intro ks i hlt
    constructor
    · intro hik
      exact ⟨xs[i], List.mem_filterMap.mpr ⟨i, hik, List.getElem?_eq_getElem hlt⟩,
        List.getElem?_eq_getElem hlt⟩
    · rintro ⟨x, hx, hget⟩
      obtain ⟨k, hk, hkx⟩ := List.mem_filterMap.mp hx
      obtain rfl : i = k := (List.getElem?_inj hlt hxs).mp (hget.trans hkx.symm)
      exact hk
  constructor
  · intro heq i
    constructor
    · intro hii
      rw [hmem js i (hin i hii), ← heq, ← hmem is i (hin i hii)]
      exact hii
    · intro hij
      rw [hmem is i (hjn i hij), heq, ← hmem js i (hjn i hij)]
      exact hij
  · intro h
    rw [List.Pairwise.eq_of_mem_iff hi hj h]

/-- The standing events of a store are not more than its events. -/
theorem length_standingFor_le (actions : List Action) (t : TargetId) :
    ((recorded actions).standingFor t).length ≤ (recorded actions).events.items.length := by
  have hfiled := filed_recorded actions
  have hsub : (recorded actions).targetIndex t ⊆ List.range (recorded actions).ids.length :=
    fun i hi => List.mem_range.mpr (hfiled.lt_length hi)
  calc ((recorded actions).standingFor t).length
    _ ≤ ((recorded actions).targetIndex t).length := List.length_filterMap_le _ _
    _ ≤ (List.range (recorded actions).ids.length).length :=
      (List.subperm_of_subset (hfiled.nodup t) hsub).length_le
    _ = (recorded actions).events.items.length := by rw [List.length_range, ids, List.length_map]

theorem lt_length_of_mem_standingAt {s : EvidenceStore} {t : TargetId} {i : Nat}
    (h : i ∈ s.standingAt t) : i < s.all.length := by
  obtain ⟨-, e, he, -⟩ := mem_standingAt.mp h
  rw [all, List.length_map]
  exact (List.getElem?_eq_some_iff.mp he).1

theorem ascending_standingAt (actions : List Action) (t : TargetId) :
    ((recorded actions).standingAt t).Pairwise (· < ·) := (ascending_recorded actions t).filter _

/-- **Two stores of the same events answer alike** exactly if the same positions stand
under the target. -/
theorem failuresFor_eq_iff {actions actions' : List Action}
    (hall : (recorded actions').all = (recorded actions).all) (t : TargetId) :
    (∀ max, (recorded actions).events.items.length ≤ max →
      (recorded actions).failuresFor t max = (recorded actions').failuresFor t max) ↔
      ∀ i, i ∈ (recorded actions).standingAt t ↔ i ∈ (recorded actions').standingAt t := by
  have hlength : (recorded actions').events.items.length = (recorded actions).events.items.length := by
    simpa [all] using congrArg List.length hall
  have hwhole : ∀ max, (recorded actions).events.items.length ≤ max →
      (recorded actions).failuresFor t max = (recorded actions).standingFor t ∧
        (recorded actions').failuresFor t max = (recorded actions').standingFor t := by
    intro max hmax
    have hle := length_standingFor_le actions t
    have hle' := length_standingFor_le actions' t
    exact ⟨List.take_of_length_le (by omega), List.take_of_length_le (by omega)⟩
  rw [← filterMap_getElem?_eq_iff (wellFormed_recorded actions).nodup_eventId.of_map
    (ascending_standingAt actions t) (ascending_standingAt actions' t)
    (fun i => lt_length_of_mem_standingAt)
    (fun i hi => hall ▸ lt_length_of_mem_standingAt hi), ← standingFor_eq, ← hall,
    ← standingFor_eq]
  constructor
  · intro h
    obtain ⟨hs, hs'⟩ := hwhole _ (le_refl _)
    rw [← hs, ← hs']
    exact h _ (le_refl _)
  · intro h max hmax
    obtain ⟨hs, hs'⟩ := hwhole max hmax
    rw [hs, hs', h]

/-! ## Events that are published anew -/

/-- The store that events are published into. -/
def republished (evs : List FailureEvent) : EvidenceStore := recorded (evs.map .publish)

theorem items_republished {evs : List FailureEvent} (hn : (evs.map (·.eventId)).Nodup) :
    (republished evs).events.items = evs.map fun ev => ⟨ev, ev.status == .cleared⟩ := by
  induction evs using List.reverseRecOn with
  | nil => rfl
  | append_singleton evs ev ih =>
    rw [List.map_append, List.nodup_append] at hn
    obtain ⟨hn, -, hfresh⟩ := hn
    have hids : (republished evs).ids = evs.map (·.eventId) := by
      rw [ids, ih hn, List.map_map]
      rfl
    have hnew : (republished evs).events.find ev.eventId = none := by
      refine (wellFormed_recorded (evs.map .publish)).find_eq_none_iff.mpr ?_
      show ev.eventId ∉ (republished evs).ids
      rw [hids]
      exact fun hmem => hfresh _ hmem _ (by simp) rfl
    rw [republished, List.map_append, List.map_singleton, recorded_append, act]
    show ((republished evs).publish ev).1.events.items = _
    rw [publish_new hnew, filed, IndexedVec.push_items, ih hn, List.map_append]
    rfl

theorem all_republished {evs : List FailureEvent} (hn : (evs.map (·.eventId)).Nodup) :
    (republished evs).all = evs := by
  rw [all, items_republished hn, List.map_map]
  exact List.map_id _

/-- Published anew, an event is filed under the target that it names. -/
theorem mem_targetIndex_republished {evs : List FailureEvent} (hn : (evs.map (·.eventId)).Nodup)
    {t : TargetId} {i : Nat} :
    i ∈ (republished evs).targetIndex t ↔ ∃ ev, evs[i]? = some ev ∧ ev.target = some t := by
  have hids : (republished evs).ids = evs.map (·.eventId) := by
    rw [ids, items_republished hn, List.map_map]
    rfl
  have hpublications : publications (evs.map .publish) = evs := by
    simp [publications, List.filterMap_map]
  have hfirst : ∀ ev ∈ evs, firstTarget (evs.map .publish) ev.eventId = ev.target := by
    intro ev hev
    rw [firstTarget, hpublications, List.find?_key_of_mem hn hev, Option.bind_some]
  rw [republished, (filed_recorded _).mem]
  change (∃ id, (republished evs).ids[i]? = some id ∧ _) ↔ _
  rw [hids, List.getElem?_map]
  constructor
  · rintro ⟨id, hid, ht⟩
    obtain ⟨ev, hev, rfl⟩ := Option.map_eq_some_iff.mp hid
    exact ⟨ev, hev, (hfirst ev (List.mem_of_getElem? hev)).symm.trans ht⟩
  · rintro ⟨ev, hev, ht⟩
    exact ⟨ev.eventId, by rw [hev]; rfl, (hfirst ev (List.mem_of_getElem? hev)).trans ht⟩

/-- The event counts as a failure by its own status. -/
def CountsAsFailure (ev : FailureEvent) : Prop := ev.status ≠ .cleared ∧ ev.status ≠ .stale

/-- An event that is published anew stands under the target that it names. -/
theorem mem_standingAt_republished {evs : List FailureEvent} (hn : (evs.map (·.eventId)).Nodup)
    {t : TargetId} {i : Nat} {ev : FailureEvent} (hev : evs[i]? = some ev) :
    i ∈ (republished evs).standingAt t ↔ ev.target = some t ∧ CountsAsFailure ev := by
  rw [mem_standingAt, mem_targetIndex_republished hn, items_republished hn, List.getElem?_map, hev]
  simp [Entry.standing, CountsAsFailure]

end EvidenceStore

/-! ## Failures before and after -/

open EvidenceStore

/-- What the entry at a position says besides its event is what the event says: it is
not marked as cleared, unless it names no target, and it is filed under the target that it
names. -/
def SaysAsFiled (s : EvidenceStore) (i : Nat) (e : Entry) : Prop :=
  (e.cleared = true → e.event.target = none) ∧
    (e.cleared = false → ∀ t, i ∈ s.targetIndex t ↔ e.event.target = some t)

/-- A position stands under the same targets before and after. -/
theorem saysAsFiled_iff {s : EvidenceStore} {i : Nat} {e : Entry}
    (he : s.events.items[i]? = some e) (hcounts : CountsAsFailure e.event) :
    (∀ t, i ∈ s.standingAt t ↔ e.event.target = some t) ↔ SaysAsFiled s i e := by
  have hstanding : e.standing = !e.cleared := by
    rw [Entry.standing, bne_iff_ne.mpr hcounts.1, bne_iff_ne.mpr hcounts.2, Bool.and_true,
      Bool.and_true]
  have hmem : ∀ t, i ∈ s.standingAt t ↔ i ∈ s.targetIndex t ∧ e.cleared = false := by
    intro t
    rw [mem_standingAt, he]
    simp [hstanding]
  simp only [hmem, SaysAsFiled]
  cases hc : e.cleared with
  | false => simp
  | true =>
    cases htarget : e.event.target with
    | none => simp
    | some t => simp

/-- A position stands alike before and after, unless its event counts as a failure and
the entry says something else. -/
theorem standingAt_republished_iff {actions : List Action} {i : Nat} {e : Entry}
    (he : (recorded actions).events.items[i]? = some e) :
    (∀ t, i ∈ (recorded actions).standingAt t ↔
      i ∈ (republished (recorded actions).all).standingAt t) ↔
      (CountsAsFailure e.event → SaysAsFiled (recorded actions) i e) := by
  have hn := (wellFormed_recorded actions).nodup_eventId
  have hev : (recorded actions).all[i]? = some e.event := by rw [all, List.getElem?_map, he]; rfl
  simp only [mem_standingAt_republished hn hev]
  by_cases hcounts : CountsAsFailure e.event
  · rw [forall_prop_of_true hcounts, ← saysAsFiled_iff he hcounts]
    simp only [and_iff_left hcounts]
  · -- an event that does not count stands nowhere
    refine iff_of_true (fun t => iff_of_false (fun hi => hcounts ?_) fun hi => hcounts hi.2)
      fun hc => absurd hc hcounts
    obtain ⟨-, e', he', hstanding⟩ := mem_standingAt.mp hi
    rw [he] at he'
    cases he'
    simp only [Entry.standing, Bool.and_eq_true, bne_iff_ne] at hstanding
    exact ⟨hstanding.1.2, hstanding.2⟩

/-- **When failures survive a restart**: every target has the failures that it had
before, if and only if no event that counts as a failure was marked as cleared while
naming a target, and each other one is filed under the target that it names. -/
theorem failures_survive_iff {env : Env} {σ : SystemState} {cfg : RuntimeConfig} {s' : Fabric}
    (h : Transition.Reachable (machine env) (fun _ _ => True) σ)
    (hr : Fabric.restart env.ord cfg σ.fabric = .ok s') :
    (∀ t max, σ.fabric.evidence.events.items.length ≤ max →
      σ.fabric.evidence.failuresFor t max = s'.evidence.failuresFor t max) ↔
      ∀ (i : Nat) e, σ.fabric.evidence.events.items[i]? = some e → e.event.status ≠ .cleared →
        e.event.status ≠ .stale → (e.cleared = true → e.event.target = none) ∧
          (e.cleared = false → ∀ t,
            i ∈ σ.fabric.evidence.targetIndex t ↔ e.event.target = some t) := by
  obtain ⟨actions, hactions⟩ := exists_recorded h
  obtain ⟨blob, snap, hs, hd, rfl⟩ := restart_eq_ok.mp hr
  obtain ⟨rfl, -⟩ := decode_save hs hd
  have hafter : (restore { cfg := cfg } (reread env.ord σ.fabric.saveSnapshot)).evidence =
      republished (recorded actions).all := by
    rw [← hactions]
    exact foldl_publish_eq σ.fabric.evidence.all {}
  have hn := (wellFormed_recorded actions).nodup_eventId
  rw [hactions, hafter]
  have hanswers := failuresFor_eq_iff (all_republished hn)
  refine (forall_congr' hanswers).trans ?_
  constructor
  · intro hsame i e he hcleared hstale
    exact (standingAt_republished_iff he).mp (fun t => hsame t i) ⟨hcleared, hstale⟩
  · intro hfiled t i
    cases he : (recorded actions).events.items[i]? with
    | none =>
      have hout : ¬ i < (recorded actions).all.length := by
        rw [all, List.length_map]
        exact Nat.not_lt.mpr (List.getElem?_eq_none_iff.mp he)
      refine iff_of_false (fun hi => hout (lt_length_of_mem_standingAt hi)) fun hi => hout ?_
      rw [← all_republished hn]
      exact lt_length_of_mem_standingAt hi
    | some e => exact (standingAt_republished_iff he).mpr (fun hc => hfiled i e he hc.1 hc.2) t

namespace Reference

/-- A confirmed failure of the candidate. -/
def confirmedFailure : FailureEvent := { eventId := ⟨1⟩, status := .confirmed, target := some ⟨2⟩ }

/-- The reference deployment with a failure of the candidate that was cleared. -/
def clearedFailure : List Label :=
  setup.map .op ++ [.op (.publishFailure confirmedFailure), .op (.clearFailure ⟨1⟩)]

/-- A failure that stands survives. -/
theorem failures_survive_reference :
    ∃ s', Fabric.restart env.ord {} (SystemState.after env {}
        (setup.map .op ++ [.op (.publishFailure confirmedFailure)])).fabric = .ok s' ∧
      s'.evidence.failuresFor ⟨2⟩ 1 = [{ confirmedFailure with received := { seq := 1 } }] := by
  have hok : (Fabric.restart env.ord {} (SystemState.after env {}
      (setup.map .op ++ [.op (.publishFailure confirmedFailure)])).fabric).isOk = true := by
    decide +kernel
  cases hr : Fabric.restart env.ord {} (SystemState.after env {}
      (setup.map .op ++ [.op (.publishFailure confirmedFailure)])).fabric with
  | error e =>
    rw [hr] at hok
    cases hok
  | ok s' =>
    have hstore : (SystemState.after env {}
        (setup.map .op ++ [.op (.publishFailure confirmedFailure)])).fabric.evidence =
        republished [{ confirmedFailure with received := { seq := 1 } }] := rfl
    refine ⟨s', rfl, ?_⟩
    rw [← (failures_survive_iff (SystemState.after_reachable env {} _) hr).mpr ?_ ⟨2⟩ 1
      (by rw [hstore]; decide), hstore]
    · decide
    · rw [hstore, items_republished (by decide)]
      intro i e he _ _
      rw [List.getElem?_map] at he
      obtain ⟨ev, hev, rfl⟩ := Option.map_eq_some_iff.mp he
      have hmem := List.mem_singleton.mp (List.mem_of_getElem? hev)
      refine ⟨fun hc => ?_, fun _ t => ?_⟩
      · rw [hmem] at hc
        cases hc
      · rw [mem_targetIndex_republished (by decide), hev]
        simp

/-- **A cleared failure is back after a restart.** -/
theorem cleared_failure_returns :
    let σ := SystemState.after env {} clearedFailure
    let σ' := σ.step env (.restart {})
    Transition.Reachable (machine env) (fun _ _ => True) σ ∧
      σ.fabric.evidence.events.items.length = 1 ∧
      σ.fabric.evidence.failuresFor ⟨2⟩ 1 = [] ∧
      σ'.fabric.evidence.failuresFor ⟨2⟩ 1 =
        [{ confirmedFailure with received := { seq := 1 } }] := by
  refine ⟨SystemState.after_reachable env {} clearedFailure, ?_⟩
  decide +kernel

end Reference

end FailoverFabric

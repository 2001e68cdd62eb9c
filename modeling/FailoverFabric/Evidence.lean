import FailoverFabric.Types
import FailoverFabric.Library.IndexedVec

/-! # Failure evidence

`evidence.hpp` and `evidence.cpp`: typed failure events, and a store indexed by
event id and by target.
-/
namespace FailoverFabric

structure FailureEvent where
  eventId : FailureEventId := .null
  generation : FailureGeneration := {}
  source : SourceId := .null
  sourceBoot : SourceBootId := .null
  category : FailureCategory := .unknownFailure
  status : EvidenceStatus := .unknown
  provenance : Provenance := .reported
  severity : Severity := .medium
  confidence : F64 := .one
  target : Option TargetId := none
  targetGeneration : Option TargetGeneration := none
  domain : Option FailureDomainId := none
  observed : Timestamp := {}
  received : Timestamp := {}
  mechanism : Text := []
  detail : Text := []
  affectedDomains : List FailureDomainId := []
  revalidatesExisting : Bool := false
  deriving DecidableEq

namespace EvidenceStore

/-- A stored event and whether it has been cleared. -/
structure Entry where
  event : FailureEvent
  cleared : Bool := false
  deriving DecidableEq

end EvidenceStore

structure EvidenceStore where
  events : IndexedVec FailureEventId EvidenceStore.Entry := {}
  targetIndex : TargetId → List Nat := fun _ => []

namespace EvidenceStore

/-- Whether the receipt of `ev` is at or after that of `old`. -/
def newer (ev old : FailureEvent) : Bool :=
  decide (old.received.seq < ev.received.seq) ||
    (decide (ev.received.seq = old.received.seq) && decide (old.received.wallNs ≤ ev.received.wallNs))

/-- Publish an event.  An event of a known id replaces the stored one when it is
newer, except that a `CLEARED` never replaces a `CONFIRMED`. -/
def publish (s : EvidenceStore) (ev : FailureEvent) : EvidenceStore × Bool :=
  match s.events.find ev.eventId with
  | some e =>
    if newer ev e.event && (e.event.status == .confirmed && ev.status == .cleared) then (s, false)
    else if newer ev e.event then
      ({ s with events := s.events.modify ev.eventId fun _ => ⟨ev, ev.status == .cleared⟩ }, true)
    else (s, false)
  | none =>
    ({ events := s.events.push ev.eventId ⟨ev, ev.status == .cleared⟩
       targetIndex := match ev.target with
         | some t => Function.update s.targetIndex t (s.targetIndex t ++ [s.events.items.length])
         | none => s.targetIndex }, true)

def clear (s : EvidenceStore) (id : FailureEventId) : EvidenceStore :=
  { s with events := s.events.modify id fun e => { e with cleared := true } }

/-- Neither cleared, nor itself a `CLEARED` or `STALE` observation. -/
def Entry.standing (e : Entry) : Bool :=
  !e.cleared && e.event.status != .cleared && e.event.status != .stale

/-- The standing events indexed under a target, in receipt order. -/
def standingFor (s : EvidenceStore) (t : TargetId) : List FailureEvent :=
  (s.targetIndex t).filterMap fun i =>
    (s.events.items[i]?).bind fun e => if e.standing then some e.event else none

def latestFailureFor (s : EvidenceStore) (t : TargetId) : Option FailureEvent :=
  (s.standingFor t).foldl (fun r e => match r with
    | none => some e
    | some b => if b.received.seq ≤ e.received.seq then some e else some b) none

def failuresFor (s : EvidenceStore) (t : TargetId) (max : Nat) : List FailureEvent :=
  (s.standingFor t).take max

def all (s : EvidenceStore) : List FailureEvent := s.events.items.map (·.event)

/-! ## The store's invariant -/

/-- Events are exactly indexed by their id. -/
def WellFormed (s : EvidenceStore) : Prop := s.events.Indexed (·.event.eventId)

theorem wellFormed_empty : WellFormed {} := IndexedVec.indexed_empty

theorem WellFormed.publish {s : EvidenceStore} (h : s.WellFormed) (ev : FailureEvent) :
    (s.publish ev).1.WellFormed := by
  unfold EvidenceStore.publish
  split
  · rename_i e he
    split
    · exact h
    split
    · -- the record is replaced by another with the same id
      intro k i
      simp only [IndexedVec.modify_index, IndexedVec.modify_getElem?]
      rw [h k i]
      have hkey := h.sound.key_of_find he
      constructor
      · rintro ⟨w, hw, hwk⟩
        refine ⟨_, by rw [hw]; rfl, ?_⟩
        split
        · rename_i hidx
          obtain ⟨u, hu, huk⟩ := (h _ _).mp hidx
          rw [hw] at hu
          rw [← Option.some.inj hu, hwk] at huk
          exact huk.symm
        · exact hwk
      · rintro ⟨w, hw, hwk⟩
        obtain ⟨u, hu, rfl⟩ := Option.map_eq_some_iff.mp hw
        refine ⟨u, hu, ?_⟩
        split at hwk
        · rename_i hidx
          obtain ⟨u', hu', huk⟩ := (h _ _).mp hidx
          rw [hu] at hu'
          rw [Option.some.inj hu', huk]
          exact hwk
        · exact hwk
    · exact h
  · rename_i hnone
    exact IndexedVec.Indexed.push h hnone rfl

theorem WellFormed.clear {s : EvidenceStore} (h : s.WellFormed) (id : FailureEventId) :
    (s.clear id).WellFormed := IndexedVec.Indexed.modify h id fun _ => rfl

/-- Publishing only stores the published event. -/
theorem mem_all_publish {s : EvidenceStore} {ev e : FailureEvent} (h : e ∈ (s.publish ev).1.all) :
    e = ev ∨ e ∈ s.all := by
  unfold EvidenceStore.publish at h
  obtain ⟨w, hw, rfl⟩ := List.mem_map.mp h
  split at hw
  · split at hw
    · exact Or.inr (List.mem_map_of_mem hw)
    split at hw
    · rcases IndexedVec.mem_modify hw with hw | ⟨v, _, rfl⟩
      · exact Or.inr (List.mem_map_of_mem hw)
      · exact Or.inl rfl
    · exact Or.inr (List.mem_map_of_mem hw)
  · rcases List.mem_append.mp hw with hw | hw
    · exact Or.inr (List.mem_map_of_mem hw)
    · rw [List.mem_singleton] at hw
      exact Or.inl (congrArg Entry.event hw)

theorem all_clear (s : EvidenceStore) (id : FailureEventId) : (s.clear id).all = s.all :=
  IndexedVec.map_modify fun _ _ => rfl

/-- Replaying events with distinct ids into a store that has none of them
appends them in order. -/
theorem foldl_publish (evs : List FailureEvent) (s : EvidenceStore) (h : s.WellFormed)
    (hn : ((s.all ++ evs).map (·.eventId)).Nodup) :
    (evs.foldl (fun t e => (EvidenceStore.publish t e).1) s).all = s.all ++ evs := by
  induction evs generalizing s with
  | nil => simp
  | cons ev evs ih =>
    have hfresh : s.events.find ev.eventId = none := by
      refine h.find_eq_none_iff.mpr fun e he heq => ?_
      rw [List.map_append, List.map_cons] at hn
      exact (List.nodup_append.mp hn).2.2 _
        (List.mem_map_of_mem (List.mem_map_of_mem he)) _ (List.mem_cons_self ..) heq
    have hall : (s.publish ev).1.all = s.all ++ [ev] := by
      simp [EvidenceStore.publish, hfresh, all]
    rw [List.foldl_cons, ih _ (h.publish ev) (by rw [hall]; simpa using hn), hall]
    simp

theorem WellFormed.nodup_eventId {s : EvidenceStore} (h : s.WellFormed) :
    (s.all.map (·.eventId)).Nodup := by
  rw [all, List.map_map]
  exact h.nodup

/-- **A well-formed store's event list is rebuilt exactly.** -/
theorem WellFormed.rebuild {s : EvidenceStore} (h : s.WellFormed) :
    (s.all.foldl (fun t e => (EvidenceStore.publish t e).1) {}).all = s.all := by
  have := foldl_publish s.all {} wellFormed_empty (by simpa [all] using h.nodup_eventId)
  simpa [all] using this

end EvidenceStore

end FailoverFabric

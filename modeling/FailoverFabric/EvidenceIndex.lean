import FailoverFabric.Evidence
import FailoverFabric.Library.Reachability
import Mathlib.Data.List.Induction
import Mathlib.Data.Prod.Lex

/-! # The evidence store over whole runs

`publish` and `clear` in any order.  The store keeps one entry for each event id,
whose receipt only moves forward (`evidence_forward`).  An event is filed under its
target when its id is first published, and stays there when a later publication
replaces it; so the per-target index is exact all along a run exactly if no
publication that counts as a failure names another target than the first of its id
(`index_exact_iff`).
-/
namespace FailoverFabric

namespace EvidenceStore

/-- A call that changes the store. -/
inductive Action
  | publish (ev : FailureEvent)
  | clear (id : FailureEventId)

def act (s : EvidenceStore) : Action → EvidenceStore
  | .publish ev => (s.publish ev).1
  | .clear id => s.clear id

/-- The store after some calls. -/
def recorded (actions : List Action) : EvidenceStore := actions.foldl act {}

/-- The events that were published, accepted or not. -/
def publications (actions : List Action) : List FailureEvent :=
  actions.filterMap fun
    | .publish ev => some ev
    | .clear _ => none

theorem recorded_append (past : List Action) (a : Action) :
    recorded (past ++ [a]) = (recorded past).act a := by
  rw [recorded, List.foldl_append]
  rfl

theorem publications_append (past : List Action) (a : Action) :
    publications (past ++ [a]) = publications past ++ publications [a] := List.filterMap_append

/-! ## What a publication does -/

/-- A publication replaces a stored event: it is at least as new, and not a
clearing of a confirmed failure. -/
def Replaces (ev old : FailureEvent) : Prop :=
  newer ev old = true ∧ ¬ (old.status = .confirmed ∧ ev.status = .cleared)

/-- The store with a published event in the place of the stored one. -/
def replaced (s : EvidenceStore) (ev : FailureEvent) : EvidenceStore :=
  { s with events := s.events.modify ev.eventId fun _ => ⟨ev, ev.status == .cleared⟩ }

/-- The store with an event of a new id, filed under its target. -/
def filed (s : EvidenceStore) (ev : FailureEvent) : EvidenceStore :=
  { events := s.events.push ev.eventId ⟨ev, ev.status == .cleared⟩
    targetIndex := match ev.target with
      | some t => Function.update s.targetIndex t (s.targetIndex t ++ [s.events.items.length])
      | none => s.targetIndex }

variable {s : EvidenceStore} {ev : FailureEvent}

theorem publish_new (h : s.events.find ev.eventId = none) : s.publish ev = (s.filed ev, true) := by
  unfold publish
  rw [h]
  rfl

/-- **The publication of a stored id, inverted.** -/
theorem publish_known {e : Entry} (h : s.events.find ev.eventId = some e) :
    Replaces ev e.event ∧ s.publish ev = (s.replaced ev, true) ∨
      ¬ Replaces ev e.event ∧ s.publish ev = (s, false) := by
  unfold publish Replaces
  rw [h]
  simp only
  split_ifs with hclears hnewer
  · simp only [Bool.and_eq_true, beq_iff_eq] at hclears
    exact Or.inr ⟨fun hr => hr.2 hclears.2, rfl⟩
  · simp only [Bool.and_eq_true, beq_iff_eq, not_and] at hclears
    exact Or.inl ⟨⟨hnewer, fun hr => hclears hnewer hr.1 hr.2⟩, rfl⟩
  · exact Or.inr ⟨fun hr => hnewer hr.1, rfl⟩

theorem WellFormed.act (h : s.WellFormed) (a : Action) : (s.act a).WellFormed := by
  cases a with
  | publish ev => exact h.publish ev
  | clear id => exact h.clear id

theorem wellFormed_recorded (actions : List Action) : (recorded actions).WellFormed := by
  induction actions using List.reverseRecOn with
  | nil => exact wellFormed_empty
  | append_singleton past a ih =>
    rw [recorded_append]
    exact ih.act a

/-! ## One entry for each id -/

/-- The ids of the stored events, by position. -/
def ids (s : EvidenceStore) : List FailureEventId := s.events.items.map (·.event.eventId)

theorem ids_clear (s : EvidenceStore) (id : FailureEventId) : (s.clear id).ids = s.ids :=
  IndexedVec.map_modify fun _ _ => rfl

theorem ids_filed (s : EvidenceStore) (ev : FailureEvent) :
    (s.filed ev).ids = s.ids ++ [ev.eventId] := by
  simp [ids, filed]

theorem WellFormed.ids_replaced (h : s.WellFormed) (ev : FailureEvent) :
    (s.replaced ev).ids = s.ids :=
  IndexedVec.map_modify fun _ hv => (h.sound.key_of_find hv).symm

theorem WellFormed.find_eq_none_iff (h : s.WellFormed) {id : FailureEventId} :
    s.events.find id = none ↔ id ∉ s.ids := by
  rw [IndexedVec.Indexed.find_eq_none_iff h, ids, List.mem_map]
  simp

theorem WellFormed.mem_ids (h : s.WellFormed) {id : FailureEventId} {e : Entry}
    (hfind : s.events.find id = some e) : id ∈ s.ids := by
  obtain ⟨he, hid⟩ := h.find_eq_some_iff.mp hfind
  exact List.mem_map.mpr ⟨e, he, hid⟩

/-- The ids after a call: those before it, and that of a publication. -/
theorem WellFormed.mem_ids_act (h : s.WellFormed) (a : Action) (id : FailureEventId) :
    id ∈ (s.act a).ids ↔ id ∈ s.ids ∨ ∃ ev ∈ publications [a], ev.eventId = id := by
  cases a with
  | clear id' =>
    show id ∈ (s.clear id').ids ↔ _
    simp [ids_clear, publications]
  | publish ev =>
    have hpub : (∃ e ∈ publications [.publish ev], e.eventId = id) ↔ ev.eventId = id := by
      simp [publications]
    rw [hpub]
    show id ∈ (s.publish ev).1.ids ↔ _
    cases hfind : s.events.find ev.eventId with
    | none =>
      rw [publish_new hfind, ids_filed, List.mem_append, List.mem_singleton, eq_comm (a := id)]
    | some e =>
      -- the id is there already
      have hold : ev.eventId = id → id ∈ s.ids := by
        rintro rfl
        exact h.mem_ids hfind
      rw [or_iff_left_of_imp hold]
      rcases publish_known hfind with ⟨-, hp⟩ | ⟨-, hp⟩
      · rw [hp, h.ids_replaced]
      · rw [hp]

/-- The store has an entry exactly for the ids that were published. -/
theorem mem_ids_recorded (actions : List Action) (id : FailureEventId) :
    id ∈ (recorded actions).ids ↔ ∃ ev ∈ publications actions, ev.eventId = id := by
  induction actions using List.reverseRecOn with
  | nil => simp [recorded, ids, publications]
  | append_singleton past a ih =>
    rw [recorded_append, (wellFormed_recorded past).mem_ids_act, ih, publications_append]
    simp only [List.mem_append, or_and_right, exists_or]

/-! ## Evidence moves forward -/

/-- What the receipts of one event id are compared by. -/
def receipt (ev : FailureEvent) : ℕ ×ₗ ℤ :=
  toLex (ev.received.seq.toNat, ev.received.wallNs.toInt)

theorem newer_iff {old : FailureEvent} : newer ev old = true ↔ receipt old ≤ receipt ev := by
  simp only [newer, receipt, Prod.Lex.toLex_le_toLex, Bool.or_eq_true, Bool.and_eq_true,
    decide_eq_true_eq, UInt64.lt_iff_toNat_lt, Int64.le_iff_toInt_le, UInt64.toNat_inj]
  rw [eq_comm (a := ev.received.seq)]

theorem WellFormed.find_publish_of_ne (h : s.WellFormed) {id : FailureEventId}
    (hne : id ≠ ev.eventId) : (s.publish ev).1.events.find id = s.events.find id := by
  cases hfind : s.events.find ev.eventId with
  | none =>
    rw [publish_new hfind]
    show (s.events.push _ _).find id = _
    rw [IndexedVec.find_push _ _ _ h.sound, if_neg hne]
  | some e =>
    rcases publish_known hfind with ⟨-, hp⟩ | ⟨-, hp⟩
    · rw [hp]
      show (s.events.modify _ _).find id = _
      rw [IndexedVec.find_modify h.sound, if_neg hne]
    · rw [hp]

theorem WellFormed.find_publish_self (h : s.WellFormed) {e : Entry}
    (hfind : s.events.find ev.eventId = some e) :
    Replaces ev e.event ∧
        (s.publish ev).1.events.find ev.eventId = some ⟨ev, ev.status == .cleared⟩ ∨
      ¬ Replaces ev e.event ∧ (s.publish ev).1.events.find ev.eventId = some e := by
  rcases publish_known hfind with ⟨hr, hp⟩ | ⟨hr, hp⟩
  · refine Or.inl ⟨hr, ?_⟩
    rw [hp]
    show (s.events.modify _ _).find _ = _
    rw [IndexedVec.find_modify h.sound, if_pos rfl, hfind]
    rfl
  · exact Or.inr ⟨hr, by rw [hp, hfind]⟩

/-- No call takes an entry away or moves its receipt back. -/
theorem WellFormed.find_act (h : s.WellFormed) (a : Action) {id : FailureEventId} {e : Entry}
    (hfind : s.events.find id = some e) :
    ∃ e', (s.act a).events.find id = some e' ∧ receipt e.event ≤ receipt e'.event := by
  cases a with
  | clear id' =>
    show ∃ e', (s.events.modify id' _).find id = some e' ∧ _
    rw [IndexedVec.find_modify h.sound]
    by_cases hid : id = id'
    · subst hid
      rw [if_pos rfl, hfind]
      exact ⟨_, rfl, le_refl _⟩
    · rw [if_neg hid]
      exact ⟨e, hfind, le_refl _⟩
  | publish ev =>
    show ∃ e', (s.publish ev).1.events.find id = some e' ∧ _
    by_cases hid : id = ev.eventId
    · subst hid
      rcases h.find_publish_self hfind with ⟨hr, hp⟩ | ⟨-, hp⟩
      · exact ⟨_, hp, newer_iff.mp hr.1⟩
      · exact ⟨e, hp, le_refl _⟩
    · exact ⟨e, by rw [h.find_publish_of_ne hid, hfind], le_refl _⟩

theorem find_recorded_append (past later : List Action) {id : FailureEventId} {e : Entry}
    (hfind : (recorded past).events.find id = some e) :
    ∃ e', (recorded (past ++ later)).events.find id = some e' ∧
      receipt e.event ≤ receipt e'.event := by
  induction later using List.reverseRecOn with
  | nil => exact ⟨e, by rwa [List.append_nil], le_refl _⟩
  | append_singleton later a ih =>
    obtain ⟨e', hfind', hle⟩ := ih
    rw [← List.append_assoc, recorded_append]
    obtain ⟨e'', hfind'', hle'⟩ := (wellFormed_recorded _).find_act a hfind'
    exact ⟨e'', hfind'', hle.trans hle'⟩

/-- **Evidence only moves forward.**  After every sequence of publications and
clearings: the store has one entry for each id that was published, and no other; the
receipt of an entry does not move back in anything that follows; a publication
received before the stored one is refused and changes nothing; and none turns a
confirmed failure into a cleared one. -/
theorem evidence_forward (actions : List Action) :
    let s := recorded actions
    (s.ids.Nodup ∧ (∀ e ∈ s.events.items, s.events.find e.event.eventId = some e) ∧
        ∀ id, id ∈ s.ids ↔ ∃ ev ∈ publications actions, ev.eventId = id) ∧
      (∀ later id e, s.events.find id = some e →
        ∃ e', (recorded (actions ++ later)).events.find id = some e' ∧
          receipt e.event ≤ receipt e'.event) ∧
      (∀ ev e, s.events.find ev.eventId = some e → receipt ev < receipt e.event →
        s.publish ev = (s, false)) ∧
      ∀ ev id e e', s.events.find id = some e → e.event.status = .confirmed →
        (s.publish ev).1.events.find id = some e' → e'.event.status ≠ .cleared := by
  intro s
  have hwf : s.WellFormed := wellFormed_recorded actions
  refine ⟨⟨hwf.nodup, ?_, mem_ids_recorded actions⟩, ?_, ?_, ?_⟩
  · intro e he
    exact hwf.find_eq_some_iff.mpr ⟨he, rfl⟩
  · exact fun later id e => find_recorded_append actions later
  · intro ev e hfind hlt
    rcases publish_known hfind with ⟨hr, -⟩ | ⟨-, hp⟩
    · exact absurd (newer_iff.mp hr.1) (not_le.mpr hlt)
    · exact hp
  · intro ev id e e' hfind hconfirmed hfind' hcleared
    by_cases hid : id = ev.eventId
    · subst hid
      rcases hwf.find_publish_self hfind with ⟨hr, hp⟩ | ⟨-, hp⟩
      · rw [hp] at hfind'
        cases hfind'
        exact hr.2 ⟨hconfirmed, hcleared⟩
      · rw [hp] at hfind'
        cases hfind'
        rw [hconfirmed] at hcleared
        cases hcleared
    · rw [hwf.find_publish_of_ne hid, hfind] at hfind'
      cases hfind'
      rw [hconfirmed] at hcleared
      cases hcleared

/-! ## Where an event is filed -/

/-- The target that the first publication of an id names. -/
def firstTarget (past : List Action) (id : FailureEventId) : Option TargetId :=
  ((publications past).find? fun ev => ev.eventId == id).bind (·.target)

/-- What is published after an id is stored does not change its first target. -/
theorem firstTarget_append {past : List Action} {id : FailureEventId}
    (h : id ∈ (recorded past).ids) (a : Action) :
    firstTarget (past ++ [a]) id = firstTarget past id := by
  obtain ⟨ev, hev, hid⟩ := (mem_ids_recorded past id).mp h
  have hsome : ((publications past).find? fun ev => ev.eventId == id).isSome = true :=
    List.find?_isSome.mpr ⟨ev, hev, by simp [hid]⟩
  obtain ⟨first, hfirst⟩ := Option.isSome_iff_exists.mp hsome
  rw [firstTarget, firstTarget, publications_append, List.find?_append, hfirst]
  rfl

theorem firstTarget_new {past : List Action} {ev : FailureEvent}
    (h : ev.eventId ∉ (recorded past).ids) :
    firstTarget (past ++ [.publish ev]) ev.eventId = ev.target := by
  have hnone : ((publications past).find? fun e => e.eventId == ev.eventId) = none := by
    rw [List.find?_eq_none]
    intro e he heq
    exact h ((mem_ids_recorded past _).mpr ⟨e, he, eq_of_beq heq⟩)
  rw [firstTarget, publications_append, List.find?_append, hnone]
  simp [publications]

theorem targetIndex_filed (s : EvidenceStore) (ev : FailureEvent) (t : TargetId) :
    (s.filed ev).targetIndex t =
      if ev.target = some t then s.targetIndex t ++ [s.ids.length] else s.targetIndex t := by
  have hlen : s.ids.length = s.events.items.length := List.length_map _
  rw [hlen, filed]
  cases htarget : ev.target with
  | none => simp
  | some t' =>
    by_cases ht : t' = t
    · subst ht
      simp
    · rw [if_neg (by simpa using ht)]
      exact Function.update_of_ne (fun h => ht h.symm) _ _

theorem mem_targetIndex_filed (s : EvidenceStore) (ev : FailureEvent) (t : TargetId) (i : Nat) :
    i ∈ (s.filed ev).targetIndex t ↔
      i ∈ s.targetIndex t ∨ i = s.ids.length ∧ ev.target = some t := by
  rw [targetIndex_filed]
  by_cases ht : ev.target = some t
  · simp [ht]
  · simp [ht]

/-- The index lists each position once, under the first target of its id. -/
structure Filed (past : List Action) : Prop where
  nodup : ∀ t, ((recorded past).targetIndex t).Nodup
  mem : ∀ t i, i ∈ (recorded past).targetIndex t ↔
    ∃ id, (recorded past).ids[i]? = some id ∧ firstTarget past id = some t

theorem Filed.of_same {past : List Action} {a : Action} (h : Filed past)
    (hids : (recorded (past ++ [a])).ids = (recorded past).ids)
    (hindex : (recorded (past ++ [a])).targetIndex = (recorded past).targetIndex) :
    Filed (past ++ [a]) := by
  refine ⟨fun t => by rw [hindex]; exact h.nodup t, fun t i => ?_⟩
  rw [hindex, hids, h.mem]
  refine exists_congr fun id => and_congr_right fun hid => ?_
  rw [firstTarget_append (List.mem_of_getElem? hid)]

theorem Filed.lt_length {past : List Action} (h : Filed past) {t : TargetId} {i : Nat}
    (hi : i ∈ (recorded past).targetIndex t) : i < (recorded past).ids.length := by
  obtain ⟨id, hid, -⟩ := (h.mem t i).mp hi
  exact (List.getElem?_eq_some_iff.mp hid).1

theorem Filed.of_filed {past : List Action} {ev : FailureEvent} (h : Filed past)
    (hnew : ev.eventId ∉ (recorded past).ids)
    (hstore : recorded (past ++ [.publish ev]) = (recorded past).filed ev) :
    Filed (past ++ [.publish ev]) := by
  constructor
  · intro t
    rw [hstore, targetIndex_filed]
    split
    · refine List.nodup_append.mpr ⟨h.nodup t, by simp, fun i hi j hj hij => ?_⟩
      rw [List.mem_singleton.mp hj] at hij
      have hlt := h.lt_length hi
      omega
    · exact h.nodup t
  · intro t i
    rw [hstore, mem_targetIndex_filed, h.mem, ids_filed]
    rcases Nat.lt_trichotomy i (recorded past).ids.length with hlt | rfl | hgt
    · -- an old position: its id is stored
      rw [List.getElem?_append_left hlt, or_iff_left fun hlast => hlt.ne hlast.1]
      refine exists_congr fun id => and_congr_right fun hid => ?_
      rw [firstTarget_append (List.mem_of_getElem? hid)]
    · rw [List.getElem?_append_right (le_refl _), List.getElem?_eq_none (le_refl _)]
      simp [firstTarget_new hnew]
    · rw [List.getElem?_eq_none (le_of_lt hgt), List.getElem?_eq_none (by simp; omega)]
      simp [hgt.ne']

/-- **Where events are filed**, after any calls. -/
theorem filed_recorded (actions : List Action) : Filed actions := by
  induction actions using List.reverseRecOn with
  | nil => exact ⟨fun t => List.nodup_nil, fun t i => by simp [recorded, ids]⟩
  | append_singleton past a ih =>
    have hwf := wellFormed_recorded past
    have happ := recorded_append past a
    cases a with
    | clear id => exact ih.of_same (by rw [happ]; exact ids_clear _ id) (by rw [happ]; rfl)
    | publish ev =>
      cases hfind : (recorded past).events.find ev.eventId with
      | none =>
        refine ih.of_filed (hwf.find_eq_none_iff.mp hfind) ?_
        rw [happ, act, publish_new hfind]
      | some e =>
        rw [act] at happ
        rcases publish_known hfind with ⟨-, hp⟩ | ⟨-, hp⟩
        · rw [hp] at happ
          exact ih.of_same (by rw [happ]; exact hwf.ids_replaced ev) (by rw [happ]; rfl)
        · rw [hp] at happ
          exact ih.of_same (by rw [happ]) (by rw [happ])

/-! ## The exact index -/

/-- The stored failures of a target: what the index is to find. -/
def failures (s : EvidenceStore) (t : TargetId) : List FailureEvent :=
  (s.events.items.filter fun e => e.standing && e.event.target == some t).map (·.event)

/-- The queries by target answer from the stored failures of the target: all of
them, each once, and one of the latest. -/
structure IndexExact (s : EvidenceStore) : Prop where
  all : ∀ t max, s.events.items.length ≤ max → (s.failuresFor t max).Perm (s.failures t)
  none_iff : ∀ t, s.latestFailureFor t = none ↔ s.failures t = []
  latest : ∀ t e, s.latestFailureFor t = some e →
    e ∈ s.failures t ∧ ∀ e' ∈ s.failures t, e'.received.seq ≤ e.received.seq

/-- The latest of some events, the last of equals. -/
def latestOf (evs : List FailureEvent) : Option FailureEvent :=
  evs.foldl (fun r e => match r with
    | none => some e
    | some b => if b.received.seq ≤ e.received.seq then some e else some b) none

theorem latestOf_append (evs : List FailureEvent) (e : FailureEvent) :
    latestOf (evs ++ [e]) = match latestOf evs with
      | none => some e
      | some b => if b.received.seq ≤ e.received.seq then some e else some b := by
  rw [latestOf, List.foldl_append]
  rfl

theorem latestOf_spec (evs : List FailureEvent) :
    (latestOf evs = none ↔ evs = []) ∧
      ∀ e, latestOf evs = some e → e ∈ evs ∧ ∀ e' ∈ evs, e'.received.seq ≤ e.received.seq := by
  induction evs using List.reverseRecOn with
  | nil => simp [latestOf]
  | append_singleton evs ev ih =>
    obtain ⟨hnone, hsome⟩ := ih
    rw [latestOf_append]
    cases hb : latestOf evs with
    | none =>
      have hnil := hnone.mp hb
      subst hnil
      simp
    | some b =>
      obtain ⟨hmem, hmax⟩ := hsome b hb
      simp only
      split
      · rename_i hle
        refine ⟨by simp, fun e he => ?_⟩
        cases he
        refine ⟨by simp, fun e' he' => ?_⟩
        rcases List.mem_append.mp he' with he' | he'
        · exact UInt64.le_trans (hmax e' he') hle
        · rw [List.mem_singleton.mp he']
          exact UInt64.le_refl _
      · rename_i hlt
        refine ⟨by simp, fun e he => ?_⟩
        cases he
        refine ⟨List.mem_append_left _ hmem, fun e' he' => ?_⟩
        rcases List.mem_append.mp he' with he' | he'
        · exact hmax e' he'
        · rw [List.mem_singleton.mp he']
          exact UInt64.le_of_lt (UInt64.not_le.mp hlt)

/-- The index is exact if what is filed under a target are its failures. -/
theorem IndexExact.of_perm {s : EvidenceStore} (h : ∀ t, (s.standingFor t).Perm (s.failures t)) :
    IndexExact s := by
  have hlatest : ∀ t, s.latestFailureFor t = latestOf (s.standingFor t) := fun _ => rfl
  refine ⟨fun t max hmax => ?_, fun t => ?_, fun t e he => ?_⟩
  · have hlen : (s.standingFor t).length ≤ max := by
      calc (s.standingFor t).length
        _ = (s.failures t).length := (h t).length_eq
        _ ≤ s.events.items.length := by
          rw [failures, List.length_map]
          exact List.length_filter_le _ _
        _ ≤ max := hmax
    rw [failuresFor, List.take_of_length_le hlen]
    exact h t
  · rw [hlatest, (latestOf_spec _).1, ← List.length_eq_zero_iff, (h t).length_eq,
      List.length_eq_zero_iff]
  · rw [hlatest] at he
    obtain ⟨hmem, hmax⟩ := (latestOf_spec _).2 e he
    exact ⟨(h t).mem_iff.mp hmem, fun e' he' => hmax e' ((h t).mem_iff.mpr he')⟩

/-- Every standing event names the first target of its id. -/
def Settled (past : List Action) : Prop :=
  ∀ e ∈ (recorded past).events.items, e.standing = true →
    e.event.target = firstTarget past e.event.eventId

/-- What the index reads for a target: the standing events whose id was first
published for it. -/
theorem standingFor_perm (past : List Action) (t : TargetId) :
    ((recorded past).standingFor t).Perm
      (((recorded past).events.items.filter fun e =>
        firstTarget past e.event.eventId == some t).filterMap fun e =>
          if e.standing then some e.event else none) := by
  refine IndexedVec.filterMap_positions_perm ((filed_recorded past).nodup t) (fun i => ?_) _
  rw [(filed_recorded past).mem, ids, List.getElem?_map]
  constructor
  · rintro ⟨id, hid, hfirst⟩
    obtain ⟨e, he, rfl⟩ := Option.map_eq_some_iff.mp hid
    exact ⟨e, he, by simp [hfirst]⟩
  · rintro ⟨e, he, hfirst⟩
    exact ⟨e.event.eventId, by rw [he]; rfl, eq_of_beq hfirst⟩

theorem Settled.indexExact {past : List Action} (h : Settled past) :
    IndexExact (recorded past) := by
  refine .of_perm fun t => ?_
  have hsame : (((recorded past).events.items.filter fun e =>
      firstTarget past e.event.eventId == some t).filterMap fun e =>
        if e.standing then some e.event else none) = (recorded past).failures t := by
    rw [failures, List.filterMap_filter, ← List.filterMap_eq_map, List.filterMap_filter]
    refine List.filterMap_congr fun e he => ?_
    cases hs : e.standing with
    | false => simp
    | true => simp [h e he hs]
  rw [← hsame]
  exact standingFor_perm past t

/-! ## The publications to blame -/

/-- A call that keeps the index exact: a publication that replaces a stored event
and stands as a failure names the target that the first of its id did. -/
def Steady (past : List Action) : Action → Prop
  | .clear _ => True
  | .publish ev => ∀ e, (recorded past).events.find ev.eventId = some e → Replaces ev e.event →
      ev.status ≠ .cleared → ev.status ≠ .stale → ev.target = firstTarget past ev.eventId

/-- The entry that a publication makes stands unless its event is cleared or
stale. -/
theorem standing_published (ev : FailureEvent) :
    (⟨ev, ev.status == .cleared⟩ : Entry).standing = true ↔
      ev.status ≠ .cleared ∧ ev.status ≠ .stale := by
  simp [Entry.standing]

theorem Settled.step {past : List Action} {a : Action} (h : Settled past) (hok : Steady past a) :
    Settled (past ++ [a]) := by
  have hwf := wellFormed_recorded past
  have hold : ∀ e ∈ (recorded past).events.items, e.standing = true →
      e.event.target = firstTarget (past ++ [a]) e.event.eventId := by
    intro e he hs
    rw [firstTarget_append (List.mem_map_of_mem he)]
    exact h e he hs
  intro e he hs
  rw [recorded_append] at he
  cases a with
  | clear id =>
    rcases IndexedVec.mem_modify he with he | ⟨v, -, rfl⟩
    · exact hold e he hs
    · cases hs
  | publish ev =>
    rw [act] at he
    cases hfind : (recorded past).events.find ev.eventId with
    | none =>
      rw [publish_new hfind] at he
      rcases List.mem_append.mp he with he | he
      · exact hold e he hs
      · rw [List.mem_singleton.mp he, firstTarget_new (hwf.find_eq_none_iff.mp hfind)]
    | some old =>
      rcases publish_known hfind with ⟨hr, hp⟩ | ⟨-, hp⟩
      · rw [hp] at he
        rcases IndexedVec.mem_modify he with he | ⟨v, -, rfl⟩
        · exact hold e he hs
        · obtain ⟨hc, hst⟩ := (standing_published ev).mp hs
          rw [firstTarget_append (hwf.mem_ids hfind)]
          exact hok old hfind hr hc hst
      · rw [hp] at he
        exact hold e he hs

/-- A standing event that is stored is found under the first target of its id, and
under no other. -/
theorem mem_standingFor {past : List Action} {e : Entry} (he : e ∈ (recorded past).events.items)
    (hs : e.standing = true) (t : TargetId) :
    e.event ∈ (recorded past).standingFor t ↔ firstTarget past e.event.eventId = some t := by
  rw [(standingFor_perm past t).mem_iff, List.mem_filterMap]
  constructor
  · rintro ⟨e', he', heq⟩
    rw [List.mem_filter] at he'
    cases hs' : e'.standing with
    | false => simp [hs'] at heq
    | true =>
      simp only [hs', if_true, Option.some.injEq] at heq
      rw [← heq]
      exact eq_of_beq he'.2
  · intro hfirst
    exact ⟨e, List.mem_filter.mpr ⟨he, by simp [hfirst]⟩, by simp [hs]⟩

theorem mem_failures {s : EvidenceStore} {e : Entry} (he : e ∈ s.events.items)
    (hs : e.standing = true) (t : TargetId) :
    e.event ∈ s.failures t ↔ e.event.target = some t := by
  rw [failures, List.mem_map]
  constructor
  · rintro ⟨e', he', heq⟩
    rw [← heq]
    have hmatch := (List.mem_filter.mp he').2
    simp only [Bool.and_eq_true, beq_iff_eq] at hmatch
    exact hmatch.2
  · intro ht
    exact ⟨e, List.mem_filter.mpr ⟨he, by simp [hs, ht]⟩, rfl⟩

/-- Where the index is exact, a standing event names the first target of its id. -/
theorem IndexExact.settled {past : List Action} (h : IndexExact (recorded past)) :
    Settled past := by
  intro e he hs
  refine Option.ext fun t => ?_
  -- with room for all that is filed, the query returns all of it
  have hperm := h.all t _ (le_max_left _ ((recorded past).standingFor t).length)
  rw [failuresFor, List.take_of_length_le (le_max_right _ _)] at hperm
  rw [← mem_failures he hs t, ← hperm.mem_iff, mem_standingFor he hs]

/-- A call after which standing events name the first target of their id is
steady. -/
theorem Settled.steady {past : List Action} {a : Action} (h : Settled (past ++ [a])) :
    Steady past a := by
  cases a with
  | clear id => trivial
  | publish ev =>
    intro e hfind hr hc hst
    have hwf := wellFormed_recorded past
    have hfind' : (recorded (past ++ [.publish ev])).events.find ev.eventId =
        some ⟨ev, ev.status == .cleared⟩ := by
      rw [recorded_append]
      rcases hwf.find_publish_self hfind with ⟨-, hp⟩ | ⟨hnot, -⟩
      · exact hp
      · exact absurd hr hnot
    have htarget := h _ (IndexedVec.mem_of_find hfind') ((standing_published ev).mpr ⟨hc, hst⟩)
    rwa [firstTarget_append (hwf.mem_ids hfind)] at htarget

/-- **The index is exact as long as ids keep their target.**  In a run of
publications and clearings the queries by target are exact in every state exactly if
each publication that replaces a stored event, and is neither cleared nor stale,
names the target that its id was first published with. -/
theorem index_exact_iff (actions : List Action) :
    (∀ past, past <+: actions → IndexExact (recorded past)) ↔
      ∀ past a, past ++ [a] <+: actions → Steady past a :=
  Transition.throughout_iff (I := Settled) (P := fun past => IndexExact (recorded past))
    (fun _ he => (by cases he)) (fun _ h => h.indexExact) (fun _ _ h hok => h.step hok)
    (fun _ _ _ h => h.settled.steady) actions

end EvidenceStore

namespace Reference
open EvidenceStore

/-- A confirmed failure of a target, under event id 1. -/
def failureAt (seq target : UInt64) : FailureEvent :=
  { eventId := ⟨1⟩, status := .confirmed, target := some ⟨target⟩, received := { seq := seq } }

end Reference

open EvidenceStore Reference in
/-- **An id that is published again for another target is found under the old
one.**  The event names target 2; it is returned for target 1, and target 2 has no
failures. -/
theorem retargeted_event_misfiled :
    let s := recorded [.publish (failureAt 1 1), .publish (failureAt 2 2)]
    s.all = [failureAt 2 2] ∧ s.failuresFor ⟨1⟩ 1 = [failureAt 2 2] ∧
      s.failuresFor ⟨2⟩ 1 = [] ∧ s.latestFailureFor ⟨2⟩ = none ∧ ¬ IndexExact s := by
  intro s
  have h2 : s.latestFailureFor ⟨2⟩ = none := by decide
  refine ⟨by decide, by decide, by decide, h2, fun h => ?_⟩
  have hnone : s.failures ⟨2⟩ = [] := (h.none_iff ⟨2⟩).mp h2
  exact absurd hnone (by decide)

end FailoverFabric

import FailoverFabric.EvidenceRestart

/-! # The sequences that the process gives

An event that comes without a sequence is given the next of the process.  The stored
events are saved with theirs, and the counter is not: a new process counts from one
again, under events that were given later sequences by the one before it.  Until its
counter has caught up, what is published anew of a stored id is taken for stale.  So the
events of the process itself are accepted all along a run exactly if no restart finds an
event with a sequence beyond the first, and the counter does not run out
(`accepts_known_iff`).
-/
namespace FailoverFabric
open Fabric Persistence EvidenceStore

/-- Events come without a sequence and without a time of receipt, and files are loaded by
new processes only. -/
def LocallySequenced : Label → Prop
  | .op (.publishFailure ev) => ev.received.seq = 0 ∧ ev.received.wallNs = 0
  | .op (.load _) => False
  | _ => True

/-- The event is accepted if its id is stored, unless it would clear a confirmed
failure. -/
def AcceptsIfKnown (s : Fabric) (ev : FailureEvent) : Prop :=
  ∀ e, s.evidence.events.find ev.eventId = some e →
    ¬ (e.event.status = .confirmed ∧ ev.status = .cleared) →
    (s.evidence.publish (s.sequenced ev)).2 = true

/-- Whatever is published of a stored id without a sequence is accepted, unless it would
clear a confirmed failure. -/
def AcceptsKnown (s : Fabric) : Prop :=
  ∀ ev : FailureEvent, ev.received.seq = 0 → ev.received.wallNs = 0 → AcceptsIfKnown s ev

/-- A step that keeps the counter ahead of what is stored: a publication leaves it room
for the next sequence, and a restart finds no sequence beyond the first. -/
def KeepsAhead (env : Env) (σ : SystemState) : Label → Prop
  | .op (.publishFailure _) => σ.fabric.receiptSeq < 18446744073709551614
  | .restart cfg => ∀ s, Fabric.restart env.ord cfg σ.fabric = .ok s →
      ∀ ev ∈ σ.fabric.evidence.all, ev.received.seq ≤ 1
  | _ => True

/-! ## The counter and what is stored -/

/-- The stored events were given their sequences by a process, and the next one is not
before them. -/
structure Ahead (s : Fabric) : Prop where
  room : s.receiptSeq.toNat + 1 < 2 ^ 64
  wall : ∀ ev ∈ s.evidence.all, ev.received.wallNs = 0
  given : ∀ ev ∈ s.evidence.all, 1 ≤ ev.received.seq.toNat
  reached : ∀ ev ∈ s.evidence.all, ev.received.seq.toNat ≤ s.receiptSeq.toNat + 1

/-- Between events received at the same time the sequences decide. -/
theorem newer_iff_seq {ev old : FailureEvent}
    (h : ev.received.wallNs = old.received.wallNs) :
    newer ev old = true ↔ old.received.seq ≤ ev.received.seq := by
  have hwall : old.received.wallNs ≤ old.received.wallNs := Int64.le_refl _
  rw [newer, h, decide_eq_true hwall, Bool.and_true, Bool.or_eq_true, decide_eq_true_eq,
    decide_eq_true_eq, UInt64.le_iff_lt_or_eq, eq_comm (a := ev.received.seq)]

/-- An event of a stored id is accepted exactly if it replaces the stored one. -/
theorem publish_known_iff {s : EvidenceStore} {ev : FailureEvent} {e : Entry}
    (hfind : s.events.find ev.eventId = some e) : (s.publish ev).2 = true ↔ Replaces ev e.event := by
  rcases publish_known hfind with ⟨hr, hp⟩ | ⟨hnot, hp⟩
  · exact iff_of_true (by rw [hp]) hr
  · exact iff_of_false (by rw [hp]; exact Bool.false_ne_true) hnot

theorem sequenced_of_zero (s : Fabric) {ev : FailureEvent} (h : ev.received.seq = 0) :
    s.sequenced ev = { ev with received := { ev.received with seq := s.receiptSeq + 1 } } := by
  rw [sequenced, if_pos h]

/-- An event that is given the next sequence is accepted if that is not before the stored
one, unless it would clear a confirmed failure. -/
theorem publish_sequenced_iff {s : Fabric} {ev : FailureEvent} {e : Entry}
    (hseq : ev.received.seq = 0) (hwall : ev.received.wallNs = e.event.received.wallNs)
    (hfind : s.evidence.events.find ev.eventId = some e) :
    (s.evidence.publish (s.sequenced ev)).2 = true ↔
      e.event.received.seq ≤ s.receiptSeq + 1 ∧
        ¬ (e.event.status = .confirmed ∧ ev.status = .cleared) := by
  have hfind' : s.evidence.events.find (s.sequenced ev).eventId = some e := by
    rw [sequenced_of_zero s hseq]
    exact hfind
  rw [publish_known_iff hfind', sequenced_of_zero s hseq]
  exact and_congr_left fun _ => newer_iff_seq hwall

/-- **Known ids are accepted exactly if the next sequence is not before a stored one.** -/
theorem acceptsKnown_iff {s : Fabric} (hwf : s.evidence.WellFormed)
    (hwall : ∀ ev ∈ s.evidence.all, ev.received.wallNs = 0) :
    AcceptsKnown s ↔ ∀ ev ∈ s.evidence.all, ev.received.seq ≤ s.receiptSeq + 1 := by
  constructor
  · intro h old hold
    obtain ⟨e, he, rfl⟩ := List.mem_map.mp hold
    -- the stored event is confirmed now
    let confirmed : FailureEvent := { eventId := e.event.eventId, status := .confirmed }
    have hfind : s.evidence.events.find confirmed.eventId = some e :=
      hwf.find_eq_some_iff.mpr ⟨he, rfl⟩
    have hacc := h confirmed rfl rfl e hfind (by simp [confirmed])
    exact ((publish_sequenced_iff rfl (hwall _ hold).symm hfind).mp hacc).1
  · intro h ev hseq hzero e hfind hstatus
    have hmem : e.event ∈ s.evidence.all := List.mem_map_of_mem (IndexedVec.mem_of_find hfind)
    exact (publish_sequenced_iff hseq (hzero.trans (hwall _ hmem).symm) hfind).mpr
      ⟨h _ hmem, hstatus⟩

/-- A new process has nothing stored. -/
theorem ahead_new (cfg : RuntimeConfig) : Ahead { cfg := cfg } := by
  have hnone : ∀ ev, ev ∉ ({ cfg := cfg } : Fabric).evidence.all := fun _ => List.not_mem_nil
  refine ⟨?_, fun ev h => absurd h (hnone ev), fun ev h => absurd h (hnone ev),
    fun ev h => absurd h (hnone ev)⟩
  show (0 : UInt64).toNat + 1 < 2 ^ 64
  decide

theorem Ahead.toNat_next {s : Fabric} (h : Ahead s) :
    (s.receiptSeq + 1).toNat = s.receiptSeq.toNat + 1 := by
  rw [UInt64.toNat_add, Nat.mod_eq_of_lt]
  · rfl
  · exact h.room

theorem Ahead.acceptsKnown {s : Fabric} (h : Ahead s) (hwf : s.evidence.WellFormed) :
    AcceptsKnown s := by
  rw [acceptsKnown_iff hwf h.wall]
  intro ev hev
  rw [UInt64.le_iff_toNat_le, h.toNat_next]
  exact h.reached ev hev

/-! ## What a step does to them -/

theorem receiptSeq_publishFailure {s : Fabric} {ev : FailureEvent} (h : ev.received.seq = 0) :
    (s.publishFailure ev).receiptSeq = s.receiptSeq + 1 := if_pos h

/-- What is stored after a publication has a sequence that was given, up to the next. -/
theorem Ahead.mem_all_publishFailure {s : Fabric} (h : Ahead s) {ev : FailureEvent}
    (hseq : ev.received.seq = 0) (hwall : ev.received.wallNs = 0) {e : FailureEvent}
    (he : e ∈ (s.publishFailure ev).evidence.all) :
    e.received.wallNs = 0 ∧ 1 ≤ e.received.seq.toNat ∧
      e.received.seq.toNat ≤ s.receiptSeq.toNat + 1 := by
  rcases EvidenceStore.mem_all_publish he with rfl | he
  · rw [sequenced_of_zero s hseq]
    refine ⟨hwall, ?_⟩
    show 1 ≤ (s.receiptSeq + 1).toNat ∧ (s.receiptSeq + 1).toNat ≤ _
    have hnext := h.toNat_next
    omega
  · exact ⟨h.wall e he, h.given e he, h.reached e he⟩

theorem Ahead.publishFailure {s : Fabric} (h : Ahead s) {ev : FailureEvent}
    (hseq : ev.received.seq = 0) (hwall : ev.received.wallNs = 0)
    (hroom : s.receiptSeq < 18446744073709551614) : Ahead (s.publishFailure ev) := by
  have hnext := h.toNat_next
  have hlt : s.receiptSeq.toNat < 18446744073709551614 := hroom
  have hall := fun e he => h.mem_all_publishFailure hseq hwall (e := e) he
  constructor
  · rw [receiptSeq_publishFailure hseq]
    omega
  · exact fun e he => (hall e he).1
  · exact fun e he => (hall e he).2.1
  · intro e he
    rw [receiptSeq_publishFailure hseq]
    have hle := (hall e he).2.2
    omega

/-- A publication that uses up the last sequence leaves an event that is ahead of the
next. -/
theorem Ahead.room_of_acceptsKnown {s : Fabric} (h : Ahead s) (hwf : s.evidence.WellFormed)
    {ev : FailureEvent} (hseq : ev.received.seq = 0) (hwall : ev.received.wallNs = 0)
    (hacc : AcceptsKnown (s.publishFailure ev)) : s.receiptSeq < 18446744073709551614 := by
  have hall := fun e he => h.mem_all_publishFailure hseq hwall (e := e) he
  rw [acceptsKnown_iff (hwf.publish _) fun e he => (hall e he).1,
    receiptSeq_publishFailure hseq] at hacc
  -- the published id is stored, whether or not the event was accepted
  have hmem : ev.eventId ∈ (s.publishFailure ev).evidence.ids := by
    refine (hwf.mem_ids_act (.publish (s.sequenced ev)) ev.eventId).mpr
      (Or.inr ⟨s.sequenced ev, ?_, ?_⟩)
    · exact List.mem_singleton_self _
    · rw [sequenced_of_zero s hseq]
  obtain ⟨e, he, -⟩ := List.mem_map.mp hmem
  have hstored : e.event ∈ (s.publishFailure ev).evidence.all := List.mem_map_of_mem he
  have hle := hacc _ hstored
  have hge := (hall _ hstored).2.1
  have hnext := h.toNat_next
  have hroom := h.room
  rw [UInt64.le_iff_toNat_le, UInt64.toNat_add, hnext] at hle
  rw [UInt64.lt_iff_toNat_lt]
  change _ ≤ (_ + 1) % 18446744073709551616 at hle
  change _ < 18446744073709551614
  omega

/-- The other steps of the process. -/
theorem step_receipts (env : Env) (σ : SystemState) {l : Label}
    (hpublish : ∀ ev, l ≠ .op (.publishFailure ev)) (hload : ∀ blob, l ≠ .op (.load blob))
    (hrestart : ∀ cfg, l ≠ .restart cfg) :
    (σ.step env l).fabric.receiptSeq = σ.fabric.receiptSeq ∧
      (σ.step env l).fabric.evidence.all = σ.fabric.evidence.all := by
  cases l with
  | op o =>
    show (σ.fabric.apply env o).receiptSeq = _ ∧ (σ.fabric.apply env o).evidence.all = _
    have heff := apply_effect env σ.fabric o
    generalize σ.fabric.apply env o = s' at heff
    cases heff with
    | transient h =>
      rw [h]
      exact ⟨rfl, rfl⟩
    | created h =>
      rw [(createService_eq h).1]
      exact ⟨rfl, rfl⟩
    | assigned h =>
      rw [(setInitialAssignment_eq_ok h).fabric]
      exact ⟨rfl, rfl⟩
    | published ev => exact absurd rfl (hpublish ev)
    | cleared id => exact ⟨rfl, EvidenceStore.all_clear _ id⟩
    | installed entry boot =>
      rw [installRoute_eq]
      exact ⟨rfl, rfl⟩
    | loaded h => exact absurd rfl (hload _)
    | _ => exact ⟨rfl, rfl⟩
  | beginPlan plan ops => exact ⟨rfl, rfl⟩
  | beginFailback slot ops => exact ⟨rfl, rfl⟩
  | advance i rd =>
    rw [advance_confined env σ i rd]
    exact ⟨rfl, rfl⟩
  | restart cfg => exact absurd rfl (hrestart cfg)

theorem Ahead.congr {s s' : Fabric} (h : Ahead s) (hseq : s'.receiptSeq = s.receiptSeq)
    (hall : s'.evidence.all = s.evidence.all) : Ahead s' :=
  ⟨by rw [hseq]; exact h.room, by rw [hall]; exact h.wall, by rw [hall]; exact h.given,
    by rw [hseq, hall]; exact h.reached⟩

/-- A new process has the events of the file, and counts from one. -/
theorem restart_receipts {env : Env} {cfg : RuntimeConfig} {s s' : Fabric}
    (hwf : s.evidence.WellFormed) (h : Fabric.restart env.ord cfg s = .ok s') :
    s'.receiptSeq = 0 ∧ s'.evidence.all = s.evidence.all := by
  obtain ⟨blob, snap, hs, hd, rfl⟩ := restart_eq_ok.mp h
  rw [(decode_save hs hd).1]
  exact ⟨rfl, hwf.rebuild⟩

/-- **A step of a blameless kind keeps the counter ahead.** -/
theorem Ahead.step {env : Env} {σ : SystemState} {l : Label} (h : Ahead σ.fabric)
    (hwf : σ.fabric.evidence.WellFormed) (hl : LocallySequenced l) (hk : KeepsAhead env σ l) :
    Ahead (σ.step env l).fabric := by
  by_cases hpublish : ∃ ev, l = .op (.publishFailure ev)
  · obtain ⟨ev, rfl⟩ := hpublish
    exact h.publishFailure hl.1 hl.2 hk
  by_cases hrestart : ∃ cfg, l = .restart cfg
  · obtain ⟨cfg, rfl⟩ := hrestart
    cases hok : Fabric.restart env.ord cfg σ.fabric with
    | error e =>
      rw [step_restart_error hok]
      exact h
    | ok s =>
      obtain ⟨hseq, hall⟩ := restart_receipts hwf hok
      rw [step_restart_ok hok]
      refine ⟨by rw [hseq]; decide, by rw [hall]; exact h.wall, by rw [hall]; exact h.given, ?_⟩
      rw [hseq, hall]
      exact fun ev hev => hk s hok ev hev
  · have hload : ∀ blob, l ≠ .op (.load blob) := by
      rintro blob rfl
      exact hl
    obtain ⟨hseq, hall⟩ := step_receipts env σ (fun ev he => hpublish ⟨ev, he⟩) hload
      fun cfg he => hrestart ⟨cfg, he⟩
    exact h.congr hseq hall

/-- **A step after which known ids are accepted is blameless.** -/
theorem Ahead.keepsAhead {env : Env} {σ : SystemState} {l : Label} (h : Ahead σ.fabric)
    (hwf : σ.fabric.evidence.WellFormed) (hl : LocallySequenced l)
    (hacc : AcceptsKnown (σ.step env l).fabric) : KeepsAhead env σ l := by
  cases l with
  | op o =>
    cases o with
    | publishFailure ev => exact h.room_of_acceptsKnown hwf hl.1 hl.2 hacc
    | _ => trivial
  | restart cfg =>
    intro s hok ev hev
    obtain ⟨hseq, hall⟩ := restart_receipts hwf hok
    rw [step_restart_ok hok] at hacc
    obtain ⟨blob, snap, -, -, rfl⟩ := restart_eq_ok.mp hok
    rw [acceptsKnown_iff (StoresWellFormed.restore _ snap).evidence (by rw [hall]; exact h.wall),
      hseq, hall] at hacc
    exact hacc ev hev
  | _ => trivial

/-! ## Runs -/

/-- **When events of the process are never stale**: in every state of a run whose events
come without a sequence, whatever is published of a stored id is accepted unless it would
clear a confirmed failure, if and only if every step keeps the counter ahead.  In a run of
such steps that goes for every publication of the run itself. -/
theorem accepts_known_iff (env : Env) (cfg : RuntimeConfig) (ls : List Label)
    (hlocal : ∀ l ∈ ls, LocallySequenced l) :
    ((∀ past, past <+: ls → AcceptsKnown (SystemState.after env cfg past).fabric) ↔
      ∀ past l, past ++ [l] <+: ls → KeepsAhead env (SystemState.after env cfg past) l) ∧
    ((∀ past l, past ++ [l] <+: ls → KeepsAhead env (SystemState.after env cfg past) l) →
      ∀ past ev, past ++ [.op (.publishFailure ev)] <+: ls →
        AcceptsIfKnown (SystemState.after env cfg past).fabric ev) := by
  have hwf : ∀ past, (SystemState.after env cfg past).fabric.evidence.WellFormed := fun past =>
    (StoresWellFormed.reachable (SystemState.after_reachable env cfg past)).evidence
  have hiff : (∀ past, past <+: ls → AcceptsKnown (SystemState.after env cfg past).fabric) ↔
      ∀ past l, past ++ [l] <+: ls → KeepsAhead env (SystemState.after env cfg past) l := by
    refine Transition.throughout_iff_of
      (I := fun past => Ahead (SystemState.after env cfg past).fabric)
      (ahead_new cfg) (fun past h => h.acceptsKnown (hwf past)) ?_ ?_ ls hlocal
    · intro past l hl h hk
      rw [SystemState.after_concat]
      exact h.step (hwf past) hl hk
    · intro past l hl h hacc
      rw [SystemState.after_concat] at hacc
      exact h.keepsAhead (hwf past) hl hacc
  refine ⟨hiff, fun hahead past ev hp => ?_⟩
  obtain ⟨hseq, hwall⟩ := hlocal _ (hp.subset (List.mem_append_right past (List.mem_singleton_self _)))
  exact hiff.mpr hahead past ((List.prefix_append past _).trans hp) ev hseq hwall

namespace Reference

/-- A failure that is published once and saved. -/
def publishedOnce : List Label := [.op (.publishFailure confirmedFailure), .restart {}]

/-- It is published once more by the next process. -/
def publishedAgain : List Label := publishedOnce ++ [.op (.publishFailure confirmedFailure)]

/-- A failure that is published twice and saved. -/
def publishedTwice : List Label :=
  [.op (.publishFailure confirmedFailure), .op (.publishFailure confirmedFailure), .restart {}]

/-- A restart after the first event is in time. -/
theorem accepts_known_reference :
    let σ := SystemState.after env {} publishedOnce
    AcceptsKnown σ.fabric ∧
      (σ.fabric.evidence.publish (σ.fabric.sequenced confirmedFailure)).2 = true := by
  intro σ
  have hlocal : ∀ l ∈ publishedAgain, LocallySequenced l := by
    simp [publishedAgain, publishedOnce, LocallySequenced, confirmedFailure]
  have hahead : ∀ past l, past ++ [l] <+: publishedAgain →
      KeepsAhead env (SystemState.after env {} past) l := by
    refine (Transition.forall_step_append publishedOnce _).mpr ⟨?_, ?_⟩
    · refine (Transition.forall_step_append [Label.op (.publishFailure confirmedFailure)] _).mpr
        ⟨?_, fun s _ => by decide +kernel⟩
      refine (Transition.forall_step_append [] _).mpr ⟨fun past l hp => ?_, ?_⟩
      · exact absurd (List.prefix_nil.mp hp) (by simp)
      · show (0 : UInt64) < 18446744073709551614
        decide
    · have hseq : (SystemState.after env {} publishedOnce).fabric.receiptSeq = 0 := by decide +kernel
      rw [KeepsAhead, hseq]
      decide
  obtain ⟨hiff, hrun⟩ := accepts_known_iff env {} publishedAgain hlocal
  refine ⟨hiff.mpr hahead _ (List.prefix_append ..), ?_⟩
  have hknown : (σ.fabric.evidence.events.find confirmedFailure.eventId).isSome = true := by
    decide +kernel
  obtain ⟨e, he⟩ := Option.isSome_iff_exists.mp hknown
  have haccepts : AcceptsIfKnown σ.fabric confirmedFailure :=
    hrun hahead publishedOnce confirmedFailure (List.prefix_refl _)
  exact haccepts e he fun h => by cases h.2

/-- **After a restart the failure is confirmed again, and refused as stale.** -/
theorem confirmation_refused :
    let σ := SystemState.after env {} publishedTwice
    (∀ l ∈ publishedTwice, LocallySequenced l) ∧
      (σ.fabric.evidence.events.find ⟨1⟩).map (·.event) =
        some { confirmedFailure with received := { seq := 2 } } ∧
      (σ.fabric.evidence.publish (σ.fabric.sequenced confirmedFailure)).2 = false ∧
      ¬ AcceptsKnown σ.fabric := by
  have hlocal : ∀ l ∈ publishedTwice, LocallySequenced l := by
    simp [publishedTwice, LocallySequenced, confirmedFailure]
  have hfind : ((SystemState.after env {} publishedTwice).fabric.evidence.events.find ⟨1⟩).map
      (·.event) = some { confirmedFailure with received := { seq := 2 } } := by decide +kernel
  have hrefused : ((SystemState.after env {} publishedTwice).fabric.evidence.publish
      ((SystemState.after env {} publishedTwice).fabric.sequenced confirmedFailure)).2 = false := by
    decide +kernel
  refine ⟨hlocal, hfind, hrefused, fun h => ?_⟩
  obtain ⟨e, he, -⟩ := Option.map_eq_some_iff.mp hfind
  rw [h confirmedFailure rfl rfl e he fun hs => by cases hs.2] at hrefused
  cases hrefused

end Reference

end FailoverFabric

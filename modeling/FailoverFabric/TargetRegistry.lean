import FailoverFabric.FailureExclusion
import FailoverFabric.SavedAuthority

/-! # The registry of targets

The records of the targets, their index by id, and for each service the positions
bound to it.

`load` forgets the index and keeps the records, so a registered target is not found
afterwards and is registered a second time; and a full registry turns an id away
before looking whether it is there.  These two are all that breaks the registry
(`registry_consistent_iff`).

Publications bind a target's position to the service that its facts name, and
nothing ever unbinds it.  As long as no target moves on to another service, what is
bound to a service are the targets whose facts name it, and a snapshot lists each
target once and does not mix services (`snapshot_unmixed`).
-/
namespace FailoverFabric
open Fabric Persistence

/-- The fabric after some operations on a new one. -/
def Fabric.afterOps (env : Env) (cfg : RuntimeConfig) (os : List Op) : Fabric :=
  os.foldl (Fabric.apply env) { cfg := cfg }

theorem Fabric.afterOps_append (env : Env) (cfg : RuntimeConfig) (past : List Op) (o : Op) :
    afterOps env cfg (past ++ [o]) = (afterOps env cfg past).apply env o := by
  rw [afterOps, List.foldl_append]
  rfl

/-! ## The index of the ids -/

/-- The ids of the records are distinct, the index maps exactly these ids to their
positions, and to register one of them again is accepted and changes nothing. -/
structure RegistryConsistent (s : Fabric) : Prop where
  distinct : (s.targets.items.map (·.id)).Nodup
  indexed : s.targets.Indexed (·.id)
  again : ∀ t ∈ s.targets.items, ∀ transport, s.registerTarget t.id transport = .ok s

/-- An operation that keeps the registry in order: a file that is accepted is loaded
only before any target is registered, and a new target leaves room for another. -/
def KeepsRegistry (env : Env) (s : Fabric) : Op → Prop
  | .load blob => ∀ snap, decode env.ord blob = .ok snap → s.targets.items = []
  | .registerTarget id _ => (∀ t ∈ s.targets.items, t.id ≠ id) →
      s.targets.items.length + 1 ≠ s.cfg.maxTargets
  | _ => True

theorem apply_cfg (env : Env) (s : Fabric) (o : Op) : (s.apply env o).cfg = s.cfg := by
  have heff := apply_effect env s o
  generalize s.apply env o = s' at heff
  cases heff with
  | transient h => rw [h]
  | created h => rw [(createService_eq h).1]
  | assigned h => rw [(setInitialAssignment_eq_ok h).fabric]
  | installed entry boot => rw [installRoute_eq]
  | _ => rfl

/-- The registry is consistent exactly if its index is exact and, unless it is
empty, it is not full. -/
theorem registryConsistent_iff {s : Fabric} :
    RegistryConsistent s ↔ s.targets.Indexed (·.id) ∧
      (s.targets.items = [] ∨ s.targets.items.length < s.cfg.maxTargets) := by
  constructor
  · intro h
    refine ⟨h.indexed, ?_⟩
    rcases List.eq_nil_or_concat s.targets.items with hnil | ⟨rest, t, ht⟩
    · exact Or.inl hnil
    · right
      by_contra hfull
      have hagain := h.again t (by rw [ht]; simp) []
      rw [registerTarget, if_pos (by omega)] at hagain
      cases hagain
  · rintro ⟨hindexed, hroom⟩
    refine ⟨hindexed.nodup, hindexed, fun t ht transport => ?_⟩
    have hlt : s.targets.items.length < s.cfg.maxTargets :=
      hroom.resolve_left (List.ne_nil_of_mem ht)
    have hfind : s.targets.find t.id = some t := hindexed.find_eq_some_iff.mpr ⟨ht, rfl⟩
    rw [registerTarget, if_neg (by omega), if_pos (by rw [hfind]; rfl)]

theorem RegistryConsistent.register (env : Env) {s : Fabric} (h : RegistryConsistent s)
    (id : TargetId) (transport : Text) (hok : (∀ t ∈ s.targets.items, t.id ≠ id) →
      s.targets.items.length + 1 ≠ s.cfg.maxTargets) :
    RegistryConsistent (s.apply env (.registerTarget id transport)) := by
  obtain ⟨hindexed, hroom⟩ := registryConsistent_iff.mp h
  rcases apply_registerTarget_cases env s id transport with hsame | ⟨hlt, hnone, hpush⟩
  · rw [hsame]
    exact h
  · have hnew := hok (hindexed.find_eq_none_iff.mp hnone)
    rw [hpush]
    refine registryConsistent_iff.mpr ⟨hindexed.push hnone rfl, Or.inr ?_⟩
    show (s.targets.items ++ [_]).length < s.cfg.maxTargets
    rw [List.length_append, List.length_singleton]
    omega

theorem RegistryConsistent.modify {s s' : Fabric} (h : RegistryConsistent s) (id : TargetId)
    {g : TargetRecord → TargetRecord} (hid : ∀ t, (g t).id = t.id)
    (htargets : s'.targets = s.targets.modify id g) (hcfg : s'.cfg = s.cfg) :
    RegistryConsistent s' := by
  obtain ⟨hindexed, hroom⟩ := registryConsistent_iff.mp h
  have hlen : s'.targets.items.length = s.targets.items.length := by
    have hids := congrArg List.length
      (IndexedVec.map_modify (t := s.targets) (k := id) (g := (·.id)) (f := g) fun v _ => hid v)
    rw [htargets]
    simpa using hids
  rw [registryConsistent_iff, ← List.length_eq_zero_iff, hlen, hcfg, List.length_eq_zero_iff]
  exact ⟨htargets ▸ hindexed.modify id hid, hroom⟩

/-- What keeps the registry in order keeps it consistent. -/
theorem RegistryConsistent.step {env : Env} {s : Fabric} {o : Op} (h : RegistryConsistent s)
    (hok : KeepsRegistry env s o) : RegistryConsistent (s.apply env o) := by
  have hcfg := apply_cfg env s o
  have heff := apply_targets env s o
  generalize htargets : (s.apply env o).targets = targets' at heff
  cases heff with
  | kept =>
    rw [registryConsistent_iff, htargets, hcfg]
    exact registryConsistent_iff.mp h
  | registered id transport => exact h.register env id transport hok
  | published now f r _ _ =>
    refine h.modify f.target ?_ htargets hcfg
    exact fun _ => rfl
  | changed _ id g hid _ => exact h.modify id hid htargets hcfg
  | loaded blob =>
    rcases apply_load_cases env s blob with hsame | ⟨snap, hd, -⟩
    · rw [hsame]
      exact h
    · have hempty : s.targets.items = [] := hok snap hd
      rw [registryConsistent_iff, htargets, hempty]
      exact ⟨IndexedVec.indexed_empty, Or.inl rfl⟩

/-- An operation that leaves a consistent registry keeps it in order. -/
theorem RegistryConsistent.keeps {env : Env} {s : Fabric} {o : Op} (h : RegistryConsistent s)
    (h' : RegistryConsistent (s.apply env o)) : KeepsRegistry env s o := by
  obtain ⟨hindexed, hroom⟩ := registryConsistent_iff.mp h
  cases o with
  | registerTarget id transport =>
    intro habsent hlast
    -- the new record is the last there is room for, so it cannot be registered again
    have hnone := hindexed.find_eq_none_iff.mpr habsent
    have hpush : s.apply env (.registerTarget id transport) =
        { s with targets := s.targets.push id { id := id, transport := transport } } := by
      show s.orSelf (s.registerTarget id transport) = _
      rw [registerTarget, if_neg (by omega), if_neg (by rw [hnone]; simp)]
      rfl
    rw [hpush] at h'
    have hroom' := (registryConsistent_iff.mp h').2
    simp only [IndexedVec.push_items, List.length_append, List.length_singleton] at hroom'
    rcases hroom' with hnil | hlt
    · simp at hnil
    · omega
  | load blob =>
    intro snap hd
    rw [apply_load hd] at h'
    -- nothing is indexed after a load
    rcases List.eq_nil_or_concat s.targets.items with hnil | ⟨rest, t, ht⟩
    · exact hnil
    · have hmem : demoteTarget t ∈ (s.restore snap).targets.items := by
        show demoteTarget t ∈ s.targets.items.map demoteTarget
        rw [ht]
        simp
      have hfind := h'.indexed.find_eq_some_iff.mpr ⟨hmem, rfl⟩
      cases hfind
  | _ => trivial

/-- **What keeps the registry consistent.**  In a run of any operations on one
fabric, the registry of targets is consistent in every state exactly if no accepted
file is loaded once a target is registered, and no new target takes the last place
that the configuration leaves. -/
theorem registry_consistent_iff (env : Env) (cfg : RuntimeConfig) (os : List Op) :
    (∀ past, past <+: os → RegistryConsistent (afterOps env cfg past)) ↔
      ∀ past o, past ++ [o] <+: os → KeepsRegistry env (afterOps env cfg past) o := by
  refine Transition.throughout_iff (I := fun past => RegistryConsistent (afterOps env cfg past))
    ?_ (fun _ h => h) (fun past o h hok => ?_) (fun past o h h' => ?_) os
  · exact registryConsistent_iff.mpr ⟨IndexedVec.indexed_empty, Or.inl rfl⟩
  · rw [afterOps_append]
    exact h.step hok
  · rw [afterOps_append] at h'
    exact h.keeps h'

open Reference in
/-- **A registered target is registered twice, or turned away.**  After a load the
target is not found, and a second record of it is made; in a full registry the
second registration throws. -/
theorem registry_broken :
    (∃ blob, ((afterOps env {} [.registerTarget ⟨1⟩ [], .load blob,
        .registerTarget ⟨1⟩ []]).targets.items.map (·.id)) = [⟨1⟩, ⟨1⟩]) ∧
      (afterOps env { maxTargets := 1 } [.registerTarget ⟨1⟩ []]).registerTarget ⟨1⟩ [] =
        .error (.capacityExceeded "max_targets exceeded") := by
  refine ⟨?_, rfl⟩
  have hfile : (fileOf {}).isSome = true := by decide +kernel
  obtain ⟨⟨blob, snap⟩, hf⟩ := Option.isSome_iff_exists.mp hfile
  refine ⟨blob, ?_⟩
  have hload := apply_load (fileOf_eq_some hf) (afterOps env {} [.registerTarget ⟨1⟩ []])
  show ((((afterOps env {} [.registerTarget ⟨1⟩ []]).apply env (.load blob)).apply env
    (.registerTarget ⟨1⟩ [])).targets.items.map (·.id)) = _
  rw [hload]
  rfl

/-! ## The positions bound to a service -/

/-- A registration of a target or a publication of its facts. -/
def Registers : Op → Prop
  | .registerTarget _ _ => True
  | .publishCandidateFacts _ _ => True
  | _ => False

/-- A publication that is accepted for a target whose facts name a service names
the same service again. -/
def KeepsService (s : Fabric) : Op → Prop
  | .publishCandidateFacts _ f => ∀ t old, s.targets.find f.target = some t → t.facts = some old →
      old.readinessGeneration.value ≤ f.readinessGeneration.value → old.service ≠ .null →
        f.service = old.service
  | _ => True

namespace Fabric
variable {s s' : Fabric} {slot : ServiceSlotKey} {now : Time} {f : CandidateFacts}
  {t : TargetRecord} {p : Nat}

/-- A publication that is accepted, by the position of the record. -/
theorem apply_publishCandidateFacts_at (env : Env) (s : Fabric) (now : Time) (f : CandidateFacts) :
    s.apply env (.publishCandidateFacts now f) = s ∨ ∃ t p,
      s.targets.index f.target = some p ∧ s.targets.items[p]? = some t ∧
      (∀ old, t.facts = some old →
        old.readinessGeneration.value ≤ f.readinessGeneration.value) ∧
      s.apply env (.publishCandidateFacts now f) = s.withFacts now t f := by
  rcases apply_publishCandidateFacts_cases env s now f with h | ⟨t, hfind, hnewer, h⟩
  · exact Or.inl h
  · obtain ⟨p, hp, ht⟩ := Option.bind_eq_some_iff.mp hfind
    refine Or.inr ⟨t, p, hp, ht, fun old hold => ?_, h⟩
    simpa [hold] using hnewer

theorem wellFormed_withFacts (hwf : TargetsWellFormed s.targets) :
    TargetsWellFormed (s.withFacts now t f).targets := by
  refine hwf.modify f.target (fun _ => rfl) fun r _ g hg => ?_
  cases hg
  exact Or.inl rfl

/-- The facts at a position. -/
def factsAt (s : Fabric) (i : Nat) : Option CandidateFacts :=
  s.targets.items[i]?.bind (·.facts)

/-- The facts after a publication that is accepted: those of one position are the
published ones. -/
theorem factsAt_withFacts (hp : s.targets.index f.target = some p)
    (ht : s.targets.items[p]? = some t) (i : Nat) :
    (s.withFacts now t f).factsAt i =
      if i = p then some { f with evidenceFresh := true } else s.factsAt i := by
  rw [factsAt, withFacts, IndexedVec.modify_getElem?, hp]
  by_cases hi : i = p
  · subst hi
    simp [ht]
  · have hpi : ¬ p = i := fun h => hi h.symm
    rw [if_neg hi, factsAt]
    cases s.targets.items[i]? with
    | none => rfl
    | some u => simp [hpi]

/-- What a publication leaves bound to each service. -/
theorem mem_bindToService (hp : s.targets.index f.target = some p) (v : ServiceId) (i : Nat) :
    i ∈ s.bindToService t f v ↔ i ∈ s.targetsByService v ∨
      i = p ∧ v = f.service ∧ f.service ≠ .null ∧
        (t.facts.any fun old => old.service == f.service) = false := by
  unfold bindToService
  rw [hp]
  split
  · rename_i hbinds
    by_cases hv : v = f.service
    · subst hv
      rw [Function.update_self]
      simp [hbinds.1, hbinds.2]
    · rw [Function.update_of_ne hv]
      simp [hv]
  · rename_i hnot
    constructor
    · exact Or.inl
    · rintro (hi | ⟨-, -, hbinds⟩)
      · exact hi
      · exact absurd hbinds hnot

end Fabric

/-- What is bound to a service are the positions whose facts name it, each once. -/
structure Bound (s : Fabric) : Prop where
  indexed : s.targets.Indexed (·.id)
  facts : ∀ t ∈ s.targets.items, ∀ f, t.facts = some f → f.target = t.id
  nodup : ∀ v, (s.targetsByService v).Nodup
  mem : ∀ v i, i ∈ s.targetsByService v ↔ v ≠ .null ∧ ∃ f, s.factsAt i = some f ∧ f.service = v

namespace Bound
variable {s : Fabric}

theorem initial (cfg : RuntimeConfig) : Bound { cfg := cfg } :=
  ⟨IndexedVec.indexed_empty, by simp, fun _ => List.nodup_nil, fun v i => by simp [factsAt]⟩

theorem register (env : Env) (h : Bound s) (id : TargetId) (transport : Text) :
    Bound (s.apply env (.registerTarget id transport)) := by
  rcases apply_registerTarget_cases env s id transport with hsame | ⟨-, hnone, hpush⟩
  · rw [hsame]
    exact h
  · have hwf := TargetsWellFormed.push ⟨h.indexed.sound, h.facts⟩ id transport
    rw [hpush]
    refine ⟨h.indexed.push hnone rfl, hwf.facts, h.nodup, fun v i => ?_⟩
    rw [h.mem]
    refine and_congr_right fun _ => exists_congr fun f => and_congr_left fun _ => ?_
    -- the new record has no facts
    simp only [factsAt, IndexedVec.push_items]
    rcases Nat.lt_trichotomy i s.targets.items.length with hlt | rfl | hgt
    · rw [List.getElem?_append_left hlt]
    · simp
    · rw [List.getElem?_eq_none (le_of_lt hgt), List.getElem?_eq_none (by simp; omega)]

/-- A publication binds no position a second time: one that is bound has facts that
name the service. -/
theorem nodup_bindToService (h : Bound s) {f : CandidateFacts} {t : TargetRecord} {p : Nat}
    (hp : s.targets.index f.target = some p) (ht : s.targets.items[p]? = some t) (v : ServiceId) :
    (s.bindToService t f v).Nodup := by
  unfold bindToService
  split
  · rename_i hbinds
    by_cases hv : v = f.service
    · subst hv
      rw [Function.update_self, hp]
      refine List.nodup_append.mpr ⟨h.nodup _, by simp, fun i hi j hj hij => ?_⟩
      simp only [Option.toList_some, List.mem_singleton] at hj
      subst hij hj
      obtain ⟨-, old, hold, hservice⟩ := (h.mem _ _).mp hi
      rw [factsAt, ht] at hold
      simp [show t.facts = some old from hold, hservice] at hbinds
    · rw [Function.update_of_ne hv]
      exact h.nodup v
  · exact h.nodup v

/-- A publication that keeps the target's service, once it names one, keeps what is
bound. -/
theorem withFacts (h : Bound s) (now : Time) {f : CandidateFacts} {t : TargetRecord} {p : Nat}
    (hp : s.targets.index f.target = some p) (ht : s.targets.items[p]? = some t)
    (hkept : ∀ old, t.facts = some old → old.service ≠ .null → f.service = old.service) :
    Bound (s.withFacts now t f) := by
  have hwf : TargetsWellFormed (s.withFacts now t f).targets :=
    wellFormed_withFacts ⟨h.indexed.sound, h.facts⟩
  refine ⟨h.indexed.modify f.target fun _ => rfl, hwf.facts, h.nodup_bindToService hp ht,
    fun v i => ?_⟩
  show i ∈ s.bindToService t f v ↔ _
  rw [mem_bindToService hp, h.mem, factsAt_withFacts hp ht]
  by_cases hi : i = p
  · subst hi
    have hfactsAt : s.factsAt i = t.facts := by rw [factsAt, ht]; rfl
    rw [hfactsAt, if_pos rfl]
    constructor
    · rintro (⟨hv, old, hold, rfl⟩ | ⟨-, rfl, hnull, -⟩)
      · exact ⟨hv, _, rfl, hkept old hold hv⟩
      · exact ⟨hnull, _, rfl, rfl⟩
    · rintro ⟨hv, g, hg, rfl⟩
      cases hg
      cases hsame : t.facts.any fun old => old.service == f.service with
      | false => exact Or.inr ⟨rfl, rfl, hv, rfl⟩
      | true =>
        obtain ⟨old, hold, hservice⟩ := (Option.any_eq_true _ _).mp hsame
        exact Or.inl ⟨hv, old, hold, eq_of_beq hservice⟩
  · rw [if_neg hi]
    simp [hi]

theorem publish (env : Env) (h : Bound s) (now : Time) (f : CandidateFacts)
    (hok : KeepsService s (.publishCandidateFacts now f)) :
    Bound (s.apply env (.publishCandidateFacts now f)) := by
  rcases apply_publishCandidateFacts_at env s now f with hsame | ⟨t, p, hp, ht, hnewer, hfacts⟩
  · rw [hsame]
    exact h
  · rw [hfacts]
    exact h.withFacts now hp ht fun old hold =>
      hok t old (by rw [IndexedVec.find_of_index hp, ht]) hold (hnewer old hold)

theorem step {env : Env} (h : Bound s) {o : Op} (ho : Registers o) (hok : KeepsService s o) :
    Bound (s.apply env o) := by
  cases o with
  | registerTarget id transport => exact h.register env id transport
  | publishCandidateFacts now f => exact h.publish env now f hok
  | _ => cases ho

end Bound

/-! ## Snapshots -/

/-- The candidates of a snapshot before it is cut to its largest size. -/
def Fabric.pool (s : Fabric) (slot : ServiceSlotKey) : List Candidate :=
  if (s.targetsByService slot.service).isEmpty then s.scan slot
  else (s.targetsByService slot.service).filterMap s.emit

theorem candidatesFor_eq (s : Fabric) (slot : ServiceSlotKey) :
    s.candidatesFor slot = (s.pool slot).take s.cfg.maxCandidatesPerSnapshot := rfl

theorem emit_eq_some {s : Fabric} {i : Nat} {c : Candidate} (h : s.emit i = some c) :
    ∃ t, s.targets.items[i]? = some t ∧ t.facts = some c.facts := by
  obtain ⟨t, ht, hc⟩ := Option.bind_eq_some_iff.mp h
  obtain ⟨f, hf, rfl⟩ := Option.map_eq_some_iff.mp hc
  exact ⟨t, ht, hf⟩

/-- What the scan makes of a record. -/
def Fabric.scanned (s : Fabric) (slot : ServiceSlotKey) (t : TargetRecord) : Option Candidate :=
  t.facts.bind fun f =>
    if compatible (s.serviceForSlot slot) f then some (s.candidateOf t f) else none

theorem scan_eq (s : Fabric) (slot : ServiceSlotKey) :
    s.scan slot = s.targets.items.filterMap (s.scanned slot) := rfl

theorem scanned_eq_some {s : Fabric} {slot : ServiceSlotKey} {t : TargetRecord} {c : Candidate}
    (h : s.scanned slot t = some c) : t.facts = some c.facts := by
  obtain ⟨f, hf, hc⟩ := Option.bind_eq_some_iff.mp h
  split at hc
  · cases hc
    exact hf
  · cases hc

namespace Fabric
variable {s : Fabric} {slot : ServiceSlotKey}

/-- **A candidate is at a position**: one bound to the slot's service, or, when
there are none, any whose facts are compatible. -/
theorem mem_pool {c : Candidate} :
    c ∈ s.pool slot ↔ ∃ i, s.emit i = some c ∧
      (s.targetsByService slot.service = [] ∧ compatible (s.serviceForSlot slot) c.facts = true ∨
        i ∈ s.targetsByService slot.service) := by
  unfold pool
  split
  · rename_i hempty
    rw [List.isEmpty_iff] at hempty
    rw [scan_eq, List.mem_filterMap, hempty]
    constructor
    · rintro ⟨r, hr, hc⟩
      obtain ⟨i, hi⟩ := List.mem_iff_getElem?.mp hr
      obtain ⟨g, hg, hc⟩ := Option.bind_eq_some_iff.mp hc
      split at hc
      · rename_i hcompat
        cases hc
        exact ⟨i, by rw [emit, hi, Option.bind_some, hg]; rfl, Or.inl ⟨rfl, hcompat⟩⟩
      · cases hc
    · rintro ⟨i, hemit, hor⟩
      obtain ⟨-, hcompat⟩ := hor.resolve_right (by simp)
      obtain ⟨r, hr, hc⟩ := Option.bind_eq_some_iff.mp hemit
      obtain ⟨g, hg, rfl⟩ := Option.map_eq_some_iff.mp hc
      refine ⟨r, List.mem_of_getElem? hr, ?_⟩
      rw [scanned, hg]
      exact if_pos hcompat
  · rename_i hne
    rw [List.isEmpty_iff] at hne
    rw [List.mem_filterMap]
    refine exists_congr fun i => ?_
    simp [hne, and_comm]

/-- A candidate is at some position, and one that is bound at a position bound to
the slot's service. -/
theorem pool_factsAt {c : Candidate} (hc : c ∈ s.pool slot) :
    ∃ i, s.factsAt i = some c.facts ∧
      (s.targetsByService slot.service = [] ∨ i ∈ s.targetsByService slot.service) := by
  obtain ⟨i, hemit, hor⟩ := mem_pool.mp hc
  obtain ⟨t, ht, htf⟩ := emit_eq_some hemit
  refine ⟨i, ?_, hor.imp_left And.left⟩
  rw [factsAt, ht]
  exact htf

end Fabric

/-- The slot is of a service, or facts that name none are not mixed with facts that
do. -/
def Fabric.Unmixed (s : Fabric) (slot : ServiceSlotKey) : Prop :=
  slot.service ≠ .null ∨ ∀ i j f g, s.factsAt i = some f → s.factsAt j = some g →
    f.service = .null → g.service = .null

namespace Bound
variable {s : Fabric} {slot : ServiceSlotKey}

/-- No two candidates have one target. -/
theorem pool_distinct (h : Bound s) (slot : ServiceSlotKey) :
    (s.pool slot).Pairwise fun c d => c.facts.target ≠ d.facts.target := by
  unfold pool
  split
  · have hids := List.pairwise_map.mp h.indexed.nodup
    rw [scan_eq, List.pairwise_filterMap]
    refine hids.imp_of_mem fun {t u} ht hu hne c hc d hd => ?_
    rw [h.facts t ht _ (scanned_eq_some hc), h.facts u hu _ (scanned_eq_some hd)]
    exact hne
  · rw [List.pairwise_filterMap]
    refine (h.nodup slot.service).imp fun {i j} hne c hc d hd heq => hne ?_
    obtain ⟨t, ht, htf⟩ := emit_eq_some hc
    obtain ⟨u, hu, huf⟩ := emit_eq_some hd
    -- two positions with one id are one
    rw [h.facts t (List.mem_of_getElem? ht) _ htf, h.facts u (List.mem_of_getElem? hu) _ huf] at heq
    have hi := (h.indexed u.id i).mpr ⟨t, ht, heq⟩
    have hj := (h.indexed u.id j).mpr ⟨u, hu, rfl⟩
    rw [hi] at hj
    exact Option.some.inj hj

/-- If one candidate's facts name the slot's service, all do. -/
theorem pool_unmixed (h : Bound s) (hslot : s.Unmixed slot) {c : Candidate} (hc : c ∈ s.pool slot)
    (hservice : c.facts.service = slot.service) :
    ∀ d ∈ s.pool slot, d.facts.service = slot.service := by
  intro d hd
  obtain ⟨i, hci, -⟩ := pool_factsAt hc
  obtain ⟨j, hdj, hbound⟩ := pool_factsAt hd
  by_cases hnull : slot.service = .null
  · rw [hnull] at hservice ⊢
    exact hslot.resolve_left (fun hne => hne hnull) i j _ _ hci hdj hservice
  · -- the service has a bound position, so its candidates are the bound ones
    have hi : i ∈ s.targetsByService slot.service := (h.mem _ _).mpr ⟨hnull, _, hci, hservice⟩
    have hj := hbound.resolve_left (List.ne_nil_of_mem hi)
    obtain ⟨-, f, hf, hfs⟩ := (h.mem _ _).mp hj
    rw [hdj] at hf
    cases hf
    exact hfs

end Bound

/-- A new fabric after registrations and publications that keep services: what is
bound is right, and no snapshot has been taken. -/
theorem bound_afterOps (env : Env) (cfg : RuntimeConfig) (os : List Op)
    (hrun : ∀ past o, past ++ [o] <+: os →
      Registers o ∧ KeepsService (afterOps env cfg past) o) :
    Bound (afterOps env cfg os) ∧ (afterOps env cfg os).snapshotCounter = {} := by
  refine Transition.of_blameless
    (I := fun past => Bound (afterOps env cfg past) ∧ (afterOps env cfg past).snapshotCounter = {})
    ⟨Bound.initial cfg, rfl⟩ (fun past o h hok => ?_) os hrun
  rw [afterOps_append]
  refine ⟨h.1.step hok.1 hok.2, ?_⟩
  rw [← h.2]
  cases o with
  | registerTarget id transport => rw [apply_registerTarget]
  | publishCandidateFacts now f => rw [apply_publishCandidateFacts]
  | _ => cases hok.1

/-- **Snapshots where targets keep their service.**  In every run of registrations
and publications in which no accepted publication moves a target from one service
to another or to none: every snapshot is taken and lists each target at most once,
and if one of its candidates names the slot's service, all do; the last for the slot
of a service always, and for a slot of none if facts with and without a service are
not mixed. -/
theorem snapshot_unmixed (env : Env) (cfg : RuntimeConfig) (os : List Op)
    (hrun : ∀ past o, past ++ [o] <+: os →
      Registers o ∧ KeepsService (afterOps env cfg past) o)
    (slot : ServiceSlotKey) :
    ∃ s' snap, (afterOps env cfg os).snapshotLocked slot = .ok (s', snap) ∧
      (snap.candidates.map (·.facts.target)).Nodup ∧
      ((afterOps env cfg os).Unmixed slot →
        (∃ c ∈ snap.candidates, c.facts.service = slot.service) →
          ∀ c ∈ snap.candidates, c.facts.service = slot.service) := by
  obtain ⟨hbound, hcounter⟩ := bound_afterOps env cfg os hrun
  have hsnap : (afterOps env cfg os).snapshotLocked slot =
      .ok ({ afterOps env cfg os with snapshotCounter := ⟨2⟩ },
        { generation := ⟨2⟩, slot := slot,
          candidates := (afterOps env cfg os).candidatesFor slot }) := by
    rw [snapshotLocked, hcounter]
    rfl
  refine ⟨_, _, hsnap, ?_, ?_⟩
  · rw [candidatesFor_eq]
    exact List.pairwise_map.mpr ((hbound.pool_distinct slot).sublist (List.take_sublist ..))
  · rintro hslot ⟨c, hc, hservice⟩ d hd
    rw [candidatesFor_eq] at hc hd
    exact hbound.pool_unmixed hslot (List.mem_of_mem_take hc) hservice d (List.mem_of_mem_take hd)

namespace Reference

/-- Facts of a target that name a service. -/
def serving (target service : UInt64) : CandidateFacts :=
  { facts target target with service := ⟨service⟩ }

/-- Targets 1 and 2, both published for service 1. -/
def bothServing : List Op :=
  [.registerTarget ⟨1⟩ [], .registerTarget ⟨2⟩ [], .publishCandidateFacts 0 (serving 1 1),
    .publishCandidateFacts 0 (serving 2 1)]

/-- The targets that a snapshot for the slot lists, with the services they name. -/
def listed (s : Fabric) : Option (List (TargetId × ServiceId)) :=
  (s.snapshotLocked slot).toOption.map fun r =>
    r.2.candidates.map fun c => (c.facts.target, c.facts.service)

end Reference

open Reference in
/-- Two targets of one service are both listed, each once. -/
theorem snapshot_unmixed_reference :
    ∃ s' snap, (afterOps env {} bothServing).snapshotLocked slot = .ok (s', snap) ∧
      (snap.candidates.map (·.facts.target)).Nodup ∧
      ∀ c ∈ snap.candidates, c.facts.service = slot.service := by
  have hrun : ∀ past o, past ++ [o] <+: bothServing →
      Registers o ∧ KeepsService (afterOps env {} past) o := by
    have hfirst : ∀ s : Fabric, ∀ f : CandidateFacts, ∀ now,
        ((s.targets.find f.target).all fun t => t.facts.isNone) = true →
          KeepsService s (.publishCandidateFacts now f) := by
      intro s f now hnone t old hfind hold
      rw [hfind, Option.all_some, hold] at hnone
      cases hnone
    show ∀ past o, past ++ [o] <+: ((([] ++ [_]) ++ [_]) ++ [_]) ++ [_] → _
    simp only [Transition.forall_step_append]
    refine ⟨⟨⟨⟨fun past o hp => ?_, trivial, trivial⟩, trivial, trivial⟩, trivial, ?_⟩, trivial, ?_⟩
    · exact absurd (List.prefix_nil.mp hp) (by simp)
    · exact hfirst _ _ _ (by decide +kernel)
    · exact hfirst _ _ _ (by decide +kernel)
  obtain ⟨s', snap, hsnap, hnodup, hsame⟩ := snapshot_unmixed env {} bothServing hrun slot
  refine ⟨s', snap, hsnap, hnodup, hsame (Or.inl (by decide)) ?_⟩
  have hc : (afterOps env {} bothServing).candidatesFor slot = snap.candidates := by
    rw [(snapshotLocked_eq hsnap).2]
  have hany : (((afterOps env {} bothServing).candidatesFor slot).any fun c =>
      c.facts.service == slot.service) = true := by decide +kernel
  obtain ⟨c, hmem, hservice⟩ := List.any_eq_true.mp hany
  exact ⟨c, hc ▸ hmem, eq_of_beq hservice⟩

open Reference in
/-- **A target that moves on stays bound.**  Target 2 is published for service 1 and
then for service 2: a snapshot for service 1 lists it with service 2.  Published for
service 1 again, it is listed twice. -/
theorem moved_target_listed :
    listed (afterOps env {} (bothServing ++ [.publishCandidateFacts 0 (serving 2 2)])) =
        some [(⟨1⟩, ⟨1⟩), (⟨2⟩, ⟨2⟩)] ∧
      listed (afterOps env {} (bothServing ++ [.publishCandidateFacts 0 (serving 2 2),
          .publishCandidateFacts 0 (serving 2 1)])) =
        some [(⟨1⟩, ⟨1⟩), (⟨2⟩, ⟨1⟩), (⟨2⟩, ⟨1⟩)] := by
  constructor <;> decide +kernel

end FailoverFabric

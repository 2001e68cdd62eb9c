import FailoverFabric.Service
import FailoverFabric.Library.Upsert

/-! # The route table

`route.hpp` and `route.cpp`: one current route per slot and a history.  A route
is replaced only by a strictly newer generation of a not older epoch.
-/
namespace FailoverFabric

structure RouteEntry where
  route : RouteId := .null
  generation : RouteGeneration := {}
  slot : ServiceSlotKey := {}
  target : TargetId := .null
  targetGeneration : TargetGeneration := {}
  incarnation : EngineIncarnationId := .null
  permittedBoot : WorkerBootId := .null
  assignment : AssignmentId := .null
  assignmentGeneration : AssignmentGeneration := {}
  epoch : CoordinatorEpoch := {}
  state : RouteState := .empty
  gatewayBoot : GatewayBootId := .null
  transport : Text := []
  provenance : Provenance := .derived
  deriving DecidableEq

namespace RouteTable

structure SlotRoute where
  current : RouteEntry
  history : List RouteEntry := []
  deriving DecidableEq

/-- The slot a record is kept for: that of its current route. -/
def SlotRoute.slot (s : SlotRoute) : ServiceSlotKey := s.current.slot

end RouteTable

structure RouteTable where
  current_ : List RouteTable.SlotRoute := []
  revalidationCount : Nat := 0
  deriving DecidableEq

namespace RouteTable

def find_ (t : RouteTable) (slot : ServiceSlotKey) : Option SlotRoute :=
  t.current_.find? fun s => s.slot == slot

/-- Update the first record of a slot in place. -/
def update (t : RouteTable) (slot : ServiceSlotKey) (f : SlotRoute → SlotRoute) : RouteTable :=
  { t with current_ := t.current_.updateFirst (fun s => s.slot == slot) f }

/-- Install a route unless that would regress the slot's generation or epoch. -/
def install (t : RouteTable) (entry : RouteEntry) : RouteTable × Bool :=
  if entry.slot.service.isNull then (t, false)
  else
    match t.find_ entry.slot with
    | some sr =>
      if entry.generation.value ≤ sr.current.generation.value then (t, false)
      else if entry.epoch.value < sr.current.epoch.value then (t, false)
      else (t.update entry.slot fun s => ⟨entry, s.history ++ [s.current]⟩, true)
    | none => ({ t with current_ := t.current_ ++ [⟨entry, []⟩] }, true)

def bindGateway (t : RouteTable) (slot : ServiceSlotKey) (boot : GatewayBootId) :
    RouteTable × Bool :=
  match t.find_ slot with
  | none => (t, false)
  | some sr =>
    if sr.current.state = .empty then (t, false)
    else if sr.current.gatewayBoot = boot then (t, true)
    else (t.update slot fun s => { s with current := { s.current with gatewayBoot := boot } }, true)

def acknowledge (t : RouteTable) (slot : ServiceSlotKey) (gen : RouteGeneration)
    (boot : GatewayBootId) : RouteTable × Bool :=
  match t.find_ slot with
  | none => (t, false)
  | some sr =>
    if sr.current.generation ≠ gen then (t, false)
    else if boot ≠ sr.current.gatewayBoot then (t, false)
    else if sr.current.state ≠ .installed ∧ sr.current.state ≠ .pendingInstall then (t, false)
    else (t.update slot fun s => { s with current := { s.current with state := .acknowledged } }, true)

def current (t : RouteTable) (slot : ServiceSlotKey) : Option RouteEntry :=
  (t.find_ slot).bind fun sr => if sr.current.state = .empty then none else some sr.current

def history (t : RouteTable) (slot : ServiceSlotKey) (max : Nat) : List RouteEntry :=
  match t.find_ slot with
  | none => []
  | some sr => sr.history.take max

def allRoutes (t : RouteTable) : List RouteEntry :=
  (t.current_.map (·.current)).filter fun e => e.state != .empty

/-- The states that a restart demotes. -/
def live (s : RouteState) : Bool := s == .acknowledged || s == .installed || s == .pendingInstall

/-- A record whose live route awaits revalidation. -/
def SlotRoute.revalidate (s : SlotRoute) : SlotRoute :=
  if live s.current.state then { s with current := { s.current with state := .revalidationRequired } }
  else s

def markRevalidationRequired (t : RouteTable) : RouteTable where
  current_ := t.current_.map SlotRoute.revalidate
  revalidationCount := t.revalidationCount + t.current_.countP fun s => live s.current.state

/-! ## The table's invariant -/

/-- One record for each slot, and none for a null service. -/
structure WellFormed (t : RouteTable) : Prop where
  slot_unique : (t.current_.map SlotRoute.slot).Nodup
  service : ∀ s ∈ t.current_, s.slot.service.isNull = false

theorem wellFormed_empty : WellFormed {} := ⟨by simp, by simp⟩

theorem WellFormed.update {t : RouteTable} (h : t.WellFormed) (slot : ServiceSlotKey)
    {f : SlotRoute → SlotRoute} (hf : ∀ s, s.slot = slot → (f s).slot = s.slot) :
    (t.update slot f).WellFormed := by
  refine ⟨?_, fun s hs => ?_⟩
  · show (List.map SlotRoute.slot (t.current_.updateFirst _ f)).Nodup
    rw [List.map_updateFirst fun s hs => hf s (eq_of_beq hs)]
    exact h.slot_unique
  · rcases List.mem_updateFirst hs with hs | ⟨z, hz, hp, rfl⟩
    · exact h.service s hs
    · rw [hf z (eq_of_beq hp)]
      exact h.service z hz

/-- A refused route leaves no trace. -/
theorem install_refused {t : RouteTable} {e : RouteEntry} (h : (t.install e).2 = false) :
    (t.install e).1 = t := by
  unfold install at h ⊢
  split_ifs at h ⊢
  · rfl
  cases hf : t.find_ e.slot with
  | none => rw [hf] at h; cases h
  | some sr =>
    rw [hf] at h
    simp only at h ⊢
    split_ifs at h ⊢ <;> rfl

/-- An accepted route begins a record, or replaces the current route of one. -/
theorem install_accepted {t : RouteTable} {e : RouteEntry} (h : (t.install e).2 = true) :
    (e.slot.service.isNull = false ∧ t.find_ e.slot = none ∧
        (t.install e).1 = { t with current_ := t.current_ ++ [⟨e, []⟩] }) ∨
      ∃ sr, t.find_ e.slot = some sr ∧
        (t.install e).1 = t.update e.slot fun s => ⟨e, s.history ++ [s.current]⟩ := by
  unfold install at h ⊢
  split_ifs at h ⊢ with hnull
  cases hf : t.find_ e.slot with
  | none => exact Or.inl ⟨Bool.not_eq_true _ ▸ hnull, rfl, rfl⟩
  | some sr =>
    rw [hf] at h
    simp only at h ⊢
    split_ifs at h ⊢
    exact Or.inr ⟨sr, rfl, rfl⟩

theorem WellFormed.install {t : RouteTable} (h : t.WellFormed) (e : RouteEntry) :
    (t.install e).1.WellFormed := by
  cases hacc : (t.install e).2 with
  | false =>
    rw [install_refused hacc]
    exact h
  | true =>
    rcases install_accepted hacc with ⟨hnull, hnone, ht⟩ | ⟨sr, -, ht⟩
    · rw [ht]
      have hfresh : ∀ s ∈ t.current_, s.slot ≠ e.slot := by
        simpa [find_, List.find?_eq_none] using hnone
      refine ⟨?_, fun s hs => ?_⟩
      · rw [List.map_append]
        refine List.nodup_append.mpr ⟨h.slot_unique, by simp, fun a ha b hb hab => ?_⟩
        obtain ⟨s, hs, rfl⟩ := List.mem_map.mp ha
        simp only [List.map_cons, List.map_nil, List.mem_singleton] at hb
        exact hfresh s hs (hab.trans hb)
      · rcases List.mem_append.mp hs with hs | hs
        · exact h.service s hs
        · rw [List.mem_singleton] at hs
          subst hs
          exact hnull
    · rw [ht]
      exact h.update e.slot fun s hs => hs.symm

theorem WellFormed.bindGateway {t : RouteTable} (h : t.WellFormed) (slot : ServiceSlotKey)
    (boot : GatewayBootId) : (t.bindGateway slot boot).1.WellFormed := by
  unfold RouteTable.bindGateway
  split
  · exact h
  split
  · exact h
  split
  · exact h
  · exact h.update slot fun _ _ => rfl

theorem WellFormed.acknowledge {t : RouteTable} (h : t.WellFormed) (slot : ServiceSlotKey)
    (gen : RouteGeneration) (boot : GatewayBootId) : (t.acknowledge slot gen boot).1.WellFormed := by
  unfold RouteTable.acknowledge
  split
  · exact h
  split_ifs
  · exact h
  · exact h
  · exact h
  · exact h.update slot fun _ _ => rfl

theorem revalidate_slot (s : SlotRoute) : s.revalidate.slot = s.slot := by
  unfold SlotRoute.revalidate
  split <;> rfl

theorem WellFormed.markRevalidationRequired {t : RouteTable} (h : t.WellFormed) :
    t.markRevalidationRequired.WellFormed := by
  refine ⟨?_, fun s hs => ?_⟩
  · have : SlotRoute.slot ∘ SlotRoute.revalidate = SlotRoute.slot := funext revalidate_slot
    simpa [RouteTable.markRevalidationRequired, this] using h.slot_unique
  · obtain ⟨z, hz, rfl⟩ := List.mem_map.mp hs
    rw [revalidate_slot]
    exact h.service z hz

/-- Replaying routes of distinct slots into a table that has none of them
appends them in order. -/
theorem foldl_install (es : List RouteEntry) (t : RouteTable)
    (hs : ∀ e ∈ es, e.slot.service.isNull = false)
    (hn : (t.current_.map SlotRoute.slot ++ es.map (·.slot)).Nodup) :
    es.foldl (fun t e => (RouteTable.install t e).1) t =
      { t with current_ := t.current_ ++ es.map fun e => ⟨e, []⟩ } := by
  induction es generalizing t with
  | nil => simp
  | cons e es ih =>
    have hnone : t.find_ e.slot = none := by
      refine List.find?_eq_none.mpr fun s hs => ?_
      have := (List.nodup_append.mp hn).2.2 _ (List.mem_map_of_mem hs) e.slot (by simp)
      simpa using this
    have he : (t.install e).1 = { t with current_ := t.current_ ++ [⟨e, []⟩] } := by
      simp [RouteTable.install, hs e (List.mem_cons_self ..), hnone]
    rw [List.foldl_cons, he, ih _ (fun x hx => hs x (List.mem_cons_of_mem _ hx))
      (by simpa [SlotRoute.slot] using hn)]
    simp

/-- A route as a load leaves it. -/
def revalidated (e : RouteEntry) : RouteEntry :=
  if live e.state then { e with state := .revalidationRequired } else e

theorem revalidate_current (s : SlotRoute) : s.revalidate.current = revalidated s.current := by
  unfold SlotRoute.revalidate revalidated
  split <;> rfl

/-- Replaying routes into an empty table, as a load does, lists them again, live
ones awaiting revalidation. -/
theorem allRoutes_replay {es : List RouteEntry} (hs : ∀ e ∈ es, e.slot.service.isNull = false)
    (hn : (es.map (·.slot)).Nodup) (hstate : ∀ e ∈ es, e.state ≠ .empty) :
    (es.foldl (fun t e => (RouteTable.install t e).1) {}).markRevalidationRequired.allRoutes =
      es.map revalidated := by
  rw [foldl_install es {} hs (by simpa using hn), allRoutes, RouteTable.markRevalidationRequired]
  simp only [List.nil_append, List.map_map]
  have hcurrent : ((fun s : SlotRoute => s.current) ∘ SlotRoute.revalidate ∘
      fun e => (⟨e, []⟩ : SlotRoute)) = revalidated := by
    funext e
    exact revalidate_current ⟨e, []⟩
  rw [hcurrent, List.filter_eq_self]
  intro e he
  obtain ⟨e, hmem, rfl⟩ := List.mem_map.mp he
  have := hstate e hmem
  unfold revalidated
  split
  · rfl
  · simpa using this

theorem WellFormed.allRoutes_service {t : RouteTable} (h : t.WellFormed) {e : RouteEntry}
    (he : e ∈ t.allRoutes) : e.slot.service.isNull = false := by
  obtain ⟨s, hs, rfl⟩ := List.mem_map.mp (List.mem_of_mem_filter he)
  exact h.service s hs

theorem allRoutes_state {t : RouteTable} {e : RouteEntry} (he : e ∈ t.allRoutes) :
    e.state ≠ .empty := by
  simpa using (List.mem_filter.mp he).2

theorem WellFormed.allRoutes_nodup {t : RouteTable} (h : t.WellFormed) :
    (t.allRoutes.map (·.slot)).Nodup := by
  have hsub := (List.filter_sublist (p := fun e : RouteEntry => e.state != .empty)
    (l := t.current_.map (·.current))).map (·.slot)
  rw [List.map_map] at hsub
  exact hsub.nodup h.slot_unique

/-! ## What the operations do to the current route of a slot -/

/-- The table takes a route of this slot, generation and epoch. -/
def admits (t : RouteTable) (slot : ServiceSlotKey) (generation : RouteGeneration)
    (epoch : CoordinatorEpoch) : Bool :=
  !slot.service.isNull && (t.find_ slot).all fun sr =>
    sr.current.generation.value < generation.value && sr.current.epoch.value ≤ epoch.value

theorem install_snd (t : RouteTable) (e : RouteEntry) :
    (t.install e).2 = t.admits e.slot e.generation e.epoch := by
  unfold install admits
  cases e.slot.service.isNull with
  | true => rfl
  | false =>
    simp only [Bool.not_false, Bool.true_and, Bool.false_eq_true, if_false]
    cases t.find_ e.slot with
    | none => rfl
    | some sr =>
      simp only [Option.all_some]
      split_ifs with hgen hepoch
      · simp [UInt64.not_lt.mpr hgen]
      · simp [UInt64.not_le.mpr hepoch]
      · simp [UInt64.not_le.mp hgen, UInt64.not_lt.mp hepoch]

theorem find_update {t : RouteTable} {slot : ServiceSlotKey} {f : SlotRoute → SlotRoute}
    (hf : ∀ s, s.slot = slot → (f s).slot = slot) (key : ServiceSlotKey) :
    (t.update slot f).find_ key = if key = slot then (t.find_ slot).map f else t.find_ key := by
  show List.find? _ (t.current_.updateFirst _ f) = _
  split
  · rename_i heq
    subst heq
    exact List.find?_updateFirst fun s hs => beq_iff_eq.mpr (hf s (eq_of_beq hs))
  · rename_i hne
    refine List.find?_updateFirst_of_ne fun s hs => ?_
    have hs := eq_of_beq hs
    constructor
    · exact fun he => hne ((eq_of_beq he).symm.trans hs)
    · exact fun he => hne ((eq_of_beq he).symm.trans (hf s hs))

/-- The record of a slot is the one that is found. -/
theorem WellFormed.find_of_mem {t : RouteTable} (h : t.WellFormed) {s : SlotRoute}
    (hs : s ∈ t.current_) : t.find_ s.slot = some s :=
  List.find?_key_of_mem h.slot_unique hs

theorem find_append {t : RouteTable} {e : RouteEntry} (hnone : t.find_ e.slot = none)
    (key : ServiceSlotKey) :
    find_ { t with current_ := t.current_ ++ [⟨e, []⟩] } key =
      if key = e.slot then some ⟨e, []⟩ else t.find_ key := by
  show List.find? _ _ = _
  rw [List.find?_append]
  by_cases hk : key = e.slot
  · subst hk
    rw [if_pos rfl, show List.find? _ t.current_ = none from hnone]
    simp [SlotRoute.slot]
  · rw [if_neg hk, List.find?_cons_of_neg (by simpa [SlotRoute.slot] using Ne.symm hk)]
    simp [find_]

theorem find_replaced (t : RouteTable) (e : RouteEntry) (key : ServiceSlotKey) :
    (t.update e.slot fun s => ⟨e, s.history ++ [s.current]⟩).find_ key =
      if key = e.slot then (t.find_ e.slot).map fun s => ⟨e, s.history ++ [s.current]⟩
      else t.find_ key := by
  have hslot : ∀ s : SlotRoute, s.slot = e.slot →
      SlotRoute.slot ⟨e, s.history ++ [s.current]⟩ = e.slot := fun _ _ => rfl
  exact find_update hslot key

/-- **An accepted route is the current one** of its slot, and of no other. -/
theorem current_install {t : RouteTable} {e : RouteEntry} (h : (t.install e).2 = true)
    (hstate : e.state ≠ .empty) (key : ServiceSlotKey) :
    (t.install e).1.current key = if key = e.slot then some e else t.current key := by
  rcases install_accepted h with ⟨-, hnone, ht⟩ | ⟨sr, hsr, ht⟩
  · rw [ht, current, find_append hnone]
    by_cases hk : key = e.slot
    · rw [if_pos hk, if_pos hk]
      exact if_neg hstate
    · rw [if_neg hk, if_neg hk]
      rfl
  · rw [ht, current, find_replaced]
    by_cases hk : key = e.slot
    · rw [if_pos hk, if_pos hk, hsr]
      exact if_neg hstate
    · rw [if_neg hk, if_neg hk]
      rfl

/-- A route that is not offered for the slot leaves its current one alone. -/
theorem current_install_of_ne {t : RouteTable} {e : RouteEntry} {key : ServiceSlotKey}
    (hstate : e.state ≠ .empty) (h : (t.install e).2 = true → e.slot ≠ key) :
    (t.install e).1.current key = t.current key := by
  cases hacc : (t.install e).2 with
  | false => rw [install_refused hacc]
  | true => rw [current_install hacc hstate, if_neg fun hk => h hacc hk.symm]

theorem current_state {t : RouteTable} {key : ServiceSlotKey} {e : RouteEntry}
    (h : t.current key = some e) : e.state ≠ .empty := by
  obtain ⟨sr, -, hcur⟩ := Option.bind_eq_some_iff.mp h
  split at hcur
  · cases hcur
  · rename_i hne
    cases hcur
    exact hne

/-- Binding a gateway changes nothing else of a route. -/
theorem current_bindGateway (t : RouteTable) (slot : ServiceSlotKey) (boot : GatewayBootId)
    (key : ServiceSlotKey) : ∃ g : RouteEntry → GatewayBootId,
    (t.bindGateway slot boot).1.current key =
      (t.current key).map fun e => { e with gatewayBoot := g e } := by
  have hsame : t.current key = (t.current key).map fun e => { e with gatewayBoot := e.gatewayBoot } := by
    simp
  unfold bindGateway
  split
  · exact ⟨_, hsame⟩
  rename_i sr hsr
  split_ifs
  · exact ⟨_, hsame⟩
  · exact ⟨_, hsame⟩
  have hfind := find_update (t := t)
    (f := fun s => { s with current := { s.current with gatewayBoot := boot } })
    (fun _ (h : _ = slot) => h) key
  by_cases hk : key = slot
  · refine ⟨fun _ => boot, ?_⟩
    rw [current, hfind, if_pos hk, current, hk, hsr]
    simp only [Option.map_some, Option.bind_some]
    split <;> rfl
  · refine ⟨(·.gatewayBoot), ?_⟩
    rw [current, hfind, if_neg hk, ← hsame]
    rfl

theorem revalidated_state {e : RouteEntry} (h : e.state ≠ .empty) :
    (revalidated e).state = .revalidationRequired ∨ (revalidated e).state = .stale := by
  unfold revalidated live
  cases hs : e.state <;> simp [hs] at h ⊢

theorem current_markRevalidationRequired (t : RouteTable) (key : ServiceSlotKey) :
    t.markRevalidationRequired.current key = (t.current key).map revalidated := by
  have hslot : (fun s : SlotRoute => s.slot == key) ∘ SlotRoute.revalidate =
      fun s => s.slot == key := funext fun s => by rw [Function.comp, revalidate_slot]
  show (List.find? _ (t.current_.map SlotRoute.revalidate)).bind _ = _
  rw [List.find?_map, hslot, current, find_]
  cases t.current_.find? fun s => s.slot == key with
  | none => rfl
  | some sr =>
    rw [Option.map_some, Option.bind_some, Option.bind_some, revalidate_current]
    by_cases he : sr.current.state = .empty
    · have hsame : revalidated sr.current = sr.current := by simp [revalidated, live, he]
      rw [hsame, if_pos he, Option.map_none]
    · rw [if_neg he, if_neg, Option.map_some]
      rcases revalidated_state he with h | h <;> simp [h]

/-- The current route of a slot is the listed one. -/
theorem WellFormed.current_eq_find {t : RouteTable} (h : t.WellFormed) (key : ServiceSlotKey) :
    t.current key = t.allRoutes.find? fun e => e.slot == key := by
  obtain ⟨records, _⟩ := t
  have hn : (records.map SlotRoute.slot).Nodup := h.slot_unique
  clear h
  unfold current find_ allRoutes
  simp only
  induction records with
  | nil => rfl
  | cons s records ih =>
    rw [List.map_cons, List.nodup_cons] at hn
    by_cases hk : s.slot = key
    · rw [List.find?_cons_of_pos (by simpa using hk), Option.bind_some, List.map_cons]
      split
      -- an empty route is not listed, and its slot has no other record
      · rename_i hempty
        rw [List.filter_cons_of_neg (by simp [hempty]), eq_comm, List.find?_eq_none]
        intro e he
        obtain ⟨r, hr, rfl⟩ := List.mem_map.mp (List.mem_of_mem_filter he)
        intro hrk
        exact hn.1 (List.mem_map.mpr ⟨r, hr, (eq_of_beq hrk).trans hk.symm⟩)
      · rename_i hstate
        rw [List.filter_cons_of_pos (by simpa using hstate),
          List.find?_cons_of_pos (by simpa [SlotRoute.slot] using hk)]
    · rw [List.find?_cons_of_neg (by simpa using hk), ih hn.2, List.map_cons, List.filter_cons]
      split
      · rw [List.find?_cons_of_neg (by simpa [SlotRoute.slot] using hk)]
      · rfl

end RouteTable

end FailoverFabric

import FailoverFabric.Routing
import Mathlib.Data.List.Induction

/-! # The history of a slot's routes

The four operations of a route table, in any sequence from the empty table.  Two of
them and the gateway's acknowledgment touch the current route of a record in place, and
only its state and its gateway; an accepted route becomes the current one and sends the
one before it to the history.  So the records of a table are known from the accepted
routes (`call_records`), and along a record the generations and the epochs are in order.
-/
namespace FailoverFabric
namespace RouteTable

/-- A call of one of the operations. -/
inductive Call
  | install (entry : RouteEntry)
  | bindGateway (slot : ServiceSlotKey) (boot : GatewayBootId)
  | acknowledge (slot : ServiceSlotKey) (gen : RouteGeneration) (boot : GatewayBootId)
  | markRevalidationRequired

def call (t : RouteTable) : Call → RouteTable
  | .install entry => (t.install entry).1
  | .bindGateway slot boot => (t.bindGateway slot boot).1
  | .acknowledge slot gen boot => (t.acknowledge slot gen boot).1
  | .markRevalidationRequired => t.markRevalidationRequired

/-- The table after some calls on the empty one. -/
def afterCalls (calls : List Call) : RouteTable := calls.foldl call {}

theorem afterCalls_append (past : List Call) (c : Call) :
    afterCalls (past ++ [c]) = (afterCalls past).call c := by
  rw [afterCalls, List.foldl_append]
  rfl

/-! ## What a call does to the records -/

/-- Nothing of a record was touched but the state and the gateway of its current route. -/
def SlotRoute.Touched (s s' : SlotRoute) : Prop :=
  s'.history = s.history ∧ s'.current =
    { s.current with state := s'.current.state, gatewayBoot := s'.current.gatewayBoot }

theorem SlotRoute.Touched.refl (s : SlotRoute) : s.Touched s := ⟨rfl, rfl⟩

theorem SlotRoute.touched_revalidate (s : SlotRoute) : s.Touched s.revalidate := by
  unfold SlotRoute.revalidate
  split
  · exact ⟨rfl, rfl⟩
  · exact .refl s

/-- Records of a table after one of them was touched. -/
theorem touched_of_mem_update {t : RouteTable} {slot : ServiceSlotKey} {f : SlotRoute → SlotRoute}
    (hf : ∀ s : SlotRoute, s.Touched (f s)) {s' : SlotRoute}
    (h : s' ∈ (t.update slot f).current_) :
    ∃ s ∈ t.current_, s.Touched s' := by
  rcases List.mem_updateFirst h with hs | ⟨s, hs, -, rfl⟩
  · exact ⟨s', hs, .refl s'⟩
  · exact ⟨s, hs, hf s⟩

theorem touched_bindGateway {t : RouteTable} {slot : ServiceSlotKey} {boot : GatewayBootId}
    {s' : SlotRoute} (h : s' ∈ (t.bindGateway slot boot).1.current_) :
    ∃ s ∈ t.current_, s.Touched s' := by
  unfold bindGateway at h
  split at h
  · exact ⟨s', h, .refl s'⟩
  split_ifs at h with hempty hsame
  · exact ⟨s', h, .refl s'⟩
  · exact ⟨s', h, .refl s'⟩
  · refine touched_of_mem_update (fun s => ?_) h
    exact ⟨rfl, rfl⟩

theorem touched_acknowledge {t : RouteTable} {slot : ServiceSlotKey} {gen : RouteGeneration}
    {boot : GatewayBootId} {s' : SlotRoute} (h : s' ∈ (t.acknowledge slot gen boot).1.current_) :
    ∃ s ∈ t.current_, s.Touched s' := by
  unfold acknowledge at h
  split at h
  · exact ⟨s', h, .refl s'⟩
  split_ifs at h with hgen hboot hstate
  · exact ⟨s', h, .refl s'⟩
  · exact ⟨s', h, .refl s'⟩
  · exact ⟨s', h, .refl s'⟩
  · refine touched_of_mem_update (fun s => ?_) h
    exact ⟨rfl, rfl⟩

theorem WellFormed.call {t : RouteTable} (h : t.WellFormed) (c : Call) : (t.call c).WellFormed := by
  cases c with
  | install entry => exact h.install entry
  | bindGateway slot boot => exact h.bindGateway slot boot
  | acknowledge slot gen boot => exact h.acknowledge slot gen boot
  | markRevalidationRequired => exact h.markRevalidationRequired

theorem wellFormed_afterCalls (calls : List Call) : (afterCalls calls).WellFormed := by
  induction calls using List.reverseRecOn with
  | nil => exact wellFormed_empty
  | append_singleton calls c ih =>
    rw [afterCalls_append]
    exact ih.call c

/-- A record of the table after a call: an old one, touched at most; a new one with an
accepted route; or an old one whose current route an accepted one has replaced, being
newer and not of an older epoch. -/
inductive RecordEffect (t : RouteTable) (c : Call) (s' : SlotRoute) : Prop
  | kept (s : SlotRoute) (mem : s ∈ t.current_) (touched : s.Touched s')
  | begun (e : RouteEntry) (call : c = .install e) (accepted : (t.install e).2 = true)
      (record : s' = ⟨e, []⟩)
  | replaced (e : RouteEntry) (s : SlotRoute) (call : c = .install e)
      (accepted : (t.install e).2 = true) (mem : s ∈ t.current_)
      (generation : s.current.generation.value < e.generation.value)
      (epoch : s.current.epoch.value ≤ e.epoch.value)
      (record : s' = ⟨e, s.history ++ [s.current]⟩)

theorem install_records {t : RouteTable} (h : t.WellFormed) {e : RouteEntry} {s' : SlotRoute}
    (hs' : s' ∈ (t.install e).1.current_) : RecordEffect t (.install e) s' := by
  cases hacc : (t.install e).2 with
  | false =>
    rw [install_refused hacc] at hs'
    exact .kept s' hs' (.refl s')
  | true =>
    rcases install_accepted hacc with ⟨-, -, ht⟩ | ⟨sr, hsr, ht⟩
    · rw [ht] at hs'
      rcases List.mem_append.mp hs' with hs' | hs'
      · exact .kept s' hs' (.refl s')
      · exact .begun e rfl hacc (List.mem_singleton.mp hs')
    · rw [ht] at hs'
      rcases List.mem_updateFirst hs' with hs' | ⟨s, hs, hslot, rfl⟩
      · exact .kept s' hs' (.refl s')
      · -- the record that is replaced is the one the tests were made of
        have hfind : t.find_ e.slot = some s := eq_of_beq hslot ▸ h.find_of_mem hs
        rw [install_snd, admits, hfind] at hacc
        simp only [Option.all_some, Bool.and_eq_true, decide_eq_true_eq] at hacc
        exact .replaced e s rfl (by rw [install_snd, admits, hfind]; simpa using hacc) hs
          hacc.2.1 hacc.2.2 rfl

/-- **What a call does to the records.** -/
theorem call_records {t : RouteTable} (h : t.WellFormed) (c : Call) {s' : SlotRoute}
    (hs' : s' ∈ (t.call c).current_) : RecordEffect t c s' := by
  cases c with
  | install e => exact install_records h hs'
  | bindGateway slot boot =>
    obtain ⟨s, hs, ht⟩ := touched_bindGateway hs'
    exact .kept s hs ht
  | acknowledge slot gen boot =>
    obtain ⟨s, hs, ht⟩ := touched_acknowledge hs'
    exact .kept s hs ht
  | markRevalidationRequired =>
    obtain ⟨s, hs, rfl⟩ := List.mem_map.mp hs'
    exact .kept s hs s.touched_revalidate

/-! ## The order along a record -/

/-- The routes a slot has had: its history, and then the current one. -/
def SlotRoute.entries (s : SlotRoute) : List RouteEntry := s.history ++ [s.current]

/-- The later route is of a newer generation and not of an older epoch. -/
def Precedes (e e' : RouteEntry) : Prop :=
  e.generation.value < e'.generation.value ∧ e.epoch.value ≤ e'.epoch.value

theorem Precedes.trans {e e' e'' : RouteEntry} (h : Precedes e e') (h' : Precedes e' e'') :
    Precedes e e'' :=
  ⟨UInt64.lt_trans h.1 h'.1, UInt64.le_trans h.2 h'.2⟩

/-- The order of a record is that of its history and of what the current route follows. -/
theorem SlotRoute.pairwise_entries {s : SlotRoute} :
    s.entries.Pairwise Precedes ↔
      s.history.Pairwise Precedes ∧ ∀ e ∈ s.history, Precedes e s.current := by
  rw [SlotRoute.entries, List.pairwise_append]
  simp

theorem SlotRoute.Touched.pairwise {s s' : SlotRoute} (h : s.Touched s')
    (hs : s.entries.Pairwise Precedes) : s'.entries.Pairwise Precedes := by
  obtain ⟨hhistory, hcurrent⟩ := h
  rw [SlotRoute.pairwise_entries] at hs ⊢
  rw [hhistory, hcurrent]
  exact hs

/-- A replaced route goes to the end of the history. -/
theorem SlotRoute.pairwise_replaced {s : SlotRoute} {e : RouteEntry} (h : Precedes s.current e)
    (hs : s.entries.Pairwise Precedes) :
    (SlotRoute.entries ⟨e, s.entries⟩).Pairwise Precedes := by
  refine SlotRoute.pairwise_entries.mpr ⟨hs, fun e' he' => ?_⟩
  rcases List.mem_append.mp he' with he' | he'
  · exact ((SlotRoute.pairwise_entries.mp hs).2 e' he').trans h
  · rw [List.mem_singleton.mp he']
    exact h

/-- Along each record of the table the routes are in order. -/
def Ordered (t : RouteTable) : Prop := ∀ s ∈ t.current_, s.entries.Pairwise Precedes

theorem Ordered.call {t : RouteTable} (h : t.Ordered) (hwf : t.WellFormed) (c : Call) :
    (t.call c).Ordered := by
  intro s' hs'
  cases call_records hwf c hs' with
  | kept s hs touched => exact touched.pairwise (h s hs)
  | begun e _ _ record =>
    rw [record]
    exact List.pairwise_singleton _ e
  | replaced e s _ _ hs generation epoch record =>
    rw [record]
    exact SlotRoute.pairwise_replaced ⟨generation, epoch⟩ (h s hs)

theorem ordered_afterCalls (calls : List Call) : (afterCalls calls).Ordered := by
  induction calls using List.reverseRecOn with
  | nil => exact fun s hs => absurd hs List.not_mem_nil
  | append_singleton calls c ih =>
    rw [afterCalls_append]
    exact ih.call (wellFormed_afterCalls calls) c

/-! ## Where the routes come from -/

/-- The route was offered by one of the calls and accepted, and is what it was but for
its state and its gateway. -/
def Accepted (calls : List Call) (r : RouteEntry) : Prop :=
  ∃ past e, past ++ [Call.install e] <+: calls ∧ ((afterCalls past).install e).2 = true ∧
    r = { e with state := r.state, gatewayBoot := r.gatewayBoot }

theorem Accepted.append {calls : List Call} {r : RouteEntry} (h : Accepted calls r) (c : Call) :
    Accepted (calls ++ [c]) r := by
  obtain ⟨past, e, hp, hacc, hr⟩ := h
  exact ⟨past, e, hp.trans (List.prefix_append calls [c]), hacc, hr⟩

theorem Accepted.last {calls : List Call} {e : RouteEntry}
    (h : ((afterCalls calls).install e).2 = true) : Accepted (calls ++ [.install e]) e :=
  ⟨calls, e, List.prefix_refl _, h, rfl⟩

theorem Accepted.touched {calls : List Call} {s s' : SlotRoute} (ht : s.Touched s')
    (h : ∀ r ∈ s.entries, Accepted calls r) : ∀ r ∈ s'.entries, Accepted calls r := by
  obtain ⟨hhistory, hcurrent⟩ := ht
  intro r hr
  rcases List.mem_append.mp hr with hr | hr
  · exact h r (List.mem_append_left _ (hhistory ▸ hr))
  · obtain ⟨past, e, hp, hacc, he⟩ := h s.current (List.mem_append_right _ (by simp))
    refine ⟨past, e, hp, hacc, ?_⟩
    rw [List.mem_singleton.mp hr, hcurrent, he]

/-- **Every route of the table was accepted once.** -/
theorem accepted_of_mem (calls : List Call) :
    ∀ s ∈ (afterCalls calls).current_, ∀ r ∈ s.entries, Accepted calls r := by
  induction calls using List.reverseRecOn with
  | nil => exact fun s hs => absurd hs List.not_mem_nil
  | append_singleton calls c ih =>
    rw [afterCalls_append]
    intro s' hs' r hr
    cases call_records (wellFormed_afterCalls calls) c hs' with
    | kept s hs touched => exact (Accepted.touched touched (ih s hs) r hr).append c
    | begun e hc hacc record =>
      rw [record, SlotRoute.entries, List.nil_append, List.mem_singleton] at hr
      rw [hr, hc]
      exact .last hacc
    | replaced e s hc hacc hs _ _ record =>
      rw [record] at hr
      rcases List.mem_append.mp hr with hr | hr
      · exact (ih s hs r hr).append c
      · rw [List.mem_singleton.mp hr, hc]
        exact .last hacc

/-- **The invariant of the route table**: after any calls there is one record for each
slot, its routes are in order and were all accepted, and a refused route leaves the
table as it was. -/
theorem routes_ordered (calls : List Call) :
    ((afterCalls calls).current_.map SlotRoute.slot).Nodup ∧
      (∀ s ∈ (afterCalls calls).current_,
        s.entries.Pairwise (fun e e' => e.generation.value < e'.generation.value ∧
          e.epoch.value ≤ e'.epoch.value) ∧
        ∀ r ∈ s.entries, ∃ past e, past ++ [Call.install e] <+: calls ∧
          ((afterCalls past).install e).2 = true ∧
          r = { e with state := r.state, gatewayBoot := r.gatewayBoot }) ∧
      ∀ e, ((afterCalls calls).install e).2 = false →
        ((afterCalls calls).install e).1 = afterCalls calls := by
  refine ⟨(wellFormed_afterCalls calls).slot_unique, fun s hs => ?_, fun e => install_refused⟩
  exact ⟨ordered_afterCalls calls s hs, accepted_of_mem calls s hs⟩

end RouteTable
end FailoverFabric

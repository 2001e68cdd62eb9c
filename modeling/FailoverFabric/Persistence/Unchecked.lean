import FailoverFabric.Persistence.Canonical

/-! # What decoding leaves open

Two things a file may say that the decoder does not look at.

The three words of an epoch are read as the arguments of one call, in an order that the
compiler is free to choose.  An epoch is read back as it was written only if the words
that the order exchanges are equal (`epoch_decoded_iff`).

The header of `persistence.hpp` promises that broken references, malformed domain
relations and a regression of generations are rejected.  The decoder checks the services
of the assignments and nothing else of it, so a file is read into a sound snapshot only if
it was written from one (`decode_sound_iff`).
-/
namespace FailoverFabric
namespace Persistence
open Codec

/-! ## The order of the arguments -/

/-- The order gives the words of the epoch their own places: those that it exchanges
are equal. -/
def ArgOrder.Fixes : ArgOrder → CoordinatorEpoch → Prop
  | .valueIdBoot, _ => True
  | .valueBootId, e => e.id = e.boot
  | .idValueBoot, e => e.value = e.id.value
  | .bootIdValue, e => e.value = e.boot.value
  | .idBootValue, e => e.value = e.id.value ∧ e.id = e.boot
  | .bootValueId, e => e.value = e.id.value ∧ e.id = e.boot

theorem reread_eq_iff (ord : ArgOrder) (e : CoordinatorEpoch) : ord.reread e = e ↔ ord.Fixes e := by
  obtain ⟨value, ⟨id⟩, ⟨boot⟩⟩ := e
  -- for each order, three equations between the words
  cases ord <;> simp only [ArgOrder.reread, ArgOrder.build, ArgOrder.Fixes,
    CoordinatorEpoch.mk.injEq, Id.mk.injEq] <;> grind

theorem encEpoch_ok (e : CoordinatorEpoch) : ∃ bytes, encEpoch e = .ok bytes := ⟨_, rfl⟩

/-- What is read from a written epoch, whatever follows it. -/
theorem decEpoch_encEpoch (ord : ArgOrder) {e : CoordinatorEpoch} {bytes : List UInt8}
    (h : encEpoch e = .ok bytes) (rest : List UInt8) :
    decEpoch ord (bytes ++ rest) = .ok (ord.reread e, rest) :=
  reads_epoch ord e bytes h (Nat.lt_succ_self _) rest

theorem decRoute_encRoute (ord : ArgOrder) {r : RouteEntry} {bytes : List UInt8}
    (h : encRoute r = .ok bytes) (rest : List UInt8) :
    decRoute ord (bytes ++ rest) = .ok (rereadRoute ord r, rest) :=
  reads_route ord r bytes h (Nat.lt_succ_self _) rest

/-- **When an epoch does not depend on the compiler**: an order of evaluation reads back
the epoch that was written, alone or within a route, exactly if the words that it
exchanges are equal. -/
theorem epoch_decoded_iff (ord : ArgOrder) :
    (∀ e, (∃ bytes, encEpoch e = .ok bytes ∧ ∀ rest, decEpoch ord (bytes ++ rest) = .ok (e, rest)) ↔
        ord.Fixes e) ∧
      ∀ r bytes rest, encRoute r = .ok bytes →
        ((∃ r', decRoute ord (bytes ++ rest) = .ok (r', rest) ∧ r'.epoch = r.epoch) ↔
          ord.Fixes r.epoch) := by
  refine ⟨fun e => ?_, fun r bytes rest hr => ?_⟩
  · rw [← reread_eq_iff]
    obtain ⟨bytes, he⟩ := encEpoch_ok e
    constructor
    · rintro ⟨bytes', he', hd⟩
      have hread := hd []
      rw [decEpoch_encEpoch ord he', Except.ok.injEq, Prod.mk.injEq] at hread
      exact hread.1
    · intro hfix
      refine ⟨bytes, he, fun rest => ?_⟩
      rw [decEpoch_encEpoch ord he, hfix]
  · rw [← reread_eq_iff, decRoute_encRoute ord hr]
    constructor
    · rintro ⟨r', hd, hepoch⟩
      cases hd
      exact hepoch
    · exact fun hfix => ⟨rereadRoute ord r, rfl, hfix⟩

/-- An epoch of three different words. -/
def mixedEpoch : CoordinatorEpoch := ⟨1, ⟨2⟩, ⟨3⟩⟩

/-- A route of that epoch, and an order that keeps it. -/
theorem epoch_decoded_left_to_right :
    ∃ bytes, encRoute { epoch := mixedEpoch } = .ok bytes ∧
      ∃ r', decRoute .valueIdBoot (bytes ++ []) = .ok (r', []) ∧ r'.epoch = mixedEpoch := by
  refine ⟨_, rfl, ?_⟩
  exact ((epoch_decoded_iff .valueIdBoot).2 { epoch := mixedEpoch } _ [] rfl).mpr trivial

/-- **From right to left the epoch is another one**, and so is that of a route. -/
theorem epoch_reversed :
    (∃ bytes, encEpoch mixedEpoch = .ok bytes ∧
      decEpoch .bootIdValue (bytes ++ []) = .ok (⟨3, ⟨2⟩, ⟨1⟩⟩, [])) ∧
    (∃ bytes r', encRoute { epoch := mixedEpoch } = .ok bytes ∧
      decRoute .bootIdValue (bytes ++ []) = .ok (r', []) ∧ r'.epoch = ⟨3, ⟨2⟩, ⟨1⟩⟩) ∧
    ¬ ∀ (ord : ArgOrder) e, ∃ bytes, encEpoch e = .ok bytes ∧
      ∀ rest, decEpoch ord (bytes ++ rest) = .ok (e, rest) := by
  obtain ⟨bytes, he⟩ := encEpoch_ok mixedEpoch
  refine ⟨⟨bytes, he, decEpoch_encEpoch .bootIdValue he []⟩, ?_, fun h => ?_⟩
  · have hroute : ∃ bytes, encRoute { epoch := mixedEpoch } = .ok bytes := ⟨_, rfl⟩
    obtain ⟨bytes', hr⟩ := hroute
    exact ⟨bytes', _, hr, decRoute_encRoute .bootIdValue hr [], rfl⟩
  · obtain ⟨bytes', he', hd⟩ := h .bootIdValue mixedEpoch
    have hread := hd []
    rw [decEpoch_encEpoch .bootIdValue he', Except.ok.injEq, Prod.mk.injEq] at hread
    exact absurd hread.1 (by decide)

/-! ## References -/

/-- The parent that a domain is declared with. -/
def DeclaredParent (s : PersistenceSnapshot) (d p : FailureDomainId) : Prop :=
  ∃ decl ∈ s.domains, decl.id = d ∧ decl.parent = some p

/-- A snapshot whose records refer to one another as they should. -/
structure Sound (s : PersistenceSnapshot) : Prop where
  routes : ∀ r ∈ s.routes, r.slot.service ∈ s.services.map (·.service)
  pending : s.hasTxn = true → ∀ a, s.pendingAssignment = some a →
    a.slot.service ∈ s.services.map (·.service)
  source : s.hasTxn = true → ∀ a, s.sourceAssignment = some a →
    a.slot.service ∈ s.services.map (·.service)
  members : ∀ m ∈ s.memberships, m.domain ∈ s.domains.map (·.id)
  parents : ∀ d p, DeclaredParent s d p → p ∈ s.domains.map (·.id)
  acyclic : ∀ d, ¬ Relation.TransGen (DeclaredParent s) d d
  domainIds : (s.domains.map (·.id)).Nodup
  eventIds : (s.evidence.map (·.eventId)).Nodup
  routeSlots : (s.routes.map (·.slot)).Nodup
  authority : ∀ a ∈ s.assignments, a.authorityGeneration.value ≤ s.lastAuthorityGen.value
  sourceAuthority : s.hasTxn = true → ∀ a, s.sourceAssignment = some a →
    a.authorityGeneration.value ≤ s.lastAuthorityGen.value

/-- Soundness is about the services, the slots of the routes, the domains, the keys and
the generations, and about the cutover record only if there is one. -/
theorem Sound.congr {s s' : PersistenceSnapshot} (h : Sound s)
    (hservices : s'.services = s.services) (hassignments : s'.assignments = s.assignments)
    (hslots : s'.routes.map (·.slot) = s.routes.map (·.slot)) (hdomains : s'.domains = s.domains)
    (hmemberships : s'.memberships = s.memberships) (hevidence : s'.evidence = s.evidence)
    (hlast : s'.lastAuthorityGen = s.lastAuthorityGen) (htxn : s'.hasTxn = s.hasTxn)
    (hpending : s.hasTxn = true → s'.pendingAssignment = s.pendingAssignment)
    (hsource : s.hasTxn = true → s'.sourceAssignment = s.sourceAssignment) : Sound s' := by
  have hparent : DeclaredParent s' = DeclaredParent s := by
    unfold DeclaredParent
    rw [hdomains]
  constructor
  · intro r hr
    -- a route of the same slot is in the other snapshot
    have hslot : r.slot ∈ s'.routes.map (·.slot) := List.mem_map_of_mem hr
    rw [hslots] at hslot
    obtain ⟨r', hr', heq⟩ := List.mem_map.mp hslot
    rw [hservices, ← heq]
    exact h.routes r' hr'
  · intro ht a ha
    rw [htxn] at ht
    rw [hservices]
    exact h.pending ht a (hpending ht ▸ ha)
  · intro ht a ha
    rw [htxn] at ht
    rw [hservices]
    exact h.source ht a (hsource ht ▸ ha)
  · rw [hmemberships, hdomains]
    exact h.members
  · rw [hparent, hdomains]
    exact h.parents
  · rw [hparent]
    exact h.acyclic
  · rw [hdomains]
    exact h.domainIds
  · rw [hevidence]
    exact h.eventIds
  · rw [hslots]
    exact h.routeSlots
  · rw [hassignments, hlast]
    exact h.authority
  · intro ht a ha
    rw [htxn] at ht
    rw [hlast]
    exact h.sourceAuthority ht a (hsource ht ▸ ha)

theorem slots_rereadRoute (ord : ArgOrder) (rs : List RouteEntry) :
    (rs.map (rereadRoute ord)).map (·.slot) = rs.map (·.slot) := by
  rw [List.map_map]
  rfl

theorem slots_unreadRoute (ord : ArgOrder) (rs : List RouteEntry) :
    (rs.map (unreadRoute ord)).map (·.slot) = rs.map (·.slot) := by
  rw [List.map_map]
  rfl

/-- Reading back neither mends nor breaks a snapshot. -/
theorem sound_of_reread {ord : CallOrders} {s : PersistenceSnapshot} (h : Sound (reread ord s)) :
    Sound s := by
  have htxn : s.hasTxn = true → rereadTxn ord s = ⟨s.txnMilestone, s.pendingAssignment,
      s.sourceAssignment, s.pendingRoute.map (rereadRoute ord.decRoute)⟩ :=
    fun ht => if_pos ht
  refine h.congr rfl rfl (slots_rereadRoute ord.decRoute s.routes).symm rfl rfl rfl rfl rfl ?_ ?_
  · exact fun ht => (congrArg Txn.pending (htxn ht)).symm
  · exact fun ht => (congrArg Txn.source (htxn ht)).symm

theorem sound_of_unread {ord : CallOrders} {s : PersistenceSnapshot} (h : Sound (unread ord s)) :
    Sound s :=
  h.congr rfl rfl (slots_unreadRoute ord.decRoute s.routes).symm rfl rfl rfl rfl rfl
    (fun _ => rfl) fun _ => rfl

/-- **When a file is read into a sound snapshot**: exactly if it was not written from an
unsound one that keeps the rules the decoder does enforce. -/
theorem decode_sound_iff (ord : CallOrders) (blob : List UInt8) :
    (∀ s, decode ord blob = .ok s → Sound s) ↔
      ∀ s, encode s = .ok blob → s.Storable → Valid s → s.Within → Sound s := by
  constructor
  · intro hdecode s he hs hv hw
    have hstored : ∃ blob' s', encode s = .ok blob' ∧ decode ord blob' = .ok s' :=
      restartable_iff.mpr ⟨hs, hv, hw⟩
    obtain ⟨blob', s', he', hd⟩ := hstored
    obtain rfl : blob' = blob := Except.ok.inj (he'.symm.trans he)
    obtain ⟨-, -, -, rfl⟩ := (decode_encode he).mp hd
    exact sound_of_reread (hdecode _ hd)
  · intro hwritten s hd
    have he := encode_unread hd
    obtain ⟨hs, hv, hw⟩ := restartable_iff.mp ⟨blob, s, he, hd⟩
    exact sound_of_unread (hwritten (unread ord s) he hs hv hw)

/-- A snapshot in which everything that is not checked is wrong: routes, a pending and a
source assignment of a service that is not there, a member of an undeclared domain, a
domain that is declared twice, above itself and under an undeclared one, two events and
two routes with one key, and an assignment ahead of the authority generation. -/
def brokenSnapshot : PersistenceSnapshot :=
  let stray : ServiceSlotKey := ⟨⟨8⟩, ⟨1⟩⟩
  { lastAuthorityGen := ⟨1⟩
    services := [{ service := ⟨1⟩ }]
    assignments :=
      [{ id := ⟨1⟩, slot := ⟨⟨1⟩, ⟨1⟩⟩, state := .active, authorityGeneration := ⟨5⟩ }]
    domains := [{ id := ⟨1⟩, parent := some ⟨1⟩ }, { id := ⟨1⟩, parent := some ⟨9⟩ }]
    memberships := [{ target := ⟨1⟩, domain := ⟨7⟩ }]
    evidence := [{ eventId := ⟨1⟩ }, { eventId := ⟨1⟩ }]
    routes := [{ slot := stray }, { slot := stray }]
    hasTxn := true
    pendingAssignment := some { id := ⟨2⟩, slot := stray, state := .authorized }
    sourceAssignment := some { id := ⟨3⟩, slot := stray } }

/-- **A broken snapshot is accepted.** -/
theorem broken_snapshot_accepted :
    (∃ blob, encode brokenSnapshot = .ok blob ∧ decode {} blob = .ok brokenSnapshot) ∧
      (∀ r ∈ brokenSnapshot.routes, r.slot.service ∉ brokenSnapshot.services.map (·.service)) ∧
      (∀ a ∈ brokenSnapshot.pendingAssignment,
        a.slot.service ∉ brokenSnapshot.services.map (·.service)) ∧
      (∀ a ∈ brokenSnapshot.sourceAssignment,
        a.slot.service ∉ brokenSnapshot.services.map (·.service)) ∧
      (∀ m ∈ brokenSnapshot.memberships, m.domain ∉ brokenSnapshot.domains.map (·.id)) ∧
      (DeclaredParent brokenSnapshot ⟨1⟩ ⟨9⟩ ∧ ⟨9⟩ ∉ brokenSnapshot.domains.map (·.id)) ∧
      Relation.TransGen (DeclaredParent brokenSnapshot) ⟨1⟩ ⟨1⟩ ∧
      ¬ (brokenSnapshot.domains.map (·.id)).Nodup ∧
      ¬ (brokenSnapshot.evidence.map (·.eventId)).Nodup ∧
      ¬ (brokenSnapshot.routes.map (·.slot)).Nodup ∧
      (∃ a ∈ brokenSnapshot.assignments,
        brokenSnapshot.lastAuthorityGen.value < a.authorityGeneration.value) ∧
      ¬ ∀ blob s, decode {} blob = .ok s → Sound s := by
  have hfile : ∃ blob, encode brokenSnapshot = .ok blob ∧ decode {} blob = .ok brokenSnapshot := by
    refine ⟨_, rfl, ?_⟩
    decide +kernel
  have hself : DeclaredParent brokenSnapshot ⟨1⟩ ⟨1⟩ :=
    ⟨{ id := ⟨1⟩, parent := some ⟨1⟩ }, by decide, rfl, rfl⟩
  have habove : DeclaredParent brokenSnapshot ⟨1⟩ ⟨9⟩ :=
    ⟨{ id := ⟨1⟩, parent := some ⟨9⟩ }, by decide, rfl, rfl⟩
  refine ⟨hfile, by decide, by decide, by decide, by decide, ⟨habove, by decide⟩, .single hself,
    by decide, by decide, by decide, by decide, fun h => ?_⟩
  obtain ⟨blob, -, hd⟩ := hfile
  exact absurd (h blob _ hd).eventIds (by decide)

end Persistence
end FailoverFabric

import FailoverFabric.Persistence.Validation

/-! # What can be stored and read back

The format has limits: strings and lists of at most 2^22 elements, finite numbers,
listed failure categories, at most 2^30 bytes.  `Storable` says that a record is
within the limits on records, `bytes` how long it is.  What `decode` accepts is
storable (`decode_storable`), and a snapshot can be encoded and decoded exactly
when it is storable, valid and within the limits on the whole
(`restartable_iff`).
-/
namespace FailoverFabric
open Persistence

/-! ## Records -/

/-- A string that the format holds. -/
def TextFits (s : Text) : Prop := s.length ≤ kMaxString

/-- A list whose count the format holds. -/
def CountFits {α : Type} (xs : List α) : Prop := xs.length ≤ kMaxCount

structure CompatibilityRequirement.Storable (c : CompatibilityRequirement) : Prop where
  modelKey : TextFits c.modelKey
  runtimeAbi : TextFits c.runtimeAbi
  dependencies : CountFits c.dependencies
  requiredCapabilities : CountFits c.requiredCapabilities

structure ResourceRequirement.Storable (r : ResourceRequirement) : Prop where
  resourceClass : TextFits r.resourceClass
  amount : r.amount.isFinite = true

structure ServiceDefinition.Storable (d : ServiceDefinition) : Prop where
  name : TextFits d.name
  compatibility : d.compatibility.Storable
  forbiddenOverlapClasses : CountFits d.domainRequirement.forbiddenOverlapClasses
  resourceCount : CountFits d.resources
  resources : ∀ r ∈ d.resources, r.Storable
  requiredState : CountFits d.requiredState

structure Assignment.Storable (a : Assignment) : Prop where
  resourceClaims : CountFits a.resourceClaims
  continuityState : CountFits a.continuityState

def DomainDecl.Storable (d : DomainDecl) : Prop := TextFits d.name

structure FailureEvent.Storable (e : FailureEvent) : Prop where
  category : e.category.listed = true
  confidence : e.confidence.isFinite = true
  mechanism : TextFits e.mechanism
  detail : TextFits e.detail
  affectedDomains : CountFits e.affectedDomains

def RouteEntry.Storable (e : RouteEntry) : Prop := TextFits e.transport

instance (s : Text) : Decidable (TextFits s) := inferInstanceAs (Decidable (_ ≤ _))

instance {α : Type} (xs : List α) : Decidable (CountFits xs) := inferInstanceAs (Decidable (_ ≤ _))

instance (c : CompatibilityRequirement) : Decidable c.Storable :=
  decidable_of_iff (TextFits c.modelKey ∧ TextFits c.runtimeAbi ∧ CountFits c.dependencies ∧
    CountFits c.requiredCapabilities)
    ⟨fun ⟨h1, h2, h3, h4⟩ => ⟨h1, h2, h3, h4⟩, fun ⟨h1, h2, h3, h4⟩ => ⟨h1, h2, h3, h4⟩⟩

instance (r : ResourceRequirement) : Decidable r.Storable :=
  decidable_of_iff (TextFits r.resourceClass ∧ r.amount.isFinite = true)
    ⟨fun ⟨h1, h2⟩ => ⟨h1, h2⟩, fun ⟨h1, h2⟩ => ⟨h1, h2⟩⟩

instance (d : ServiceDefinition) : Decidable d.Storable :=
  decidable_of_iff (TextFits d.name ∧ d.compatibility.Storable ∧
    CountFits d.domainRequirement.forbiddenOverlapClasses ∧ CountFits d.resources ∧
    (∀ r ∈ d.resources, r.Storable) ∧ CountFits d.requiredState)
    ⟨fun ⟨h1, h2, h3, h4, h5, h6⟩ => ⟨h1, h2, h3, h4, h5, h6⟩,
      fun ⟨h1, h2, h3, h4, h5, h6⟩ => ⟨h1, h2, h3, h4, h5, h6⟩⟩

instance (a : Assignment) : Decidable a.Storable :=
  decidable_of_iff (CountFits a.resourceClaims ∧ CountFits a.continuityState)
    ⟨fun ⟨h1, h2⟩ => ⟨h1, h2⟩, fun ⟨h1, h2⟩ => ⟨h1, h2⟩⟩

instance (d : DomainDecl) : Decidable d.Storable := inferInstanceAs (Decidable (TextFits _))

instance (e : FailureEvent) : Decidable e.Storable :=
  decidable_of_iff (e.category.listed = true ∧ e.confidence.isFinite = true ∧ TextFits e.mechanism ∧
    TextFits e.detail ∧ CountFits e.affectedDomains)
    ⟨fun ⟨h1, h2, h3, h4, h5⟩ => ⟨h1, h2, h3, h4, h5⟩,
      fun ⟨h1, h2, h3, h4, h5⟩ => ⟨h1, h2, h3, h4, h5⟩⟩

instance (e : RouteEntry) : Decidable e.Storable := inferInstanceAs (Decidable (TextFits _))

/-! ## Sizes -/

def textBytes (s : Text) : Nat := 4 + s.length

def optBytes {α : Type} (f : α → Nat) : Option α → Nat
  | none => 1
  | some x => 1 + f x

def listBytes {α : Type} (f : α → Nat) (xs : List α) : Nat := 4 + (xs.map f).sum

/-- The size of a list of ids. -/
def idsBytes {tag : Tag} (ids : List (Id tag)) : Nat := listBytes (fun _ => 8) ids

def CompatibilityRequirement.bytes (c : CompatibilityRequirement) : Nat :=
  [textBytes c.modelKey, textBytes c.runtimeAbi, optBytes (fun _ => 8) c.readinessProfile,
    idsBytes c.dependencies, idsBytes c.requiredCapabilities].sum

def DomainRequirement.bytes (d : DomainRequirement) : Nat :=
  [1, 4, 4, listBytes (fun _ => 1) d.forbiddenOverlapClasses].sum

def ResourceRequirement.bytes (r : ResourceRequirement) : Nat := [textBytes r.resourceClass, 8, 1].sum

def RecoveryObjective.bytes (o : RecoveryObjective) : Nat :=
  [8, 1, 1, 8, optBytes (fun _ => 8) o.minCheckpointGen, 1].sum

def ServiceDefinition.bytes (d : ServiceDefinition) : Nat :=
  [8, 8, 8, textBytes d.name, 1, 4, 4, d.compatibility.bytes, d.domainRequirement.bytes,
    listBytes (·.bytes) d.resources, d.recovery.bytes, 1, 13, idsBytes d.requiredState, 1, 8].sum

def Assignment.bytes (a : Assignment) : Nat :=
  [8, 8, 16, 8, 8, 8, 8, 8, 8, 8, 8, 8, 8, 8, 8, 8, idsBytes a.resourceClaims,
    idsBytes a.continuityState, 1, 1, 1].sum

def DomainDecl.bytes (d : DomainDecl) : Nat :=
  [8, 8, 1, textBytes d.name, optBytes (fun _ => 8) d.parent, 1].sum

def FailureEvent.bytes (e : FailureEvent) : Nat :=
  [8, 8, 8, 8, 1, 1, 1, 1, 8, optBytes (fun _ => 8) e.target, optBytes (fun _ => 8) e.targetGeneration,
    optBytes (fun _ => 8) e.domain, 16, 16, textBytes e.mechanism, textBytes e.detail,
    idsBytes e.affectedDomains, 1].sum

def RouteEntry.bytes (e : RouteEntry) : Nat :=
  [8, 8, 16, 8, 8, 8, 8, 8, 8, 24, 8, 1, textBytes e.transport, 1].sum

namespace Persistence
open Codec Codec.Put

theorem size_u8 (v : UInt8) : Size (putU8 v) 1 := ⟨[v], rfl, rfl⟩

theorem size_u32 (n : Nat) : Size (putU32 n) 4 := ⟨_, rfl, leBytes_length 4 n⟩

theorem size_u64 (v : UInt64) : Size (putU64 v) 8 := ⟨_, rfl, leBytes_length 8 v.toNat⟩

theorem size_id {tag : Tag} (i : Id tag) : Size (putId i) 8 := size_u64 i.value

theorem size_gen {tag : Tag} (g : Gen tag) : Size (putGen g) 8 := size_u64 g.value

theorem size_bool (b : Bool) : Size (putBool b) 1 := size_u8 _

theorem size_enum {E : Type} [ByteEnum E] (e : E) : Size (putEnum e) 1 := size_u8 _

theorem size_double {v : F64} (h : v.isFinite = true) : Size (putDouble v) 8 := by
  rw [putDouble, if_pos h]
  exact size_u64 v.bits

theorem size_string {s : Text} (h : TextFits s) : Size (putString s) (textBytes s) := by
  refine ⟨leBytes 4 s.length ++ s, ?_, by simp [textBytes]⟩
  rw [putString]
  exact if_pos h

theorem size_opt {α : Type} {put : α → Put} {f : α → Nat} (o : Option α)
    (h : ∀ x, o = some x → Size (put x) (f x)) : Size (putOpt put o) (optBytes f o) := by
  cases o with
  | none => exact Size.seq (.cons (size_bool _) .nil)
  | some x => exact Size.seq (.cons (size_bool _) (.cons (h x rfl) .nil))

theorem size_list {α : Type} {put : α → Put} {f : α → Nat} {xs : List α}
    (h : ∀ x ∈ xs, Size (put x) (f x)) : Size (putList put xs) (listBytes f xs) :=
  Size.seq (.cons (size_u32 _) (Size.map h))

theorem size_ids {tag : Tag} (ids : List (Id tag)) : Size (putList putId ids) (idsBytes ids) :=
  size_list fun i _ => size_id i

theorem size_ts (t : Timestamp) : Size (encTs t) 16 :=
  Size.seq (.cons (size_u64 _) (.cons (size_u64 _) .nil))

theorem size_slotkey (s : ServiceSlotKey) : Size (encSlotkey s) 16 :=
  Size.seq (.cons (size_id _) (.cons (size_id _) .nil))

theorem size_epoch (e : CoordinatorEpoch) : Size (encEpoch e) 24 :=
  Size.seq (.cons (size_u64 _) (.cons (size_id _) (.cons (size_id _) .nil)))

theorem size_compat {c : CompatibilityRequirement} (h : c.Storable) : Size (encCompat c) c.bytes :=
  Size.seq (.cons (size_string h.modelKey) (.cons (size_string h.runtimeAbi)
    (.cons (size_opt _ fun _ _ => size_id _) (.cons (size_ids _) (.cons (size_ids _) .nil)))))

theorem size_domreq (d : DomainRequirement) : Size (encDomreq d) d.bytes :=
  Size.seq (.cons (size_bool _) (.cons (size_u32 _) (.cons (size_u32 _)
    (.cons (size_list fun _ _ => size_enum _) .nil))))

theorem size_resreq {r : ResourceRequirement} (h : r.Storable) : Size (encResreq r) r.bytes :=
  Size.seq (.cons (size_string h.resourceClass) (.cons (size_double h.amount)
    (.cons (size_bool _) .nil)))

theorem size_reco (o : RecoveryObjective) : Size (encReco o) o.bytes :=
  Size.seq (.cons (size_u64 _) (.cons (size_enum _) (.cons (size_enum _) (.cons (size_u64 _)
    (.cons (size_opt _ fun _ _ => size_gen _) (.cons (size_bool _) .nil))))))

theorem size_afp (p : AntiFlappingPolicy) : Size (encAfp p) 13 :=
  Size.seq (.cons (size_u32 _) (.cons (size_u32 _) (.cons (size_u32 _) (.cons (size_bool _) .nil))))

theorem size_svc {d : ServiceDefinition} (h : d.Storable) : Size (encSvc d) d.bytes :=
  Size.seq (.cons (size_id _) (.cons (size_gen _) (.cons (size_gen _) (.cons (size_string h.name)
    (.cons (size_enum _) (.cons (size_u32 _) (.cons (size_u32 _) (.cons (size_compat h.compatibility)
    (.cons (size_domreq _) (.cons (size_list fun r hr => size_resreq (h.resources r hr))
    (.cons (size_reco _) (.cons (size_enum _) (.cons (size_afp _) (.cons (size_ids _)
    (.cons (size_enum _) (.cons (size_gen _) .nil))))))))))))))))

theorem size_assign (a : Assignment) : Size (encAssign a) a.bytes :=
  Size.seq (.cons (size_id _) (.cons (size_gen _) (.cons (size_slotkey _) (.cons (size_id _)
    (.cons (size_gen _) (.cons (size_id _) (.cons (size_gen _) (.cons (size_id _)
    (.cons (size_id _) (.cons (size_id _) (.cons (size_gen _) (.cons (size_id _)
    (.cons (size_gen _) (.cons (size_id _) (.cons (size_gen _) (.cons (size_id _)
    (.cons (size_ids _) (.cons (size_ids _) (.cons (size_enum _) (.cons (size_bool _)
    (.cons (size_enum _) .nil)))))))))))))))))))))

theorem size_domdecl {d : DomainDecl} (h : d.Storable) : Size (encDomdecl d) d.bytes :=
  Size.seq (.cons (size_id _) (.cons (size_gen _) (.cons (size_enum _) (.cons (size_string h)
    (.cons (size_opt _ fun _ _ => size_id _) (.cons (size_enum _) .nil))))))

theorem size_memb (m : DomainMembership) : Size (encMemb m) 17 :=
  Size.seq (.cons (size_id _) (.cons (size_id _) (.cons (size_bool _) .nil)))

theorem size_ev {e : FailureEvent} (h : e.Storable) : Size (encEv e) e.bytes :=
  Size.seq (.cons (size_id _) (.cons (size_gen _) (.cons (size_id _) (.cons (size_id _)
    (.cons (size_enum _) (.cons (size_enum _) (.cons (size_enum _) (.cons (size_enum _)
    (.cons (size_double h.confidence) (.cons (size_opt _ fun _ _ => size_id _)
    (.cons (size_opt _ fun _ _ => size_gen _) (.cons (size_opt _ fun _ _ => size_id _)
    (.cons (size_ts _) (.cons (size_ts _) (.cons (size_string h.mechanism)
    (.cons (size_string h.detail) (.cons (size_ids _) (.cons (size_bool _) .nil))))))))))))))))))

theorem size_route {e : RouteEntry} (h : e.Storable) : Size (encRoute e) e.bytes :=
  Size.seq (.cons (size_id _) (.cons (size_gen _) (.cons (size_slotkey _) (.cons (size_id _)
    (.cons (size_gen _) (.cons (size_id _) (.cons (size_id _) (.cons (size_id _)
    (.cons (size_gen _) (.cons (size_epoch _) (.cons (size_id _) (.cons (size_enum _)
    (.cons (size_string h) (.cons (size_enum _) .nil))))))))))))))

/-! ## What the decoders accept -/

theorem yields_str : Yields str TextFits := by
  refine .any fun len => .check fun hlen => ?_
  intro bs s rest h
  have hle : len.toNat ≤ kMaxString := by simpa [require_eq_ok] using hlen
  unfold readBytes at h
  split at h
  · cases h
  · cases h
    rw [TextFits, List.length_take]
    omega

theorem yields_dbl : Yields dbl fun v => v.isFinite = true := by
  refine .any fun u => .check fun hfin => .pure ?_
  exact require_eq_ok.mp hfin

theorem yields_opt {α : Type} {g : Reader α} {P : α → Prop} (h : Yields g P) :
    Yields (opt g) fun o => ∀ x, o = some x → P x := by
  refine .any fun b => ?_
  cases b with
  | false => exact .pure nofun
  | true =>
    refine h.bind fun v hv => .pure fun x hx => ?_
    cases hx
    exact hv

theorem yields_list {α : Type} {g : Reader α} {P : α → Prop} (h : Yields g P) :
    Yields (getList g) fun xs => CountFits xs ∧ ∀ x ∈ xs, P x := by
  have hcount : Yields count fun n => n ≤ kMaxCount := by
    refine .any fun c => .check fun hc => .pure ?_
    simpa [require_eq_ok] using hc
  refine hcount.bind fun n hn => (Yields.readN h n).mono fun xs hxs => ⟨?_, hxs.2⟩
  rw [CountFits, hxs.1]
  exact hn

theorem yields_any {α : Type} (g : Reader α) : Yields g fun _ => True := fun _ _ _ _ => trivial

theorem yields_ids (tag : Tag) : Yields (getList (decId tag)) CountFits :=
  (yields_list (yields_any _)).mono fun _ h => h.1

theorem yields_category : Yields (getEnum FailureCategory) fun c => c.listed = true := by
  refine .any fun v => ?_
  cases hv : ByteEnum.ofByte (E := FailureCategory) v with
  | none => exact fun _ _ _ h => by cases h
  | some c =>
    refine .pure ?_
    have hmem : c ∈ (ByteEnum.values : List FailureCategory) := List.mem_of_find?_eq_some hv
    have hall : ∀ c ∈ (ByteEnum.values : List FailureCategory), c.listed = true := by decide
    exact hall c hmem

theorem yields_compat : Yields decCompat CompatibilityRequirement.Storable :=
  yields_str.bind fun _ hm => yields_str.bind fun _ hr => .any fun _ =>
    (yields_ids _).bind fun _ hd => (yields_ids _).bind fun _ hc => .pure ⟨hm, hr, hd, hc⟩

theorem yields_domreq : Yields decDomreq fun d => CountFits d.forbiddenOverlapClasses :=
  .any fun _ => .any fun _ => .any fun _ =>
    (yields_list (yields_any _)).bind fun _ h => .pure h.1

theorem yields_resreq : Yields decResreq ResourceRequirement.Storable :=
  yields_str.bind fun _ hc => yields_dbl.bind fun _ ha => .any fun _ => .pure ⟨hc, ha⟩

theorem yields_svc : Yields decSvc ServiceDefinition.Storable :=
  .any fun _ => .any fun _ => .any fun _ => yields_str.bind fun _ hname => .any fun _ =>
    .any fun _ => .any fun _ => yields_compat.bind fun _ hcompat => yields_domreq.bind fun _ hdom =>
    (yields_list yields_resreq).bind fun _ hres => .any fun _ => .any fun _ => .any fun _ =>
    (yields_ids _).bind fun _ hstate => .any fun _ => .any fun _ =>
    .pure ⟨hname, hcompat, hdom, hres.1, hres.2, hstate⟩

theorem yields_assign : Yields decAssign Assignment.Storable :=
  .any fun _ => .any fun _ => .any fun _ => .any fun _ => .any fun _ => .any fun _ => .any fun _ =>
    .any fun _ => .any fun _ => .any fun _ => .any fun _ => .any fun _ => .any fun _ => .any fun _ =>
    .any fun _ => .any fun _ => (yields_ids _).bind fun _ hclaims => (yields_ids _).bind fun _ hstate =>
    .any fun _ => .any fun _ => .any fun _ => .pure ⟨hclaims, hstate⟩

theorem yields_domdecl : Yields decDomdecl DomainDecl.Storable :=
  .any fun _ => .any fun _ => .any fun _ => yields_str.bind fun _ hname => .any fun _ =>
    .any fun _ => .pure hname

theorem yields_ev : Yields decEv FailureEvent.Storable :=
  .any fun _ => .any fun _ => .any fun _ => .any fun _ => yields_category.bind fun _ hcat =>
    .any fun _ => .any fun _ => .any fun _ => yields_dbl.bind fun _ hconf => .any fun _ =>
    .any fun _ => .any fun _ => .any fun _ => .any fun _ => yields_str.bind fun _ hmech =>
    yields_str.bind fun _ hdet => (yields_ids _).bind fun _ haff => .any fun _ =>
    .pure ⟨hcat, hconf, hmech, hdet, haff⟩

theorem yields_route (ord : ArgOrder) : Yields (decRoute ord) RouteEntry.Storable :=
  .any fun _ => .any fun _ => .any fun _ => .any fun _ => .any fun _ => .any fun _ => .any fun _ =>
    .any fun _ => .any fun _ => .any fun _ => .any fun _ => .any fun _ =>
    yields_str.bind fun _ htransport => .any fun _ => .pure htransport

end Persistence

/-! ## Snapshots -/

/-- Every record of the snapshot is storable, and a pending replacement is
authorized. -/
structure PersistenceSnapshot.Storable (s : PersistenceSnapshot) : Prop where
  version : s.formatVersion = kVersion
  services : ∀ d ∈ s.services, d.Storable
  assignments : ∀ a ∈ s.assignments, a.Storable
  domains : ∀ d ∈ s.domains, d.Storable
  evidence : ∀ e ∈ s.evidence, e.Storable
  routes : ∀ e ∈ s.routes, e.Storable
  pending : s.hasTxn = true → ∀ a, s.pendingAssignment = some a → a.Storable ∧ a.state = .authorized
  source : s.hasTxn = true → ∀ a, s.sourceAssignment = some a → a.Storable
  route : s.hasTxn = true → ∀ e, s.pendingRoute = some e → e.Storable

/-- The size of the cutover record. -/
def PersistenceSnapshot.txnBytes (s : PersistenceSnapshot) : Nat :=
  if s.hasTxn then
    [1, optBytes (·.bytes) s.pendingAssignment, optBytes (·.bytes) s.sourceAssignment,
      optBytes (·.bytes) s.pendingRoute].sum
  else 0

/-- The size of the payload. -/
def PersistenceSnapshot.bytes (s : PersistenceSnapshot) : Nat :=
  [4, 24, 8, 8, listBytes (·.bytes) s.services, listBytes (·.bytes) s.assignments,
    listBytes (·.bytes) s.domains, listBytes (fun _ => 17) s.memberships,
    listBytes (·.bytes) s.evidence, listBytes (·.bytes) s.routes, idsBytes s.fencedBoots, 1,
    s.txnBytes].sum

/-- The snapshot is within the limits on the whole. -/
structure PersistenceSnapshot.Within (s : PersistenceSnapshot) : Prop where
  services : CountFits s.services
  assignments : CountFits s.assignments
  domains : CountFits s.domains
  memberships : CountFits s.memberships
  evidence : CountFits s.evidence
  routes : CountFits s.routes
  fencedBoots : CountFits s.fencedBoots
  bytes : s.bytes ≤ kMaxBlob

namespace Persistence
open Codec Codec.Put
variable {s : PersistenceSnapshot}

theorem size_txn (h : s.Storable) : Size (encTxn s) s.txnBytes := by
  unfold encTxn PersistenceSnapshot.txnBytes
  cases htxn : s.hasTxn with
  | false => exact Size.seq .nil
  | true =>
    exact Size.seq (.cons (size_enum _) (.cons (size_opt _ fun _ _ => size_assign _)
      (.cons (size_opt _ fun _ _ => size_assign _)
      (.cons (size_opt _ fun e he => size_route (h.route htxn e he)) .nil))))

/-- **The payload of a storable snapshot** has the snapshot's size. -/
theorem size_payload (h : s.Storable) : Size (encPayload s) s.bytes :=
  Size.seq (.cons (size_u32 _) (.cons (size_epoch _) (.cons (size_gen _) (.cons (size_gen _)
    (.cons (size_list fun d hd => size_svc (h.services d hd))
    (.cons (size_list fun a _ => size_assign a)
    (.cons (size_list fun d hd => size_domdecl (h.domains d hd))
    (.cons (size_list fun m _ => size_memb m)
    (.cons (size_list fun e he => size_ev (h.evidence e he))
    (.cons (size_list fun e he => size_route (h.routes e he))
    (.cons (size_ids _) (.cons (size_bool _) (.cons (size_txn h) .nil)))))))))))))

theorem yields_txn (ord : CallOrders) (hasTxn : Bool) : Yields (decTxn ord hasTxn) fun t =>
    (∀ a, t.pending = some a → a.Storable ∧ a.state = .authorized) ∧
      (∀ a, t.source = some a → a.Storable) ∧ ∀ e, t.route = some e → e.Storable := by
  cases hasTxn with
  | false => exact .pure ⟨nofun, nofun, nofun⟩
  | true =>
    refine .any fun _ => (yields_opt yields_assign).bind fun pending hp =>
      (yields_opt yields_assign).bind fun _ hs => (yields_opt (yields_route _)).bind fun _ hr =>
      .check fun hauth => .pure ⟨fun a ha => ⟨hp a ha, ?_⟩, hs, hr⟩
    subst ha
    simpa [checkPending, require_eq_ok] using hauth

theorem yields_payload (ord : CallOrders) :
    Yields (decPayload ord) PersistenceSnapshot.Storable := by
  refine .any fun version => .check fun hv => .any fun _ => .any fun _ => .any fun _ =>
    (yields_list yields_svc).bind fun _ hsvc => (yields_list yields_assign).bind fun _ hassign =>
    (yields_list yields_domdecl).bind fun _ hdom => .any fun _ =>
    (yields_list yields_ev).bind fun _ hev => (yields_list (yields_route _)).bind fun _ hroute =>
    .any fun _ => .any fun hasTxn => (yields_txn ord hasTxn).bind fun txn htxn => .pure ?_
  exact ⟨by simpa [require_eq_ok] using hv, hsvc.2, hassign.2, hdom.2, hev.2, hroute.2,
    fun _ => htxn.1, fun _ => htxn.2.1, fun _ => htxn.2.2⟩

/-- **Whatever `decode` accepts is storable.** -/
theorem decode_storable {ord : CallOrders} {blob : List UInt8} (h : decode ord blob = .ok s) :
    s.Storable := by
  obtain ⟨payload, -, hd, -⟩ := decode_eq_ok h
  exact yields_payload ord payload s [] hd

/-! ## The checks on what was written -/

theorem checkCount_eq_ok {α : Type} {xs : List α} : checkCount xs.length = .ok () ↔ CountFits xs := by
  rw [checkCount, require_eq_ok, decide_eq_true_iff, CountFits]

theorem pure_eq_ok : (pure () : Except Error Unit) = .ok () ↔ True := by
  simp [pure, Except.pure]

theorem checkList_eq_ok {α : Type} {c : α → Except Error Unit} {xs : List α} :
    checkList c xs = .ok () ↔ CountFits xs ∧ ∀ x ∈ xs, c x = .ok () := by
  rw [checkList, bind_eq_ok, checkCount_eq_ok, checkAll_eq_ok]

theorem checkSvc_ok {d : ServiceDefinition} (h : d.Storable) : checkSvc d = .ok () := by
  simp only [checkSvc, checkCompat, checkDomreq, bind_eq_ok, checkCount_eq_ok, pure_eq_ok, and_true]
  exact ⟨⟨h.compatibility.dependencies, h.compatibility.requiredCapabilities⟩,
    h.forbiddenOverlapClasses, h.resourceCount, h.requiredState⟩

theorem checkAssign_ok {a : Assignment} (h : a.Storable) : checkAssign a = .ok () := by
  simp only [checkAssign, bind_eq_ok, checkCount_eq_ok, pure_eq_ok, and_true]
  exact ⟨h.resourceClaims, h.continuityState⟩

theorem checkEv_ok {e : FailureEvent} (h : e.Storable) : checkEv e = .ok () := by
  simp only [checkEv, checkCategory, bind_eq_ok, require_eq_ok, checkCount_eq_ok, pure_eq_ok, and_true]
  exact ⟨h.category, h.affectedDomains⟩

theorem checkOpt_ok {α : Type} {c : α → Except Error Unit} {o : Option α}
    (h : ∀ x, o = some x → c x = .ok ()) : checkOpt c o = .ok () := by
  cases o with
  | none => rfl
  | some x => exact h x rfl

theorem checkTxn_ok (h : s.Storable) : checkTxn s = .ok () := by
  unfold checkTxn
  split
  · rename_i htxn
    simp only [bind_eq_ok, pure_eq_ok, and_true]
    refine ⟨checkOpt_ok fun a ha => checkAssign_ok (h.pending htxn a ha).1,
      checkOpt_ok fun a ha => checkAssign_ok (h.source htxn a ha), ?_⟩
    rw [checkPending, require_eq_ok]
    cases hp : s.pendingAssignment with
    | none => rfl
    | some a => simpa using (h.pending htxn a hp).2
  · rfl

theorem checkPayload_ok (h : s.Storable) (hw : s.Within) : checkPayload s = .ok () := by
  simp only [checkPayload, bind_eq_ok, require_eq_ok, checkList_eq_ok, checkCount_eq_ok, pure_eq_ok,
    and_true, beq_iff_eq]
  exact ⟨h.version, ⟨hw.services, fun d hd => checkSvc_ok (h.services d hd)⟩,
    ⟨hw.assignments, fun a ha => checkAssign_ok (h.assignments a ha)⟩, hw.domains, hw.memberships,
    ⟨hw.evidence, fun e he => checkEv_ok (h.evidence e he)⟩, hw.routes, hw.fencedBoots,
    checkTxn_ok h⟩

/-! ## Restartable snapshots -/

/-- What was read back is storable only if the original is. -/
theorem storable_of_reread {ord : CallOrders} (h : (reread ord s).Storable) : s.Storable := by
  refine ⟨h.version, h.services, h.assignments, h.domains, h.evidence, fun e he => ?_,
    fun htxn a ha => ?_, fun htxn a ha => ?_, fun htxn e he => ?_⟩
  · exact h.routes (rereadRoute ord.decRoute e) (List.mem_map_of_mem he)
  · exact h.pending htxn a (by simp [reread, rereadTxn, htxn, ha])
  · exact h.source htxn a (by simp [reread, rereadTxn, htxn, ha])
  · exact h.route htxn (rereadRoute ord.decRoute e) (by simp [reread, rereadTxn, htxn, he])

/-- **What can be restarted from.**  A snapshot can be encoded, and what is
written decoded, exactly when it is storable, valid and within the limits. -/
theorem restartable_iff {ord : CallOrders} :
    (∃ blob snap, encode s = .ok blob ∧ decode ord blob = .ok snap) ↔
      s.Storable ∧ Valid s ∧ s.Within := by
  constructor
  · rintro ⟨blob, snap, he, hd⟩
    have hst := decode_storable hd
    -- what was decoded is the snapshot reread, so its records say the same
    obtain ⟨⟨payload, hp, hle⟩, hcheck, hv, rfl⟩ := (decode_encode he).mp hd
    have hs := storable_of_reread hst
    refine ⟨hs, valid_reread.mp (validate_eq_ok.mp hv), ?_⟩
    simp only [checkPayload, bind_eq_ok, require_eq_ok, checkList_eq_ok, checkCount_eq_ok,
      pure_eq_ok] at hcheck
    obtain ⟨-, hsvc, hassign, hdom, hmemb, hev, hroute, hboots, -⟩ := hcheck
    exact ⟨hsvc.1, hassign.1, hdom, hmemb, hev.1, hroute, hboots,
      (size_payload hs).length hp ▸ hle⟩
  -- a storable snapshot has a payload of the computed size, which the limit admits
  · rintro ⟨hs, hv, hw⟩
    obtain ⟨payload, hp, hlen⟩ := size_payload hs
    have he : encode s = .ok (frame payload) := encode_eq_ok.mpr ⟨hs.version, payload, hp, rfl⟩
    refine ⟨_, reread ord s, he, (decode_encode he).mpr ⟨⟨payload, hp, ?_⟩, checkPayload_ok hs hw,
      validate_eq_ok.mpr (valid_reread.mpr hv), rfl⟩⟩
    rw [hlen]
    exact hw.bytes

end Persistence

end FailoverFabric

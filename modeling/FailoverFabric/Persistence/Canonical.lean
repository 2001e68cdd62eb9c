import FailoverFabric.Persistence.Storable

/-! # One spelling for each snapshot

The other direction of the round trip: what a decoder consumed is what the
encoder writes for the value it produced.  Every field has one spelling: a
boolean is `0` or `1`, an enumerator its byte, a count and a length four bytes,
and the cutover record is there exactly when its flag says so.  With the frame
inverted as well (`frame_of_payloadOf`), whatever `decode` accepts is what
`encode` writes for the snapshot that came out (`encode_decode`).

The epochs are read back as they were written only if the compiler evaluates the
arguments of their constructor from left to right; both directions are stated for
that order, which is the default of `CallOrders`.  For another order the words of an
epoch are put back in the order they were read in (`unread`), and what is accepted is
what `encode` writes for that snapshot (`encode_unread`).
-/
namespace FailoverFabric
namespace Persistence
open Codec

/-! ## Fields -/

theorem spells_u8 : Spells u8 putU8 := by
  intro bs v rest h
  change (readLE truncated 1 bs >>= fun s => Except.ok (UInt8.ofNat s.1, s.2)) = _ at h
  cases hr : readLE truncated 1 bs with
  | error e => rw [hr] at h; cases h
  | ok s =>
    obtain ⟨n, tail⟩ := s
    rw [hr] at h
    cases h
    obtain ⟨hlt, hbs⟩ := readLE_eq_ok hr
    refine ⟨[UInt8.ofNat n], rfl, ?_⟩
    rw [hbs, leBytes, leBytes, Nat.mod_eq_of_lt (b := 256) hlt]

theorem spells_u32 : Spells u32 fun v => putU32 v.toNat := by
  intro bs v rest h
  change (readLE truncated 4 bs >>= fun s => Except.ok (UInt32.ofNat s.1, s.2)) = _ at h
  cases hr : readLE truncated 4 bs with
  | error e => rw [hr] at h; cases h
  | ok s =>
    obtain ⟨n, tail⟩ := s
    rw [hr] at h
    cases h
    obtain ⟨hlt, hbs⟩ := readLE_eq_ok hr
    refine ⟨leBytes 4 n, ?_, hbs⟩
    show putU32 (UInt32.ofNat n).toNat = _
    rw [UInt32.toNat_ofNat_of_lt' hlt, putU32]

theorem spells_u64 : Spells u64 putU64 := by
  intro bs v rest h
  change (readLE truncated 8 bs >>= fun s => Except.ok (UInt64.ofNat s.1, s.2)) = _ at h
  cases hr : readLE truncated 8 bs with
  | error e => rw [hr] at h; cases h
  | ok s =>
    obtain ⟨n, tail⟩ := s
    rw [hr] at h
    cases h
    obtain ⟨hlt, hbs⟩ := readLE_eq_ok hr
    refine ⟨leBytes 8 n, ?_, hbs⟩
    rw [putU64, UInt64.toNat_ofNat_of_lt' hlt]

theorem spells_id {tag : Tag} : Spells (decId tag) putId := spells_u64.map fun _ => rfl

theorem spells_gen {tag : Tag} : Spells (decGen tag) putGen := spells_u64.map fun _ => rfl

theorem spells_boolean : Spells boolean putBool := by
  refine .record (.field spells_u8 fun v => .check fun hv => .pure ?_)
  have hle : v ≤ 1 := by simpa [require_eq_ok] using hv
  have hcase : v = 0 ∨ v = 1 := by
    have := UInt8.le_iff_toNat_le.mp hle
    simp only [← UInt8.toNat_inj]
    simp at this ⊢
    omega
  rcases hcase with rfl | rfl <;> rfl

theorem spells_dbl : Spells dbl putDouble := by
  refine .record (.field spells_u64 fun u => .check fun hfin => .pure ?_)
  rw [putDouble, if_pos (require_eq_ok.mp hfin)]
  exact (Put.append_nil _).symm

theorem spells_str : Spells str putString := by
  refine .record (.field spells_u32 fun len => .check fun hlen => ?_)
  have hle : len.toNat ≤ kMaxString := by simpa [require_eq_ok] using hlen
  intro bs s rest h
  obtain ⟨hs, hbs⟩ := readBytes_eq_ok h
  refine ⟨[.ok s], s, ?_, by simp [Put.seq, Put.append], hbs⟩
  rw [putString, if_pos (hs ▸ hle), hs]
  simp [Put.seq, Put.append, putU32]

theorem spells_enum (E : Type) [ByteEnum E] : Spells (getEnum E) putEnum := by
  refine .record (.field spells_u8 fun v => ?_)
  cases hv : ByteEnum.ofByte (E := E) v with
  | none => exact fun _ _ _ h => by cases h
  | some e =>
    refine .pure ?_
    have hbyte : ByteEnum.toByte e = v := by
      have h := List.find?_some (p := fun e : E => ByteEnum.toByte e == v) hv
      exact eq_of_beq h
    rw [putEnum, hbyte]
    exact (Put.append_nil _).symm

theorem spells_opt {α : Type} {g : Reader α} {put : α → Put} (h : Spells g put) :
    Spells (opt g) (putOpt put) := by
  refine .record (.field spells_boolean fun b => ?_)
  cases b with
  | false => exact .pure rfl
  | true => exact .field h fun v => .pure rfl

theorem spells_count : Spells count putU32 := by
  refine .record (.field spells_u32 fun c => .check fun _ => .pure ?_)
  exact (Put.append_nil _).symm

theorem spells_list {α : Type} {g : Reader α} {put : α → Put} (h : Spells g put) :
    Spells (getList g) (putList put) := by
  refine .record (.field spells_count fun n => ?_)
  intro bs xs rest hx
  have hlen := (Yields.readN (yields_any g) n bs xs rest hx).1
  obtain ⟨as, has, hbs⟩ := h.readN n bs xs rest hx
  refine ⟨xs.map put, as, ?_, has, hbs⟩
  rw [putList, hlen]
  rfl

/-! ## Records -/

theorem spells_ts : Spells decTs encTs :=
  .record (.field spells_u64 fun _ => .field spells_u64 fun _ => .pure (by simp [encTs]))

theorem spells_slotkey : Spells decSlotkey encSlotkey :=
  .record (.field spells_id fun _ => .field spells_id fun _ => .pure rfl)

theorem spells_ids (tag : Tag) : Spells (getList (decId tag)) (putList putId) := spells_list spells_id

theorem spells_compat : Spells decCompat encCompat :=
  .record (.field spells_str fun _ => .field spells_str fun _ =>
    .field (spells_opt spells_id) fun _ => .field (spells_ids _) fun _ =>
    .field (spells_ids _) fun _ => .pure rfl)

theorem spells_domreq : Spells decDomreq encDomreq :=
  .record (.field spells_boolean fun _ => .field spells_u32 fun _ => .field spells_u32 fun _ =>
    .field (spells_list (spells_enum _)) fun _ => .pure rfl)

theorem spells_resreq : Spells decResreq encResreq :=
  .record (.field spells_str fun _ => .field spells_dbl fun _ => .field spells_boolean fun _ =>
    .pure rfl)

theorem spells_reco : Spells decReco encReco :=
  .record (.field spells_u64 fun _ => .field (spells_enum _) fun _ => .field (spells_enum _) fun _ =>
    .field spells_u64 fun _ => .field (spells_opt spells_gen) fun _ =>
    .field spells_boolean fun _ => .pure rfl)

theorem spells_afp : Spells decAfp encAfp :=
  .record (.field spells_u32 fun _ => .field spells_u32 fun _ => .field spells_u32 fun _ =>
    .field spells_boolean fun _ => .pure rfl)

theorem spells_svc : Spells decSvc encSvc :=
  .record (.field spells_id fun _ => .field spells_gen fun _ => .field spells_gen fun _ =>
    .field spells_str fun _ => .field (spells_enum _) fun _ => .field spells_u32 fun _ =>
    .field spells_u32 fun _ => .field spells_compat fun _ => .field spells_domreq fun _ =>
    .field (spells_list spells_resreq) fun _ => .field spells_reco fun _ =>
    .field (spells_enum _) fun _ => .field spells_afp fun _ => .field (spells_ids _) fun _ =>
    .field (spells_enum _) fun _ => .field spells_gen fun _ => .pure rfl)

theorem spells_assign : Spells decAssign encAssign :=
  .record (.field spells_id fun _ => .field spells_gen fun _ => .field spells_slotkey fun _ =>
    .field spells_id fun _ => .field spells_gen fun _ => .field spells_id fun _ =>
    .field spells_gen fun _ => .field spells_id fun _ => .field spells_id fun _ =>
    .field spells_id fun _ => .field spells_gen fun _ => .field spells_id fun _ =>
    .field spells_gen fun _ => .field spells_id fun _ => .field spells_gen fun _ =>
    .field spells_id fun _ => .field (spells_ids _) fun _ => .field (spells_ids _) fun _ =>
    .field (spells_enum _) fun _ => .field spells_boolean fun _ => .field (spells_enum _) fun _ =>
    .pure rfl)

theorem spells_domdecl : Spells decDomdecl encDomdecl :=
  .record (.field spells_id fun _ => .field spells_gen fun _ => .field (spells_enum _) fun _ =>
    .field spells_str fun _ => .field (spells_opt spells_id) fun _ => .field (spells_enum _) fun _ =>
    .pure rfl)

theorem spells_memb : Spells decMemb encMemb :=
  .record (.field spells_id fun _ => .field spells_id fun _ => .field spells_boolean fun _ =>
    .pure rfl)

theorem spells_ev : Spells decEv encEv :=
  .record (.field spells_id fun _ => .field spells_gen fun _ => .field spells_id fun _ =>
    .field spells_id fun _ => .field (spells_enum _) fun _ => .field (spells_enum _) fun _ =>
    .field (spells_enum _) fun _ => .field (spells_enum _) fun _ => .field spells_dbl fun _ =>
    .field (spells_opt spells_id) fun _ => .field (spells_opt spells_gen) fun _ =>
    .field (spells_opt spells_id) fun _ => .field spells_ts fun _ => .field spells_ts fun _ =>
    .field spells_str fun _ => .field spells_str fun _ => .field (spells_ids _) fun _ =>
    .field spells_boolean fun _ => .pure rfl)

/-! ## Epochs -/

/-- The epoch whose three words are read as the given one. -/
def ArgOrder.unread : ArgOrder → CoordinatorEpoch → CoordinatorEpoch
  | valueIdBoot, e => e
  | valueBootId, e => ⟨e.value, e.boot, e.id⟩
  | idValueBoot, e => ⟨e.id.value, ⟨e.value⟩, e.boot⟩
  | idBootValue, e => ⟨e.id.value, e.boot, ⟨e.value⟩⟩
  | bootValueId, e => ⟨e.boot.value, ⟨e.value⟩, e.id⟩
  | bootIdValue, e => ⟨e.boot.value, e.id, ⟨e.value⟩⟩

def unreadRoute (ord : ArgOrder) (e : RouteEntry) : RouteEntry :=
  { e with epoch := ord.unread e.epoch }

theorem unread_build (ord : ArgOrder) (x y z : UInt64) :
    ord.unread (ord.build x y z) = ⟨x, ⟨y⟩, ⟨z⟩⟩ := by
  cases ord <;> rfl

theorem spells_epoch (ord : ArgOrder) :
    Spells (decEpoch ord) fun e => encEpoch (ord.unread e) := by
  refine .record (.field spells_u64 fun x => .field spells_u64 fun y =>
    .field spells_u64 fun z => .pure ?_)
  rw [unread_build]
  rfl

theorem spells_route (ord : ArgOrder) :
    Spells (decRoute ord) fun e => encRoute (unreadRoute ord e) :=
  .record (.field spells_id fun _ => .field spells_gen fun _ => .field spells_slotkey fun _ =>
    .field spells_id fun _ => .field spells_gen fun _ => .field spells_id fun _ =>
    .field spells_id fun _ => .field spells_id fun _ => .field spells_gen fun _ =>
    .field (spells_epoch ord) fun _ => .field spells_id fun _ => .field (spells_enum _) fun _ =>
    .field spells_str fun _ => .field (spells_enum _) fun _ => .pure rfl)

/-! ## The payload -/

/-- The cutover record that follows its flag. -/
def encTxnOf (hasTxn : Bool) (t : Txn) : Put :=
  if hasTxn then
    Put.seq [putEnum t.milestone, putOpt encAssign t.pending, putOpt encAssign t.source,
      putOpt encRoute t.route]
  else Put.seq []

theorem putOpt_map {α β : Type} (put : β → Put) (f : α → β) (o : Option α) :
    putOpt put (o.map f) = putOpt (fun x => put (f x)) o := by
  cases o <;> rfl

theorem putList_map {α β : Type} (put : β → Put) (f : α → β) (xs : List α) :
    putList put (xs.map f) = putList (fun x => put (f x)) xs := by
  rw [putList, putList, List.length_map, List.map_map]
  rfl

theorem spells_txn (ord : CallOrders) (hasTxn : Bool) :
    Spells (decTxn ord hasTxn) fun t =>
      encTxnOf hasTxn { t with route := t.route.map (unreadRoute ord.decRoute) } := by
  cases hasTxn with
  | false => exact .record (.pure rfl)
  | true =>
    refine .record (.field (spells_enum _) fun _ => .field (spells_opt spells_assign) fun _ =>
      .field (spells_opt spells_assign) fun _ =>
      .field (spells_opt (spells_route ord.decRoute)) fun _ => .check fun _ => .pure ?_)
    rw [encTxnOf, if_pos rfl, putOpt_map]
    rfl

/-- The snapshot whose epochs are read as those of the given one. -/
def unread (ord : CallOrders) (s : PersistenceSnapshot) : PersistenceSnapshot :=
  { s with
    epoch := ord.decEpoch.unread s.epoch
    routes := s.routes.map (unreadRoute ord.decRoute)
    pendingRoute := s.pendingRoute.map (unreadRoute ord.decRoute) }

/-- **The payload has one spelling.** -/
theorem spells_payload (ord : CallOrders) :
    Spells (decPayload ord) fun s => encPayload (unread ord s) := by
  refine .record (.field spells_u32 fun _ => .check fun _ => .field (spells_epoch _) fun _ =>
    .field spells_gen fun _ => .field spells_gen fun _ => .field (spells_list spells_svc) fun _ =>
    .field (spells_list spells_assign) fun _ => .field (spells_list spells_domdecl) fun _ =>
    .field (spells_list spells_memb) fun _ => .field (spells_list spells_ev) fun _ =>
    .field (spells_list (spells_route ord.decRoute)) fun _ => .field (spells_ids _) fun _ =>
    .field spells_boolean fun hasTxn => .field (spells_txn ord hasTxn) fun _ => .pure ?_)
  rw [encPayload, unread, putList_map]
  rfl

/-! ## The frame -/

/-- A field of the header, as bytes. -/
theorem leBytes_slice {blob : List UInt8} {i k n : Nat} (hlen : i + k ≤ blob.length)
    (h : ofLE ((blob.drop i).take k) = n) : (blob.drop i).take k = leBytes k n := by
  have hk : ((blob.drop i).take k).length = k := by
    rw [List.length_take, List.length_drop]
    omega
  have hbytes := leBytes_ofLE ((blob.drop i).take k)
  rw [hk, h] at hbytes
  exact hbytes.symm

/-- **The header, inverted**: a blob that passes its checks is the frame of the
payload they admit. -/
theorem frame_of_payloadOf {blob payload : List UInt8} (h : payloadOf blob = .ok payload) :
    blob = frame payload := by
  unfold payloadOf at h
  simp only [require_bind_eq_ok, decide_eq_true_eq, beq_iff_eq] at h
  obtain ⟨-, hmagic, hversion, -, hlen, hsum, hp⟩ := h
  cases hp
  generalize hn : statedLength blob = n at hlen hsum ⊢
  -- the five parts of the blob, from the left
  have hpayload : ((blob.drop 20).take n).length = n := by
    rw [List.length_take, List.length_drop]
    omega
  have hver := leBytes_slice (i := 8) (k := 4) (by omega) hversion
  have hstated := leBytes_slice (i := 12) (k := 8) (by omega) hn
  have hcheck := leBytes_slice (i := 20 + n) (k := 8) (by omega) hsum.symm
  have hbody : blob.take (20 + n) = body ((blob.drop 20).take n) := by
    have h12 : blob.take 12 = blob.take 8 ++ (blob.drop 8).take 4 :=
      List.take_add (i := 8) (j := 4)
    have h20 : blob.take 20 = blob.take 12 ++ (blob.drop 12).take 8 :=
      List.take_add (i := 12) (j := 8)
    rw [body, hpayload, ← hmagic, ← hver, ← hstated, ← h12, ← h20]
    exact List.take_add ..
  have hrest : blob.drop (20 + n) = leBytes 8 (fnv1a (blob.take (20 + n))).toNat := by
    rw [← hcheck, List.take_of_length_le]
    rw [List.length_drop]
    omega
  rw [frame_eq, ← hbody, ← hrest, List.take_append_drop]

/-! ## Both directions -/

/-- The transaction fields are the defaults. -/
structure DefaultTxn (s : PersistenceSnapshot) : Prop where
  milestone : s.txnMilestone = .verificationComplete
  pending : s.pendingAssignment = none
  source : s.sourceAssignment = none
  route : s.pendingRoute = none

theorem rereadRoute_default (e : RouteEntry) : rereadRoute .valueIdBoot e = e := rfl

/-- From left to right, a snapshot is read back as it is. -/
theorem reread_default {s : PersistenceSnapshot} (h : s.hasTxn = false → DefaultTxn s) :
    reread {} s = s := by
  have hroute : rereadRoute .valueIdBoot = id := funext rereadRoute_default
  have htxn : rereadTxn {} s = ⟨s.txnMilestone, s.pendingAssignment, s.sourceAssignment,
      s.pendingRoute⟩ := by
    unfold rereadTxn
    split
    · rw [hroute, Option.map_id, id]
    · rename_i hno
      obtain ⟨hm, hp, hs, hr⟩ := h (by simpa using hno)
      rw [hm, hp, hs, hr]
  unfold reread
  rw [htxn, hroute, List.map_id]
  rfl

/-- **The round trip.**  A snapshot of the present version whose records are
storable, which obeys the semantic rules and the limits on the whole, and whose
transaction fields are the defaults unless a cutover is recorded, is encoded and
decoded to itself. -/
theorem encode_roundtrip (s : PersistenceSnapshot) (hs : s.Storable) (hv : Valid s) (hw : s.Within)
    (htxn : s.hasTxn = false → DefaultTxn s) :
    ∃ blob, encode s = .ok blob ∧ decode {} blob = .ok s := by
  have hstored : ∃ blob snap, encode s = .ok blob ∧ decode {} blob = .ok snap :=
    restartable_iff.mpr ⟨hs, hv, hw⟩
  obtain ⟨blob, snap, he, hd⟩ := hstored
  obtain ⟨-, -, -, rfl⟩ := (decode_encode he).mp hd
  rw [reread_default htxn] at hd
  exact ⟨blob, he, hd⟩

/-- One of each record: a service with a slot, its active assignment, a domain, a
member, an event, a route, a fence, and a cutover that is incomplete. -/
def sampleSnapshot : PersistenceSnapshot :=
  let slot : ServiceSlotKey := ⟨⟨1⟩, ⟨1⟩⟩
  { services := [{ service := ⟨1⟩, name := text "svc" }]
    assignments := [{ id := ⟨1⟩, slot := slot, state := .active }]
    domains := [{ id := ⟨1⟩ }]
    memberships := [{ target := ⟨1⟩, domain := ⟨1⟩ }]
    evidence := [{ eventId := ⟨1⟩, target := some ⟨1⟩ }]
    routes := [{ slot := slot, state := .acknowledged }]
    fencedBoots := [⟨11⟩]
    hasTxn := true
    txnMilestone := .oldAdmissionFenced
    pendingAssignment := some { id := ⟨2⟩, slot := slot, state := .authorized } }

theorem encode_roundtrip_sample :
    sampleSnapshot.hasTxn = true ∧
      ∃ blob, encode sampleSnapshot = .ok blob ∧ decode {} blob = .ok sampleSnapshot := by
  refine ⟨rfl, encode_roundtrip sampleSnapshot ?_ ?_ ?_ nofun⟩
  · refine ⟨rfl, by decide, by decide, by decide, by decide, by decide, fun _ a ha => ?_, nofun, nofun⟩
    cases ha
    exact ⟨by decide, rfl⟩
  · exact ⟨by decide, by decide, by decide, by decide, by decide⟩
  · exact ⟨by decide, by decide, by decide, by decide, by decide, by decide, by decide, by decide⟩

/-- A snapshot with one event, whose category is a byte that names no enumerator. -/
def unlistedSnapshot : PersistenceSnapshot :=
  { evidence := [{ eventId := ⟨1⟩, category := .unlisted 13 (by decide) }] }

/-- **A category that is not an enumerator is written but not read.**  The
snapshot keeps to the version, the limits, the semantic rules and the default
transaction fields; it is encoded, and what is written is refused. -/
theorem unlisted_category_refused :
    unlistedSnapshot.formatVersion = 2 ∧ unlistedSnapshot.Within ∧ Valid unlistedSnapshot ∧
      (∀ e ∈ unlistedSnapshot.evidence, e.confidence.isFinite = true ∧ TextFits e.mechanism ∧
        TextFits e.detail ∧ CountFits e.affectedDomains) ∧
      unlistedSnapshot.services = [] ∧ unlistedSnapshot.assignments = [] ∧
      unlistedSnapshot.domains = [] ∧ unlistedSnapshot.routes = [] ∧
      unlistedSnapshot.hasTxn = false ∧ DefaultTxn unlistedSnapshot ∧
      ∃ blob, encode unlistedSnapshot = .ok blob ∧
        decode {} blob = .error (.runtimeError "invalid FailureCategory") := by
  refine ⟨rfl, ⟨by decide, by decide, by decide, by decide, by decide, by decide, by decide,
    by decide⟩, ⟨by decide, by decide, by decide, by decide, by decide⟩, by decide, rfl, rfl, rfl,
    rfl, rfl, ⟨rfl, rfl, rfl, rfl⟩, ?_⟩
  refine ⟨_, rfl, ?_⟩
  decide +kernel

/-- **What is accepted was encoded**: it is what `encode` writes for the snapshot that
came out, the words of its epochs put back. -/
theorem encode_unread {ord : CallOrders} {blob : List UInt8} {s : PersistenceSnapshot}
    (h : decode ord blob = .ok s) : encode (unread ord s) = .ok blob := by
  obtain ⟨payload, hp, hd, -⟩ := decode_eq_ok h
  obtain ⟨as, hput, hpayload⟩ := spells_payload ord payload s [] hd
  rw [List.append_nil] at hpayload
  subst hpayload
  exact encode_eq_ok.mpr ⟨(decode_storable h).version, payload, hput, frame_of_payloadOf hp⟩

/-- From left to right there is nothing to put back. -/
theorem unread_default (s : PersistenceSnapshot) : unread {} s = s := by
  have hroute : unreadRoute .valueIdBoot = id := rfl
  rw [unread, hroute, List.map_id, Option.map_id]
  rfl

/-- **Persistence is canonical.**  Whatever `decode` accepts is, byte for byte,
what `encode` writes for the snapshot that came out; so no other blob decodes to
that snapshot. -/
theorem encode_decode (blob : List UInt8) (s : PersistenceSnapshot) (h : decode {} blob = .ok s) :
    encode s = .ok blob ∧ ∀ blob', decode {} blob' = .ok s → blob' = blob := by
  have hencode : ∀ b, decode {} b = .ok s → encode s = .ok b := by
    intro b hb
    have hb := encode_unread hb
    rwa [unread_default] at hb
  refine ⟨hencode blob h, fun blob' h' => ?_⟩
  have heq := (hencode blob' h').symm.trans (hencode blob h)
  cases heq
  rfl

/-- The bytes of the sample. -/
def sampleBlob : List UInt8 :=
  match encode sampleSnapshot with
  | .ok blob => blob
  | .error _ => []

theorem encode_decode_sample :
    decode {} sampleBlob = .ok sampleSnapshot ∧ encode sampleSnapshot = .ok sampleBlob := by
  have hd : decode {} sampleBlob = .ok sampleSnapshot := by decide +kernel
  exact ⟨hd, (encode_decode sampleBlob sampleSnapshot hd).1⟩

/-! ## Corruption -/

/-- Multiplication by the FNV prime loses nothing: the prime is odd, so it has an
inverse modulo 2^64. -/
theorem fnvPrime_cancel {x y : UInt64} (h : x * 1099511628211 = y * 1099511628211) : x = y := by
  have hinv : (1099511628211 : UInt64) * 14886173955864302971 = 1 := by decide
  calc x = x * (1099511628211 * 14886173955864302971) := by rw [hinv, UInt64.mul_one]
    _ = y * 1099511628211 * 14886173955864302971 := by rw [← UInt64.mul_assoc, h]
    _ = y := by rw [UInt64.mul_assoc, hinv, UInt64.mul_one]

/-- **The checksum tells apart two bodies that differ in one byte.** -/
theorem fnv1a_ne {xs ys : List UInt8} (h : DiffersOnce xs ys) : fnv1a xs ≠ fnv1a ys := by
  refine foldl_ne_of_differsOnce (fun u b c hstep => ?_) (fun b u v hstep => ?_) h _
  · have hxor := (UInt64.xor_right_inj u).mp (fnvPrime_cancel hstep)
    exact UInt8.toUInt64_inj.mp hxor
  · exact (UInt64.xor_left_inj b.toUInt64).mp (fnvPrime_cancel hstep)

/-- Two frames of one length do not differ in exactly one byte. -/
theorem frame_not_differsOnce (p q : List UInt8) : ¬ DiffersOnce (frame p) (frame q) := by
  intro h
  have hlen := h.length
  rw [frame_length, frame_length] at hlen
  have hbody : (body p).length = (body q).length := by
    rw [body_length, body_length]
    omega
  rw [frame_eq, frame_eq] at h
  rcases h.of_append hbody with ⟨hdiff, hsum⟩ | ⟨hsame, hdiff⟩
  -- a byte of the body differs, and the stored checksums are equal
  · have heq : (fnv1a (body p)).toNat = (fnv1a (body q)).toNat := by
      rw [← ofLE_leBytes 8 _ (UInt64.toNat_lt (fnv1a (body p))), hsum,
        ofLE_leBytes 8 _ (UInt64.toNat_lt _)]
    exact fnv1a_ne hdiff (UInt64.toNat_inj.mp heq)
  -- a byte of the checksum differs, and the bodies are equal
  · exact hdiff.ne (by rw [hsame])

/-- **A single corrupted byte is always caught**: whatever `decode` accepts, it
refuses after any one byte of it, wherever it stands, has been changed. -/
theorem corruption_refused (ord : CallOrders) {blob blob' : List UInt8} {s : PersistenceSnapshot}
    (h : decode ord blob = .ok s) (hdiff : DiffersOnce blob blob') :
    ∃ e, decode ord blob' = .error e := by
  cases hd : decode ord blob' with
  | error e => exact ⟨e, rfl⟩
  | ok s' =>
    obtain ⟨p, hp, -⟩ := decode_eq_ok h
    obtain ⟨q, hq, -⟩ := decode_eq_ok hd
    rw [frame_of_payloadOf hp, frame_of_payloadOf hq] at hdiff
    exact absurd hdiff (frame_not_differsOnce p q)

/-- The sample with the first byte of its magic changed. -/
theorem corruption_refused_sample :
    DiffersOnce sampleBlob (0 :: sampleBlob.tail) ∧
      ∃ e, decode {} (0 :: sampleBlob.tail) = .error e := by
  have hd : decode {} sampleBlob = .ok sampleSnapshot := by decide +kernel
  have hdiff : DiffersOnce sampleBlob (0 :: sampleBlob.tail) :=
    ⟨[], 70, 0, sampleBlob.tail, by decide, by decide +kernel, rfl⟩
  exact ⟨hdiff, corruption_refused {} hd hdiff⟩

end Persistence
end FailoverFabric

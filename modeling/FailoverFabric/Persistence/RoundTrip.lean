import FailoverFabric.Persistence.Format

/-! # Reading back a snapshot

Each decoder undoes its encoder, up to the checks that only the decoder makes:
counts, and categories that name no enumerator.  `Reads` carries them as an
equation, field by field, so `decode_encode` says exactly what `decode` does with
what `encode` wrote: check the size, make those checks, validate, and return the
snapshot as it was, with its epochs as the compiler's argument order rereads
them.
-/
namespace FailoverFabric
namespace Persistence
open Codec

variable {lim : Nat}

/-! ## Fields -/

theorem reads_u8 (v : UInt8) : Reads lim u8 (putU8 v) (.ok ()) v := by
  intro bs h _ rest
  cases h
  have hb := readLE_leBytes truncated 1 v.toNat (by simpa using v.toNat_lt) rest
  simp only [leBytes] at hb
  show (readLE truncated 1 ([v] ++ rest) >>= fun s => Except.ok (UInt8.ofNat s.1, s.2)) = _
  rw [Nat.mod_eq_of_lt v.toNat_lt, UInt8.ofNat_toNat] at hb
  rw [hb]
  simp [bind, Except.bind]

theorem reads_u32 (v : UInt32) : Reads lim u32 (putU32 v.toNat) (.ok ()) v := by
  intro bs h _ rest
  cases h
  show (readLE truncated 4 (leBytes 4 v.toNat ++ rest) >>= fun s =>
    Except.ok (UInt32.ofNat s.1, s.2)) = _
  rw [readLE_leBytes truncated 4 v.toNat (by simpa using v.toNat_lt) rest]
  simp [bind, Except.bind]

theorem reads_u64 (v : UInt64) : Reads lim u64 (putU64 v) (.ok ()) v := by
  intro bs h _ rest
  cases h
  show (readLE truncated 8 (leBytes 8 v.toNat ++ rest) >>= fun s =>
    Except.ok (UInt64.ofNat s.1, s.2)) = _
  rw [readLE_leBytes truncated 8 v.toNat (by simpa using v.toNat_lt) rest]
  simp [bind, Except.bind]

theorem reads_id {tag : Tag} (i : Id tag) : Reads lim (decId tag) (putId i) (.ok ()) i :=
  Reads.map (fun v => (⟨v⟩ : Id tag)) (reads_u64 i.value)

theorem reads_gen {tag : Tag} (g : Gen tag) : Reads lim (decGen tag) (putGen g) (.ok ()) g :=
  Reads.map (fun v => (⟨v⟩ : Gen tag)) (reads_u64 g.value)

theorem reads_boolean (b : Bool) : Reads lim boolean (putBool b) (.ok ()) b := by
  intro bs h hlen rest
  have e := (reads_u8 (if b then 1 else 0) : Reads lim _ _ _ _) bs h hlen rest
  show (u8 (bs ++ rest) >>= fun s =>
    (StateT.lift (require (s.1 ≤ 1) "invalid bool") >>= fun _ => pure (s.1 == 1) : Reader Bool) s.2)
      = _
  rw [e]
  cases b <;> rfl

theorem reads_dbl (v : F64) : Reads lim dbl (putDouble v) (.ok ()) v := by
  intro bs h hlen rest
  unfold putDouble at h
  split at h
  · rename_i hfin
    have e := (reads_u64 v.bits : Reads lim _ _ _ _) bs h hlen rest
    show (u64 (bs ++ rest) >>= fun s =>
      (StateT.lift (require (F64.mk s.1).isFinite "non-finite value") >>= fun _ =>
        pure (F64.mk s.1) : Reader F64) s.2) = _
    rw [e]
    show ((StateT.lift (require v.isFinite "non-finite value") >>= fun _ =>
        pure v : Reader F64) rest) = _
    rw [hfin]
    rfl
  · cases h

theorem reads_str (s : Text) : Reads lim str (putString s) (.ok ()) s := by
  intro bs h hlen rest
  unfold putString at h
  split at h
  · rename_i hle
    cases h
    have hlt : s.length < 2 ^ 32 := Nat.lt_of_le_of_lt hle (by decide)
    have hn : (UInt32.ofNat s.length).toNat = s.length := UInt32.toNat_ofNat_of_lt' hlt
    have e := (reads_u32 (UInt32.ofNat s.length) : Reads lim _ _ _ _) (leBytes 4 s.length)
      (by rw [hn]; rfl) (by simp at hlen ⊢; omega) (s ++ rest)
    show (u32 (leBytes 4 s.length ++ s ++ rest) >>= fun c =>
      (StateT.lift (require (c.1.toNat ≤ kMaxString) "string too large") >>= fun _ =>
        readBytes truncated c.1.toNat : Reader Text) c.2) = _
    rw [List.append_assoc, e]
    show ((StateT.lift (require ((UInt32.ofNat s.length).toNat ≤ kMaxString) "string too large") >>=
      fun _ => readBytes truncated (UInt32.ofNat s.length).toNat : Reader Text) (s ++ rest)) = _
    rw [hn]
    simp only [require, hle, decide_true, ite_true]
    exact readBytes_append truncated s rest
  · cases h

/-! ## Enumerations -/

/-- The bytes of the enumerators are distinct. -/
class LawfulByteEnum (E : Type) [ByteEnum E] : Prop where
  ofByte_toByte : ∀ e : E, ByteEnum.ofByte (ByteEnum.toByte e) = some e

instance : LawfulByteEnum EvidenceStatus := ⟨fun e => by cases e <;> rfl⟩
instance : LawfulByteEnum Provenance := ⟨fun e => by cases e <;> rfl⟩
instance : LawfulByteEnum Severity := ⟨fun e => by cases e <;> rfl⟩
instance : LawfulByteEnum AssignmentState := ⟨fun e => by cases e <;> rfl⟩
instance : LawfulByteEnum ContinuityClass := ⟨fun e => by cases e <;> rfl⟩
instance : LawfulByteEnum DomainClass := ⟨fun e => by cases e <;> rfl⟩
instance : LawfulByteEnum FailbackPolicy := ⟨fun e => by cases e <;> rfl⟩
instance : LawfulByteEnum RouteState := ⟨fun e => by cases e <;> rfl⟩
instance : LawfulByteEnum ServingRole := ⟨fun e => by cases e <;> rfl⟩
instance : LawfulByteEnum RtoAnchor := ⟨fun e => by cases e <;> rfl⟩
instance : LawfulByteEnum Milestone := ⟨fun e => by cases e <;> rfl⟩

/-- What reading an enumeration does after its byte. -/
theorem getEnum_apply (E : Type) [ByteEnum E] {bs rest : List UInt8} {v : UInt8}
    (h : u8 bs = .ok (v, rest)) :
    getEnum E bs = match ByteEnum.ofByte (E := E) v with
      | some e => .ok (e, rest)
      | none => .error (Error.runtimeError ("invalid " ++ ByteEnum.typeName E)) := by
  show (u8 bs >>= fun s => (match ByteEnum.ofByte (E := E) s.1 with
    | some e => (pure e : Reader E)
    | none => throw (Error.runtimeError ("invalid " ++ ByteEnum.typeName E))) s.2) = _
  rw [h]
  show (match ByteEnum.ofByte (E := E) v with
    | some e => (pure e : Reader E)
    | none => throw (Error.runtimeError ("invalid " ++ ByteEnum.typeName E))) rest = _
  cases ByteEnum.ofByte (E := E) v <;> rfl

theorem reads_enum {E : Type} [ByteEnum E] [LawfulByteEnum E] (e : E) :
    Reads lim (getEnum E) (putEnum e) (.ok ()) e := by
  intro bs h hlen rest
  rw [getEnum_apply E (reads_u8 (ByteEnum.toByte e) bs h hlen rest), LawfulByteEnum.ofByte_toByte]
  rfl

theorem ofByte_category (c : FailureCategory) :
    ByteEnum.ofByte (ByteEnum.toByte c) = if c.listed then some c else none := by
  cases c with
  | unlisted b h =>
    refine List.find?_eq_none.mpr fun e he => ?_
    have hle : ∀ e ∈ (ByteEnum.values : List FailureCategory), ByteEnum.toByte e ≤ (12 : UInt8) := by
      decide
    have hne : ByteEnum.toByte e ≠ b := fun heq => by
      have := hle e he
      rw [heq] at this
      exact absurd h (UInt8.not_lt.mpr this)
    show ¬ (ByteEnum.toByte e == b) = true
    simpa using hne
  | _ => rfl

/-- The check that a decoder makes of a category. -/
def checkCategory (c : FailureCategory) : Except Error Unit :=
  require c.listed "invalid FailureCategory"

theorem reads_category (c : FailureCategory) :
    Reads lim (getEnum FailureCategory) (putEnum c) (checkCategory c) c := by
  intro bs h hlen rest
  rw [getEnum_apply FailureCategory (reads_u8 (ByteEnum.toByte c) bs h hlen rest),
    ofByte_category, checkCategory]
  cases c.listed <;> rfl

/-! ## Options and lists -/

/-- A check on what an option holds. -/
def checkOpt {α : Type} (c : α → Except Error Unit) : Option α → Except Error Unit
  | none => .ok ()
  | some x => c x

theorem reads_opt {α β : Type} {g : Reader β} {put : α → Put} {c : α → Except Error Unit}
    {f : α → β} (o : Option α) (h : ∀ x, o = some x → Reads lim g (put x) (c x) (f x)) :
    Reads lim (opt g) (putOpt put o) (checkOpt c o) (o.map f) := by
  cases o with
  | none => exact Reads.field (reads_boolean false) (Reads.pure _)
  | some x =>
    refine Reads.field (reads_boolean true) ?_
    show Reads lim (g >>= fun v => pure (some v)) _ _ _
    intro bs hbs hlen rest
    obtain ⟨b, b', hb, hb', rfl⟩ := Put.seq_cons_eq_ok.mp hbs
    cases hb'
    rw [List.append_nil] at hlen ⊢
    exact Reads.map some (h x rfl) b hb hlen rest

/-- The check on a count. -/
def checkCount (n : Nat) : Except Error Unit := require (n ≤ kMaxCount) "count too large"

theorem reads_count {n : Nat} (h : n < 2 ^ 32) :
    Reads lim count (putU32 n) (checkCount n) n := by
  intro bs hbs hlen rest
  have hn : (UInt32.ofNat n).toNat = n := UInt32.toNat_ofNat_of_lt' h
  have e := (reads_u32 (UInt32.ofNat n) : Reads lim _ _ _ _) bs (by rw [hn]; exact hbs) hlen rest
  show (u32 (bs ++ rest) >>= fun c =>
    (StateT.lift (require (c.1.toNat ≤ kMaxCount) "count too large") >>= fun _ =>
      pure c.1.toNat : Reader Nat) c.2) = _
  rw [e]
  show ((StateT.lift (require ((UInt32.ofNat n).toNat ≤ kMaxCount) "count too large") >>= fun _ =>
      pure (UInt32.ofNat n).toNat : Reader Nat) rest) = _
  rw [hn]
  show (StateT.lift (checkCount n) >>= fun _ => pure n : Reader Nat) rest = _
  cases checkCount n <;> rfl

/-- Whatever the encoder writes has at least one byte. -/
def Written (p : Put) : Prop := ∀ bs, p = .ok bs → 0 < bs.length

theorem Written.seq_cons {p : Put} {ps : List Put} (h : Written p) : Written (Put.seq (p :: ps)) := by
  intro bs hbs
  obtain ⟨a, b, ha, -, rfl⟩ := Put.seq_cons_eq_ok.mp hbs
  have := h a ha
  rw [List.length_append]
  omega

theorem written_u64 (v : UInt64) : Written (putU64 v) := by
  intro bs h
  cases h
  simp

theorem written_u8 (v : UInt8) : Written (putU8 v) := by
  intro bs h
  cases h
  simp

theorem written_str (s : Text) : Written (putString s) := by
  intro bs h
  unfold putString at h
  split at h
  · cases h
    rw [List.length_append, leBytes_length]
    omega
  · cases h

theorem length_le_seq {α : Type} {put : α → Put} (h : ∀ x, Written (put x)) (xs : List α)
    {bs : List UInt8} (hbs : Put.seq (xs.map put) = .ok bs) : xs.length ≤ bs.length := by
  induction xs generalizing bs with
  | nil => simp
  | cons x xs ih =>
    obtain ⟨a, b, ha, hb, rfl⟩ := Put.seq_cons_eq_ok.mp hbs
    have h1 := h x a ha
    have h2 := ih hb
    simp only [List.length_cons, List.length_append]
    omega

/-- The check on a list: its count, then its elements. -/
def checkList {α : Type} (c : α → Except Error Unit) (xs : List α) : Except Error Unit := do
  checkCount xs.length
  checkAll c xs

theorem reads_list {α β : Type} {g : Reader β} {put : α → Put} {c : α → Except Error Unit}
    {f : α → β} (hlim : lim ≤ 2 ^ 32) (hw : ∀ x, Written (put x))
    (h : ∀ x, Reads lim g (put x) (c x) (f x)) (xs : List α) :
    Reads lim (getList g) (putList put xs) (checkList c xs) (xs.map f) := by
  intro bs hbs hlen rest
  have hxs : xs.length < 2 ^ 32 := by
    obtain ⟨a, b, -, hb, rfl⟩ := Put.seq_cons_eq_ok.mp hbs
    have := length_le_seq hw xs hb
    rw [List.length_append] at hlen
    omega
  exact Reads.bind (reads_count hxs) (Reads.readN xs fun x _ => h x) bs hbs hlen rest

/-- A list whose elements are always accepted. -/
theorem reads_plain_list {α : Type} {g : Reader α} {put : α → Put} (hlim : lim ≤ 2 ^ 32)
    (hw : ∀ x, Written (put x)) (h : ∀ x, Reads lim g (put x) (.ok ()) x) (xs : List α) :
    Reads lim (getList g) (putList put xs) (checkCount xs.length) xs := by
  refine (reads_list (f := id) hlim hw h xs).congr ?_ (List.map_id xs)
  rw [checkList, checkAll_ok]
  cases checkCount xs.length <;> rfl

theorem reads_plain_opt {α : Type} {g : Reader α} {put : α → Put}
    (h : ∀ x, Reads lim g (put x) (.ok ()) x) (o : Option α) :
    Reads lim (opt g) (putOpt put o) (.ok ()) o := by
  refine (reads_opt (f := id) o fun x _ => h x).congr ?_ (by simp)
  cases o <;> rfl

/-! ## Records -/

/-! Each record is written as its first field and more. -/

theorem written_id {tag : Tag} (i : Id tag) : Written (putId i) := written_u64 i.value

theorem written_enum {E : Type} [ByteEnum E] (e : E) : Written (putEnum e) :=
  written_u8 (ByteEnum.toByte e)

theorem written_resreq (r : ResourceRequirement) : Written (encResreq r) :=
  (written_str r.resourceClass).seq_cons

theorem written_svc (s : ServiceDefinition) : Written (encSvc s) := (written_id s.service).seq_cons

theorem written_assign (a : Assignment) : Written (encAssign a) := (written_id a.id).seq_cons

theorem written_domdecl (d : DomainDecl) : Written (encDomdecl d) := (written_id d.id).seq_cons

theorem written_memb (m : DomainMembership) : Written (encMemb m) := (written_id m.target).seq_cons

theorem written_ev (e : FailureEvent) : Written (encEv e) := (written_id e.eventId).seq_cons

theorem written_route (e : RouteEntry) : Written (encRoute e) := (written_id e.route).seq_cons

theorem reads_ts (t : Timestamp) : Reads lim decTs (encTs t) (.ok ()) t := by
  refine .field (reads_u64 _) (.field (reads_u64 _) ?_)
  exact (Reads.pure _).congr rfl (by simp)

theorem reads_slotkey (s : ServiceSlotKey) : Reads lim decSlotkey (encSlotkey s) (.ok ()) s :=
  .field (reads_id _) (.field (reads_id _) (.pure _))

theorem reads_resreq (r : ResourceRequirement) : Reads lim decResreq (encResreq r) (.ok ()) r :=
  .field (reads_str _) (.field (reads_dbl _) (.field (reads_boolean _) (.pure _)))

theorem reads_reco (o : RecoveryObjective) : Reads lim decReco (encReco o) (.ok ()) o :=
  .field (reads_u64 _) (.field (reads_enum _) (.field (reads_enum _) (.field (reads_u64 _)
    (.field (reads_plain_opt reads_gen _) (.field (reads_boolean _) (.pure _))))))

theorem reads_afp (p : AntiFlappingPolicy) : Reads lim decAfp (encAfp p) (.ok ()) p :=
  .field (reads_u32 _) (.field (reads_u32 _) (.field (reads_u32 _) (.field (reads_boolean _)
    (.pure _))))

theorem reads_domdecl (d : DomainDecl) : Reads lim decDomdecl (encDomdecl d) (.ok ()) d :=
  .field (reads_id _) (.field (reads_gen _) (.field (reads_enum _) (.field (reads_str _)
    (.field (reads_plain_opt reads_id _) (.field (reads_enum _) (.pure _))))))

theorem reads_memb (m : DomainMembership) : Reads lim decMemb (encMemb m) (.ok ()) m :=
  .field (reads_id _) (.field (reads_id _) (.field (reads_boolean _) (.pure _)))

theorem reads_epoch (ord : ArgOrder) (e : CoordinatorEpoch) :
    Reads lim (decEpoch ord) (encEpoch e) (.ok ()) (ord.reread e) :=
  .field (reads_u64 _) (.field (reads_u64 _) (.field (reads_u64 _) (.pure _)))

/-- A route as it is read back. -/
def rereadRoute (ord : ArgOrder) (e : RouteEntry) : RouteEntry :=
  { e with epoch := ord.reread e.epoch }

theorem reads_route (ord : ArgOrder) (e : RouteEntry) :
    Reads lim (decRoute ord) (encRoute e) (.ok ()) (rereadRoute ord e) :=
  .field (reads_id _) (.field (reads_gen _) (.field (reads_slotkey _) (.field (reads_id _)
    (.field (reads_gen _) (.field (reads_id _) (.field (reads_id _) (.field (reads_id _)
    (.field (reads_gen _) (.field (reads_epoch ord _) (.field (reads_id _) (.field (reads_enum _)
    (.field (reads_str _) (.field (reads_enum _) (.pure _))))))))))))))

section
variable (hlim : lim ≤ 2 ^ 32)
include hlim

theorem reads_ids {tag : Tag} (ids : List (Id tag)) :
    Reads lim (getList (decId tag)) (putList putId ids) (checkCount ids.length) ids :=
  reads_plain_list hlim written_id reads_id ids

/-- The checks on a compatibility requirement. -/
def checkCompat (c : CompatibilityRequirement) : Except Error Unit := do
  checkCount c.dependencies.length
  checkCount c.requiredCapabilities.length
  return ()

theorem reads_compat (c : CompatibilityRequirement) :
    Reads lim decCompat (encCompat c) (checkCompat c) c :=
  .field (reads_str _) (.field (reads_str _) (.field (reads_plain_opt reads_id _)
    (.bind (reads_ids hlim _) (.bind (reads_ids hlim _) (.pure _)))))

def checkDomreq (d : DomainRequirement) : Except Error Unit := do
  checkCount d.forbiddenOverlapClasses.length
  return ()

theorem reads_domreq (d : DomainRequirement) :
    Reads lim decDomreq (encDomreq d) (checkDomreq d) d :=
  .field (reads_boolean _) (.field (reads_u32 _) (.field (reads_u32 _)
    (.bind (reads_plain_list hlim written_enum reads_enum _) (.pure _))))

/-- The checks on a service. -/
def checkSvc (s : ServiceDefinition) : Except Error Unit := do
  checkCompat s.compatibility
  checkDomreq s.domainRequirement
  checkCount s.resources.length
  checkCount s.requiredState.length
  return ()

theorem reads_svc (s : ServiceDefinition) : Reads lim decSvc (encSvc s) (checkSvc s) s :=
  .field (reads_id _) (.field (reads_gen _) (.field (reads_gen _) (.field (reads_str _)
    (.field (reads_enum _) (.field (reads_u32 _) (.field (reads_u32 _)
    (.bind (reads_compat hlim _) (.bind (reads_domreq hlim _)
    (.bind (reads_plain_list hlim written_resreq reads_resreq _)
    (.field (reads_reco _) (.field (reads_enum _) (.field (reads_afp _)
    (.bind (reads_ids hlim _) (.field (reads_enum _) (.field (reads_gen _) (.pure _))))))))))))))))

/-- The checks on an assignment. -/
def checkAssign (a : Assignment) : Except Error Unit := do
  checkCount a.resourceClaims.length
  checkCount a.continuityState.length
  return ()

theorem reads_assign (a : Assignment) : Reads lim decAssign (encAssign a) (checkAssign a) a :=
  .field (reads_id _) (.field (reads_gen _) (.field (reads_slotkey _) (.field (reads_id _)
    (.field (reads_gen _) (.field (reads_id _) (.field (reads_gen _) (.field (reads_id _)
    (.field (reads_id _) (.field (reads_id _) (.field (reads_gen _) (.field (reads_id _)
    (.field (reads_gen _) (.field (reads_id _) (.field (reads_gen _) (.field (reads_id _)
    (.bind (reads_ids hlim _) (.bind (reads_ids hlim _) (.field (reads_enum _)
    (.field (reads_boolean _) (.field (reads_enum _) (.pure _)))))))))))))))))))))

/-- The checks on an event. -/
def checkEv (e : FailureEvent) : Except Error Unit := do
  checkCategory e.category
  checkCount e.affectedDomains.length
  return ()

theorem reads_ev (e : FailureEvent) : Reads lim decEv (encEv e) (checkEv e) e :=
  .field (reads_id _) (.field (reads_gen _) (.field (reads_id _) (.field (reads_id _)
    (.bind (reads_category _) (.field (reads_enum _) (.field (reads_enum _) (.field (reads_enum _)
    (.field (reads_dbl _) (.field (reads_plain_opt reads_id _) (.field (reads_plain_opt reads_gen _)
    (.field (reads_plain_opt reads_id _) (.field (reads_ts _) (.field (reads_ts _)
    (.field (reads_str _) (.field (reads_str _) (.bind (reads_ids hlim _)
    (.field (reads_boolean _) (.pure _))))))))))))))))))

/-! ## The payload -/

/-- The checks on the cutover record. -/
def checkTxn (s : PersistenceSnapshot) : Except Error Unit :=
  if s.hasTxn then do
    checkOpt checkAssign s.pendingAssignment
    checkOpt checkAssign s.sourceAssignment
    checkPending s.pendingAssignment
    return ()
  else .ok ()

/-- The cutover record as it is read back: only an incomplete one is written. -/
def rereadTxn (ord : CallOrders) (s : PersistenceSnapshot) : Txn :=
  if s.hasTxn then
    ⟨s.txnMilestone, s.pendingAssignment, s.sourceAssignment,
      s.pendingRoute.map (rereadRoute ord.decRoute)⟩
  else {}

theorem reads_txn (ord : CallOrders) (s : PersistenceSnapshot) :
    Reads lim (decTxn ord s.hasTxn) (encTxn s) (checkTxn s) (rereadTxn ord s) := by
  unfold decTxn encTxn checkTxn rereadTxn
  cases s.hasTxn with
  | false => exact .pure _
  | true =>
    have hopt : ∀ o : Option Assignment,
        Reads lim (opt decAssign) (putOpt encAssign o) (checkOpt checkAssign o) o := fun o =>
      (reads_opt (f := id) o fun x _ => reads_assign hlim x).congr rfl (by simp)
    have hroute : Reads lim (opt (decRoute ord.decRoute)) (putOpt encRoute s.pendingRoute) (.ok ())
        (s.pendingRoute.map (rereadRoute ord.decRoute)) := by
      refine (reads_opt (c := fun _ => .ok ()) (f := rereadRoute ord.decRoute) s.pendingRoute
        fun x _ => reads_route ord.decRoute x).congr ?_ rfl
      cases s.pendingRoute <;> rfl
    exact .field (reads_enum _) (.bind (hopt _) (.bind (hopt _) (.field hroute (.check (.pure _)))))

/-- The checks that decoding makes of what was encoded, in its order. -/
def checkPayload (s : PersistenceSnapshot) : Except Error Unit := do
  require (s.formatVersion == kVersion) "unsupported snapshot format_version"
  checkList checkSvc s.services
  checkList checkAssign s.assignments
  checkCount s.domains.length
  checkCount s.memberships.length
  checkList checkEv s.evidence
  checkCount s.routes.length
  checkCount s.fencedBoots.length
  checkTxn s
  return ()

/-- A snapshot as it is read back. -/
def reread (ord : CallOrders) (s : PersistenceSnapshot) : PersistenceSnapshot :=
  { s with
    epoch := ord.decEpoch.reread s.epoch
    routes := s.routes.map (rereadRoute ord.decRoute)
    txnMilestone := (rereadTxn ord s).milestone
    pendingAssignment := (rereadTxn ord s).pending
    sourceAssignment := (rereadTxn ord s).source
    pendingRoute := (rereadTxn ord s).route }

/-- **The payload is read back**, with the checks on the way. -/
theorem reads_payload (ord : CallOrders) (s : PersistenceSnapshot) :
    Reads lim (decPayload ord) (encPayload s) (checkPayload s) (reread ord s) := by
  have hsvc := (reads_list (f := id) hlim written_svc (reads_svc hlim) s.services).congr rfl
    (List.map_id _)
  have hassign := (reads_list (f := id) hlim written_assign (reads_assign hlim)
    s.assignments).congr rfl (List.map_id _)
  have hdom := reads_plain_list hlim written_domdecl reads_domdecl s.domains
  have hmemb := reads_plain_list hlim written_memb reads_memb s.memberships
  have hev := (reads_list (f := id) hlim written_ev (reads_ev hlim) s.evidence).congr rfl
    (List.map_id _)
  have hroutes : Reads lim (getList (decRoute ord.decRoute)) (putList encRoute s.routes)
      (checkCount s.routes.length) (s.routes.map (rereadRoute ord.decRoute)) := by
    refine (reads_list (c := fun _ => .ok ()) (f := rereadRoute ord.decRoute) hlim
      written_route (reads_route ord.decRoute) s.routes).congr ?_ rfl
    rw [checkList, checkAll_ok]
    cases checkCount s.routes.length <;> rfl
  exact .field (reads_u32 _) (.check (.field (reads_epoch ord.decEpoch _) (.field (reads_gen _)
    (.field (reads_gen _) (.bind hsvc (.bind hassign (.bind hdom (.bind hmemb (.bind hev
    (.bind hroutes (.bind (reads_ids hlim _) (.field (reads_boolean _)
    (.bind (reads_txn hlim ord s) (.pure _))))))))))))))

end

/-! ## The frame -/

theorem kMagic_length : kMagic.length = 8 := by decide

/-- The body of a framed payload: everything but the checksum. -/
def body (payload : List UInt8) : List UInt8 :=
  kMagic ++ leBytes 4 kVersion.toNat ++ leBytes 8 payload.length ++ payload

theorem body_length (payload : List UInt8) : (body payload).length = 20 + payload.length := by
  simp [body, kMagic_length]
  omega

theorem frame_eq (payload : List UInt8) :
    frame payload = body payload ++ leBytes 8 (fnv1a (body payload)).toNat := rfl

theorem frame_length (payload : List UInt8) : (frame payload).length = 28 + payload.length := by
  rw [frame_eq, List.length_append, body_length, leBytes_length]
  omega

theorem frame_magic (payload : List UInt8) : (frame payload).take 8 = kMagic := by
  simp only [frame, List.append_assoc]
  exact List.take_left' kMagic_length

theorem frame_version (payload : List UInt8) :
    ofLE (((frame payload).drop 8).take 4) = kVersion.toNat := by
  have h : (frame payload).drop 8 = leBytes 4 kVersion.toNat ++ (leBytes 8 payload.length ++
      (payload ++ leBytes 8 (fnv1a (body payload)).toNat)) := by
    simp only [frame_eq, body, List.append_assoc]
    exact List.drop_left' kMagic_length
  rw [h, List.take_left' (leBytes_length _ _), ofLE_leBytes _ _ (by decide)]

theorem frame_tail (payload : List UInt8) : (frame payload).drop 12 =
    leBytes 8 payload.length ++ (payload ++ leBytes 8 (fnv1a (body payload)).toNat) := by
  have h : frame payload = (kMagic ++ leBytes 4 kVersion.toNat) ++ (leBytes 8 payload.length ++
      (payload ++ leBytes 8 (fnv1a (body payload)).toNat)) := by
    simp only [frame_eq, body, List.append_assoc]
  rw [h]
  exact List.drop_left' (by simp [kMagic_length])

theorem frame_plen {payload : List UInt8} (h : payload.length < 256 ^ 8) :
    statedLength (frame payload) = payload.length := by
  rw [statedLength, frame_tail, List.take_left' (leBytes_length _ _), ofLE_leBytes _ _ h]

theorem frame_payload (payload : List UInt8) :
    ((frame payload).drop 20).take payload.length = payload := by
  have h : frame payload = (kMagic ++ leBytes 4 kVersion.toNat ++ leBytes 8 payload.length) ++
      (payload ++ leBytes 8 (fnv1a (body payload)).toNat) := by
    simp only [frame_eq, body, List.append_assoc]
  rw [h, List.drop_left' (by simp [kMagic_length]), List.take_left' rfl]

theorem frame_body (payload : List UInt8) :
    (frame payload).take (20 + payload.length) = body payload := by
  rw [frame_eq]
  exact List.take_left' (body_length payload)

theorem frame_checksum (payload : List UInt8) :
    ofLE (((frame payload).drop (20 + payload.length)).take 8) = (fnv1a (body payload)).toNat := by
  rw [frame_eq, List.drop_left' (body_length payload), List.take_of_length_le (by simp),
    ofLE_leBytes _ _ (UInt64.toNat_lt _)]

theorem require_eq_ok {b : Bool} {msg : String} : require b msg = .ok () ↔ b = true := by
  cases b <;> simp [require]

theorem require_bind_eq_ok {α : Type} {b : Bool} {msg : String} {k : Unit → Except Error α} {x : α} :
    (require b msg >>= k) = .ok x ↔ b = true ∧ k () = .ok x := by
  cases b <;> simp [require, bind, Except.bind]

/-- **The header of a framed payload** admits exactly the payloads of a permitted
size.  A length that wraps around is refused as well. -/
theorem payloadOf_frame {payload p : List UInt8} :
    payloadOf (frame payload) = .ok p ↔
      8 ≤ payload.length ∧ payload.length ≤ kMaxBlob ∧ p = payload := by
  unfold payloadOf
  simp only [require_bind_eq_ok, decide_eq_true_eq, beq_iff_eq, frame_length, frame_magic,
    frame_version, true_and]
  by_cases hmax : payload.length ≤ kMaxBlob
  · have hlt : payload.length < 256 ^ 8 := Nat.lt_of_le_of_lt hmax (by decide)
    rw [frame_plen hlt, frame_body, frame_checksum, frame_payload]
    constructor
    · rintro ⟨h36, -, -, -, hp⟩
      cases hp
      exact ⟨by omega, hmax, rfl⟩
    · rintro ⟨h8, -, rfl⟩
      exact ⟨by omega, hmax, by omega, rfl, rfl⟩
  · constructor
    · rintro ⟨-, hle, hlen, -⟩
      omega
    · rintro ⟨-, hle, -⟩
      exact absurd hle hmax

/-- A payload has at least the eight bytes that its header needs. -/
theorem encPayload_length {s : PersistenceSnapshot} {payload : List UInt8}
    (h : encPayload s = .ok payload) : 8 ≤ payload.length := by
  obtain ⟨a, b, ha, hb, rfl⟩ := Put.seq_cons_eq_ok.mp h
  obtain ⟨a', b', ha', -, rfl⟩ := Put.seq_cons_eq_ok.mp hb
  obtain ⟨c, d, hc, -, rfl⟩ := Put.seq_cons_eq_ok.mp ha'
  cases hc
  simp only [List.length_append, leBytes_length]
  omega

/-- The snapshot's payload, when it fits. -/
def Fits (s : PersistenceSnapshot) : Prop :=
  ∃ payload, encPayload s = .ok payload ∧ payload.length ≤ kMaxBlob

theorem encode_eq_ok {s : PersistenceSnapshot} {blob : List UInt8} :
    encode s = .ok blob ↔
      s.formatVersion = kVersion ∧ ∃ payload, encPayload s = .ok payload ∧ blob = frame payload := by
  unfold encode
  split
  · rename_i h
    simp [h]
  · rename_i h
    rw [not_not] at h
    cases encPayload s with
    | error e => simp
    | ok payload => simp [h, eq_comm]

/-- **What `decode` makes of what `encode` wrote**: it is accepted exactly when
it fits and passes the checks, and then read back. -/
theorem decode_encode {ord : CallOrders} {s s' : PersistenceSnapshot} {blob : List UInt8}
    (h : encode s = .ok blob) :
    decode ord blob = .ok s' ↔
      Fits s ∧ checkPayload s = .ok () ∧ validate (reread ord s) = .ok () ∧ s' = reread ord s := by
  obtain ⟨-, payload, hp, rfl⟩ := encode_eq_ok.mp h
  have h8 := encPayload_length hp
  have hfits : Fits s ↔ payload.length ≤ kMaxBlob := by
    constructor
    · rintro ⟨p, hp', hle⟩
      rw [hp] at hp'
      cases hp'
      exact hle
    · exact fun hle => ⟨payload, hp, hle⟩
  rw [hfits]
  unfold decode
  by_cases hmax : payload.length ≤ kMaxBlob
  · have hlt : payload.length < 2 ^ 32 := Nat.lt_of_le_of_lt hmax (by decide)
    have hr := reads_payload (Nat.le_refl (2 ^ 32)) ord s payload hp hlt []
    rw [List.append_nil] at hr
    rw [payloadOf_frame.mpr ⟨h8, hmax, rfl⟩]
    show (decPayload ord payload >>= _) = _ ↔ _
    rw [hr]
    cases hc : checkPayload s with
    | error e => simp [bind, Except.bind]
    | ok u =>
      show (validate (reread ord s) >>= fun _ => Except.ok (reread ord s)) = _ ↔ _
      cases hv : validate (reread ord s) with
      | error e => simp [bind, Except.bind]
      | ok u => simp [bind, Except.bind, hmax, eq_comm]
  · have hne : ∀ p, payloadOf (frame payload) ≠ .ok p := fun p hp' =>
      hmax (payloadOf_frame.mp hp').2.1
    cases hpo : payloadOf (frame payload) with
    | ok p => exact absurd hpo (hne p)
    | error e => simp [bind, Except.bind, hmax]

end Persistence

end FailoverFabric

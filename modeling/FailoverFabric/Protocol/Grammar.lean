import FailoverFabric.Protocol.Payload

/-! # The grammar of payloads

A payload is a row of fields, and the constructor of `PayloadReader` accepts exactly
such rows (`parse_eq_ok`).  Its loop walks the bytes with a cursor that it advances by
sizes it finds there.  `construct` is that loop with every index checked and the rounds
counted: it never indexes outside of the payload, never runs out of rounds, and does
what `parse` does (`construct_eq`).

A sequence of calls of the writer is read back call by call: of the calls for one
field the first counts, and only the accessor of its type gives the value
(`payload_round_trip`).
-/
namespace FailoverFabric
namespace Protocol
open Codec

/-! ## The fields that are accepted -/

theorem parseFrom_short {data : List UInt8} (hne : data ≠ []) (hlen : data.length < 6) (n : Nat) :
    parseFrom n data = .error (protocolError "truncated TLV field") := by
  cases n with
  | zero =>
    cases data with
    | nil => exact absurd rfl hne
    | cons a data => rfl
  | succ n =>
    rcases data with _ | ⟨a, _ | ⟨b, _ | ⟨c, _ | ⟨d, _ | ⟨e, _ | ⟨f, data⟩⟩⟩⟩⟩⟩
    · exact absurd rfl hne
    · rfl
    · rfl
    · rfl
    · rfl
    · rfl
    · simp at hlen
      omega

/-- What precedes the value of a field. -/
theorem exists_header {data : List UInt8} (hlen : 6 ≤ data.length) :
    ∃ id type s0 s1 s2 s3 rest, data = id :: type :: s0 :: s1 :: s2 :: s3 :: rest := by
  rcases data with _ | ⟨a, _ | ⟨b, _ | ⟨c, _ | ⟨d, _ | ⟨e, _ | ⟨f, data⟩⟩⟩⟩⟩⟩
  · simp at hlen
  · simp at hlen
  · simp at hlen
  · simp at hlen
  · simp at hlen
  · simp at hlen
  · exact ⟨a, b, c, d, e, f, data, rfl⟩

theorem parseFrom_eq_ok {n : Nat} {data : List UInt8} {fs : List Field}
    (h : parseFrom n data = .ok fs) :
    data = fs.flatMap Field.bytes ∧ ∀ f ∈ fs, f.Readable := by
  induction n generalizing data fs with
  | zero =>
    cases data with
    | nil =>
      cases h
      exact ⟨rfl, by simp⟩
    | cons a data => cases h
  | succ n ih =>
    by_cases hnil : data = []
    · subst hnil
      cases h
      exact ⟨rfl, by simp⟩
    by_cases hlen : data.length < 6
    · rw [parseFrom_short hnil hlen] at h
      cases h
    obtain ⟨id, type, s0, s1, s2, s3, rest, rfl⟩ := exists_header (Nat.not_lt.mp hlen)
    simp only [parseFrom] at h
    split_ifs at h with htype hbig hover
    cases hrest : parseFrom n (rest.drop (ofLE [s0, s1, s2, s3])) with
    | error e =>
      rw [hrest] at h
      cases h
    | ok gs =>
      rw [hrest] at h
      cases h
      obtain ⟨hdrop, hread⟩ := ih hrest
      have htake : (rest.take (ofLE [s0, s1, s2, s3])).length = ofLE [s0, s1, s2, s3] := by
        rw [List.length_take]
        omega
      refine ⟨?_, fun f hf => ?_⟩
      · have hle : leBytes 4 (ofLE [s0, s1, s2, s3]) = [s0, s1, s2, s3] :=
          leBytes_ofLE [s0, s1, s2, s3]
        rw [List.flatMap_cons, ← hdrop, Field.bytes, htake, hle]
        simp
      · rcases List.mem_cons.mp hf with rfl | hf
        · exact ⟨UInt8.not_lt.mp htype, Nat.le_trans (Nat.le_of_eq htake) (Nat.not_lt.mp hbig)⟩
        · exact hread f hf

/-- **The reader accepts exactly the rows of readable fields**, and gives the row. -/
theorem parse_eq_ok {data : List UInt8} {fs : List Field} :
    parse data = .ok fs ↔ data = fs.flatMap Field.bytes ∧ ∀ f ∈ fs, f.Readable := by
  constructor
  · exact parseFrom_eq_ok
  · rintro ⟨rfl, hf⟩
    exact parseFrom_all hf (length_le_bytes fs)

/-! ## The loop of the constructor -/

/-- How the loop ends. -/
inductive Outcome
  | done (fields : PayloadReader)
  | threw (e : Error)
  /-- An index or an iterator was outside of the vector. -/
  | outOfBounds
  /-- The rounds were used up. -/
  | running

/-- The vector between two iterators, which have to be in order and inside. -/
def range (data : List UInt8) (first last : Nat) : Option (List UInt8) :=
  if first ≤ last ∧ last ≤ data.length then some ((data.drop first).take (last - first)) else none

/-- One round at a cursor: the field found there and the cursor behind it. -/
def readField (data : List UInt8) (i : Nat) : Option (Except Error (Field × Nat)) :=
  if data.length < i + 6 then some (.error (protocolError "truncated TLV field"))
  else do
    let id ← data[i]?
    let type ← data[i + 1]?
    let s0 ← data[i + 2]?
    let s1 ← data[i + 3]?
    let s2 ← data[i + 4]?
    let s3 ← data[i + 5]?
    let size := ofLE [s0, s1, s2, s3]
    if 7 < type then some (.error (protocolError "invalid TLV field type"))
    else if kMaxFramePayload < size then some (.error (protocolError "TLV field too large"))
    else if data.length < i + 6 + size then
      some (.error (protocolError "TLV field length exceeds payload"))
    else do
      let value ← range data (i + 6) (i + 6 + size)
      return .ok (⟨id, type, value⟩, i + 6 + size)

/-- The loop, with a number of rounds, from a cursor and the fields so far. -/
def readFields (data : List UInt8) : Nat → Nat → PayloadReader → Outcome
  | 0, i, fields => if i < data.length then .running else .done fields
  | rounds + 1, i, fields =>
    if i < data.length then
      match readField data i with
      | none => .outOfBounds
      | some (.error e) => .threw e
      | some (.ok (f, next)) => readFields data rounds next (fields ++ [f])
    else .done fields

/-- The constructor of `PayloadReader` with its indices. -/
def construct (data : List UInt8) : Outcome := readFields data data.length 0 []

/-- The outcome of a parse. -/
def Outcome.of (before : PayloadReader) : Except Error PayloadReader → Outcome
  | .ok fs => .done (before ++ fs)
  | .error e => .threw e

/-- What the cursor finds, by what is left of the vector. -/
theorem readField_eq {data : List UInt8} {i : Nat} {id type s0 s1 s2 s3 : UInt8} {rest : List UInt8}
    (h : data.drop i = id :: type :: s0 :: s1 :: s2 :: s3 :: rest) :
    readField data i = some (
      if 7 < type then .error (protocolError "invalid TLV field type")
      else if kMaxFramePayload < ofLE [s0, s1, s2, s3] then
        .error (protocolError "TLV field too large")
      else if rest.length < ofLE [s0, s1, s2, s3] then
        .error (protocolError "TLV field length exceeds payload")
      else .ok (⟨id, type, rest.take (ofLE [s0, s1, s2, s3])⟩,
        i + 6 + ofLE [s0, s1, s2, s3])) := by
  have hlen : data.length - i = rest.length + 6 := by
    rw [← List.length_drop, h]
    rfl
  have hget : ∀ k, data[i + k]? = (data.drop i)[k]? := fun k => List.getElem?_drop.symm
  have hrest : data.drop (i + 6) = rest := by
    rw [← List.drop_drop, h]
    rfl
  have h0 : data[i]? = some id := by rw [← Nat.add_zero i, hget, h]; rfl
  have h1 : data[i + 1]? = some type := by rw [hget, h]; rfl
  have h2 : data[i + 2]? = some s0 := by rw [hget, h]; rfl
  have h3 : data[i + 3]? = some s1 := by rw [hget, h]; rfl
  have h4 : data[i + 4]? = some s2 := by rw [hget, h]; rfl
  have h5 : data[i + 5]? = some s3 := by rw [hget, h]; rfl
  rw [readField, if_neg (by omega)]
  simp only [h0, h1, h2, h3, h4, h5, Option.bind_eq_bind, Option.bind_some]
  split_ifs with htype hbig hover hover' hover'
  · rfl
  · rfl
  · rfl
  · omega
  · omega
  · have hrange : range data (i + 6) (i + 6 + ofLE [s0, s1, s2, s3]) =
        some (rest.take (ofLE [s0, s1, s2, s3])) := by
      rw [range, if_pos ⟨by omega, by omega⟩, hrest, Nat.add_sub_cancel_left]
    rw [hrange]
    rfl

/-- The loop does what the parse of the rest does: a round takes at least six bytes, so
the rounds suffice. -/
theorem readFields_eq {data : List UInt8} {n i : Nat} (hi : i ≤ data.length)
    (hn : data.length ≤ i + n) (before : PayloadReader) :
    readFields data n i before = Outcome.of before (parseFrom n (data.drop i)) := by
  induction n generalizing i before with
  | zero =>
    rw [readFields, if_neg (by omega), List.drop_eq_nil_of_le (by omega)]
    simp [parseFrom, Outcome.of]
  | succ n ih =>
    rw [readFields]
    by_cases hend : data.length ≤ i
    · rw [if_neg (by omega), List.drop_eq_nil_of_le hend]
      simp [parseFrom, Outcome.of]
    rw [if_pos (by omega)]
    have hdrop : (data.drop i).length = data.length - i := List.length_drop
    by_cases hshort : data.length < i + 6
    · have hne : data.drop i ≠ [] := List.ne_nil_of_length_pos (by omega)
      rw [parseFrom_short hne (by omega), readField, if_pos hshort]
      rfl
    have hsix : 6 ≤ (data.drop i).length := by omega
    obtain ⟨id, type, s0, s1, s2, s3, rest, heq⟩ := exists_header hsix
    have hrest : data.drop (i + 6) = rest := by
      rw [← List.drop_drop, heq]
      rfl
    rw [heq] at hdrop
    simp only [List.length_cons] at hdrop
    rw [readField_eq heq, heq]
    simp only [parseFrom]
    split_ifs with htype hbig hover
    · rfl
    · rfl
    · rfl
    · -- the cursor moves behind the field
      dsimp only
      rw [ih (by omega) (by omega), ← hrest, List.drop_drop]
      cases parseFrom n (data.drop (i + 6 + ofLE [s0, s1, s2, s3])) with
      | error e => rfl
      | ok fs => simp [Outcome.of, Except.map]

theorem construct_eq (data : List UInt8) : construct data = Outcome.of [] (parse data) :=
  readFields_eq (Nat.zero_le _) (Nat.le_add_left ..) []

/-- **The constructor accepts exactly the grammar**: it lists the fields that the vector
is a row of, stays inside of the vector and ends. -/
theorem construct_accepts_grammar (data : List UInt8) :
    (∀ fields, construct data = .done fields ↔
      data = fields.flatMap Field.bytes ∧
        ∀ f ∈ fields, f.type ≤ 7 ∧ f.value.length ≤ kMaxFramePayload) ∧
    construct data ≠ .outOfBounds ∧ construct data ≠ .running := by
  rw [construct_eq]
  cases hparse : parse data with
  | error e =>
    refine ⟨fun fields => ⟨fun h => (by cases h), ?_⟩, fun h => (by cases h),
      fun h => (by cases h)⟩
    rintro ⟨hdata, hf⟩
    have hok := parse_eq_ok.mpr ⟨hdata, fun f hmem => ⟨(hf f hmem).1, (hf f hmem).2⟩⟩
    rw [hparse] at hok
    cases hok
  | ok fs =>
    refine ⟨fun fields => ⟨?_, ?_⟩, fun h => (by cases h), fun h => (by cases h)⟩
    · intro h
      cases h
      obtain ⟨hdata, hf⟩ := parse_eq_ok.mp hparse
      exact ⟨hdata, fun f hmem => ⟨(hf f hmem).type, (hf f hmem).fits⟩⟩
    · rintro ⟨hdata, hf⟩
      have hok := parse_eq_ok.mpr ⟨hdata, fun f hmem => ⟨(hf f hmem).1, (hf f hmem).2⟩⟩
      rw [hparse] at hok
      cases hok
      rfl

/-! ## The calls of a writer -/

/-- The value of a call, with the type that the call has. -/
inductive Value
  | u8 (v : UInt8)
  | u32 (v : UInt32)
  | u64 (v : UInt64)
  | bool (v : Bool)
  | i64 (v : Int64)
  | f64 (v : F64)
  | str (v : Text)
  | bytes (v : List UInt8)

/-- The calls and the accessors come in eight types. -/
inductive Kind
  | u8 | u32 | u64 | bool | i64 | f64 | str | bytes
  deriving DecidableEq

def Value.kind : Value → Kind
  | .u8 _ => .u8
  | .u32 _ => .u32
  | .u64 _ => .u64
  | .bool _ => .bool
  | .i64 _ => .i64
  | .f64 _ => .f64
  | .str _ => .str
  | .bytes _ => .bytes

/-- The field that a call writes. -/
def Value.put (field : UInt8) : Value → Field
  | .u8 v => putU8 field v
  | .u32 v => putU32 field v
  | .u64 v => putU64 field v
  | .bool v => putBool field v
  | .i64 v => putI64 field v
  | .f64 v => putF64 field v
  | .str v => putStr field v
  | .bytes v => putBytes field v

/-- The accessors. -/
def PayloadReader.get (r : PayloadReader) (field : UInt8) : Kind → Except Error Value
  | .u8 => (r.u8 field).map .u8
  | .u32 => (r.u32 field).map .u32
  | .u64 => (r.u64 field).map .u64
  | .bool => (r.bool_ field).map .bool
  | .i64 => (r.i64 field).map .i64
  | .f64 => (r.f64 field).map .f64
  | .str => (r.str field).map .str
  | .bytes => (r.bytes field).map .bytes

/-- The type byte of a call. -/
def Kind.type : Kind → UInt8
  | .u8 => 0
  | .u32 => 1
  | .u64 => 2
  | .bool => 3
  | .i64 => 4
  | .f64 => 5
  | .str => 6
  | .bytes => 7

theorem Kind.type_inj {k k' : Kind} (h : k.type = k'.type) : k = k' := by
  cases k <;> cases k' <;> first | rfl | exact absurd h (by decide)

theorem id_put (field : UInt8) (v : Value) : (v.put field).id = field := by
  cases v <;> rfl

theorem type_put (field : UInt8) (v : Value) : (v.put field).type = v.kind.type := by
  cases v <;> rfl

theorem wellFormed_put (field : UInt8) (v : Value) : (v.put field).WellFormed := by
  cases v with
  | u8 v => exact wellFormed_putU8 field v
  | u32 v => exact wellFormed_putU32 field v
  | u64 v => exact wellFormed_putU64 field v
  | bool v => exact wellFormed_putBool field v
  | i64 v => exact wellFormed_putI64 field v
  | f64 v => exact wellFormed_putF64 field v
  | str v => exact wellFormed_putStr field v
  | bytes v => exact wellFormed_putBytes field v

/-- A field of a type is found, and of the size if there is one. -/
theorem typed_found {r : PayloadReader} {field type : UInt8} {value : List UInt8}
    {size : Option Nat} (what : String) (h : r.find_ field = some ⟨field, type, value⟩)
    (hsize : (size.all fun n => value.length == n) = true) :
    r.typed field type size what = .ok value := by
  simp [PayloadReader.typed, h, hsize]

/-- The accessor of the type gives the value back. -/
theorem get_put {r : PayloadReader} {field : UInt8} {v : Value}
    (h : r.find_ field = some (v.put field)) : r.get field v.kind = .ok v := by
  cases v with
  | u8 v =>
    have hv : r.u8 field = .ok v := u8_putU8 h
    exact congrArg (Except.map Value.u8) hv
  | u32 v =>
    have hv : r.u32 field = .ok v := by
      rw [PayloadReader.u32, typed_found _ h (by simp), Except.map, ofLE_leBytes 4 _ v.toNat_lt,
        UInt32.ofNat_toNat]
    exact congrArg (Except.map Value.u32) hv
  | u64 v =>
    have hv : r.u64 field = .ok v := u64_putU64 h
    exact congrArg (Except.map Value.u64) hv
  | bool v =>
    have hv : r.bool_ field = .ok v := by
      rw [PayloadReader.bool_, typed_found _ h (by simp)]
      cases v <;> rfl
    exact congrArg (Except.map Value.bool) hv
  | i64 v =>
    have hv : r.i64 field = .ok v := by
      rw [PayloadReader.i64, typed_found _ h (by simp), Except.map,
        ofLE_leBytes 8 _ v.toUInt64.toNat_lt, UInt64.ofNat_toNat, Int64.toInt64_toUInt64]
    exact congrArg (Except.map Value.i64) hv
  | f64 v =>
    have hv : r.f64 field = .ok v := by
      rw [PayloadReader.f64, typed_found _ h (by simp), Except.map,
        ofLE_leBytes 8 _ v.bits.toNat_lt, UInt64.ofNat_toNat]
    exact congrArg (Except.map Value.f64) hv
  | str v =>
    have hv : r.str field = .ok v := str_putStr h
    exact congrArg (Except.map Value.str) hv
  | bytes v =>
    have hv : r.bytes field = .ok v := typed_found _ h rfl
    exact congrArg (Except.map Value.bytes) hv

/-- The accessor of another type throws. -/
theorem get_put_of_ne {r : PayloadReader} {field : UInt8} {v : Value} {k : Kind}
    (h : r.find_ field = some (v.put field)) (hk : k ≠ v.kind) :
    ∃ what, r.get field k = .error (protocolError what) := by
  have hne : (v.put field).type ≠ k.type := by
    rw [type_put]
    exact fun heq => hk (Kind.type_inj heq.symm)
  have htyped : ∀ type, k.type = type → ∀ size what,
      r.typed field type size what = .error (protocolError what) := by
    rintro type rfl size what
    simp [PayloadReader.typed, h, hne]
  cases k with
  | u8 => exact ⟨_, by rw [PayloadReader.get, PayloadReader.u8, htyped 0 rfl]; rfl⟩
  | u32 => exact ⟨_, by rw [PayloadReader.get, PayloadReader.u32, htyped 1 rfl]; rfl⟩
  | u64 => exact ⟨_, by rw [PayloadReader.get, PayloadReader.u64, htyped 2 rfl]; rfl⟩
  | bool => exact ⟨_, by rw [PayloadReader.get, PayloadReader.bool_, htyped 3 rfl]; rfl⟩
  | i64 => exact ⟨_, by rw [PayloadReader.get, PayloadReader.i64, htyped 4 rfl]; rfl⟩
  | f64 => exact ⟨_, by rw [PayloadReader.get, PayloadReader.f64, htyped 5 rfl]; rfl⟩
  | str => exact ⟨_, by rw [PayloadReader.get, PayloadReader.str, htyped 6 rfl]; rfl⟩
  | bytes => exact ⟨_, by rw [PayloadReader.get, PayloadReader.bytes, htyped 7 rfl]; rfl⟩

/-- The calls of a writer, each with its field. -/
abbrev Calls := List (UInt8 × Value)

/-- The fields that calls write. -/
def Calls.fields (calls : Calls) : List Field := calls.map fun c => c.2.put c.1

/-- The field found is that of the first call. -/
theorem find_fields (calls : Calls) (field : UInt8) :
    PayloadReader.find_ calls.fields field = (calls.lookup field).map fun v => v.put field := by
  induction calls with
  | nil => rfl
  | cons c calls ih =>
    obtain ⟨id, v⟩ := c
    by_cases hid : id = field
    · subst hid
      have hfirst : ((v.put id).id == id) = true := by rw [id_put, beq_self_eq_true]
      rw [List.lookup_cons_self, Option.map_some]
      exact List.find?_cons_of_pos hfirst
    · rw [List.lookup_cons, beq_eq_false_iff_ne.mpr (Ne.symm hid)]
      show List.find? (fun f => f.id == field) (v.put id :: Calls.fields calls) = _
      rw [List.find?_cons_of_neg (by simpa [id_put] using hid)]
      exact ih

/-- **A payload is read back as it was written**: exactly the fields written are there,
the accessor of the first write's type gives its value, and all others throw. -/
theorem payload_round_trip (calls : Calls) (bs : List UInt8) (h : finish calls.fields = .ok bs) :
    ∃ r, parse bs = .ok r ∧ (∀ field, r.has field = true ↔ ∃ v, (field, v) ∈ calls) ∧
      ∀ field v, calls.lookup field = some v →
        r.get field v.kind = .ok v ∧
          ∀ k, k ≠ v.kind → ∃ what, r.get field k = .error (protocolError what) := by
  have hparse : parse bs = .ok calls.fields := by
    refine parse_finish (fun f hf => ?_) h
    obtain ⟨c, -, rfl⟩ := List.mem_map.mp hf
    exact wellFormed_put c.1 c.2
  refine ⟨calls.fields, hparse, fun field => ?_, fun field v hv => ?_⟩
  · rw [PayloadReader.has, find_fields, Option.isSome_map, List.lookup_isSome_iff]
    constructor
    · rintro ⟨c, hc, heq⟩
      obtain rfl := eq_of_beq heq
      exact ⟨c.2, hc⟩
    · rintro ⟨v, hv⟩
      exact ⟨(field, v), hv, beq_self_eq_true _⟩
  · have hfind : PayloadReader.find_ calls.fields field = some (v.put field) := by
      rw [find_fields, hv]
      rfl
    exact ⟨get_put hfind, fun k hk => get_put_of_ne hfind hk⟩

/-- A field written twice, with different types. -/
def rewritten : Calls := [(1, .u32 7), (1, .str (text "x")), (2, .i64 (-1))]

theorem payload_round_trip_rewritten :
    ∃ bs r, finish rewritten.fields = .ok bs ∧ parse bs = .ok r ∧ r.get 1 .u32 = .ok (.u32 7) ∧
      ∃ what, r.get 1 .str = .error (protocolError what) := by
  have hfinish : finish rewritten.fields = .ok (payloadOf rewritten.fields) := by decide +kernel
  obtain ⟨r, hparse, -, hget⟩ := payload_round_trip rewritten _ hfinish
  have hfirst := hget 1 (.u32 7) rfl
  exact ⟨_, r, hfinish, hparse, hfirst.1, hfirst.2 .str (by decide)⟩

end Protocol
end FailoverFabric

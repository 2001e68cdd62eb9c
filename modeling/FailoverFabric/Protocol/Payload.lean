import FailoverFabric.Library.Codec
import FailoverFabric.Types

/-! # Payloads of typed fields

`PayloadWriter` and `PayloadReader` of `protocol.cpp`.  A payload is a sequence of
fields: an id, a type, the size and that many bytes.  The reader parses all of it
first, and then finds fields by their id: the first one with the id counts.  What
was written is parsed back (`parse_finish`).
-/
namespace FailoverFabric
namespace Protocol
open Codec

def kMaxFramePayload : Nat := 16 * 2 ^ 20

/-- A `ProtocolError`. -/
def protocolError (what : String) : Error := .runtimeError what

structure Field where
  id : UInt8
  type : UInt8
  value : List UInt8
  deriving DecidableEq

/-- The bytes of a field. -/
def Field.bytes (f : Field) : List UInt8 :=
  f.id :: f.type :: (leBytes 4 f.value.length ++ f.value)

/-! ## Writing -/

def putU8 (field v : UInt8) : Field := ⟨field, 0, [v]⟩

def putU32 (field : UInt8) (v : UInt32) : Field := ⟨field, 1, leBytes 4 v.toNat⟩

def putU64 (field : UInt8) (v : UInt64) : Field := ⟨field, 2, leBytes 8 v.toNat⟩

def putBool (field : UInt8) (v : Bool) : Field := ⟨field, 3, [if v then 1 else 0]⟩

def putI64 (field : UInt8) (v : Int64) : Field := ⟨field, 4, leBytes 8 v.toUInt64.toNat⟩

def putF64 (field : UInt8) (v : F64) : Field := ⟨field, 5, leBytes 8 v.bits.toNat⟩

def putStr (field : UInt8) (v : Text) : Field := ⟨field, 6, v⟩

def putBytes (field : UInt8) (v : List UInt8) : Field := ⟨field, 7, v⟩

/-- One call of the writer.  The buffer is checked once the header is in it, before
the value. -/
def write (buf : List UInt8) (f : Field) : Except Error (List UInt8) :=
  if f.type = 6 ∧ kMaxFramePayload < f.value.length then .error (protocolError "string too large")
  else if f.type = 7 ∧ kMaxFramePayload < f.value.length then
    .error (protocolError "bytes too large")
  else if kMaxFramePayload < buf.length + 6 then .error (protocolError "payload too large")
  else .ok (buf ++ f.bytes)

/-- The calls of a writer, one after another. -/
def finish (fs : List Field) : Except Error (List UInt8) := fs.foldlM write []

/-- The bytes of fields that fit into a payload. -/
def payloadOf (fs : List Field) : List UInt8 := (finish fs).toOption.getD []

/-! ## Reading -/

/-- The reader's fields. -/
abbrev PayloadReader := List Field

/-- The reader's loop; the first argument bounds its rounds. -/
def parseFrom : Nat → List UInt8 → Except Error PayloadReader
  | _, [] => .ok []
  | 0, _ :: _ => .error (protocolError "truncated TLV field")
  | n + 1, id :: type :: s0 :: s1 :: s2 :: s3 :: rest =>
    let size := ofLE [s0, s1, s2, s3]
    if 7 < type then .error (protocolError "invalid TLV field type")
    else if kMaxFramePayload < size then .error (protocolError "TLV field too large")
    else if rest.length < size then .error (protocolError "TLV field length exceeds payload")
    else (parseFrom n (rest.drop size)).map (⟨id, type, rest.take size⟩ :: ·)
  | _ + 1, _ => .error (protocolError "truncated TLV field")

/-- The constructor of `PayloadReader`. -/
def parse (data : List UInt8) : Except Error PayloadReader := parseFrom data.length data

namespace PayloadReader

def find_ (r : PayloadReader) (field : UInt8) : Option Field := r.find? fun f => f.id == field

def has (r : PayloadReader) (field : UInt8) : Bool := (r.find_ field).isSome

/-- A field of a type, and of a size if the type has one. -/
def typed (r : PayloadReader) (field type : UInt8) (size : Option Nat) (what : String) :
    Except Error (List UInt8) :=
  match r.find_ field with
  | none => .error (protocolError what)
  | some f =>
    if f.type = type ∧ (size.all fun n => f.value.length == n) = true then .ok f.value
    else .error (protocolError what)

def u8 (r : PayloadReader) (field : UInt8) : Except Error UInt8 :=
  (r.typed field 0 (some 1) "missing/incorrect u8 field").map fun v => UInt8.ofNat (ofLE v)

def u32 (r : PayloadReader) (field : UInt8) : Except Error UInt32 :=
  (r.typed field 1 (some 4) "missing/incorrect u32 field").map fun v => UInt32.ofNat (ofLE v)

def u64 (r : PayloadReader) (field : UInt8) : Except Error UInt64 :=
  (r.typed field 2 (some 8) "missing/incorrect u64 field").map fun v => UInt64.ofNat (ofLE v)

def bool_ (r : PayloadReader) (field : UInt8) : Except Error Bool := do
  let v ← r.typed field 3 (some 1) "missing/incorrect bool field"
  if 1 < ofLE v then .error (protocolError "invalid bool value") else return ofLE v == 1

def i64 (r : PayloadReader) (field : UInt8) : Except Error Int64 :=
  (r.typed field 4 (some 8) "missing/incorrect i64 field").map fun v =>
    (UInt64.ofNat (ofLE v)).toInt64

def f64 (r : PayloadReader) (field : UInt8) : Except Error F64 :=
  (r.typed field 5 (some 8) "missing/incorrect f64 field").map fun v => ⟨UInt64.ofNat (ofLE v)⟩

def str (r : PayloadReader) (field : UInt8) : Except Error Text :=
  r.typed field 6 none "missing/incorrect string field"

def bytes (r : PayloadReader) (field : UInt8) : Except Error (List UInt8) :=
  r.typed field 7 none "missing/incorrect bytes field"

/-- `r.has(f) && r.bool_(f)`. -/
def flag (r : PayloadReader) (field : UInt8) : Except Error Bool :=
  if r.has field then r.bool_ field else return false

end PayloadReader

/-! ## What was written is parsed -/

/-- A field of the writer: its type is known, and only strings and bytes are
long. -/
structure Field.WellFormed (f : Field) : Prop where
  type : f.type ≤ 7
  short : f.type < 6 → f.value.length ≤ 8

theorem wellFormed_putU8 (field v : UInt8) : (putU8 field v).WellFormed :=
  ⟨(by decide : (0 : UInt8) ≤ 7), fun _ => by simp [putU8]⟩

theorem wellFormed_putU32 (field : UInt8) (v : UInt32) : (putU32 field v).WellFormed :=
  ⟨(by decide : (1 : UInt8) ≤ 7), fun _ => by simp [putU32]⟩

theorem wellFormed_putU64 (field : UInt8) (v : UInt64) : (putU64 field v).WellFormed :=
  ⟨(by decide : (2 : UInt8) ≤ 7), fun _ => by simp [putU64]⟩

theorem wellFormed_putBool (field : UInt8) (v : Bool) : (putBool field v).WellFormed :=
  ⟨(by decide : (3 : UInt8) ≤ 7), fun _ => by simp [putBool]⟩

theorem wellFormed_putI64 (field : UInt8) (v : Int64) : (putI64 field v).WellFormed :=
  ⟨(by decide : (4 : UInt8) ≤ 7), fun _ => by simp [putI64]⟩

theorem wellFormed_putF64 (field : UInt8) (v : F64) : (putF64 field v).WellFormed :=
  ⟨(by decide : (5 : UInt8) ≤ 7), fun _ => by simp [putF64]⟩

theorem wellFormed_putStr (field : UInt8) (v : Text) : (putStr field v).WellFormed :=
  ⟨(by decide : (6 : UInt8) ≤ 7), fun h => absurd h (by decide : ¬ (6 : UInt8) < 6)⟩

theorem wellFormed_putBytes (field : UInt8) (v : List UInt8) : (putBytes field v).WellFormed :=
  ⟨(by decide : (7 : UInt8) ≤ 7), fun h => absurd h (by decide : ¬ (7 : UInt8) < 6)⟩

theorem write_eq_ok {buf bs : List UInt8} {f : Field} (hw : f.WellFormed)
    (h : write buf f = .ok bs) : bs = buf ++ f.bytes ∧ f.value.length ≤ kMaxFramePayload := by
  unfold write at h
  split_ifs at h with hstr hbytes hfull
  cases h
  refine ⟨rfl, ?_⟩
  have hmax : 8 ≤ kMaxFramePayload := by decide
  by_cases hshort : f.type < 6
  · exact Nat.le_trans (hw.short hshort) hmax
  · have htype : f.type = 6 ∨ f.type = 7 := by
      have hle := UInt8.le_iff_toNat_le.mp hw.type
      rw [UInt8.lt_iff_toNat_lt] at hshort
      rw [← UInt8.toNat_inj, ← UInt8.toNat_inj]
      have h6 : (6 : UInt8).toNat = 6 := by decide
      have h7 : (7 : UInt8).toNat = 7 := by decide
      omega
    by_contra hlong
    rcases htype with h6 | h7
    · exact hstr ⟨h6, Nat.lt_of_not_le hlong⟩
    · exact hbytes ⟨h7, Nat.lt_of_not_le hlong⟩

theorem foldlM_write {fs : List Field} {buf bs : List UInt8} (hw : ∀ f ∈ fs, f.WellFormed)
    (h : fs.foldlM write buf = .ok bs) :
    bs = buf ++ fs.flatMap Field.bytes ∧ ∀ f ∈ fs, f.value.length ≤ kMaxFramePayload := by
  induction fs generalizing buf with
  | nil =>
    cases h
    simp
  | cons f fs ih =>
    rw [List.foldlM_cons] at h
    cases hb : write buf f with
    | error e =>
      rw [hb] at h
      cases h
    | ok buf' =>
      rw [hb] at h
      obtain ⟨rfl, hlen⟩ := write_eq_ok (hw f (List.mem_cons_self ..)) hb
      obtain ⟨rfl, hrest⟩ := ih (fun g hg => hw g (List.mem_cons_of_mem _ hg)) h
      refine ⟨by simp, fun g hg => ?_⟩
      rcases List.mem_cons.mp hg with rfl | hg
      · exact hlen
      · exact hrest g hg

theorem Field.length_bytes (f : Field) : f.bytes.length = f.value.length + 6 := by
  rw [Field.bytes, List.length_cons, List.length_cons, List.length_append, leBytes_length]
  omega

theorem length_putU64 (field : UInt8) (v : UInt64) : (putU64 field v).value.length = 8 :=
  leBytes_length 8 v.toNat

/-- Fields that fit into the buffer are written. -/
theorem foldlM_write_of_fits {fs : List Field} {buf : List UInt8}
    (h : buf.length + (fs.flatMap Field.bytes).length ≤ kMaxFramePayload) :
    fs.foldlM write buf = .ok (buf ++ fs.flatMap Field.bytes) := by
  induction fs generalizing buf with
  | nil => simp only [List.foldlM_nil, List.flatMap_nil, List.append_nil]; rfl
  | cons f fs ih =>
    rw [List.flatMap_cons, List.length_append, f.length_bytes] at h
    have hwrite : write buf f = .ok (buf ++ f.bytes) := by
      rw [write, if_neg (by omega), if_neg (by omega), if_neg (by omega)]
    rw [List.foldlM_cons, hwrite, List.flatMap_cons, ← List.append_assoc]
    refine ih ?_
    rw [List.length_append, f.length_bytes]
    omega

theorem finish_of_fits {fs : List Field} (h : (fs.flatMap Field.bytes).length ≤ kMaxFramePayload) :
    finish fs = .ok (fs.flatMap Field.bytes) :=
  foldlM_write_of_fits (by rw [List.length_nil, Nat.zero_add]; exact h)

/-- A field that the reader takes. -/
structure Field.Readable (f : Field) : Prop where
  type : f.type ≤ 7
  fits : f.value.length ≤ kMaxFramePayload

/-- One round of the reader's loop takes one field. -/
theorem parseFrom_bytes {f : Field} (hf : f.Readable) (n : Nat) (rest : List UInt8) :
    parseFrom (n + 1) (f.bytes ++ rest) = (parseFrom n rest).map (f :: ·) := by
  have hsize : ofLE (leBytes 4 f.value.length) = f.value.length :=
    ofLE_leBytes 4 _ (Nat.lt_of_le_of_lt hf.fits (by decide))
  have hle : leBytes 4 f.value.length = [UInt8.ofNat (f.value.length % 256),
      UInt8.ofNat (f.value.length / 256 % 256), UInt8.ofNat (f.value.length / 256 / 256 % 256),
      UInt8.ofNat (f.value.length / 256 / 256 / 256 % 256)] := rfl
  rw [hle] at hsize
  rw [Field.bytes, hle]
  simp only [List.cons_append, List.nil_append, parseFrom, hsize]
  rw [if_neg (UInt8.not_lt.mpr hf.type), if_neg (Nat.not_lt.mpr hf.fits),
    if_neg (by simp), List.drop_left, List.take_left]

theorem parseFrom_all {fs : List Field} (hf : ∀ f ∈ fs, f.Readable) {n : Nat}
    (hn : fs.length ≤ n) : parseFrom n (fs.flatMap Field.bytes) = .ok fs := by
  induction fs generalizing n with
  | nil => cases n <;> rfl
  | cons f fs ih =>
    obtain ⟨m, rfl⟩ : ∃ m, n = m + 1 := ⟨n - 1, by simp at hn; omega⟩
    rw [List.flatMap_cons, parseFrom_bytes (hf f (List.mem_cons_self ..)),
      ih (fun g hg => hf g (List.mem_cons_of_mem _ hg)) (by simpa using hn)]
    rfl

theorem length_le_bytes (fs : List Field) : fs.length ≤ (fs.flatMap Field.bytes).length := by
  induction fs with
  | nil => exact Nat.le_refl _
  | cons f fs ih =>
    rw [List.flatMap_cons, List.length_append, List.length_cons]
    have : 0 < f.bytes.length := by simp [Field.bytes]
    omega

/-- **A written payload is parsed back** to the fields that were written. -/
theorem parse_finish {fs : List Field} {bs : List UInt8} (hw : ∀ f ∈ fs, f.WellFormed)
    (h : finish fs = .ok bs) : parse bs = .ok fs := by
  obtain ⟨rfl, hlen⟩ := foldlM_write hw h
  rw [List.nil_append]
  exact parseFrom_all (fun f hf => ⟨(hw f hf).type, hlen f hf⟩) (length_le_bytes fs)

/-- A word is read as it was written. -/
theorem u64_putU64 {r : PayloadReader} {field : UInt8} {v : UInt64}
    (h : r.find_ field = some (putU64 field v)) : r.u64 field = .ok v := by
  have hv : ofLE (leBytes 8 v.toNat) = v.toNat := ofLE_leBytes 8 _ v.toNat_lt
  simp [PayloadReader.u64, PayloadReader.typed, h, putU64, Except.map, hv]

theorem u8_putU8 {r : PayloadReader} {field v : UInt8}
    (h : r.find_ field = some (putU8 field v)) : r.u8 field = .ok v := by
  have hv : UInt8.ofNat (ofLE [v]) = v := by simp [ofLE]
  simp [PayloadReader.u8, PayloadReader.typed, h, putU8, Except.map, hv]

theorem flag_putBool {r : PayloadReader} {field : UInt8} {v : Bool}
    (h : r.find_ field = some (putBool field v)) : r.flag field = .ok v := by
  have hhas : r.has field = true := by rw [PayloadReader.has, h]; rfl
  have htyped : r.typed field 3 (some 1) "missing/incorrect bool field" =
      .ok [if v then 1 else 0] := by
    simp [PayloadReader.typed, h, putBool]
  rw [PayloadReader.flag, if_pos hhas, PayloadReader.bool_, htyped]
  cases v <;> rfl

theorem str_putStr {r : PayloadReader} {field : UInt8} {v : Text}
    (h : r.find_ field = some (putStr field v)) : r.str field = .ok v := by
  simp [PayloadReader.str, PayloadReader.typed, h, putStr]

end Protocol
end FailoverFabric

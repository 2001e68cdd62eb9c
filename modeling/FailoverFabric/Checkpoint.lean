import FailoverFabric.Protocol.Frames
import FailoverFabric.Protocol.Grammar

/-! # The checkpoint of a worker

`save_checkpoint` and `load_checkpoint` of `worker_main.cpp`.  A checkpoint is a header
of twenty-five bytes (the magic, the version, the session, the committed sequence and
the length of the model's name), the name and a checksum of both.

The parser reads the blob through a cursor, byte by byte, so a read behind the end of
the blob is an outcome of its own.  Its test of the size admits blobs that are shorter
than the header: those from twenty to twenty-four bytes that begin as a checkpoint does
are read past their end, and no others (`loadCheckpoint_bounded_iff`).

What was saved is loaded, and a single changed byte is noticed wherever it is: in the
magic and in the version by the tests, in the length by the test that the cursor is at
the end, and elsewhere by the checksum.
-/
namespace FailoverFabric
namespace Worker
open Codec Protocol

/-! ## Saving -/

/-- The worker's own copy of the checksum. -/
def crc32 (p : List UInt8) : UInt32 := Protocol.crc32 p

/-- The magic and the version. -/
def checkpointMagic : List UInt8 := text "FFCK" ++ [1]

/-- What is put before the checksum. -/
def checkpointBody (session seq : UInt64) (model : Text) : List UInt8 :=
  checkpointMagic ++ (leBytes 8 session.toNat ++ (leBytes 8 seq.toNat ++
    (leBytes 4 (UInt32.ofNat model.length).toNat ++ model)))

/-- The bytes that are written to the file. -/
def saveCheckpoint (session seq : UInt64) (model : Text) : List UInt8 :=
  let body := checkpointBody session seq model
  body ++ leBytes 4 (crc32 body).toNat

/-! ## Loading -/

/-- What the caller finds in the arguments passed by reference, and where the cursor
was left. -/
structure Restored where
  seq : UInt64 := 0
  model : Text := []
  correctSession : Bool := false
  integrityOk : Bool := false
  off : Nat := 0
  deriving DecidableEq, Repr

/-- How loading ends. -/
inductive Outcome
  | returned (ok : Bool) (r : Restored)
  /-- A byte outside of the blob was read. -/
  | outOfBounds
  deriving DecidableEq, Repr

/-- The bytes under a cursor, one after another. -/
def rdBytes (blob : List UInt8) : Nat → Nat → Option (List UInt8)
  | 0, _ => some []
  | n + 1, off => do
    let b ← blob[off]?
    let bs ← rdBytes blob n (off + 1)
    return b :: bs

/-- `rd64` and `rd32`: the number under the cursor and the cursor behind it. -/
def rd (blob : List UInt8) (n off : Nat) : Option (Nat × Nat) := do
  let bs ← rdBytes blob n off
  return (ofLE bs, off + n)

/-- From behind the magic and the version to the end. -/
def readCheckpoint (blob : List UInt8) (wantSession : UInt64) : Option (Bool × Restored) := do
  let (session, off) ← rd blob 8 5
  let (seq, off) ← rd blob 8 off
  let (mlen, off) ← rd blob 4 off
  if blob.length < off + mlen + 4 then return (false, { seq := UInt64.ofNat seq, off })
  let model ← range blob off (off + mlen)
  let (crcStored, off) ← rd blob 4 (off + mlen)
  let summed ← range blob 0 (blob.length - 4)
  return (off == blob.length,
    { seq := UInt64.ofNat seq
      model
      correctSession := UInt64.ofNat session == wantSession
      integrityOk := crc32 summed == UInt32.ofNat crcStored
      off })

/-- `load_checkpoint`, of a file that cannot be opened or of its content. -/
def loadCheckpoint (file : Option (List UInt8)) (wantSession : UInt64) : Outcome :=
  match file with
  | none => .returned false {}
  | some blob =>
    if blob.length < 20 then .returned false {}
    else if blob.length < 5 ∨ blob.take 5 ≠ checkpointMagic then .returned false {}
    else
      match readCheckpoint blob wantSession with
      | none => .outOfBounds
      | some (ok, r) => .returned ok r

/-! ## Reading through the cursor -/

theorem rdBytes_eq (blob : List UInt8) (n off : Nat) (h : off + n ≤ blob.length) :
    rdBytes blob n off = some (slice blob off n) := by
  induction n generalizing off with
  | zero => simp [rdBytes, slice]
  | succ n ih =>
    have hlt : off < blob.length := by omega
    have hrest : slice blob off (n + 1) = blob[off] :: slice blob (off + 1) n := by
      rw [slice, slice, List.drop_eq_getElem_cons hlt, List.take_succ_cons]
    rw [rdBytes, List.getElem?_eq_getElem hlt, ih (off + 1) (by omega), hrest]
    rfl

theorem rdBytes_out (blob : List UInt8) (n off : Nat) (hn : 0 < n)
    (h : blob.length < off + n) : rdBytes blob n off = none := by
  induction n generalizing off with
  | zero => omega
  | succ n ih =>
    rw [rdBytes]
    by_cases hlt : off < blob.length
    · have hrest : rdBytes blob n (off + 1) = none := by
        apply ih
        · omega
        · omega
      rw [List.getElem?_eq_getElem hlt, hrest]
      rfl
    · rw [List.getElem?_eq_none (by omega)]
      rfl

theorem rd_eq {blob : List UInt8} {n off : Nat} (h : off + n ≤ blob.length) :
    rd blob n off = some (getLE blob off n, off + n) := by
  rw [rd, rdBytes_eq blob n off h]
  rfl

theorem rd_out {blob : List UInt8} {n off : Nat} (hn : 0 < n) (h : blob.length < off + n) :
    rd blob n off = none := by
  rw [rd, rdBytes_out blob n off hn h]
  rfl

theorem range_eq {blob : List UInt8} {off n : Nat} (h : off + n ≤ blob.length) :
    range blob off (off + n) = some (slice blob off n) := by
  rw [range, if_pos ⟨Nat.le_add_right .., h⟩, Nat.add_sub_cancel_left, slice]

/-- The length of the name, as the header has it. -/
def modelLength (blob : List UInt8) : Nat := getLE blob 21 4

/-- What is parsed when the name and the checksum fit into the blob. -/
def parsed (blob : List UInt8) (wantSession : UInt64) : Restored :=
  { seq := UInt64.ofNat (getLE blob 13 8)
    model := slice blob 25 (modelLength blob)
    correctSession := UInt64.ofNat (getLE blob 5 8) == wantSession
    integrityOk := crc32 (blob.take (blob.length - 4)) ==
      UInt32.ofNat (getLE blob (25 + modelLength blob) 4)
    off := 25 + modelLength blob + 4 }

/-- A blob that is shorter than the header is read past its end. -/
theorem readCheckpoint_short {blob : List UInt8} (h : blob.length < 25) (wantSession : UInt64) :
    readCheckpoint blob wantSession = none := by
  rw [readCheckpoint]
  by_cases h13 : 13 ≤ blob.length
  · rw [rd_eq (show 5 + 8 ≤ blob.length by omega)]
    by_cases h21 : 21 ≤ blob.length
    · -- the session and the sequence are there, the length of the name is not
      show (rd blob 8 13 >>= _) = _
      rw [rd_eq (by omega)]
      show (rd blob 4 21 >>= _) = _
      rw [rd_out (by omega) (by omega)]
      rfl
    · show (rd blob 8 13 >>= _) = _
      rw [rd_out (by omega) (by omega)]
      rfl
  · rw [rd_out (by omega) (by omega)]
    rfl

theorem readCheckpoint_long {blob : List UInt8} (h : 25 ≤ blob.length) (wantSession : UInt64) :
    readCheckpoint blob wantSession = some
      (if blob.length < 25 + modelLength blob + 4 then
        (false, { seq := UInt64.ofNat (getLE blob 13 8), off := 25 })
      else (25 + modelLength blob + 4 == blob.length, parsed blob wantSession)) := by
  rw [readCheckpoint, rd_eq (show 5 + 8 ≤ blob.length by omega)]
  show (rd blob 8 13 >>= _) = _
  rw [rd_eq (by omega)]
  show (rd blob 4 21 >>= _) = _
  rw [rd_eq (by omega)]
  show (if blob.length < 25 + modelLength blob + 4 then _ else _) = _
  split_ifs with hfits
  · rfl
  · have hsummed : range blob 0 (blob.length - 4) = some (blob.take (blob.length - 4)) := by
      rw [range, if_pos ⟨Nat.zero_le _, Nat.sub_le ..⟩]
      rfl
    show (range blob 25 (25 + modelLength blob) >>= _) = _
    rw [range_eq (by omega)]
    show (rd blob 4 (25 + modelLength blob) >>= _) = _
    rw [rd_eq (by omega), hsummed]
    rfl

/-- The tests before the header is read. -/
theorem loadCheckpoint_refused {blob : List UInt8} (wantSession : UInt64)
    (h : blob.length < 20 ∨ blob.take 5 ≠ checkpointMagic) :
    loadCheckpoint (some blob) wantSession = .returned false {} := by
  rw [loadCheckpoint]
  split_ifs with hshort hmagic
  · rfl
  · rfl
  · exact absurd h (not_or.mpr ⟨hshort, fun hne => hmagic (Or.inr hne)⟩)

theorem loadCheckpoint_admitted {blob : List UInt8} (wantSession : UInt64)
    (hlong : 20 ≤ blob.length) (hmagic : blob.take 5 = checkpointMagic) :
    loadCheckpoint (some blob) wantSession =
      match readCheckpoint blob wantSession with
      | none => .outOfBounds
      | some (ok, r) => .returned ok r := by
  rw [loadCheckpoint]
  rw [if_neg (by omega), if_neg (not_or.mpr ⟨by omega, not_not.mpr hmagic⟩)]

/-- A blob with a whole header is parsed without a read past its end. -/
theorem loadCheckpoint_long {blob : List UInt8} (wantSession : UInt64) (h : 25 ≤ blob.length)
    (hmagic : blob.take 5 = checkpointMagic) :
    loadCheckpoint (some blob) wantSession =
      if blob.length < 25 + modelLength blob + 4 then
        .returned false { seq := UInt64.ofNat (getLE blob 13 8), off := 25 }
      else .returned (25 + modelLength blob + 4 == blob.length) (parsed blob wantSession) := by
  rw [loadCheckpoint_admitted wantSession (by omega) hmagic, readCheckpoint_long h]
  split_ifs <;> rfl

/-! ## The bounds of the blob -/

/-- The reads stayed inside of the blob, and a blob that was accepted was consumed. -/
def Bounded (blob : List UInt8) : Outcome → Prop
  | .returned ok r => ok = true → r.off = blob.length
  | .outOfBounds => False

/-- **When the parser stays in bounds**: unless the blob begins as a checkpoint does
and ends inside of the header, behind the twenty bytes that are tested for. -/
theorem loadCheckpoint_bounded_iff (blob : List UInt8) (wantSession : UInt64) :
    Bounded blob (loadCheckpoint (some blob) wantSession) ↔
      ¬ (20 ≤ blob.length ∧ blob.length < 25 ∧ blob.take 5 = checkpointMagic) := by
  by_cases htests : blob.length < 20 ∨ blob.take 5 ≠ checkpointMagic
  · rw [loadCheckpoint_refused wantSession htests]
    refine iff_of_true (fun h => by cases h) ?_
    rintro ⟨hlong, -, hmagic⟩
    rcases htests with hshort | hne
    · omega
    · exact hne hmagic
  · obtain ⟨hlong, hmagic⟩ := not_or.mp htests
    have hlong : 20 ≤ blob.length := Nat.not_lt.mp hlong
    have hmagic : blob.take 5 = checkpointMagic := not_not.mp hmagic
    by_cases hheader : blob.length < 25
    · rw [loadCheckpoint_admitted wantSession hlong hmagic, readCheckpoint_short hheader]
      exact iff_of_false id (not_not.mpr ⟨hlong, hheader, hmagic⟩)
    · rw [loadCheckpoint_long wantSession (Nat.not_lt.mp hheader) hmagic]
      refine iff_of_true ?_ fun h => hheader h.2.1
      split_ifs with hfits
      · exact fun h => by cases h
      · exact fun h => beq_iff_eq.mp h

/-- Twenty bytes that begin as a checkpoint does. -/
def shortCheckpoint : List UInt8 := checkpointMagic ++ List.replicate 15 0

/-- **A truncated checkpoint is read past its end.** -/
theorem loadCheckpoint_reads_past_end :
    shortCheckpoint.length = 20 ∧ loadCheckpoint (some shortCheckpoint) 7 = .outOfBounds ∧
      ¬ ∀ blob wantSession, Bounded blob (loadCheckpoint (some blob) wantSession) := by
  have hout : loadCheckpoint (some shortCheckpoint) 7 = .outOfBounds := by decide
  refine ⟨by decide, hout, fun h => ?_⟩
  have hbounded := h shortCheckpoint 7
  rw [hout] at hbounded
  exact hbounded

/-! ## What was saved -/

theorem length_checkpointBody (session seq : UInt64) (model : Text) :
    (checkpointBody session seq model).length = 25 + model.length := by
  simp [checkpointBody, checkpointMagic, text]
  omega

/-- The header and the name, field by field. -/
theorem take_eq_checkpointBody {blob : List UInt8} {session seq : UInt64} {model : Text}
    (hlong : 25 + model.length ≤ blob.length)
    (h : blob.take (25 + model.length) = checkpointBody session seq model) :
    blob.take 5 = checkpointMagic ∧ slice blob 5 8 = leBytes 8 session.toNat ∧
      slice blob 13 8 = leBytes 8 seq.toNat ∧
      slice blob 21 4 = leBytes 4 (UInt32.ofNat model.length).toNat ∧
      slice blob 25 model.length = model := by
  have hsplit : blob.take (25 + model.length) = blob.take 5 ++ (slice blob 5 8 ++
      (slice blob 13 8 ++ (slice blob 21 4 ++ slice blob 25 model.length))) := by
    rw [← slice_add blob 21 4, ← slice_add blob 13 8, ← slice_add blob 5 8, slice,
      ← List.take_add]
    congr 1
    omega
  rw [hsplit, checkpointBody] at h
  obtain ⟨hmagic, h⟩ := List.append_inj h (by rw [List.length_take_of_le (by omega)]; rfl)
  obtain ⟨hsession, h⟩ :=
    List.append_inj h ((length_slice (by omega)).trans (leBytes_length 8 _).symm)
  obtain ⟨hseq, h⟩ :=
    List.append_inj h ((length_slice (by omega)).trans (leBytes_length 8 _).symm)
  obtain ⟨hlen, hmodel⟩ :=
    List.append_inj h ((length_slice (by omega)).trans (leBytes_length 4 _).symm)
  exact ⟨hmagic, hsession, hseq, hlen, hmodel⟩

theorem length_saveCheckpoint (session seq : UInt64) (model : Text) :
    (saveCheckpoint session seq model).length = 25 + model.length + 4 := by
  rw [saveCheckpoint, List.length_append, length_checkpointBody, leBytes_length]

/-- What was saved is what is loaded. -/
theorem loadCheckpoint_saveCheckpoint (session seq wantSession : UInt64) {model : Text}
    (hmodel : model.length < 2 ^ 32) :
    loadCheckpoint (some (saveCheckpoint session seq model)) wantSession =
      .returned true
        { seq
          model
          correctSession := session == wantSession
          integrityOk := true
          off := 25 + model.length + 4 } := by
  have hlength := length_saveCheckpoint session seq model
  have hbody : (saveCheckpoint session seq model).take (25 + model.length) =
      checkpointBody session seq model := by
    rw [saveCheckpoint, List.take_left' (length_checkpointBody session seq model)]
  have hsum : slice (saveCheckpoint session seq model) (25 + model.length) 4 =
      leBytes 4 (crc32 (checkpointBody session seq model)).toNat := by
    rw [saveCheckpoint, slice, List.drop_left' (length_checkpointBody session seq model),
      List.take_of_length_le (by rw [leBytes_length])]
  generalize saveCheckpoint session seq model = blob at hlength hbody hsum ⊢
  obtain ⟨hmagic, hsession, hseq, hlen, hname⟩ := take_eq_checkpointBody (by omega) hbody
  have hmlen : modelLength blob = model.length := by
    rw [modelLength, getLE_of_slice (UInt32.toNat_lt _) hlen,
      UInt32.toNat_ofNat_of_lt' hmodel]
  have hsummed : blob.take (blob.length - 4) = checkpointBody session seq model := by
    rw [hlength, Nat.add_sub_cancel, hbody]
  rw [loadCheckpoint_long wantSession (by omega) hmagic, if_neg (by omega), parsed, hmlen,
    hname, hsummed, getLE_of_slice seq.toNat_lt hseq, getLE_of_slice session.toNat_lt hsession,
    getLE_of_slice (UInt32.toNat_lt _) hsum, hlength]
  simp

/-- A blob that is accepted with its checksum ends with that of what precedes it. -/
theorem eq_append_crc32 {blob : List UInt8} {wantSession : UInt64}
    (hlength : 25 + modelLength blob + 4 = blob.length)
    (hsum : (parsed blob wantSession).integrityOk = true) :
    blob = blob.take (25 + modelLength blob) ++
      leBytes 4 (crc32 (blob.take (25 + modelLength blob))).toNat := by
  have hfour : blob.length - 4 = 25 + modelLength blob := by omega
  have hcrc : crc32 (blob.take (blob.length - 4)) =
      UInt32.ofNat (getLE blob (25 + modelLength blob) 4) := beq_iff_eq.mp hsum
  rw [hfour] at hcrc
  rw [hcrc, UInt32.toNat_ofNat_of_lt' (getLE_lt (by omega)), leBytes_getLE (by omega), slice,
    ← List.take_add, hlength, List.take_length]

/-- A changed byte is noticed. -/
theorem loadCheckpoint_changed (session seq wantSession : UInt64) (model : Text)
    {blob : List UInt8} (h : DiffersOnce (saveCheckpoint session seq model) blob) :
    ∃ ok r, loadCheckpoint (some blob) wantSession = .returned ok r ∧
      (ok = false ∨ r.integrityOk = false) := by
  have hlength := (length_saveCheckpoint session seq model).symm.trans h.length
  by_cases hmagic : blob.take 5 = checkpointMagic
  · rw [loadCheckpoint_long wantSession (by omega) hmagic]
    split_ifs with hfits
    · exact ⟨false, _, rfl, Or.inl rfl⟩
    refine ⟨_, _, rfl, ?_⟩
    by_contra hok
    obtain ⟨hend, hsum⟩ := not_or.mp hok
    have hend : 25 + modelLength blob + 4 = blob.length := by
      simpa using hend
    have hsum : (parsed blob wantSession).integrityOk = true := by simpa using hsum
    -- both end with the checksum of what precedes it
    rw [saveCheckpoint, eq_append_crc32 hend hsum] at h
    refine not_differsOnce_append_crc32 ?_ h
    rw [length_checkpointBody, List.length_take_of_le (by omega)]
    omega
  · exact ⟨false, {}, loadCheckpoint_refused wantSession (Or.inr hmagic), Or.inl rfl⟩

/-- **A checkpoint is loaded as it was saved, and a single changed byte is noticed**:
the changed file is refused or reported not to be intact. -/
theorem checkpoint_faithful (session seq wantSession : UInt64) (model : Text)
    (hmodel : model.length < 2 ^ 32) :
    (∃ off, loadCheckpoint (some (saveCheckpoint session seq model)) wantSession =
      .returned true
        { seq, model, correctSession := session == wantSession, integrityOk := true, off }) ∧
    ∀ blob, DiffersOnce (saveCheckpoint session seq model) blob →
      ∃ ok r, loadCheckpoint (some blob) wantSession = .returned ok r ∧
        (ok = false ∨ r.integrityOk = false) :=
  ⟨⟨_, loadCheckpoint_saveCheckpoint session seq wantSession hmodel⟩,
    fun _ h => loadCheckpoint_changed session seq wantSession model h⟩

/-- The checkpoint of a session of the reference workload, as it was saved and with
another sequence in it. -/
theorem checkpoint_faithful_reference :
    (∃ off, loadCheckpoint (some (saveCheckpoint 9 3 (text "ref-det-sequence-v1"))) 9 =
      .returned true
        { seq := 3
          model := text "ref-det-sequence-v1"
          correctSession := true
          integrityOk := true
          off }) ∧
    ∃ ok r, loadCheckpoint
        (some ((saveCheckpoint 9 3 (text "ref-det-sequence-v1")).set 13 4)) 9 = .returned ok r ∧
      (ok = false ∨ r.integrityOk = false) := by
  obtain ⟨hsaved, hchanged⟩ := checkpoint_faithful 9 3 9 (text "ref-det-sequence-v1") (by decide)
  refine ⟨hsaved, hchanged _ ⟨(saveCheckpoint 9 3 (text "ref-det-sequence-v1")).take 13, 3, 4,
    (saveCheckpoint 9 3 (text "ref-det-sequence-v1")).drop 14, by decide, ?_, ?_⟩⟩ <;> decide +kernel

end Worker
end FailoverFabric

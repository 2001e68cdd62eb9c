import FailoverFabric.Library.Crc
import FailoverFabric.Protocol.Common
import Mathlib.Data.List.TakeWhile

/-! # Frames

`encode_frame` and `decode_frame` of `protocol.cpp`: a fixed header, the payload and a
checksum of both.  What is decoded is what is encoded, and has one spelling only
(`decodeFrame_eq_ok`), as long as it is not shorter than the decoder's minimum.  That
minimum is five bytes more than the frame of an empty payload, so the frames that the
encoder writes for the shortest payloads are refused.

The checksum is the usual one of 32 bits.  Its polynomial has the top bit set, and so
a frame with one changed byte is refused, wherever the byte is.
-/
namespace FailoverFabric
namespace Protocol
open Codec

/-! ## The checksum -/

/-- One round of the loop over the bits. -/
def crcRound (crc : UInt32) : UInt32 := (crc >>> 1) ^^^ (0xEDB88320 &&& ~~~((crc &&& 1) - 1))

/-- The rounds for one byte. -/
def crcByte (crc : UInt32) (p : UInt8) : UInt32 := crcRound^[8] (crc ^^^ p.toUInt32)

def crc32 (data : List UInt8) : UInt32 := ~~~(data.foldl crcByte 0xFFFFFFFF)

/-- The polynomial, lowest power at the top. -/
def crcPolynomial : BitVec 32 := 0xEDB88320#32

/-- The low bit less one, complemented, is a mask of that bit. -/
theorem mask_low (v : BitVec 32) :
    ~~~((v &&& 1#32) - 1#32) = if v.getLsbD 0 then BitVec.allOnes 32 else 0#32 := by
  rw [BitVec.and_one_eq_setWidth_ofBool_getLsbD]
  cases v.getLsbD 0 with
  | false => decide
  | true => decide

theorem crcRound_toBitVec (crc : UInt32) :
    (crcRound crc).toBitVec = Crc.shift crcPolynomial crc.toBitVec := by
  have hround : (crcRound crc).toBitVec =
      (crc.toBitVec >>> 1) ^^^ (crcPolynomial &&& ~~~((crc.toBitVec &&& 1#32) - 1#32)) := rfl
  rw [hround, mask_low, Crc.shift]
  cases crc.toBitVec.getLsbD 0 with
  | false => simp
  | true => rw [if_pos rfl, if_pos rfl, BitVec.and_allOnes]

theorem crcByte_toBitVec (crc : UInt32) (p : UInt8) :
    (crcByte crc p).toBitVec = Crc.feed crcPolynomial crc.toBitVec p := by
  have hrounds : Function.Semiconj UInt32.toBitVec crcRound (Crc.shift crcPolynomial) :=
    crcRound_toBitVec
  rw [crcByte, Crc.feed, (hrounds.iterate_right 8).eq]
  rfl

theorem crc_toBitVec (data : List UInt8) (crc : UInt32) :
    (data.foldl crcByte crc).toBitVec = Crc.register crcPolynomial crc.toBitVec data := by
  induction data generalizing crc with
  | nil => rfl
  | cons p data ih =>
    rw [List.foldl_cons, ih, crcByte_toBitVec]
    rfl

/-- **A changed byte changes the checksum.** -/
theorem crc32_ne_of_differsOnce {xs ys : List UInt8} (h : DiffersOnce xs ys) :
    crc32 xs ≠ crc32 ys := by
  intro heq
  have hcrc : xs.foldl crcByte 0xFFFFFFFF = ys.foldl crcByte 0xFFFFFFFF := UInt32.not_inj.mp heq
  have hreg := congrArg UInt32.toBitVec hcrc
  rw [crc_toBitVec, crc_toBitVec] at hreg
  exact Crc.register_ne_of_differsOnce (by decide) (by decide) h _ hreg

/-- Two bodies with their checksums behind them do not differ in a single byte. -/
theorem not_differsOnce_append_crc32 {xs ys : List UInt8} (hlen : xs.length = ys.length) :
    ¬ DiffersOnce (xs ++ leBytes 4 (crc32 xs).toNat) (ys ++ leBytes 4 (crc32 ys).toNat) := by
  intro h
  rcases DiffersOnce.of_append hlen h with ⟨hbody, hsum⟩ | ⟨hbody, hsum⟩
  · -- the checksums are of different bodies
    apply crc32_ne_of_differsOnce hbody
    have hnat := congrArg ofLE hsum
    rw [ofLE_leBytes 4 _ (UInt32.toNat_lt _), ofLE_leBytes 4 _ (UInt32.toNat_lt _)] at hnat
    exact UInt32.toNat_inj.mp hnat
  · -- the checksums are of one body
    rw [hbody] at hsum
    exact hsum.ne rfl

/-- The checksum of a message that every description of this polynomial gives. -/
example : crc32 (text "123456789") = 0xCBF43926 := by decide +kernel

/-! ## Message types -/

/-- The message types in the order of their numbers, which start at one. -/
def msgTypes : List MsgType :=
  [.hello, .register, .publishTarget, .publishReadiness, .publishFailure, .publishCapacity,
    .planFailover, .executeFailover, .prepareTarget, .prepareResult, .fenceAssignment,
    .activateTarget, .activateResult, .installRoute, .routeAck, .queryRoute, .authorizeRequest,
    .authorizeResult, .executionResult, .verifyService, .requestFailback, .revalidate, .save,
    .shutdown, .checkRouteAck, .classifyRequest, .errorMsg]

/-- The byte of a type. -/
def MsgType.byte (t : MsgType) : UInt8 := UInt8.ofNat (msgTypes.idxOf t + 1)

/-- The type of a byte between those of `HELLO` and `ERROR_MSG`. -/
def MsgType.ofByte (t : UInt8) : Option MsgType :=
  if t < MsgType.hello.byte ∨ MsgType.errorMsg.byte < t then none else msgTypes[t.toNat - 1]?

theorem ofByte_byte (t : MsgType) : MsgType.ofByte t.byte = some t := by
  cases t <;> decide

theorem byte_of_ofByte {b : UInt8} {t : MsgType} (h : MsgType.ofByte b = some t) : t.byte = b := by
  unfold MsgType.ofByte at h
  split_ifs at h with hrange
  have hone : ¬ b < 1 := fun hlt => hrange (Or.inl hlt)
  have hpos : 1 ≤ b.toNat := UInt8.le_iff_toNat_le.mp (UInt8.not_lt.mp hone)
  obtain ⟨hlt, hget⟩ := List.getElem?_eq_some_iff.mp h
  have hidx : msgTypes.idxOf t = b.toNat - 1 := by
    rw [← hget]
    exact List.Nodup.idxOf_getElem (by decide) _ hlt
  rw [MsgType.byte, hidx, Nat.sub_add_cancel hpos, UInt8.ofNat_toNat]

/-! ## Encoding and decoding -/

def kMagic : List UInt8 := text "FFP1"

def kVersion : UInt8 := 1

/-- What precedes the payload. -/
def Frame.header (f : Frame) : List UInt8 :=
  kMagic ++ ([kVersion] ++ ([f.type.byte] ++ (leBytes 4 f.msgId.toNat ++
    (leBytes 8 f.epoch.toNat ++ leBytes 4 f.payload.length))))

/-- What the checksum is of. -/
def Frame.body (f : Frame) : List UInt8 := f.header ++ f.payload

def encodeFrame (f : Frame) : Except Error (List UInt8) :=
  if kMaxFramePayload < f.payload.length then .error (protocolError "frame payload too large")
  else .ok (f.body ++ leBytes 4 (crc32 f.body).toNat)

/-- The bytes from an offset on. -/
def slice (data : List UInt8) (off n : Nat) : List UInt8 := (data.drop off).take n

/-- `get32` and `get64`. -/
def getLE (data : List UInt8) (off n : Nat) : Nat := ofLE (slice data off n)

def decodeFrame (data : List UInt8) : Except Error Frame :=
  if data.length < 31 then .error (protocolError "frame too short")
  else if slice data 0 4 ≠ kMagic then .error (protocolError "bad frame magic")
  else if slice data 4 1 ≠ [kVersion] then .error (protocolError "unsupported frame version")
  else
    match MsgType.ofByte (UInt8.ofNat (getLE data 5 1)) with
    | none => .error (protocolError "invalid message type")
    | some type =>
      let plen := getLE data 18 4
      if kMaxFramePayload < plen then .error (protocolError "frame payload too large")
      else if 22 + plen + 4 ≠ data.length then .error (protocolError "frame length mismatch")
      else if crc32 (data.take (22 + plen)) ≠ UInt32.ofNat (getLE data (22 + plen) 4) then
        .error (protocolError "frame checksum mismatch")
      else
        .ok { type
              msgId := UInt32.ofNat (getLE data 6 4)
              epoch := UInt64.ofNat (getLE data 10 8)
              payload := slice data 22 plen }

/-! ## What is decoded is what is encoded -/

theorem slice_add (data : List UInt8) (off m n : Nat) :
    slice data off (m + n) = slice data off m ++ slice data (off + m) n := by
  rw [slice, List.take_add, List.drop_drop, slice, slice]

theorem length_slice {data : List UInt8} {off n : Nat} (h : off + n ≤ data.length) :
    (slice data off n).length = n := by
  rw [slice, List.length_take, List.length_drop]
  omega

/-- The bytes at an offset are those of the number there. -/
theorem leBytes_getLE {data : List UInt8} {off n : Nat} (h : off + n ≤ data.length) :
    leBytes n (getLE data off n) = slice data off n := by
  have hle := leBytes_ofLE (slice data off n)
  rwa [length_slice h] at hle

theorem getLE_of_slice {data : List UInt8} {off n v : Nat} (hv : v < 256 ^ n)
    (h : slice data off n = leBytes n v) : getLE data off n = v := by
  rw [getLE, h, ofLE_leBytes n v hv]

theorem getLE_lt {data : List UInt8} {off n : Nat} (h : off + n ≤ data.length) :
    getLE data off n < 256 ^ n := by
  have hlt := ofLE_lt (slice data off n)
  rwa [length_slice h] at hlt

theorem length_header (f : Frame) : f.header.length = 22 := by
  simp [Frame.header, kMagic, text]

theorem length_body (f : Frame) : f.body.length = 22 + f.payload.length := by
  rw [Frame.body, List.length_append, length_header]

/-- The header of a frame, field by field. -/
theorem take_eq_header {data : List UInt8} {f : Frame} (h : 22 ≤ data.length) :
    data.take 22 = f.header ↔ slice data 0 4 = kMagic ∧ slice data 4 1 = [kVersion] ∧
      slice data 5 1 = [f.type.byte] ∧ slice data 6 4 = leBytes 4 f.msgId.toNat ∧
      slice data 10 8 = leBytes 8 f.epoch.toNat ∧
      slice data 18 4 = leBytes 4 f.payload.length := by
  have hsplit : data.take 22 = slice data 0 4 ++ (slice data 4 1 ++ (slice data 5 1 ++
      (slice data 6 4 ++ (slice data 10 8 ++ slice data 18 4)))) := by
    rw [← slice_add data 10 8 4, ← slice_add data 6 4 12, ← slice_add data 5 1 16,
      ← slice_add data 4 1 17, ← slice_add data 0 4 18]
    rfl
  rw [hsplit, Frame.header]
  constructor
  · intro heq
    obtain ⟨h0, heq⟩ := List.append_inj heq (length_slice (by omega))
    obtain ⟨h4, heq⟩ := List.append_inj heq (length_slice (by omega))
    obtain ⟨h5, heq⟩ := List.append_inj heq (length_slice (by omega))
    obtain ⟨h6, heq⟩ :=
      List.append_inj heq ((length_slice (by omega)).trans (leBytes_length 4 _).symm)
    obtain ⟨h10, h18⟩ :=
      List.append_inj heq ((length_slice (by omega)).trans (leBytes_length 8 _).symm)
    exact ⟨h0, h4, h5, h6, h10, h18⟩
  · rintro ⟨h0, h4, h5, h6, h10, h18⟩
    rw [h0, h4, h5, h6, h10, h18]

theorem encodeFrame_eq_ok {f : Frame} {data : List UInt8} :
    encodeFrame f = .ok data ↔ f.payload.length ≤ kMaxFramePayload ∧
      data = f.body ++ leBytes 4 (crc32 f.body).toNat := by
  rw [encodeFrame]
  split_ifs with hlong
  · exact iff_of_false (fun h => by cases h) fun h => Nat.not_lt.mpr h.1 hlong
  · rw [Except.ok.injEq, and_iff_right (Nat.not_lt.mp hlong), eq_comm]

/-- The tests of the decoder, and what it puts into the frame. -/
structure Decodes (data : List UInt8) (f : Frame) : Prop where
  long : 31 ≤ data.length
  magic : slice data 0 4 = kMagic
  version : slice data 4 1 = [kVersion]
  type : MsgType.ofByte (UInt8.ofNat (getLE data 5 1)) = some f.type
  fits : getLE data 18 4 ≤ kMaxFramePayload
  length : 22 + getLE data 18 4 + 4 = data.length
  checksum : crc32 (data.take (22 + getLE data 18 4)) =
    UInt32.ofNat (getLE data (22 + getLE data 18 4) 4)
  msgId : f.msgId = UInt32.ofNat (getLE data 6 4)
  epoch : f.epoch = UInt64.ofNat (getLE data 10 8)
  payload : f.payload = slice data 22 (getLE data 18 4)

theorem decodes_of_decodeFrame {data : List UInt8} {f : Frame} (h : decodeFrame data = .ok f) :
    Decodes data f := by
  unfold decodeFrame at h
  split_ifs at h with hshort hmagic hversion
  cases htype : MsgType.ofByte (UInt8.ofNat (getLE data 5 1)) with
  | none =>
    rw [htype] at h
    cases h
  | some type =>
    rw [htype] at h
    dsimp only at h
    split_ifs at h with hlong hlen hcrc
    cases h
    exact ⟨Nat.not_lt.mp hshort, not_not.mp hmagic, not_not.mp hversion, htype,
      Nat.not_lt.mp hlong, not_not.mp hlen, not_not.mp hcrc, rfl, rfl, rfl⟩

theorem decodeFrame_of_decodes {data : List UInt8} {f : Frame} (h : Decodes data f) :
    decodeFrame data = .ok f := by
  obtain ⟨type, msgId, epoch, payload⟩ := f
  obtain ⟨hlong, hmagic, hversion, htype, hfits, hlen, hcrc, rfl, rfl, rfl⟩ := h
  rw [decodeFrame, if_neg (Nat.not_lt.mpr hlong), if_neg (not_not.mpr hmagic),
    if_neg (not_not.mpr hversion), htype]
  dsimp only
  rw [if_neg (Nat.not_lt.mpr hfits), if_neg (not_not.mpr hlen), if_neg (not_not.mpr hcrc)]

theorem encodeFrame_of_decodes {data : List UInt8} {f : Frame} (hd : Decodes data f) :
    encodeFrame f = .ok data := by
  have hlen := hd.length
  have hpayload : f.payload.length = getLE data 18 4 := by
    rw [hd.payload, length_slice (by omega)]
  have htype : slice data 5 1 = [f.type.byte] := by
    have hlt : getLE data 5 1 < 256 := getLE_lt (by omega)
    rw [byte_of_ofByte hd.type, ← leBytes_getLE (by omega), leBytes, leBytes,
      Nat.mod_eq_of_lt hlt]
  have hheader : data.take 22 = f.header := by
    refine (take_eq_header (by omega)).mpr ⟨hd.magic, hd.version, htype, ?_, ?_, ?_⟩
    · rw [hd.msgId, UInt32.toNat_ofNat_of_lt' (getLE_lt (by omega)), leBytes_getLE (by omega)]
    · rw [hd.epoch, UInt64.toNat_ofNat_of_lt' (getLE_lt (by omega)), leBytes_getLE (by omega)]
    · rw [hpayload, leBytes_getLE (by omega)]
  have hbody : data.take (22 + getLE data 18 4) = f.body := by
    rw [List.take_add, hheader, Frame.body, hd.payload, slice]
  refine encodeFrame_eq_ok.mpr ⟨hpayload ▸ hd.fits, ?_⟩
  -- what is left of the data is the checksum that was compared
  rw [← hbody, hd.checksum, UInt32.toNat_ofNat_of_lt' (getLE_lt (by omega)),
    leBytes_getLE (by omega), slice, ← List.take_add, hlen, List.take_length]

theorem decodes_of_encodeFrame {data : List UInt8} {f : Frame} (hlong : 31 ≤ data.length)
    (henc : encodeFrame f = .ok data) : Decodes data f := by
  obtain ⟨hfits, hdata⟩ := encodeFrame_eq_ok.mp henc
  have hbody : data.take (22 + f.payload.length) = f.body := by
    rw [hdata, List.take_left' (length_body f)]
  have hrest : data.drop (22 + f.payload.length) = leBytes 4 (crc32 f.body).toNat := by
    rw [hdata, List.drop_left' (length_body f)]
  have hheader : data.take 22 = f.header := by
    have htake := congrArg (List.take 22) hbody
    rwa [List.take_take, Nat.min_eq_left (Nat.le_add_right ..), Frame.body,
      List.take_left' (length_header f)] at htake
  obtain ⟨hmagic, hversion, htype, hid, hepoch, hplen⟩ := (take_eq_header (by omega)).mp hheader
  have hlength : getLE data 18 4 = f.payload.length :=
    getLE_of_slice (Nat.lt_of_le_of_lt hfits (by decide)) hplen
  have hpayload : slice data 22 f.payload.length = f.payload := by
    rw [List.take_add, hheader, Frame.body] at hbody
    exact List.append_cancel_left hbody
  have hsum : slice data (22 + f.payload.length) 4 = leBytes 4 (crc32 f.body).toNat := by
    rw [slice, hrest, List.take_of_length_le (by rw [leBytes_length])]
  refine ⟨hlong, hmagic, hversion, ?_, hlength ▸ hfits, ?_, ?_, ?_, ?_, ?_⟩
  · rw [getLE, htype, ofLE, ofLE, Nat.mul_zero, Nat.add_zero, UInt8.ofNat_toNat, ofByte_byte]
  · rw [hlength, hdata, List.length_append, length_body, leBytes_length]
  · rw [hlength, hbody, getLE_of_slice (crc32 f.body).toNat_lt hsum, UInt32.ofNat_toNat]
  · rw [getLE_of_slice f.msgId.toNat_lt hid, UInt32.ofNat_toNat]
  · rw [getLE_of_slice f.epoch.toNat_lt hepoch, UInt64.ofNat_toNat]
  · rw [hlength, hpayload]

/-- **A frame is decoded exactly from its encoding**, if that is not too short. -/
theorem decodeFrame_eq_ok {data : List UInt8} {f : Frame} :
    decodeFrame data = .ok f ↔ 31 ≤ data.length ∧ encodeFrame f = .ok data := by
  constructor
  · intro h
    have hd := decodes_of_decodeFrame h
    exact ⟨hd.long, encodeFrame_of_decodes hd⟩
  · rintro ⟨hlong, henc⟩
    exact decodeFrame_of_decodes (decodes_of_encodeFrame hlong henc)

/-- **What the decoder accepts has one spelling**: that of the encoder. -/
theorem decodeFrame_canonical (data : List UInt8) (f : Frame) (h : decodeFrame data = .ok f) :
    encodeFrame f = .ok data ∧ ∀ data', decodeFrame data' = .ok f → data' = data := by
  have henc := (decodeFrame_eq_ok.mp h).2
  refine ⟨henc, fun data' h' => ?_⟩
  have henc' := (decodeFrame_eq_ok.mp h').2
  rw [henc] at henc'
  exact (Except.ok.inj henc').symm

/-- A frame of a worker, and its bytes. -/
def sampleFrame : Frame :=
  { type := .publishReadiness, msgId := 7, epoch := 3, payload := [1, 2, 3, 4, 5] }

def sampleBytes : List UInt8 := sampleFrame.body ++ leBytes 4 (crc32 sampleFrame.body).toNat

theorem decodeFrame_canonical_sample :
    decodeFrame sampleBytes = .ok sampleFrame ∧ encodeFrame sampleFrame = .ok sampleBytes :=
  ⟨by decide +kernel, (decodeFrame_canonical sampleBytes sampleFrame (by decide +kernel)).1⟩

/-- The decoder throws nothing but a `ProtocolError`. -/
theorem decodeFrame_error {data : List UInt8} {e : Error} (h : decodeFrame data = .error e) :
    ∃ what, e = protocolError what := by
  unfold decodeFrame at h
  split_ifs at h with hshort hmagic hversion
  · exact ⟨_, (Except.error.inj h).symm⟩
  · exact ⟨_, (Except.error.inj h).symm⟩
  · exact ⟨_, (Except.error.inj h).symm⟩
  · cases htype : MsgType.ofByte (UInt8.ofNat (getLE data 5 1)) with
    | none =>
      rw [htype] at h
      exact ⟨_, (Except.error.inj h).symm⟩
    | some type =>
      rw [htype] at h
      dsimp only at h
      split_ifs at h with hlong hlen hcrc
      · exact ⟨_, (Except.error.inj h).symm⟩
      · exact ⟨_, (Except.error.inj h).symm⟩
      · exact ⟨_, (Except.error.inj h).symm⟩

/-- **A single changed byte is caught**, wherever it is. -/
theorem decodeFrame_refuses_changed_byte (data data' : List UInt8) (f : Frame)
    (h : decodeFrame data = .ok f) (hdiff : DiffersOnce data data') :
    ∃ what, decodeFrame data' = .error (protocolError what) := by
  cases h' : decodeFrame data' with
  | error e =>
    obtain ⟨what, rfl⟩ := decodeFrame_error h'
    exact ⟨what, rfl⟩
  | ok f' =>
    exfalso
    obtain ⟨-, hdata⟩ := encodeFrame_eq_ok.mp (decodeFrame_eq_ok.mp h).2
    obtain ⟨-, hdata'⟩ := encodeFrame_eq_ok.mp (decodeFrame_eq_ok.mp h').2
    have hlen := hdiff.length
    rw [hdata, hdata'] at hdiff hlen
    simp only [List.length_append, leBytes_length, Nat.add_right_cancel_iff] at hlen
    exact not_differsOnce_append_crc32 hlen hdiff

/-- The same bytes with another payload byte. -/
def changedBytes : List UInt8 := sampleBytes.set 24 9

theorem decodeFrame_refuses_changed_sample :
    DiffersOnce sampleBytes changedBytes ∧
      ∃ what, decodeFrame changedBytes = .error (protocolError what) := by
  have hdiff : DiffersOnce sampleBytes changedBytes :=
    ⟨sampleBytes.take 24, 3, 9, sampleBytes.drop 25, by decide, by decide +kernel,
      by decide +kernel⟩
  exact ⟨hdiff, decodeFrame_refuses_changed_byte sampleBytes changedBytes sampleFrame
    (by decide +kernel) hdiff⟩

/-! ## The stream

`recv_all` of `net/socket_util.hpp` asks for what is missing until nothing is, and the
system decides how much of it each time: at least a byte, until the stream is over. -/

/-- How many bytes the system gives, of what is left and of what is asked for. -/
abbrev Delivery := List UInt8 → Nat → Nat

/-- The answer of `recv`: no more than is there or is asked for, and nothing only at
the end of the stream. -/
def Delivery.recv (sys : Delivery) (s : List UInt8) (n : Nat) : Nat :=
  min (max 1 (sys s n)) (min n s.length)

theorem recv_le (sys : Delivery) (s : List UInt8) (n : Nat) :
    sys.recv s n ≤ n ∧ sys.recv s n ≤ s.length := by
  unfold Delivery.recv
  omega

theorem recv_pos (sys : Delivery) {s : List UInt8} {n : Nat} (hs : 0 < s.length) (hn : 0 < n) :
    0 < sys.recv s n := by
  unfold Delivery.recv
  omega

/-- The bytes that `recv_all` fills in and what is left of the stream. -/
def recvAll (sys : Delivery) (n : Nat) (s : List UInt8) : Option (List UInt8 × List UInt8) :=
  if n = 0 then some ([], s)
  else if sys.recv s n = 0 then none
  else
    (recvAll sys (n - sys.recv s n) (s.drop (sys.recv s n))).map fun p =>
      (s.take (sys.recv s n) ++ p.1, p.2)
termination_by n
decreasing_by omega

/-- **However the bytes come, `recv_all` takes as many as it was asked for.** -/
theorem recvAll_eq (sys : Delivery) (n : Nat) (s : List UInt8) :
    recvAll sys n s = if s.length < n then none else some (s.take n, s.drop n) := by
  induction n using Nat.strongRecOn generalizing s with
  | ind n ih =>
    rw [recvAll]
    by_cases hn : n = 0
    · simp [hn]
    rw [if_neg hn]
    by_cases hs : s.length = 0
    · have hzero : sys.recv s n = 0 := Nat.eq_zero_of_le_zero (hs ▸ (recv_le sys s n).2)
      rw [if_pos hzero, if_pos (by omega)]
    obtain ⟨hle, hle'⟩ := recv_le sys s n
    have hpos : 0 < sys.recv s n := recv_pos sys (by omega) (by omega)
    rw [if_neg (by omega), ih _ (by omega), List.length_drop]
    by_cases hshort : s.length < n
    · rw [if_pos (by omega), if_pos hshort]
      rfl
    · rw [if_neg (by omega), if_neg hshort, Option.map_some, ← List.take_add, List.drop_drop,
        Nat.add_sub_cancel' hle]

/-- What `send_frame` puts into the stream. -/
def sendFrame (f : Frame) : Except Error (List UInt8) := do
  let b ← encodeFrame f
  return leBytes 4 b.length ++ b

/-- Frames sent one after another. -/
def sendFrames : List Frame → Except Error (List UInt8)
  | [] => .ok []
  | f :: fs => do
    let b ← sendFrame f
    let rest ← sendFrames fs
    return b ++ rest

/-- `recv_frame`, and what is left of the stream after a frame. -/
def recvFrame (sys : Delivery) (s : List UInt8) : Option (Frame × List UInt8) := do
  let (hdr, s) ← recvAll sys 4 s
  let len := ofLE hdr
  if kMaxFramePayload + 64 < len then none
  else
    let (b, s) ← recvAll sys len s
    let f ← (decodeFrame b).toOption
    return (f, s)

theorem recvFrame_shrinks {sys : Delivery} {s rest : List UInt8} {f : Frame}
    (h : recvFrame sys s = some (f, rest)) : rest.length < s.length := by
  obtain ⟨⟨hdr, s₁⟩, hhdr, h⟩ := Option.bind_eq_some_iff.mp h
  rw [recvAll_eq] at hhdr
  split_ifs at hhdr with hfour
  cases hhdr
  dsimp only at h
  split_ifs at h with hbig
  obtain ⟨⟨b, s₂⟩, hb, h⟩ := Option.bind_eq_some_iff.mp h
  rw [recvAll_eq] at hb
  split_ifs at hb with hlen
  cases hb
  obtain ⟨g, -, hg⟩ := Option.bind_eq_some_iff.mp h
  cases hg
  simp only [List.length_drop]
  omega

/-- `recv_frame` again and again, until it gives none. -/
def recvFrames (sys : Delivery) (s : List UInt8) : List Frame :=
  match h : recvFrame sys s with
  | none => []
  | some (f, rest) =>
    have _hlt : rest.length < s.length := recvFrame_shrinks h
    f :: recvFrames sys rest
termination_by s.length

theorem recvFrames_of_none {sys : Delivery} {s : List UInt8} (h : recvFrame sys s = none) :
    recvFrames sys s = [] := by
  rw [recvFrames]
  split
  · rfl
  · rename_i heq
    rw [h] at heq
    cases heq

theorem recvFrames_of_some {sys : Delivery} {s rest : List UInt8} {f : Frame}
    (h : recvFrame sys s = some (f, rest)) : recvFrames sys s = f :: recvFrames sys rest := by
  rw [recvFrames]
  split
  · rename_i heq
    rw [h] at heq
    cases heq
  · rename_i heq
    rw [h] at heq
    cases heq
    rfl

theorem sendFrame_eq_ok {f : Frame} {bs : List UInt8} (h : sendFrame f = .ok bs) :
    ∃ b, encodeFrame f = .ok b ∧ b.length = 26 + f.payload.length ∧
      f.payload.length ≤ kMaxFramePayload ∧ bs = leBytes 4 b.length ++ b := by
  obtain ⟨b, hb, hbs⟩ := bind_ok_iff.mp h
  obtain ⟨hfits, rfl⟩ := encodeFrame_eq_ok.mp hb
  refine ⟨_, hb, ?_, hfits, (Except.ok.inj hbs).symm⟩
  rw [List.length_append, length_body, leBytes_length]
  omega

/-- What `recv_frame` makes of a frame that was sent: a frame of a short payload is
refused, every other one comes as it was. -/
theorem recvFrame_sendFrame (sys : Delivery) {f : Frame} {bs : List UInt8}
    (h : sendFrame f = .ok bs) (rest : List UInt8) :
    recvFrame sys (bs ++ rest) = if f.payload.length < 5 then none else some (f, rest) := by
  obtain ⟨b, henc, hlen, hfits, rfl⟩ := sendFrame_eq_ok h
  have hsmall : b.length ≤ kMaxFramePayload + 64 := by omega
  have hhdr : recvAll sys 4 (leBytes 4 b.length ++ b ++ rest) =
      some (leBytes 4 b.length, b ++ rest) := by
    rw [recvAll_eq, if_neg (by simp), List.append_assoc, List.take_left' (leBytes_length 4 _),
      List.drop_left' (leBytes_length 4 _)]
  have hbody : recvAll sys b.length (b ++ rest) = some (b, rest) := by
    rw [recvAll_eq, if_neg (by simp), List.take_left, List.drop_left]
  have hofLE : ofLE (leBytes 4 b.length) = b.length :=
    ofLE_leBytes 4 _ (Nat.lt_of_le_of_lt hsmall (by decide))
  have hrecv : recvFrame sys (leBytes 4 b.length ++ b ++ rest) =
      (decodeFrame b).toOption.map fun g => (g, rest) := by
    rw [recvFrame, hhdr]
    simp only [Option.bind_eq_bind, Option.bind_some, hofLE, hbody]
    rw [if_neg (Nat.not_lt.mpr hsmall)]
    cases decodeFrame b <;> rfl
  rw [hrecv]
  by_cases hshort : f.payload.length < 5
  · -- the decoder's minimum is above the size of this frame
    have hrefused : decodeFrame b = .error (protocolError "frame too short") := by
      rw [decodeFrame, if_pos (by omega)]
    rw [if_pos hshort, hrefused]
    rfl
  · have hok : decodeFrame b = .ok f := decodeFrame_eq_ok.mpr ⟨by omega, henc⟩
    rw [if_neg hshort, hok]
    rfl

theorem recvFrame_nil (sys : Delivery) : recvFrame sys [] = none := by
  rw [recvFrame, recvAll_eq]
  rfl

/-- **The reader gets the frames up to the first one with a short payload.** -/
theorem recvFrames_sendFrames (sys : Delivery) {fs : List Frame} {bs : List UInt8}
    (h : sendFrames fs = .ok bs) :
    recvFrames sys bs = fs.takeWhile fun f => decide (5 ≤ f.payload.length) := by
  induction fs generalizing bs with
  | nil =>
    cases h
    rw [recvFrames_of_none (recvFrame_nil sys), List.takeWhile_nil]
  | cons f fs ih =>
    obtain ⟨b, hb, h⟩ := bind_ok_iff.mp h
    obtain ⟨rest, hrest, hbs⟩ := bind_ok_iff.mp h
    cases hbs
    have hrecv := recvFrame_sendFrame sys hb rest
    by_cases hshort : f.payload.length < 5
    · rw [if_pos hshort] at hrecv
      rw [recvFrames_of_none hrecv, List.takeWhile_cons_of_neg (by simpa using hshort)]
    · rw [if_neg hshort] at hrecv
      rw [recvFrames_of_some hrecv, ih hrest,
        List.takeWhile_cons_of_pos (by simpa using Nat.not_lt.mp hshort)]

theorem sendFrames_ok {fs : List Frame} (h : ∀ f ∈ fs, f.payload.length ≤ kMaxFramePayload) :
    ∃ bs, sendFrames fs = .ok bs := by
  induction fs with
  | nil => exact ⟨[], rfl⟩
  | cons f fs ih =>
    obtain ⟨rest, hrest⟩ := ih fun g hg => h g (List.mem_cons_of_mem _ hg)
    have henc := encodeFrame_eq_ok.mpr ⟨h f (List.mem_cons_self ..), rfl⟩
    obtain ⟨b, hb⟩ : ∃ b, sendFrame f = .ok b := ⟨_, bind_ok_iff.mpr ⟨_, henc, rfl⟩⟩
    exact ⟨b ++ rest, bind_ok_iff.mpr ⟨b, hb, bind_ok_iff.mpr ⟨rest, hrest, rfl⟩⟩⟩

/-- **The stream loses nothing exactly if no payload is shorter than five bytes.** -/
theorem stream_lossless_iff (sys : Delivery) (fs : List Frame)
    (hfits : ∀ f ∈ fs, f.payload.length ≤ kMaxFramePayload) :
    ∃ bs, sendFrames fs = .ok bs ∧
      (recvFrames sys bs = fs ↔ ∀ f ∈ fs, 5 ≤ f.payload.length) := by
  obtain ⟨bs, hbs⟩ := sendFrames_ok hfits
  refine ⟨bs, hbs, ?_⟩
  rw [recvFrames_sendFrames sys hbs, List.takeWhile_eq_self_iff]
  simp only [decide_eq_true_eq]

/-- Bytes that come one at a time. -/
def oneByOne : Delivery := fun _ _ => 1

theorem stream_lossless_iff_sample :
    (∀ f ∈ [sampleFrame, sampleFrame], f.payload.length ≤ kMaxFramePayload) ∧
      ∃ bs, sendFrames [sampleFrame, sampleFrame] = .ok bs ∧
        (recvFrames oneByOne bs = [sampleFrame, sampleFrame] ↔
          ∀ f ∈ [sampleFrame, sampleFrame], 5 ≤ f.payload.length) :=
  ⟨by decide, stream_lossless_iff oneByOne [sampleFrame, sampleFrame] (by decide)⟩

/-- The frame of `send(MsgType::SHUTDOWN, 1, 1)`, whose payload is the default one, is
sent and not received. -/
theorem empty_payload_lost :
    ¬ ∀ (sys : Delivery) (fs : List Frame),
      (∀ f ∈ fs, f.payload.length ≤ kMaxFramePayload) →
        ∃ bs, sendFrames fs = .ok bs ∧ recvFrames sys bs = fs := by
  intro hall
  obtain ⟨bs, hbs, hrecv⟩ := hall oneByOne [{ type := .shutdown, msgId := 1, epoch := 1 }]
    (by decide)
  rw [recvFrames_sendFrames oneByOne hbs] at hrecv
  exact absurd hrecv (by decide)

end Protocol
end FailoverFabric
